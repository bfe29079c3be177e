import Arinc615a.Lib.Reader
import Mathlib.Computability.Language

/-!
# The grammar of a reader

Two languages belong to a reader: the byte spans of complete values
(`language`) and the spans on which it overruns (`overruns`). For regular
readers both follow the structure of the reader: a sequence is a product, a
counted loop a power, and a reader overruns in its first part, or behind a
complete first part in the second.
-/

namespace Readers.Reader

variable {ε α β : Type}

/-- The bytes of complete values. -/
def language (r : Reader ε α) : Language UInt8 := {bs | ∃ a, Parses r bs a}

/-- The spans on which the reader reads past the end. -/
def overruns (r : Reader ε α) : Language UInt8 := {bs | r bs = .overrun}

theorem mem_language {r : Reader ε α} {bs : List UInt8} :
    bs ∈ language r ↔ ∃ a, Parses r bs a := Iff.rfl

theorem mem_overruns {r : Reader ε α} {bs : List UInt8} :
    bs ∈ overruns r ↔ r bs = .overrun := Iff.rfl

theorem safe_iff_overruns {r : Reader ε α} : Safe r ↔ overruns r = 0 := by
  constructor
  · intro h
    ext bs
    exact ⟨fun hbs => absurd hbs (h bs), fun hbs => absurd hbs (Language.notMem_zero bs)⟩
  · intro h bs hbs
    have hmem : bs ∈ overruns r := hbs
    rw [h] at hmem
    exact Language.notMem_zero bs hmem

@[simp] theorem language_pure (a : α) : language (pure a : Reader ε α) = 1 := by
  ext bs
  simp [mem_language, parses_pure_iff, Language.mem_one]

/-! ## Sequences -/

theorem mem_language_bind {r : Reader ε α} {f : α → Reader ε β} (hr : Regular r)
    (hf : ∀ a, Regular (f a)) {bs : List UInt8} :
    bs ∈ language (r >>= f) ↔
      ∃ p a q, bs = p ++ q ∧ Parses r p a ∧ q ∈ language (f a) := by
  constructor
  · intro hmem
    rcases hmem with ⟨b, h⟩
    obtain ⟨p, a, q, rfl, hp, hq⟩ := (parses_bind_iff hr hf).mp h
    exact ⟨p, a, q, rfl, hp, b, hq⟩
  · intro hmem
    rcases hmem with ⟨p, a, q, rfl, hp, b, hq⟩
    exact ⟨b, hp.bind hq⟩

/-- A sequence whose second part has the same grammar for every value. -/
theorem language_bind {r : Reader ε α} {f : α → Reader ε β} {L : Language UInt8}
    (hr : Regular r) (hf : ∀ a, Regular (f a)) (h : ∀ a, language (f a) = L) :
    language (r >>= f) = language r * L := by
  ext bs
  rw [mem_language_bind hr hf, Language.mem_mul]
  constructor
  · intro hmem
    rcases hmem with ⟨p, a, q, rfl, hp, hq⟩
    exact ⟨p, ⟨a, hp⟩, q, h a ▸ hq, rfl⟩
  · intro hmem
    rcases hmem with ⟨p, ⟨a, hp⟩, q, hq, rfl⟩
    exact ⟨p, a, q, rfl, hp, (h a).symm ▸ hq⟩

/-- A sequence overruns in its first part, or behind it in the second. -/
theorem overruns_bind {r : Reader ε α} {f : α → Reader ε β} {L : Language UInt8}
    (hr : Regular r) (h : ∀ a, overruns (f a) = L) :
    overruns (r >>= f) = overruns r + language r * L := by
  ext bs
  rw [mem_overruns, bind_overrun_iff hr, Language.mem_add, Language.mem_mul]
  constructor
  · intro hmem
    rcases hmem with hbs | ⟨p, a, q, rfl, hp, hq⟩
    · exact .inl hbs
    · exact .inr ⟨p, ⟨a, hp⟩, q, h a ▸ hq, rfl⟩
  · intro hmem
    rcases hmem with hbs | ⟨p, ⟨a, hp⟩, q, hq, rfl⟩
    · exact .inl hbs
    · refine .inr ⟨p, a, q, rfl, hp, ?_⟩
      rw [← h a] at hq
      exact hq

/-- With a safe second part only the first can overrun. -/
theorem overruns_bind_of_safe {r : Reader ε α} {f : α → Reader ε β} (hr : Regular r)
    (hf : ∀ a, Safe (f a)) : overruns (r >>= f) = overruns r := by
  rw [overruns_bind hr fun a => safe_iff_overruns.mp (hf a), mul_zero, add_zero]

/-- With a safe first part only the second can overrun. -/
theorem overruns_safe_bind {r : Reader ε α} {f : α → Reader ε β} {L : Language UInt8}
    (hr : Regular r) (hs : Safe r) (h : ∀ a, overruns (f a) = L) :
    overruns (r >>= f) = language r * L := by
  rw [overruns_bind hr h, safe_iff_overruns.mp hs, zero_add]

/-! ## Counted loops -/

/-- Byte spans that each are those of a value are those of a list of values. -/
theorem exists_forall₂_parses {r : Reader ε α} {ps : List (List UInt8)} :
    (∃ as, List.Forall₂ (Parses r) ps as) ↔ ∀ p ∈ ps, p ∈ language r := by
  induction ps with
  | nil => exact ⟨fun _ p hp => absurd hp List.not_mem_nil, fun _ => ⟨[], .nil⟩⟩
  | cons p ps ih =>
    rw [List.forall_mem_cons, ← ih]
    constructor
    · intro hmem
      rcases hmem with ⟨as, h⟩
      cases h with
      | cons hp hps => exact ⟨⟨_, hp⟩, _, hps⟩
    · intro hmem
      rcases hmem with ⟨⟨a, hp⟩, as, hps⟩
      exact ⟨a :: as, .cons hp hps⟩

theorem language_times {r : Reader ε α} (hr : Regular r) (n : Nat) :
    language (times n r) = language r ^ n := by
  ext bs
  rw [Language.mem_pow]
  constructor
  · intro hmem
    rcases hmem with ⟨as, h⟩
    obtain ⟨ps, rfl, hps, rfl⟩ := (parses_times_iff hr).mp h
    exact ⟨ps, rfl, hps.length_eq, exists_forall₂_parses.mp ⟨as, hps⟩⟩
  · intro hmem
    rcases hmem with ⟨ps, rfl, rfl, h⟩
    obtain ⟨as, hps⟩ := exists_forall₂_parses.mpr h
    exact ⟨as, (parses_times_iff hr).mpr ⟨ps, rfl, hps, hps.length_eq.symm⟩⟩

/-- A counted loop overruns in a round that follows complete ones. -/
theorem mem_overruns_times {r : Reader ε α} (hr : Regular r) {n : Nat}
    {bs : List UInt8} :
    bs ∈ overruns (times n r) ↔ ∃ k < n, bs ∈ language r ^ k * overruns r := by
  rw [mem_overruns, times_overrun_iff hr]
  constructor
  · intro hmem
    rcases hmem with ⟨ps, as, q, rfl, hps, hlt, hq⟩
    refine ⟨ps.length, hlt, Language.append_mem_mul ?_ hq⟩
    exact Language.mem_pow.mpr ⟨ps, rfl, rfl, exists_forall₂_parses.mp ⟨as, hps⟩⟩
  · intro hmem
    rcases hmem with ⟨k, hlt, hbs⟩
    obtain ⟨p, hp, q, hq, rfl⟩ := Language.mem_mul.mp hbs
    obtain ⟨ps, rfl, rfl, h⟩ := Language.mem_pow.mp hp
    obtain ⟨as, hps⟩ := exists_forall₂_parses.mpr h
    exact ⟨ps, as, q, rfl, hps, hlt, hq⟩

/-! ## Spans by their length -/

/-- The spans of `n` bytes. -/
def exactly (n : Nat) : Language UInt8 := {bs | bs.length = n}

/-- The spans of fewer than `n` bytes. -/
def shorter (n : Nat) : Language UInt8 := {bs | bs.length < n}

theorem language_take (n : Nat) :
    language (take n : Reader ε (List UInt8)) = exactly n := by
  ext bs
  simp only [mem_language, parses_take_iff]
  exact ⟨fun ⟨_, hlen, _⟩ => hlen, fun hlen => ⟨bs, hlen, rfl⟩⟩

theorem overruns_take (n : Nat) :
    overruns (take n : Reader ε (List UInt8)) = shorter n := by
  ext bs
  exact take_overrun_iff

theorem shorter_one : shorter 1 = 1 := by
  ext bs
  rw [Language.mem_one, ← List.length_eq_zero_iff]
  exact Nat.lt_one_iff

theorem exactly_mul (m n : Nat) : exactly m * exactly n = exactly (m + n) := by
  ext bs
  rw [Language.mem_mul]
  constructor
  · intro hmem
    rcases hmem with ⟨p, hp, q, hq, rfl⟩
    show (p ++ q).length = m + n
    rw [List.length_append, show p.length = m from hp, show q.length = n from hq]
  · intro h
    have hlen : bs.length = m + n := h
    exact ⟨bs.take m, List.length_take_of_le (by omega), bs.drop m,
      show (bs.drop m).length = n by rw [List.length_drop]; omega,
      List.take_append_drop m bs⟩

theorem shorter_add (m n : Nat) : shorter m + exactly m * shorter n = shorter (m + n) := by
  ext bs
  rw [Language.mem_add, Language.mem_mul]
  constructor
  · intro hmem
    rcases hmem with h | ⟨p, hp, q, hq, rfl⟩
    · have hlen : bs.length < m := h
      show bs.length < m + n
      omega
    · have hp' : p.length = m := hp
      have hq' : q.length < n := hq
      show (p ++ q).length < m + n
      rw [List.length_append]
      omega
  · intro h
    have hlen : bs.length < m + n := h
    by_cases hm : bs.length < m
    · exact .inl hm
    · refine .inr ⟨bs.take m, List.length_take_of_le (by omega), bs.drop m, ?_,
        List.take_append_drop m bs⟩
      show (bs.drop m).length < n
      rw [List.length_drop]
      omega

end Readers.Reader
