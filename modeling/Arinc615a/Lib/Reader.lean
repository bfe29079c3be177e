import Mathlib.Data.List.Basic
import Mathlib.Data.List.Forall2
import Mathlib.Algebra.BigOperators.Group.List.Basic
import Mathlib.Algebra.Ring.Nat

/-!
# Readers over byte spans

A reader consumes bytes from the front of a span. It ends in one of three
ways: it is done and leaves the rest of the span, it throws an error, or it
reads past the end of the span (`overrun`) because nothing checked that
enough bytes remained.

`Parses r bs a` says that `r` takes exactly `bs` and yields `a`, whatever
follows. A reader is `Regular` when that is the only way it is ever done: its
result is fixed by the bytes it consumed. For regular readers the bytes of a
sequence split into the bytes of its parts, in both directions, and so do the
spans on which it overruns. A round trip is a `Parses` law, bounds safety is
the absence of `overrun`.
-/

namespace Readers

/-- How reading from a span ends. -/
inductive Outcome (ε α : Type) where
  | done (value : α)
  | thrown (error : ε)
  | overrun
  deriving DecidableEq, Repr

namespace Outcome

variable {ε α β : Type}

/-- Continue with the value, if there is one. -/
def bind : Outcome ε α → (α → Outcome ε β) → Outcome ε β
  | done a, f => f a
  | thrown e, _ => thrown e
  | overrun, _ => overrun

@[simp] theorem bind_done (a : α) (f : α → Outcome ε β) :
    (done a).bind f = f a := rfl

@[simp] theorem bind_thrown (e : ε) (f : α → Outcome ε β) :
    (thrown e : Outcome ε α).bind f = thrown e := rfl

@[simp] theorem bind_overrun (f : α → Outcome ε β) :
    (overrun : Outcome ε α).bind f = overrun := rfl

theorem bind_bind {γ : Type} (o : Outcome ε α) (f : α → Outcome ε β) (g : β → Outcome ε γ) :
    (o.bind f).bind g = o.bind fun a => (f a).bind g := by
  cases o <;> rfl

/-- There is a value. -/
def isDone : Outcome ε α → Bool
  | done _ => true
  | _ => false

@[simp] theorem isDone_done (a : α) : (done a : Outcome ε α).isDone = true := rfl

@[simp] theorem isDone_thrown (e : ε) : (thrown e : Outcome ε α).isDone = false := rfl

theorem bind_eq_done {o : Outcome ε α} {f : α → Outcome ε β} {b : β} :
    o.bind f = done b ↔ ∃ a, o = done a ∧ f a = done b := by
  cases o <;> simp

theorem bind_eq_overrun {o : Outcome ε α} {f : α → Outcome ε β} :
    o.bind f = overrun ↔ o = overrun ∨ ∃ a, o = done a ∧ f a = overrun := by
  cases o <;> simp

end Outcome

/-- A reader of an `α`, throwing errors `ε`. -/
def Reader (ε α : Type) : Type := List UInt8 → Outcome ε (α × List UInt8)

namespace Reader

variable {ε α β : Type}

/-- Reading nothing, and one reader after the other on the rest of the span. -/
instance : Monad (Reader ε) where
  pure a := fun bs => .done (a, bs)
  bind r f := fun bs => (r bs).bind fun (a, rest) => f a rest

/-- Throw an error. -/
def throw (e : ε) : Reader ε α := fun _ => .thrown e

/-- The bytes that remain, without reading them. -/
def remaining : Reader ε (List UInt8) := fun bs => .done (bs, bs)

/-- Read `n` bytes. Nothing checks that the span has them. -/
def take (n : Nat) : Reader ε (List UInt8) := fun bs =>
  if bs.length < n then .overrun else .done (bs.take n, bs.drop n)

/-- A computation that reads nothing. -/
def ofExcept : Except ε α → Reader ε α
  | .ok a => pure a
  | .error e => throw e

/-- Read `n` values in a row. -/
def times : Nat → Reader ε α → Reader ε (List α)
  | 0, _ => pure []
  | n + 1, r => do
    let a ← r
    let as ← times n r
    pure (a :: as)

theorem bind_apply (r : Reader ε α) (f : α → Reader ε β) (bs : List UInt8) :
    (r >>= f) bs = (r bs).bind fun (a, rest) => f a rest := rfl

@[simp] theorem pure_apply (a : α) (bs : List UInt8) :
    (pure a : Reader ε α) bs = .done (a, bs) := rfl

@[simp] theorem throw_apply (e : ε) (bs : List UInt8) :
    (throw e : Reader ε α) bs = .thrown e := rfl

@[simp] theorem remaining_apply (bs : List UInt8) :
    (remaining : Reader ε (List UInt8)) bs = .done (bs, bs) := rfl

@[simp] theorem ofExcept_ok (a : α) (bs : List UInt8) :
    (ofExcept (.ok a) : Reader ε α) bs = .done (a, bs) := rfl

theorem bind_eq_done {r : Reader ε α} {f : α → Reader ε β} {bs rest : List UInt8}
    {b : β} :
    (r >>= f) bs = .done (b, rest) ↔
      ∃ a mid, r bs = .done (a, mid) ∧ f a mid = .done (b, rest) := by
  rw [bind_apply, Outcome.bind_eq_done]
  exact Prod.exists

theorem bind_eq_overrun {r : Reader ε α} {f : α → Reader ε β} {bs : List UInt8} :
    (r >>= f) bs = .overrun ↔
      r bs = .overrun ∨ ∃ a mid, r bs = .done (a, mid) ∧ f a mid = .overrun := by
  rw [bind_apply, Outcome.bind_eq_overrun, Prod.exists]

theorem bind_bind {γ : Type} (r : Reader ε α) (f : α → Reader ε β) (g : β → Reader ε γ) :
    r >>= f >>= g = r >>= fun a => f a >>= g := by
  funext bs
  exact Outcome.bind_bind ..

theorem ite_throw_bind {p : Prop} [Decidable p] (e : ε) (r : Reader ε α)
    (f : α → Reader ε β) :
    (if p then throw e else r) >>= f = if p then throw e else r >>= f := by
  split <;> rfl

/-! ## Exactly the bytes consumed -/

/-- The reader takes exactly `bs` and yields `a`, whatever follows. -/
def Parses (r : Reader ε α) (bs : List UInt8) (a : α) : Prop :=
  ∀ rest, r (bs ++ rest) = .done (a, rest)

/-- The reader is only ever done by consuming bytes that fix its result. -/
def Regular (r : Reader ε α) : Prop :=
  ∀ bs a rest, r bs = .done (a, rest) → ∃ pre, bs = pre ++ rest ∧ Parses r pre a

theorem Parses.whole {r : Reader ε α} {bs : List UInt8} {a : α}
    (h : Parses r bs a) : r bs = .done (a, []) := by
  simpa using h []

theorem parses_pure (a : α) : Parses (pure a : Reader ε α) [] a :=
  fun _ => rfl

theorem parses_pure_iff {a b : α} {bs : List UInt8} :
    Parses (pure a : Reader ε α) bs b ↔ bs = [] ∧ a = b := by
  constructor
  · intro h
    have := h []
    simp only [pure_apply, Outcome.done.injEq, Prod.mk.injEq, List.append_nil] at this
    exact ⟨this.2, this.1⟩
  · intro hparse
    rcases hparse with ⟨rfl, rfl⟩
    exact parses_pure a

theorem regular_pure (a : α) : Regular (pure a : Reader ε α) := by
  intro bs b rest h
  simp only [pure_apply, Outcome.done.injEq, Prod.mk.injEq] at h
  obtain ⟨rfl, rfl⟩ := h
  exact ⟨[], rfl, parses_pure a⟩

theorem not_parses_throw {e : ε} {bs : List UInt8} {a : α} :
    ¬ Parses (throw e : Reader ε α) bs a :=
  fun h => by simpa using h []

theorem regular_throw (e : ε) : Regular (throw e : Reader ε α) := by
  intro bs a rest h
  cases h

theorem parses_ofExcept_iff {x : Except ε α} {bs : List UInt8} {a : α} :
    Parses (ofExcept x) bs a ↔ bs = [] ∧ x = .ok a := by
  cases x with
  | ok b => simp [ofExcept, parses_pure_iff]
  | error e => simp [ofExcept, not_parses_throw]

theorem regular_ofExcept (x : Except ε α) : Regular (ofExcept x) := by
  cases x with
  | ok a => exact regular_pure a
  | error e => exact regular_throw e

theorem parses_take {bs : List UInt8} :
    Parses (take bs.length : Reader ε (List UInt8)) bs bs := by
  intro rest
  simp [take]

theorem parses_take_iff {n : Nat} {bs as : List UInt8} :
    Parses (take n : Reader ε (List UInt8)) bs as ↔ bs.length = n ∧ as = bs := by
  constructor
  · intro h
    have hw := h.whole
    simp only [take] at hw
    split at hw
    · cases hw
    · rename_i hn
      simp only [Outcome.done.injEq, Prod.mk.injEq, List.drop_eq_nil_iff] at hw
      obtain ⟨htake, hlen⟩ := hw
      have hlen' : bs.length = n := by omega
      refine ⟨hlen', ?_⟩
      rw [← htake, List.take_of_length_le (Nat.le_of_eq hlen')]
  · intro hparse
    rcases hparse with ⟨rfl, rfl⟩
    exact parses_take

theorem regular_take (n : Nat) : Regular (take n : Reader ε (List UInt8)) := by
  intro bs a rest h
  simp only [take] at h
  split at h
  · cases h
  · rename_i hn
    simp only [Outcome.done.injEq, Prod.mk.injEq] at h
    obtain ⟨rfl, rfl⟩ := h
    refine ⟨bs.take n, (List.take_append_drop n bs).symm, ?_⟩
    exact parses_take_iff.mpr ⟨List.length_take_of_le (by omega), rfl⟩

theorem take_overrun_iff {n : Nat} {bs : List UInt8} :
    (take n : Reader ε (List UInt8)) bs = .overrun ↔ bs.length < n := by
  simp only [take]
  split <;> simp_all

/-! ## Sequences -/

theorem Parses.bind {r : Reader ε α} {f : α → Reader ε β} {p q : List UInt8}
    {a : α} {b : β} (hr : Parses r p a) (hf : Parses (f a) q b) :
    Parses (r >>= f) (p ++ q) b := by
  intro rest
  rw [bind_apply, List.append_assoc, hr]
  exact hf rest

/-- What is made of the value in the end takes no bytes. -/
theorem Parses.map {r : Reader ε α} {bs : List UInt8} {a : α} (h : Parses r bs a) (f : α → β) :
    Parses (r >>= fun a => pure (f a)) bs (f a) := by
  intro rest
  rw [bind_apply, h]
  rfl

theorem regular_bind {r : Reader ε α} {f : α → Reader ε β} (hr : Regular r)
    (hf : ∀ a, Regular (f a)) : Regular (r >>= f) := by
  intro bs b rest h
  obtain ⟨a, mid, h₁, h₂⟩ := bind_eq_done.mp h
  obtain ⟨p, rfl, hp⟩ := hr _ _ _ h₁
  obtain ⟨q, rfl, hq⟩ := hf a _ _ _ h₂
  exact ⟨p ++ q, (List.append_assoc ..).symm, hp.bind hq⟩

/-- The bytes of a sequence split into the bytes of its parts. -/
theorem parses_bind_iff {r : Reader ε α} {f : α → Reader ε β} (hr : Regular r)
    (hf : ∀ a, Regular (f a)) {bs : List UInt8} {b : β} :
    Parses (r >>= f) bs b ↔
      ∃ p a q, bs = p ++ q ∧ Parses r p a ∧ Parses (f a) q b := by
  constructor
  · intro h
    obtain ⟨a, mid, h₁, h₂⟩ := bind_eq_done.mp h.whole
    obtain ⟨p, rfl, hp⟩ := hr _ _ _ h₁
    obtain ⟨q, hq, hfq⟩ := hf a _ _ _ h₂
    rw [List.append_nil] at hq
    subst hq
    exact ⟨p, a, mid, rfl, hp, hfq⟩
  · intro hparse
    rcases hparse with ⟨p, a, q, rfl, hp, hq⟩
    exact hp.bind hq

/-- A sequence overruns in its first part, or after it in the second. -/
theorem bind_overrun_iff {r : Reader ε α} {f : α → Reader ε β} (hr : Regular r)
    {bs : List UInt8} :
    (r >>= f) bs = .overrun ↔
      r bs = .overrun ∨ ∃ p a q, bs = p ++ q ∧ Parses r p a ∧ f a q = .overrun := by
  rw [bind_eq_overrun]
  constructor
  · intro hparse
    rcases hparse with h | ⟨a, mid, h₁, h₂⟩
    · exact .inl h
    · obtain ⟨p, rfl, hp⟩ := hr _ _ _ h₁
      exact .inr ⟨p, a, mid, rfl, hp, h₂⟩
  · intro hparse
    rcases hparse with h | ⟨p, a, q, rfl, hp, hq⟩
    · exact .inl h
    · exact .inr ⟨a, q, hp q, hq⟩

/-! ## Counted loops -/

theorem regular_times {r : Reader ε α} (hr : Regular r) (n : Nat) :
    Regular (times n r) := by
  induction n with
  | zero => exact regular_pure []
  | succ n ih =>
    exact regular_bind hr fun a => regular_bind ih fun as => regular_pure (a :: as)

/-- A counted loop consumes the bytes of its rounds, in order. -/
theorem parses_times_iff {r : Reader ε α} (hr : Regular r) {n : Nat}
    {bs : List UInt8} {as : List α} :
    Parses (times n r) bs as ↔
      ∃ ps, bs = ps.flatten ∧ List.Forall₂ (Parses r) ps as ∧ as.length = n := by
  induction n generalizing bs as with
  | zero =>
    rw [show (times 0 r : Reader ε (List α)) = pure [] from rfl, parses_pure_iff]
    constructor
    · intro h
      rcases h with ⟨rfl, rfl⟩
      exact ⟨[], rfl, .nil, rfl⟩
    · intro h
      rcases h with ⟨ps, rfl, hps, hlen⟩
      have has : as = [] := List.length_eq_zero_iff.mp hlen
      subst has
      cases hps
      exact ⟨rfl, rfl⟩
  | succ n ih =>
    rw [times, parses_bind_iff hr fun a =>
      regular_bind (regular_times hr n) fun as => regular_pure (a :: as)]
    constructor
    · intro h
      rcases h with ⟨p, a, q, rfl, hp, hq⟩
      -- The rounds behind the first consume `q₁`, and the list is built of nothing.
      obtain ⟨q₁, as', q₂, rfl, hq₁, hq₂⟩ := (parses_bind_iff (regular_times hr n)
        fun as => regular_pure (a :: as)).mp hq
      obtain ⟨rfl, rfl⟩ := parses_pure_iff.mp hq₂
      obtain ⟨ps, rfl, hps, hlen⟩ := ih.mp hq₁
      exact ⟨p :: ps, by simp, .cons hp hps, by simp [hlen]⟩
    · intro h
      rcases h with ⟨ps, rfl, hps, hlen⟩
      cases hps with
      | nil => simp at hlen
      | @cons p a ps as hp hps =>
        simp only [List.length_cons, Nat.add_right_cancel_iff] at hlen
        refine ⟨p, a, ps.flatten, rfl, hp, ?_⟩
        have hrest := (ih.mpr ⟨ps, rfl, hps, hlen⟩).bind
          (f := fun as => (pure (a :: as) : Reader ε (List α))) (parses_pure (a :: as))
        rwa [List.append_nil] at hrest

/-- A counted loop overruns in one of its rounds, after complete ones. -/
theorem times_overrun_iff {r : Reader ε α} (hr : Regular r) {n : Nat}
    {bs : List UInt8} :
    times n r bs = .overrun ↔
      ∃ ps as q, bs = ps.flatten ++ q ∧ List.Forall₂ (Parses r) ps as ∧
        ps.length < n ∧ r q = .overrun := by
  induction n generalizing bs with
  | zero =>
    constructor
    · intro h
      cases h
    · intro hparse
      rcases hparse with ⟨ps, as, q, -, -, hlt, -⟩
      omega
  | succ n ih =>
    rw [times, bind_overrun_iff hr]
    constructor
    · intro hparse
      rcases hparse with h | ⟨p, a, q, rfl, hp, hq⟩
      · exact ⟨[], [], bs, by simp, .nil, by simp, h⟩
      · -- Behind the rounds the loop only returns, so it overruns in one of them.
        rcases (bind_overrun_iff (regular_times hr n)).mp hq with hq | ⟨_, _, _, _, _, hq⟩
        · obtain ⟨ps, as, q', rfl, hps, hlt, hr'⟩ := ih.mp hq
          exact ⟨p :: ps, a :: as, q', by simp, .cons hp hps, by simpa using hlt, hr'⟩
        · cases hq
    · intro hparse
      rcases hparse with ⟨ps, as, q, rfl, hps, hlt, hq⟩
      cases hps with
      | nil => exact .inl (by simpa using hq)
      | @cons p a ps as hp hps =>
        simp only [List.length_cons, Nat.add_lt_add_iff_right] at hlt
        refine .inr ⟨p, a, ps.flatten ++ q, by simp, hp, ?_⟩
        exact (bind_overrun_iff (regular_times hr n)).mpr
          (.inl (ih.mpr ⟨ps, as, q, rfl, hps, hlt, hq⟩))

/-! ## Writing what is read -/

/-- Write the items one after the other; the first error ends it. -/
def writeEach (write : α → Except ε (List UInt8)) : List α → Except ε (List UInt8)
  | [] => .ok []
  | a :: as => do
    let bs ← write a
    let rest ← writeEach write as
    .ok (bs ++ rest)

theorem writeEach_cons_eq_ok {write : α → Except ε (List UInt8)} {a : α} {as : List α}
    {out : List UInt8} :
    writeEach write (a :: as) = .ok out ↔
      ∃ bs rest, write a = .ok bs ∧ writeEach write as = .ok rest ∧ out = bs ++ rest := by
  cases ha : write a with
  | error e => simp [writeEach, ha, bind, Except.bind]
  | ok bs =>
    cases has : writeEach write as with
    | error e => simp [writeEach, ha, has, bind, Except.bind]
    | ok rest => simp [writeEach, ha, has, bind, Except.bind, eq_comm]

/-- A computation gives a result behind one that does. -/
theorem bind_eq_ok {β γ : Type} {x : Except ε β} {f : β → Except ε γ} {out : γ} :
    (x >>= f) = .ok out ↔ ∃ b, x = .ok b ∧ f b = .ok out := by
  cases x with
  | error e => simp [bind, Except.bind]
  | ok b => simp [bind, Except.bind]

theorem exists_bind_ok {β γ : Type} {x : Except ε β} {f : β → Except ε γ} :
    (∃ out, (x >>= f) = .ok out) ↔ ∃ b, x = .ok b ∧ ∃ out, f b = .ok out := by
  simp only [bind_eq_ok]
  exact exists_comm.trans (exists_congr fun b => exists_and_left)

/-- Items are written in a row exactly if all are written. -/
theorem exists_writeEach_iff {write : α → Except ε (List UInt8)} {as : List α} :
    (∃ out, writeEach write as = .ok out) ↔ ∀ a ∈ as, ∃ bs, write a = .ok bs := by
  induction as with
  | nil => simp [writeEach]
  | cons a as ih =>
    simp only [writeEach, exists_bind_ok, List.forall_mem_cons, ← ih]
    simp

/-- Items whose writings are read back are read back in a row. -/
theorem parses_writeEach {write : α → Except ε (List UInt8)} {r : Reader ε α}
    {as : List α} (h : ∀ a ∈ as, ∀ bs, write a = .ok bs → Parses r bs a)
    {out : List UInt8} (hout : writeEach write as = .ok out) :
    Parses (times as.length r) out as := by
  induction as generalizing out with
  | nil =>
    simp only [writeEach, Except.ok.injEq] at hout
    exact hout ▸ parses_pure []
  | cons a as ih =>
    obtain ⟨bs, rest, hbs, hrest, rfl⟩ := writeEach_cons_eq_ok.mp hout
    have hhead : Parses r bs a := h a (by simp) bs hbs
    have htail := ih (fun x hx => h x (by simp [hx])) hrest
    exact hhead.bind (htail.map (a :: ·))

/-- The length of items written in a row. -/
theorem length_writeEach {write : α → Except ε (List UInt8)} {size : α → Nat}
    {as : List α} (h : ∀ a ∈ as, ∀ bs, write a = .ok bs → bs.length = size a)
    {out : List UInt8} (hout : writeEach write as = .ok out) :
    out.length = (as.map size).sum := by
  induction as generalizing out with
  | nil =>
    simp only [writeEach, Except.ok.injEq] at hout
    simp [← hout]
  | cons a as ih =>
    obtain ⟨bs, rest, hbs, hrest, rfl⟩ := writeEach_cons_eq_ok.mp hout
    rw [List.length_append, h a (by simp) bs hbs,
      ih (fun x hx => h x (by simp [hx])) hrest, List.map_cons, List.sum_cons]

/-! ## Round trips -/

/-- What is written for a value takes at most `n` bytes, and is read back, whatever
follows it. -/
def Travels (written : Except ε (List UInt8)) (n : Nat) (r : Reader ε α) (a : α) : Prop :=
  ∃ bs, written = .ok bs ∧ bs.length ≤ n ∧ Parses r bs a

/-- Values that arrive as others do so in a row. -/
theorem travels_writeEach_map {write : α → Except ε (List UInt8)} {n : Nat} {r : Reader ε β}
    {g : α → β} {as : List α} (h : ∀ a ∈ as, Travels (write a) n r (g a)) :
    Travels (writeEach write as) (as.length * n) (times as.length r) (as.map g) := by
  induction as with
  | nil => exact ⟨[], rfl, Nat.zero_le _, parses_pure []⟩
  | cons a as ih =>
    obtain ⟨bs, hbs, hlen, hhead⟩ := h a (by simp)
    obtain ⟨rest, hrest, hsum, htail⟩ := ih fun x hx => h x (by simp [hx])
    refine ⟨bs ++ rest, writeEach_cons_eq_ok.mpr ⟨bs, rest, hbs, hrest, rfl⟩, ?_,
      hhead.bind (htail.map (g a :: ·))⟩
    rw [List.length_append, List.length_cons, Nat.add_mul, Nat.one_mul]
    omega

/-- Values that travel do so in a row. -/
theorem travels_writeEach {write : α → Except ε (List UInt8)} {n : Nat} {r : Reader ε α}
    {as : List α} (h : ∀ a ∈ as, Travels (write a) n r a) :
    Travels (writeEach write as) (as.length * n) (times as.length r) as := by
  have hmap := travels_writeEach_map (g := id) h
  rwa [List.map_id] at hmap

/-! ## Bounds safety -/

/-- The reader never reads past the end of a span. -/
def Safe (r : Reader ε α) : Prop := ∀ bs, r bs ≠ .overrun

theorem safe_pure (a : α) : Safe (pure a : Reader ε α) := by
  intro bs h
  cases h

theorem safe_throw (e : ε) : Safe (throw e : Reader ε α) := by
  intro bs h
  cases h

theorem safe_ofExcept (x : Except ε α) : Safe (ofExcept x) := by
  cases x with
  | ok a => exact safe_pure a
  | error e => exact safe_throw e

theorem safe_bind {r : Reader ε α} {f : α → Reader ε β} (hr : Safe r)
    (hf : ∀ a, Safe (f a)) : Safe (r >>= f) := by
  intro bs h
  rcases bind_eq_overrun.mp h with h | ⟨a, mid, -, h⟩
  · exact hr bs h
  · exact hf a mid h

theorem safe_times {r : Reader ε α} (hr : Safe r) (n : Nat) :
    Safe (times n r) := by
  induction n with
  | zero => exact safe_pure []
  | succ n ih => exact safe_bind hr fun a => safe_bind ih fun as => safe_pure (a :: as)

end Reader

end Readers
