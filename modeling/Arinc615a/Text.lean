import Arinc615a.StatusCode
import Mathlib.Data.Nat.Digits.Lemmas
import Mathlib.Tactic.IntervalCases

/-!
# Numbers in texts

The conversions between numbers and texts that the source takes from the
C++ standard library: `std::format` of an unsigned number, `std::from_chars`
and `std::stoul`. The readers take the longest run of digits at the front and
ignore what follows it.
-/

namespace Arinc615a

/-- The value of a digit, letters counting from ten in both cases. -/
def digitValue (c : UInt8) : Nat :=
  if 48 ≤ c ∧ c ≤ 57 then c.toNat - 48
  else if 97 ≤ c ∧ c ≤ 122 then c.toNat - 87
  else if 65 ≤ c ∧ c ≤ 90 then c.toNat - 55
  else 36

/-- The longest run of digits of the base at the front of the text. -/
def leadingDigits (base : Nat) : Str → List Nat
  | [] => []
  | c :: cs =>
    if digitValue c < base then digitValue c :: leadingDigits base cs else []

/-- The value of digits, most significant first. -/
def digitsValue (base : Nat) (ds : List Nat) : Nat :=
  ds.foldl (fun v d => v * base + d) 0

/-- `std::from_chars` into an unsigned integer of `width` bits: no digit and a
value out of range are its two errors. -/
def fromChars (base width : Nat) (s : Str) : Option Nat :=
  let ds := leadingDigits base s
  if ds.isEmpty then none
  else if digitsValue base ds < 2 ^ width then some (digitsValue base ds)
  else none

/-- `std::isspace` in the C locale. -/
def isSpace (c : UInt8) : Bool := c = 32 || (9 ≤ c && c ≤ 13)

/-- `std::stoul`: white space, one sign, digits. A minus sign negates in
`unsigned long`. Both its exceptions are `none`. -/
def stoul (s : Str) : Option Nat :=
  match s.dropWhile isSpace with
  | 45 :: s => (fromChars 10 64 s).map fun v => (2 ^ 64 - v) % 2 ^ 64
  | 43 :: s => fromChars 10 64 s
  | s => fromChars 10 64 s

/-- `std::format( "{}", n )`. -/
def decimal (n : Nat) : Str :=
  if n = 0 then [48] else (Nat.digits 10 n).reverse.map fun d => UInt8.ofNat (48 + d)

/-- `std::format( "{:w}", n )`: blanks on the left up to the width. -/
def decimalWidth (w n : Nat) : Str :=
  List.replicate (w - (decimal n).length) 32 ++ decimal n

/-- A digit of `std::format( "{:X}" )`. -/
def hexDigit (d : Nat) : UInt8 := if d < 10 then UInt8.ofNat (48 + d) else UInt8.ofNat (55 + d)

/-- `std::format( "{:X}", n )`. -/
def hexadecimal (n : Nat) : Str :=
  if n = 0 then [48] else (Nat.digits 16 n).reverse.map hexDigit

/-- `std::format( "{:0wX}", n )`: zeros on the left up to the width. -/
def hexadecimalWidth (w n : Nat) : Str :=
  List.replicate (w - (hexadecimal n).length) 48 ++ hexadecimal n

/-! ## The texts that a reader takes -/

/-- A number in a text: digits of the base, at least one, and their value. -/
def IsNumber (base : Nat) (s : Str) (n : Nat) : Prop :=
  s ≠ [] ∧ (∀ c ∈ s, digitValue c < base) ∧ digitsValue base (s.map digitValue) = n

/-- The text does not start with a digit of the base. -/
def NoDigit (base : Nat) (s : Str) : Prop := ∀ c ∈ s.head?, ¬ digitValue c < base

theorem noDigit_nil (base : Nat) : NoDigit base [] := by simp [NoDigit]

/-- The digits in front are the longest run of them. -/
theorem leadingDigits_append {base : Nat} {number rest : Str}
    (h : ∀ c ∈ number, digitValue c < base) (hrest : NoDigit base rest) :
    leadingDigits base (number ++ rest) = number.map digitValue := by
  induction number with
  | nil =>
    cases rest with
    | nil => rfl
    | cons c cs => exact if_neg (hrest c rfl)
  | cons c cs ih =>
    have hc : digitValue c < base := h c List.mem_cons_self
    rw [List.cons_append, leadingDigits, if_pos hc,
      ih fun d hd => h d (List.mem_cons_of_mem _ hd), List.map_cons]

/-- Every text is a run of digits and what stands behind it. -/
theorem exists_leadingDigits (base : Nat) (s : Str) :
    ∃ number rest, s = number ++ rest ∧ (∀ c ∈ number, digitValue c < base) ∧
      NoDigit base rest := by
  induction s with
  | nil => exact ⟨[], [], rfl, by simp, noDigit_nil base⟩
  | cons c cs ih =>
    by_cases hc : digitValue c < base
    · obtain ⟨number, rest, rfl, hnumber, hrest⟩ := ih
      refine ⟨c :: number, rest, rfl, ?_, hrest⟩
      intro d hd
      rcases List.mem_cons.mp hd with rfl | hd
      · exact hc
      · exact hnumber d hd
    · refine ⟨[], c :: cs, rfl, by simp, ?_⟩
      intro d hd
      cases hd
      exact hc

/-- The split is the only one. -/
theorem leadingDigits_unique {base : Nat} {number number' rest rest' : Str}
    (h : number ++ rest = number' ++ rest') (hnumber : ∀ c ∈ number, digitValue c < base)
    (hnumber' : ∀ c ∈ number', digitValue c < base) (hrest : NoDigit base rest)
    (hrest' : NoDigit base rest') : number = number' ∧ rest = rest' := by
  induction number generalizing number' with
  | nil =>
    cases number' with
    | nil => exact ⟨rfl, h⟩
    | cons c cs =>
      rw [List.nil_append, List.cons_append] at h
      exact absurd (hnumber' c List.mem_cons_self) (hrest c (by rw [h]; rfl))
  | cons c cs ih =>
    cases number' with
    | nil =>
      rw [List.nil_append, List.cons_append] at h
      exact absurd (hnumber c List.mem_cons_self) (hrest' c (by rw [← h]; rfl))
    | cons d ds =>
      rw [List.cons_append, List.cons_append, List.cons.injEq] at h
      obtain ⟨rfl, h⟩ := h
      obtain ⟨rfl, rfl⟩ := ih h (fun x hx => hnumber x (List.mem_cons_of_mem _ hx))
        fun x hx => hnumber' x (List.mem_cons_of_mem _ hx)
      exact ⟨rfl, rfl⟩

/-- **What `std::from_chars` reads**: a number in front, in range, and behind it
anything that is not one more digit. -/
theorem fromChars_eq_some_iff {base width : Nat} {s : Str} {n : Nat} :
    fromChars base width s = some n ↔ ∃ number rest, s = number ++ rest ∧
      IsNumber base number n ∧ NoDigit base rest ∧ n < 2 ^ width := by
  constructor
  · intro h
    obtain ⟨number, rest, rfl, hnumber, hrest⟩ := exists_leadingDigits base s
    rw [fromChars, leadingDigits_append hnumber hrest] at h
    by_cases hempty : (number.map digitValue).isEmpty
    · simp [hempty] at h
    · by_cases hrange : digitsValue base (number.map digitValue) < 2 ^ width
      · simp only [hempty, hrange, if_true, Bool.false_eq_true, if_false,
          Option.some.injEq] at h
        subst h
        exact ⟨number, rest, rfl, ⟨by simpa using hempty, hnumber, rfl⟩, hrest, hrange⟩
      · simp [hempty, hrange] at h
  · intro h
    rcases h with ⟨number, rest, rfl, ⟨hne, hnumber, rfl⟩, hrest, hrange⟩
    rw [fromChars, leadingDigits_append hnumber hrest]
    simp [hne, hrange]

/-! ## What is written is read back -/

private theorem digitValue_ofNat {d : Nat} (h : d < 10) :
    digitValue (UInt8.ofNat (48 + d)) = d := by
  interval_cases d <;> rfl

/-- Decimal digits, written and read. -/
private theorem leadingDigits_map {ds : List Nat} (h : ∀ d ∈ ds, d < 10) :
    leadingDigits 10 (ds.map fun d => UInt8.ofNat (48 + d)) = ds := by
  induction ds with
  | nil => rfl
  | cons d ds ih =>
    have hd : d < 10 := h d (by simp)
    have hds : ∀ d ∈ ds, d < 10 := fun x hx => h x (by simp [hx])
    simp only [List.map_cons, leadingDigits, digitValue_ofNat hd, if_pos hd, ih hds]

theorem leadingDigits_decimal {n : Nat} (h : n ≠ 0) :
    leadingDigits 10 (decimal n) = (Nat.digits 10 n).reverse := by
  rw [decimal, if_neg h]
  apply leadingDigits_map
  intro d hd
  exact Nat.digits_lt_base (by omega) (List.mem_reverse.mp hd)

theorem digitsValue_reverse_digits (base n : Nat) :
    digitsValue base (Nat.digits base n).reverse = n := by
  rw [digitsValue, List.foldl_reverse]
  calc (Nat.digits base n).foldr (fun d v => v * base + d) 0
      = Nat.ofDigits base (Nat.digits base n) := by
        rw [Nat.ofDigits_eq_foldr]
        congr 1
        funext d v
        rw [Nat.cast_id, Nat.mul_comm, Nat.add_comm]
    _ = n := Nat.ofDigits_digits base n

/-- Reading a decimal number in range gives the number. -/
theorem fromChars_decimal {n width : Nat} (h : n < 2 ^ width) :
    fromChars 10 width (decimal n) = some n := by
  by_cases hn : n = 0
  · subst hn
    have hpos : 0 < 2 ^ width := h
    simp [fromChars, decimal, leadingDigits, digitValue, digitsValue]
  · have hne : (Nat.digits 10 n).reverse ≠ [] :=
      List.reverse_ne_nil_iff.mpr (Nat.digits_ne_nil_iff_ne_zero.mpr hn)
    simp only [fromChars, leadingDigits_decimal hn, digitsValue_reverse_digits, if_pos h]
    rw [if_neg (by simpa using hne)]

theorem digitValue_hexDigit {d : Nat} (h : d < 16) : digitValue (hexDigit d) = d := by
  interval_cases d <;> rfl

theorem IsNumber.of_all {base : Nat} {s : Str} {n : Nat} (hne : s.isEmpty = false)
    (hdigits : s.all (fun c => decide (digitValue c < base)) = true)
    (hvalue : digitsValue base (s.map digitValue) = n) : IsNumber base s n := by
  refine ⟨?_, ?_, hvalue⟩
  · simpa using hne
  · intro c hc
    simpa using List.all_eq_true.mp hdigits c hc

/-- A number in hexadecimal, padded with zeros, is one. -/
theorem isNumber_hexadecimalWidth (w n : Nat) : IsNumber 16 (hexadecimalWidth w n) n := by
  have hdigits : hexadecimal n ≠ [] ∧ (∀ c ∈ hexadecimal n, digitValue c < 16) ∧
      digitsValue 16 ((hexadecimal n).map digitValue) = n := by
    by_cases hn : n = 0
    · subst hn
      exact IsNumber.of_all rfl (by decide) rfl
    · rw [hexadecimal, if_neg hn]
      have hlt : ∀ d ∈ (Nat.digits 16 n).reverse, d < 16 := fun d hd =>
        Nat.digits_lt_base (by omega) (List.mem_reverse.mp hd)
      refine ⟨?_, ?_, ?_⟩
      · rw [ne_eq, List.map_eq_nil_iff, List.reverse_eq_nil_iff]
        exact Nat.digits_ne_nil_iff_ne_zero.mpr hn
      · intro c hc
        obtain ⟨d, hd, rfl⟩ := List.mem_map.mp hc
        rw [digitValue_hexDigit (hlt d hd)]
        exact hlt d hd
      · have hmap : ((Nat.digits 16 n).reverse.map hexDigit).map digitValue =
            (Nat.digits 16 n).reverse := by
          rw [List.map_map]
          exact (List.map_congr_left fun d hd => digitValue_hexDigit (hlt d hd)).trans
            (List.map_id _)
        rw [hmap, digitsValue_reverse_digits]
  obtain ⟨hne, hall, hvalue⟩ := hdigits
  have hzero : digitValue 48 = 0 := by decide
  refine ⟨by simp [hexadecimalWidth, hne], ?_, ?_⟩
  · intro c hc
    rcases List.mem_append.mp hc with hc | hc
    · rw [List.eq_of_mem_replicate hc]
      decide
    · exact hall c hc
  · -- The zeros in front do not count.
    rw [hexadecimalWidth, List.map_append, List.map_replicate, hzero, digitsValue,
      List.foldl_append]
    have hfold : ∀ k, (List.replicate k 0).foldl (fun v d => v * 16 + d) 0 = 0 := by
      intro k
      induction k with
      | zero => rfl
      | succ k ih =>
        rw [List.replicate_succ, List.foldl_cons]
        exact ih
    rw [hfold]
    exact hvalue

/-- A number that is written in decimal is one. -/
theorem isNumber_decimal (n : Nat) : IsNumber 10 (decimal n) n := by
  have hread : fromChars 10 n (decimal n) = some n := fromChars_decimal Nat.lt_two_pow_self
  obtain ⟨number, rest, hsplit, hnumber, hrest, -⟩ := fromChars_eq_some_iff.mp hread
  have hall : ∀ c ∈ decimal n, digitValue c < 10 := by
    intro c hc
    by_cases hn : n = 0
    · simp only [decimal, if_pos hn, List.mem_singleton] at hc
      subst hc
      decide
    · rw [decimal, if_neg hn, List.mem_map] at hc
      obtain ⟨d, hd, rfl⟩ := hc
      have hlt : d < 10 := Nat.digits_lt_base (by omega) (List.mem_reverse.mp hd)
      rw [digitValue_ofNat hlt]
      exact hlt
  obtain ⟨hall', -⟩ := leadingDigits_unique (by rw [List.append_nil]; exact hsplit) hall
    hnumber.2.1 (noDigit_nil 10) hrest
  rw [hall']
  exact hnumber

/-- A decimal number starts with a digit: neither with a blank nor a sign. -/
private theorem decimal_cons (n : Nat) : ∃ d ds, d < 10 ∧
    decimal n = UInt8.ofNat (48 + d) :: ds := by
  by_cases hn : n = 0
  · exact ⟨0, [], by omega, by simp [decimal, hn]⟩
  · obtain ⟨d, ds, hds⟩ : ∃ d ds, (Nat.digits 10 n).reverse = d :: ds := by
      apply List.exists_cons_of_ne_nil
      exact List.reverse_ne_nil_iff.mpr (Nat.digits_ne_nil_iff_ne_zero.mpr hn)
    have hmem : d ∈ Nat.digits 10 n := by
      rw [← List.mem_reverse, hds]
      simp
    exact ⟨d, ds.map fun d => UInt8.ofNat (48 + d), Nat.digits_lt_base (by omega) hmem,
      by rw [decimal, if_neg hn, hds, List.map_cons]⟩

private theorem digit_byte {d : Nat} (h : d < 10) :
    isSpace (UInt8.ofNat (48 + d)) = false ∧ UInt8.ofNat (48 + d) ≠ 45 ∧
      UInt8.ofNat (48 + d) ≠ 43 := by
  interval_cases d <;> decide

/-- Reading a padded decimal number gives the number. -/
theorem stoul_decimalWidth {w n : Nat} (h : n < 2 ^ 64) :
    stoul (decimalWidth w n) = some n := by
  obtain ⟨d, ds, hd, hdec⟩ := decimal_cons n
  obtain ⟨hspace, hminus, hplus⟩ := digit_byte hd
  have hdrop : (decimalWidth w n).dropWhile isSpace = decimal n := by
    rw [decimalWidth, List.dropWhile_append_of_pos]
    · rw [hdec, List.dropWhile_cons_of_neg (by rw [hspace]; decide)]
    · intro c hc
      rw [List.eq_of_mem_replicate hc]
      decide
  have hread : fromChars 10 64 (decimal n) = some n := fromChars_decimal h
  rw [stoul, hdrop]
  rw [hdec] at hread ⊢
  split
  · rename_i heq
    exact absurd (List.cons.inj heq).1 hminus
  · rename_i heq
    exact absurd (List.cons.inj heq).1 hplus
  · exact hread

end Arinc615a
