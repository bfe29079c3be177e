import Arinc615a.Tftp.ErrorMessage

/-!
# The texts of ABORT and WAIT messages

The readers of `ErrorMessage.cpp` test the start of the message and convert the
number behind it. The conversion stops at the first character that is no digit,
and the readers do not ask where it stopped.
-/

namespace Arinc615a.Tftp

/-! ## What the readers accept -/

theorem errorMessageWait_eq_some_iff {s : Str} {t : Nat} :
    errorMessageWait s = some t ↔ ∃ number rest, s = waitErrorString ++ (number ++ rest) ∧
      IsNumber 10 number t ∧ NoDigit 10 rest ∧ t < 2 ^ 16 := by
  constructor
  · intro h
    rw [errorMessageWait] at h
    split at h
    · rename_i hprefix
      obtain ⟨tail, rfl⟩ := List.isPrefixOf_iff_prefix.mp hprefix
      rw [show (waitErrorString ++ tail).drop 5 = tail from rfl] at h
      obtain ⟨number, rest, rfl, hnumber, hrest, hrange⟩ := fromChars_eq_some_iff.mp h
      exact ⟨number, rest, rfl, hnumber, hrest, hrange⟩
    · cases h
  · rintro ⟨number, rest, rfl, hnumber, hrest, hrange⟩
    rw [errorMessageWait, if_pos (List.isPrefixOf_iff_prefix.mpr (List.prefix_append _ _))]
    exact fromChars_eq_some_iff.mpr ⟨number, rest, rfl, hnumber, hrest, hrange⟩

/-- A number that is no status code is no abort code either. -/
private theorem abortStatusCode_of_error {value : UInt16} {e : Arinc615aException}
    (h : statusCode value = .error e) : abortStatusCode value.toNat = .invalid := by
  have hne (n : Nat) (code : StatusCode) (hn : statusCode (UInt16.ofNat n) = .ok code) :
      ¬ value.toNat = n := by
    intro heq
    rw [← heq, UInt16.ofNat_toNat, h] at hn
    cases hn
  rw [abortStatusCode, if_neg (hne 0x0001 _ rfl), if_neg (hne 0x1000 _ rfl),
    if_neg (hne 0x1002 _ rfl), if_neg (hne 0x0002 _ rfl), if_neg (hne 0x0003 _ rfl),
    if_neg (hne 0x1003 _ rfl), if_neg (hne 0x1004 _ rfl), if_neg (hne 0x1005 _ rfl),
    if_neg (hne 0x1007 _ rfl)]

/-- The abort codes are the status codes of files, but for one. -/
theorem abortStatusCode_of_ok {value : UInt16} {code : StatusCode}
    (h : statusCode value = .ok code) :
    abortStatusCode value.toNat =
      if code = .operationInProgressAdditionalInfo then .invalid else code := by
  unfold statusCode at h
  split at h
  all_goals cases h
  all_goals rfl

theorem abortStatusCode_eq_iff {value : UInt16} {code : StatusCode} (h : code ≠ .invalid) :
    abortStatusCode value.toNat = code ↔
      statusCode value = .ok code ∧ code ≠ .operationInProgressAdditionalInfo := by
  cases hcode : statusCode value with
  | error e =>
    rw [abortStatusCode_of_error hcode]
    exact iff_of_false (fun heq => h heq.symm) (by simp)
  | ok code' =>
    rw [abortStatusCode_of_ok hcode]
    by_cases hother : code' = .operationInProgressAdditionalInfo
    · rw [if_pos hother]
      refine iff_of_false (fun heq => h heq.symm) ?_
      rintro ⟨heq, hne⟩
      exact hne ((Except.ok.inj heq).symm.trans hother)
    · rw [if_neg hother]
      constructor
      · rintro rfl
        exact ⟨rfl, hother⟩
      · exact fun heq => Except.ok.inj heq.1

theorem errorMessageAbort_eq_iff {s : Str} {code : StatusCode} (h : code ≠ .invalid) :
    errorMessageAbort s = code ↔ ∃ number rest value,
      s = abortErrorString ++ (number ++ rest) ∧ IsNumber 16 number (UInt16.toNat value) ∧
        NoDigit 16 rest ∧ statusCode value = .ok code ∧
        code ≠ .operationInProgressAdditionalInfo := by
  constructor
  · intro habort
    rw [errorMessageAbort] at habort
    split at habort
    · rename_i hprefix
      obtain ⟨tail, rfl⟩ := List.isPrefixOf_iff_prefix.mp hprefix
      rw [show (abortErrorString ++ tail).drop 6 = tail from rfl] at habort
      cases hread : fromChars 16 16 tail with
      | none => exact absurd (by simpa [hread] using habort) h.symm
      | some n =>
        obtain ⟨number, rest, rfl, hnumber, hrest, hrange⟩ := fromChars_eq_some_iff.mp hread
        have hn : (UInt16.ofNat n).toNat = n := UInt16.toNat_ofNat_of_lt' hrange
        simp only [hread] at habort
        rw [← hn, abortStatusCode_eq_iff h] at habort
        exact ⟨number, rest, UInt16.ofNat n, rfl, hn.symm ▸ hnumber, hrest, habort⟩
    · exact absurd habort.symm h
  · rintro ⟨number, rest, value, rfl, hnumber, hrest, hcode⟩
    have hread : fromChars 16 16 (number ++ rest) = some value.toNat :=
      fromChars_eq_some_iff.mpr ⟨number, rest, rfl, hnumber, hrest, value.toNat_lt⟩
    rw [errorMessageAbort, if_pos (List.isPrefixOf_iff_prefix.mpr (List.prefix_append _ _)),
      show (abortErrorString ++ (number ++ rest)).drop 6 = number ++ rest from rfl, hread]
    exact (abortStatusCode_eq_iff h).mpr hcode

/-! ## The documented texts -/

/-- `ABORT:` and the four hexadecimal digits of a status code. -/
def AbortText (s : Str) (code : StatusCode) : Prop :=
  ∃ digits value, s = abortErrorString ++ digits ∧ digits.length = 4 ∧
    IsNumber 16 digits (UInt16.toNat value) ∧ statusCode value = .ok code

/-- `WAIT:` and a decimal number that fits 16 bits. -/
def WaitText (s : Str) (t : Nat) : Prop :=
  ∃ digits, s = waitErrorString ++ digits ∧ IsNumber 10 digits t ∧ t < 2 ^ 16

/-- The reader of ABORT messages takes exactly the documented texts. -/
def AbortMeets (s : Str) : Prop :=
  ∀ code, code ≠ .invalid → (errorMessageAbort s = code ↔ AbortText s code)

/-- The reader of WAIT messages takes exactly the documented texts. -/
def WaitMeets (s : Str) : Prop := ∀ t, errorMessageWait s = some t ↔ WaitText s t

/-- `ABORT:` and the number of a status code, but not with four digits, or with
something behind them. -/
def AbortSlack (s : Str) : Prop :=
  ∃ number rest value code, s = abortErrorString ++ (number ++ rest) ∧
    IsNumber 16 number (UInt16.toNat value) ∧ NoDigit 16 rest ∧ statusCode value = .ok code ∧
    code ≠ .operationInProgressAdditionalInfo ∧ (number.length ≠ 4 ∨ rest ≠ [])

/-- `WAIT:` and a number, with something behind it. -/
def WaitSlack (s : Str) : Prop :=
  ∃ number rest t, s = waitErrorString ++ (number ++ rest) ∧ IsNumber 10 number t ∧
    NoDigit 10 rest ∧ t < 2 ^ 16 ∧ rest ≠ []

theorem transmissible_of_statusCode {value : UInt16} {code : StatusCode}
    (h : statusCode value = .ok code) : code.Transmissible := by
  unfold statusCode at h
  split at h
  all_goals cases h
  all_goals exact ⟨by decide, by decide⟩

/-- A decimal digit is known by its value. -/
private theorem eq_of_digitValue {c : UInt8} {d : Nat} (h : digitValue c = d) (hd : d < 10) :
    c = UInt8.ofNat (48 + d) := by
  apply UInt8.toNat_inj.mp
  rw [UInt8.toNat_ofNat_of_lt' (show 48 + d < 256 by omega)]
  rw [digitValue] at h
  split at h
  · rename_i hdigit
    have hlow : 48 ≤ c.toNat := UInt8.le_iff_toNat_le.mp hdigit.1
    omega
  · split at h
    · rename_i hlower
      have hlow : 97 ≤ c.toNat := UInt8.le_iff_toNat_le.mp hlower.1
      omega
    · split at h
      · rename_i hupper
        have hlow : 65 ≤ c.toNat := UInt8.le_iff_toNat_le.mp hupper.1
        omega
      · omega

/-- The one text of the status code that the reader leaves out. -/
theorem abortText_additionalInfo_iff {s : Str} :
    AbortText s .operationInProgressAdditionalInfo ↔ s = str "ABORT:0004" := by
  constructor
  · rintro ⟨digits, value, rfl, hlength, hnumber, hcode⟩
    have hvalue : value = 4 := by
      unfold statusCode at hcode
      split at hcode
      all_goals cases hcode
      rfl
    subst hvalue
    obtain ⟨a, b, c, d, rfl⟩ := List.length_eq_four.mp hlength
    have hsum : ((digitValue a * 16 + digitValue b) * 16 + digitValue c) * 16 + digitValue d =
        4 := by
      simpa [digitsValue] using hnumber.2.2
    rw [eq_of_digitValue (show digitValue a = 0 by omega) (by omega),
      eq_of_digitValue (show digitValue b = 0 by omega) (by omega),
      eq_of_digitValue (show digitValue c = 0 by omega) (by omega),
      eq_of_digitValue (show digitValue d = 4 by omega) (by omega)]
    rfl
  · rintro rfl
    exact ⟨str "0004", 4, by decide, rfl, IsNumber.of_all rfl (by decide) rfl, rfl⟩

/-! ## The readers and the texts -/

/-- A number with nothing behind it, split at its digits. -/
private theorem split_unique {base : Nat} {number rest digits start : Str}
    (h : start ++ (number ++ rest) = start ++ digits)
    (hnumber : ∀ c ∈ number, digitValue c < base) (hrest : NoDigit base rest)
    (hdigits : ∀ c ∈ digits, digitValue c < base) : number = digits ∧ rest = [] := by
  have htail : number ++ rest = digits ++ [] := by
    rw [List.append_nil]
    exact List.append_cancel_left h
  exact leadingDigits_unique htail hnumber hdigits hrest (noDigit_nil base)

theorem waitMeets_iff (s : Str) : WaitMeets s ↔ ¬ WaitSlack s := by
  constructor
  · rintro hmeets ⟨number, rest, t, rfl, hnumber, hrest, hrange, hne⟩
    have hread := errorMessageWait_eq_some_iff.mpr
      ⟨number, rest, rfl, hnumber, hrest, hrange⟩
    obtain ⟨digits, heq, hdigits, -⟩ := (hmeets t).mp hread
    exact hne (split_unique heq hnumber.2.1 hrest hdigits.2.1).2
  · intro hslack t
    rw [errorMessageWait_eq_some_iff]
    constructor
    · rintro ⟨number, rest, rfl, hnumber, hrest, hrange⟩
      have hnil : rest = [] := by
        by_contra hne
        exact hslack ⟨number, rest, t, rfl, hnumber, hrest, hrange, hne⟩
      subst hnil
      exact ⟨number, by rw [List.append_nil], hnumber, hrange⟩
    · rintro ⟨digits, rfl, hdigits, hrange⟩
      exact ⟨digits, [], by rw [List.append_nil], hdigits, noDigit_nil 10, hrange⟩

theorem abortMeets_iff (s : Str) :
    AbortMeets s ↔ s ≠ str "ABORT:0004" ∧ ¬ AbortSlack s := by
  rw [ne_eq, ← abortText_additionalInfo_iff]
  constructor
  · intro hmeets
    constructor
    · intro htext
      obtain ⟨_, _, _, -, -, -, -, hne⟩ := (errorMessageAbort_eq_iff (by decide)).mp
        ((hmeets _ (by decide)).mpr htext)
      exact hne rfl
    · rintro ⟨number, rest, value, code, rfl, hnumber, hrest, hcode, hother, hslack⟩
      have hvalid := (transmissible_of_statusCode hcode).2
      have hread := (errorMessageAbort_eq_iff hvalid).mpr
        ⟨number, rest, value, rfl, hnumber, hrest, hcode, hother⟩
      obtain ⟨digits, _, heq, hlength, hdigits, -⟩ := (hmeets code hvalid).mp hread
      obtain ⟨rfl, rfl⟩ := split_unique heq hnumber.2.1 hrest hdigits.2.1
      rcases hslack with hne | hne
      · exact hne hlength
      · exact hne rfl
  · rintro ⟨hother, hslack⟩ code hcode
    rw [errorMessageAbort_eq_iff hcode]
    constructor
    · rintro ⟨number, rest, value, rfl, hnumber, hrest, hvalue, hne⟩
      have hexact : number.length = 4 ∧ rest = [] := by
        by_contra hnot
        exact hslack ⟨number, rest, value, code, rfl, hnumber, hrest, hvalue, hne,
          not_and_or.mp hnot⟩
      obtain ⟨hlength, rfl⟩ := hexact
      exact ⟨number, value, by rw [List.append_nil], hlength, hnumber, hvalue⟩
    · rintro ⟨digits, value, rfl, hlength, hdigits, hvalue⟩
      refine ⟨digits, [], value, by rw [List.append_nil], hdigits, noDigit_nil 16, hvalue, ?_⟩
      rintro rfl
      exact hother ⟨digits, value, rfl, hlength, hdigits, hvalue⟩

/-- What is written for a status code is read as an abort code. -/
theorem errorMessageAbort_abortErrorMessage (code : StatusCode) :
    errorMessageAbort (abortErrorMessage code) = abortStatusCode code.toUInt16.toNat := by
  have hread : fromChars 16 16 (hexadecimalWidth 4 code.toUInt16.toNat) =
      some code.toUInt16.toNat :=
    fromChars_eq_some_iff.mpr ⟨_, [], by rw [List.append_nil],
      isNumber_hexadecimalWidth 4 _, noDigit_nil 16, UInt16.toNat_lt _⟩
  rw [errorMessageAbort, abortErrorMessage,
    if_pos (List.isPrefixOf_iff_prefix.mpr (List.prefix_append _ _)),
    show (abortErrorString ++ hexadecimalWidth 4 code.toUInt16.toNat).drop 6 =
      hexadecimalWidth 4 code.toUInt16.toNat from rfl, hread]

/-- **ABORT and WAIT**: for each text, the readers take exactly the documented
ones if and only if it is not one of those that go on behind the number, or are
short of digits, and is not the code that the reader leaves out; every code but
this one, and every time, is read back from its text. -/
theorem error_message_grammar_iff (s : Str) (value t : UInt16) :
    (AbortMeets s ↔ s ≠ str "ABORT:0004" ∧ ¬ AbortSlack s) ∧
    (WaitMeets s ↔ ¬ WaitSlack s) ∧
    (∀ code, statusCode value = .ok code →
      (errorMessageAbort (abortErrorMessage code) = code ↔ code.toUInt16 ≠ 0x0004)) ∧
    (waitErrorMessage (Int.ofNat t.toNat)).map errorMessageWait = .ok (some t.toNat) := by
  refine ⟨abortMeets_iff s, waitMeets_iff s, ?_, ?_⟩
  · intro code hcode
    obtain ⟨hdeferred, hinvalid⟩ := transmissible_of_statusCode hcode
    rw [errorMessageAbort_abortErrorMessage]
    cases code with
    | operationDeferred => exact absurd rfl hdeferred
    | invalid => exact absurd rfl hinvalid
    | _ => decide
  · have hrange : t.toNat < 2 ^ 16 := t.toNat_lt
    have hread : errorMessageWait (waitErrorString ++ decimal t.toNat) = some t.toNat :=
      errorMessageWait_eq_some_iff.mpr
        ⟨decimal t.toNat, [], by rw [List.append_nil], isNumber_decimal _, noDigit_nil 10, hrange⟩
    have hsigned : 0 ≤ Int.ofNat t.toNat ∧ Int.ofNat t.toNat < 2 ^ 16 := by
      simp only [Int.ofNat_eq_natCast]
      omega
    rw [waitErrorMessage, if_pos hsigned]
    exact congrArg Except.ok hread

/-- A wait of five seconds, and something that is no digit. -/
theorem error_message_trailing :
    errorMessageWait (str "WAIT:5X") = some 5 ∧ ¬ WaitMeets (str "WAIT:5X") := by
  refine ⟨by decide, fun hmeets => ?_⟩
  obtain ⟨digits, heq, hdigits, -⟩ := (hmeets 5).mp (by decide)
  have htail : digits = str "5X" :=
    List.append_cancel_left (show waitErrorString ++ digits = waitErrorString ++ str "5X" from
      heq.symm)
  subst htail
  exact absurd (hdigits.2.1 88 (by decide)) (by decide)

end Arinc615a.Tftp
