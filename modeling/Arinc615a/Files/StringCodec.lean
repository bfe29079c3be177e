import Arinc615a.Files.Fields

/-!
# The string codec

`String_encode` with and without a fixed length, and `String_decode`: which
strings are written, and what the reader leaves behind.
-/

namespace Arinc615a.Files

open Readers Readers.Reader

/-- The length byte: the fixed length, or the raw size of the string. -/
def fieldLength (s : Str) (fixedLength : UInt8) : Nat :=
  if fixedLength ≠ 0 then fixedLength.toNat else rawStringSize s

/-- `String_encode` has room for the string and its NUL. -/
def Fits (s : Str) (fixedLength : UInt8) : Prop :=
  rawStringSize s < 255 ∧ (fixedLength ≠ 0 → rawStringSize s ≤ fixedLength.toNat)

theorem stringEncode_of_fits {s : Str} {fixedLength : UInt8} (h : Fits s fixedLength) :
    stringEncode s fixedLength = .ok (UInt8.ofNat (fieldLength s fixedLength) :: s ++
      List.replicate (fieldLength s fixedLength - s.length) 0) := by
  have hthrows : ¬ (255 ≤ rawStringSize s ∨
      (fixedLength ≠ 0 ∧ fixedLength.toNat < rawStringSize s)) := by
    rintro (hlong | ⟨hfixed, hlong⟩)
    · exact absurd h.1 (by omega)
    · exact absurd (h.2 hfixed) (by omega)
  rw [stringEncode, if_neg hthrows]
  rfl

theorem stringEncode_of_not_fits {s : Str} {fixedLength : UInt8} (h : ¬ Fits s fixedLength) :
    stringEncode s fixedLength = .error ⟨"string too long"⟩ := by
  refine if_pos ?_
  by_contra hroom
  rw [not_or, not_and] at hroom
  exact h ⟨by omega, fun hfixed => Nat.le_of_not_lt (hroom.2 hfixed)⟩

/-- The text is cut at the padding. -/
theorem takeWhile_padded {s : Str} (h : 0 ∉ s) (n : Nat) :
    (s ++ List.replicate n 0).takeWhile (· != 0) = s := by
  induction s with
  | nil =>
    cases n with
    | zero => rfl
    | succ n => rfl
  | cons c cs ih =>
    rw [List.mem_cons, not_or] at h
    rw [List.cons_append, List.takeWhile_cons_of_pos (by simpa using Ne.symm h.1), ih h.2]

theorem rawStringSize_cases (s : Str) :
    s = [] ∧ rawStringSize s = 0 ∨ rawStringSize s = s.length + 1 := by
  cases s with
  | nil => exact .inl ⟨rfl, rfl⟩
  | cons c cs => exact .inr rfl

/-- The field has room for the string and its NUL, or is a length byte of zero. -/
theorem Fits.room {s : Str} {fixedLength : UInt8} (h : Fits s fixedLength) :
    s = [] ∧ fieldLength s fixedLength = 0 ∨ s.length < fieldLength s fixedLength := by
  by_cases hfixed : fixedLength = 0
  · rw [fieldLength, if_neg (not_not.mpr hfixed)]
    rcases rawStringSize_cases s with ⟨hnil, hraw⟩ | hraw
    · exact .inl ⟨hnil, hraw⟩
    · exact .inr (by omega)
  · rw [fieldLength, if_pos hfixed]
    have hpos : fixedLength.toNat ≠ 0 := fun hzero => hfixed (UInt8.toNat_inj.mp hzero)
    have hle := h.2 hfixed
    rcases rawStringSize_cases s with ⟨rfl, -⟩ | hraw
    · exact .inr (Nat.pos_of_ne_zero hpos)
    · exact .inr (by omega)

/-- A string that fits is read back, whatever follows its field. -/
theorem parses_stringEncode_fits {s : Str} {fixedLength : UInt8} (hs : 0 ∉ s)
    (h : Fits s fixedLength) :
    ∃ bs, stringEncode s fixedLength = .ok bs ∧ Parses stringDecode bs s := by
  refine ⟨_, stringEncode_of_fits h, ?_⟩
  have hlt : fieldLength s fixedLength < 256 := by
    rw [fieldLength]
    split
    · exact fixedLength.toNat_lt
    · exact Nat.lt_trans h.1 (by omega)
  rcases h.room with ⟨rfl, hzero⟩ | hroom
  · rw [hzero]
    exact parses_empty_string
  · have hread := parses_string (UInt8.ofNat (fieldLength s fixedLength))
      (s ++ List.replicate (fieldLength s fixedLength - s.length) 0)
      (by
        rw [UInt8.toNat_ofNat_of_lt' hlt, List.length_append, List.length_replicate]
        omega)
      (List.mem_append_right _ (List.mem_replicate.mpr ⟨by omega, rfl⟩))
    rwa [takeWhile_padded hs, ← List.cons_append] at hread

/-- What is documented: a string of fewer than 255 characters, shorter than the
fixed length if there is one, is written and read back whatever follows it; any
other one is refused. -/
def CodecMeets (s : Str) (fixedLength : UInt8) : Prop :=
  if s.length < 255 ∧ (fixedLength = 0 ∨ s.length < fixedLength.toNat) then
    ∃ bs, stringEncode s fixedLength = .ok bs ∧
      ∀ rest, stringDecode (bs ++ rest) = .done (s, rest)
  else ∃ e, stringEncode s fixedLength = .error e

/-- Between what is documented and what has room is one length. -/
theorem fits_iff {s : Str} {fixedLength : UInt8} :
    Fits s fixedLength ↔
      (s.length < 255 ∧ (fixedLength = 0 ∨ s.length < fixedLength.toNat)) ∧
        ¬ s.length = 254 := by
  have hzero : fixedLength = 0 ↔ fixedLength.toNat = 0 :=
    ⟨fun h => by rw [h]; rfl, fun h => UInt8.toNat_inj.mp h⟩
  rw [Fits, ne_eq, hzero]
  rcases rawStringSize_cases s with ⟨rfl, hraw⟩ | hraw
  · rw [hraw, List.length_nil]
    omega
  · rw [hraw]
    omega

/-- **The string codec** meets its documentation for exactly the strings that
are not of 254 characters, where no fixed length or a fixed length of 255 is
given; and its reader throws or leaves less than it got. -/
theorem string_codec_iff (s : Str) (fixedLength : UInt8) (bs : List UInt8) :
    (0 ∉ s → (CodecMeets s fixedLength ↔
      ¬ (s.length = 254 ∧ (fixedLength = 0 ∨ fixedLength = 255)))) ∧
    ((∃ e, stringDecode bs = .thrown e) ∨
      ∃ t consumed rest, stringDecode bs = .done (t, rest) ∧ consumed ≠ [] ∧
        bs = consumed ++ rest) := by
  constructor
  · intro hs
    have hmax : fixedLength = 255 ↔ 254 < fixedLength.toNat := by
      rw [← UInt8.toNat_inj, show (255 : UInt8).toNat = 255 from rfl]
      have hlt := fixedLength.toNat_lt
      omega
    by_cases hdoc : s.length < 255 ∧ (fixedLength = 0 ∨ s.length < fixedLength.toNat)
    · rw [CodecMeets, if_pos hdoc]
      by_cases hlength : s.length = 254
      · rw [stringEncode_of_not_fits fun h => (fits_iff.mp h).2 hlength]
        refine iff_of_false (by simp) (not_not.mpr ⟨hlength, ?_⟩)
        rw [hmax, ← hlength]
        exact hdoc.2
      · exact iff_of_true (parses_stringEncode_fits hs (fits_iff.mpr ⟨hdoc, hlength⟩))
          fun h => hlength h.1
    · rw [CodecMeets, if_neg hdoc, stringEncode_of_not_fits fun h => hdoc (fits_iff.mp h).1]
      refine iff_of_true ⟨_, rfl⟩ ?_
      rintro ⟨hlength, hfixed⟩
      rw [hmax, ← hlength] at hfixed
      exact hdoc ⟨by omega, hfixed⟩
  · cases hread : stringDecode bs with
    | thrown e => exact .inl ⟨e, rfl⟩
    | overrun => exact absurd hread (safe_stringDecode bs)
    | done result =>
      obtain ⟨t, rest⟩ := result
      right
      rcases stringDecode_done hread with ⟨hbs, -⟩ | ⟨length, body, hbs, -⟩
      · exact ⟨t, [0], rest, rfl, by simp, hbs⟩
      · exact ⟨t, length :: body, rest, rfl, by simp, hbs⟩

/-- A string of 254 characters has room with its NUL, and is refused. -/
theorem string_codec_254 : ¬ ∀ s fixedLength, 0 ∉ s → CodecMeets s fixedLength := by
  intro h
  obtain ⟨s, hs⟩ : ∃ s : Str, s = List.replicate 254 65 := ⟨_, rfl⟩
  have hlength : s.length = 254 := by rw [hs, List.length_replicate]
  have hraw : rawStringSize s = 255 := by
    rcases rawStringSize_cases s with ⟨rfl, -⟩ | hraw
    · cases hlength
    · rw [hraw, hlength]
  have hmeets := h s 0 fun hnul =>
    absurd (List.eq_of_mem_replicate (hs ▸ hnul)) (by decide)
  rw [CodecMeets, if_pos ⟨by omega, .inl rfl⟩] at hmeets
  obtain ⟨bs, hwrite, -⟩ := hmeets
  rw [stringEncode, if_pos (.inl hraw.ge)] at hwrite
  cases hwrite

end Arinc615a.Files
