import Arinc615a.Text
import Arinc615a.Information
import Arinc615a.Lib.BigEndian
import Arinc615a.Lib.Grammar

/-!
# The fields of protocol files

Integers, strings and ratios: the readers and writers that all protocol files
are made of (`files/String.cpp`, `files/Ratio.cpp`, and `RawData_getInt`,
`RawData_setInt` of the helper library).

`RawData_getInt` requires the bytes it reads and does not check for them; the
string and the ratio reader check before they read. For each reader this module
says which bytes it consumes (`parses_..._iff`) and when it overruns.
-/

namespace Arinc615a.Files

open Readers Readers.Reader BigEndian
open Information (Ratio)

/-- The readers of this library throw `Arinc615aException`. -/
abbrev Decoder (α : Type) := Reader Arinc615aException α

/-! ## Integers -/

/-- `RawData_getInt< uint8_t >`. -/
def getUInt8 : Decoder UInt8 := do
  let bytes ← take 1
  pure (UInt8.ofNat (beNat bytes))

/-- `RawData_getInt< uint16_t >`. -/
def getUInt16 : Decoder UInt16 := do
  let bytes ← take 2
  pure (UInt16.ofNat (beNat bytes))

/-- `RawData_getInt< int16_t >`. -/
def getInt16 : Decoder Int16 := do
  let bytes ← take 2
  pure (UInt16.ofNat (beNat bytes)).toInt16

/-- `RawData_getInt< uint32_t >`. -/
def getUInt32 : Decoder UInt32 := do
  let bytes ← take 4
  pure (UInt32.ofNat (beNat bytes))

/-- `RawData_setInt` of an `uint16_t`. -/
def setUInt16 (value : UInt16) : RawData := beBytes 2 value.toNat

/-- `RawData_setInt` of an `int16_t`. -/
def setInt16 (value : Int16) : RawData := beBytes 2 value.toUInt16.toNat

/-- `RawData_setInt` of an `uint32_t`. -/
def setUInt32 (value : UInt32) : RawData := beBytes 4 value.toNat

/-- An integer read is a fixed number of bytes and a function of them. -/
private theorem parses_getInt_iff {α : Type} {n : Nat} {f : List UInt8 → α}
    {bs : RawData} {a : α} :
    Parses (take n >>= fun bytes => pure (f bytes) : Decoder α) bs a ↔
      bs.length = n ∧ a = f bs := by
  rw [parses_bind_iff (regular_take n) fun _ => regular_pure _]
  constructor
  · intro h
    rcases h with ⟨p, b, q, rfl, hp, hq⟩
    obtain ⟨hlen, rfl⟩ := parses_take_iff.mp hp
    obtain ⟨rfl, rfl⟩ := parses_pure_iff.mp hq
    simpa using hlen
  · intro h
    rcases h with ⟨hlen, rfl⟩
    exact ⟨bs, bs, [], by simp, parses_take_iff.mpr ⟨hlen, rfl⟩, parses_pure _⟩

private theorem regular_getInt {α : Type} (n : Nat) (f : List UInt8 → α) :
    Regular (take n >>= fun bytes => pure (f bytes) : Decoder α) :=
  regular_bind (regular_take n) fun _ => regular_pure _

private theorem language_getInt {α : Type} (n : Nat) (f : List UInt8 → α) :
    language (take n >>= fun bytes => pure (f bytes) : Decoder α) = exactly n := by
  rw [language_bind (regular_take n) (fun _ => regular_pure _) fun _ => language_pure _,
    language_take, mul_one]

private theorem overruns_getInt {α : Type} (n : Nat) (f : List UInt8 → α) :
    overruns (take n >>= fun bytes => pure (f bytes) : Decoder α) = shorter n := by
  rw [overruns_bind_of_safe (regular_take n) fun _ => safe_pure _, overruns_take]

theorem regular_getUInt8 : Regular getUInt8 := regular_getInt 1 _

theorem regular_getUInt16 : Regular getUInt16 := regular_getInt 2 _

theorem regular_getInt16 : Regular getInt16 := regular_getInt 2 _

theorem parses_getUInt8_iff {bs : RawData} {v : UInt8} :
    Parses getUInt8 bs v ↔ bs.length = 1 ∧ v = UInt8.ofNat (beNat bs) :=
  parses_getInt_iff

theorem parses_getUInt16_iff {bs : RawData} {v : UInt16} :
    Parses getUInt16 bs v ↔ bs.length = 2 ∧ v = UInt16.ofNat (beNat bs) :=
  parses_getInt_iff

theorem parses_getInt16_iff {bs : RawData} {v : Int16} :
    Parses getInt16 bs v ↔ bs.length = 2 ∧ v = (UInt16.ofNat (beNat bs)).toInt16 :=
  parses_getInt_iff

theorem parses_getUInt32_iff {bs : RawData} {v : UInt32} :
    Parses getUInt32 bs v ↔ bs.length = 4 ∧ v = UInt32.ofNat (beNat bs) :=
  parses_getInt_iff

theorem language_getUInt16 : language getUInt16 = exactly 2 := language_getInt 2 _

theorem language_getInt16 : language getInt16 = exactly 2 := language_getInt 2 _

theorem overruns_getUInt8 : overruns getUInt8 = shorter 1 := overruns_getInt 1 _

theorem overruns_getUInt16 : overruns getUInt16 = shorter 2 := overruns_getInt 2 _

theorem overruns_getInt16 : overruns getInt16 = shorter 2 := overruns_getInt 2 _

@[simp] theorem length_setUInt16 (v : UInt16) : (setUInt16 v).length = 2 :=
  length_beBytes 2 _

@[simp] theorem length_setInt16 (v : Int16) : (setInt16 v).length = 2 :=
  length_beBytes 2 _

@[simp] theorem length_setUInt32 (v : UInt32) : (setUInt32 v).length = 4 :=
  length_beBytes 4 _

theorem beNat_setUInt16 (v : UInt16) : beNat (setUInt16 v) = v.toNat :=
  beNat_beBytes_of_lt (UInt16.toNat_lt v)

theorem parses_setUInt16 (v : UInt16) : Parses getUInt16 (setUInt16 v) v :=
  parses_getUInt16_iff.mpr ⟨length_setUInt16 v, by
    rw [beNat_setUInt16, UInt16.ofNat_toNat]⟩

theorem parses_setInt16 (v : Int16) : Parses getInt16 (setInt16 v) v := by
  refine parses_getInt16_iff.mpr ⟨length_setInt16 v, ?_⟩
  have hval : beNat (setInt16 v) = v.toUInt16.toNat :=
    beNat_beBytes_of_lt (UInt16.toNat_lt _)
  rw [hval, UInt16.ofNat_toNat, Int16.toInt16_toUInt16]

/-! ## Strings -/

/-- `String_decode`. -/
def stringDecode : Decoder Str := do
  let rawData ← remaining
  if rawData.isEmpty then
    throw ⟨"invalid start and end supplied"⟩
  else do
    let stringLength ← getUInt8
    -- Every read is checked for from here on.
    let rawData ← remaining
    if rawData.length < stringLength.toNat then
      throw ⟨"string length inconsistent"⟩
    else if 0 < stringLength then do
      -- `RawData_getString`
      let decodedString ← take stringLength.toNat
      if decodedString.contains 0 then
        pure (decodedString.takeWhile (· != 0))
      else
        throw ⟨"string not NULL terminated"⟩
    else
      pure []

/-- The size of a string with its NUL; the empty string has none. -/
def rawStringSize (s : Str) : Nat := if s.isEmpty then 0 else s.length + 1

/-- `String_encode`. The buffer starts as zeros. -/
def stringEncode (stringToEncode : Str) (fixedLength : UInt8) :
    Except Arinc615aException RawData :=
  if 255 ≤ rawStringSize stringToEncode ∨
      (fixedLength ≠ 0 ∧ fixedLength.toNat < rawStringSize stringToEncode) then
    .error ⟨"string too long"⟩
  else
    let length :=
      if fixedLength ≠ 0 then fixedLength.toNat else rawStringSize stringToEncode
    .ok (UInt8.ofNat length :: stringToEncode ++
      List.replicate (length - stringToEncode.length) 0)

/-- The bytes of a string field: a zero length, or a length, that many bytes
and a NUL among them. -/
def stringField : Language UInt8 :=
  {bs | bs = [0] ∨
    ∃ length body, bs = length :: body ∧ body.length = length.toNat ∧ 0 ∈ body}

/-- `String_decode` on a span of at least one byte. -/
private theorem stringDecode_cons (length : UInt8) (bs : RawData) :
    stringDecode (length :: bs) =
      if bs.length < length.toNat then .thrown ⟨"string length inconsistent"⟩
      else if 0 < length then
        if (bs.take length.toNat).contains 0 then
          .done ((bs.take length.toNat).takeWhile (· != 0), bs.drop length.toNat)
        else .thrown ⟨"string not NULL terminated"⟩
      else .done ([], bs) := by
  have hget : getUInt8 (length :: bs) = .done (length, bs) := by
    simp [getUInt8, bind_apply, take, beNat]
  simp only [stringDecode, bind_apply, remaining_apply, Outcome.bind_done,
    List.isEmpty_cons, Bool.false_eq_true, if_false, hget]
  split
  · rfl
  · rename_i hlen
    split
    · have htake : (take length.toNat : Decoder RawData) bs
          = .done (bs.take length.toNat, bs.drop length.toNat) := by
        rw [take, if_neg hlen]
      simp only [bind_apply, htake, Outcome.bind_done]
      split <;> rfl
    · rfl

/-- The string reader checks every read it makes. -/
theorem safe_stringDecode : Safe stringDecode := by
  intro bs
  cases bs with
  | nil => simp [stringDecode, bind_apply]
  | cons length bs =>
    rw [stringDecode_cons]
    repeat' split
    all_goals simp

/-- A string reader that is done consumed a string field. -/
theorem stringDecode_done {bs rest : RawData} {s : Str}
    (h : stringDecode bs = .done (s, rest)) :
    (bs = 0 :: rest ∧ s = []) ∨
      ∃ length body, bs = length :: body ++ rest ∧ body.length = length.toNat ∧
        0 ∈ body ∧ s = body.takeWhile (· != 0) := by
  cases bs with
  | nil => simp [stringDecode, bind_apply] at h
  | cons length bs =>
    rw [stringDecode_cons] at h
    split at h
    · cases h
    · rename_i hlen
      split at h
      · split at h
        · rename_i hnul
          simp only [Outcome.done.injEq, Prod.mk.injEq] at h
          obtain ⟨rfl, rfl⟩ := h
          refine .inr ⟨length, bs.take length.toNat, ?_, ?_, by simpa using hnul, rfl⟩
          · rw [List.cons_append, List.take_append_drop]
          · exact List.length_take_of_le (by omega)
        · cases h
      · rename_i hzero
        simp only [Outcome.done.injEq, Prod.mk.injEq] at h
        obtain ⟨rfl, rfl⟩ := h
        have hz : length = 0 := by
          apply UInt8.toNat_inj.mp
          simpa [UInt8.lt_iff_toNat_lt] using hzero
        exact .inl ⟨by rw [hz], rfl⟩

theorem parses_empty_string : Parses stringDecode [0] [] := by
  intro rest
  rw [List.singleton_append, stringDecode_cons]
  simp

theorem parses_string (length : UInt8) (body : RawData)
    (hlen : body.length = length.toNat) (hnul : 0 ∈ body) :
    Parses stringDecode (length :: body) (body.takeWhile (· != 0)) := by
  intro rest
  have hpos : 0 < length := by
    rw [UInt8.lt_iff_toNat_lt, ← hlen]
    exact List.length_pos_of_mem hnul
  rw [List.cons_append, stringDecode_cons, ← hlen, if_neg (by simp), if_pos hpos,
    List.take_left, List.drop_left, if_pos (by simpa using hnul)]

theorem regular_stringDecode : Regular stringDecode := by
  intro bs s rest h
  rcases stringDecode_done h with ⟨rfl, rfl⟩ | ⟨length, body, rfl, hlen, hnul, rfl⟩
  · exact ⟨[0], rfl, parses_empty_string⟩
  · exact ⟨length :: body, rfl, parses_string length body hlen hnul⟩

/-- The string reader accepts exactly the string fields. -/
theorem language_stringDecode : language stringDecode = stringField := by
  ext bs
  constructor
  · intro hparts
    rcases hparts with ⟨s, h⟩
    rcases stringDecode_done h.whole with ⟨hbs, -⟩ | ⟨length, body, hbs, hlen, hnul, -⟩
    · exact .inl hbs
    · exact .inr ⟨length, body, by simpa using hbs, hlen, hnul⟩
  · intro hparts
    rcases hparts with rfl | ⟨length, body, rfl, hlen, hnul⟩
    · exact ⟨[], parses_empty_string⟩
    · exact ⟨_, parses_string length body hlen hnul⟩

/-- A string field, and then what follows it. -/
theorem language_string {β : Type} {k : Str → Decoder β} {L : Language UInt8}
    (hk : ∀ s, Regular (k s)) (h : ∀ s, language (k s) = L) :
    language (stringDecode >>= k) = stringField * L := by
  rw [language_bind regular_stringDecode hk h, language_stringDecode]

theorem overruns_string {β : Type} {k : Str → Decoder β} {L : Language UInt8}
    (h : ∀ s, overruns (k s) = L) : overruns (stringDecode >>= k) = stringField * L := by
  rw [overruns_safe_bind regular_stringDecode safe_stringDecode h, language_stringDecode]

/-- The strings that `String_encode` accepts without a fixed length. -/
def StringAccepted (s : Str) : Prop := rawStringSize s < 255

theorem stringAccepted_nil : StringAccepted [] := by
  unfold StringAccepted
  decide

theorem stringEncode_ok {s : Str} (h : StringAccepted s) :
    stringEncode s 0 = .ok (UInt8.ofNat (rawStringSize s) :: s ++
      List.replicate (rawStringSize s - s.length) 0) := by
  unfold StringAccepted at h
  simp [stringEncode, show ¬ 255 ≤ rawStringSize s by omega]

theorem stringEncode_eq_ok {s : Str} {bs : RawData} (h : stringEncode s 0 = .ok bs) :
    StringAccepted s := by
  unfold stringEncode at h
  split at h
  · cases h
  · rename_i hs
    unfold StringAccepted
    omega

/-- An encoded string takes its length byte and its raw size. -/
theorem length_stringEncode {s : Str} {bs : RawData}
    (h : stringEncode s 0 = .ok bs) : bs.length = 1 + rawStringSize s := by
  rw [stringEncode_ok (stringEncode_eq_ok h), Except.ok.injEq] at h
  subst h
  have hle : s.length ≤ rawStringSize s := by
    unfold rawStringSize
    split <;> simp_all
  simp only [List.length_append, List.length_cons, List.length_replicate]
  omega

/-- What a decoder takes of a string: what stands before its first NUL. -/
def cut (s : Str) : Str := s.takeWhile (· != 0)

theorem cut_cons (c : UInt8) (cs : Str) : cut (c :: cs) = if c = 0 then [] else c :: cut cs := by
  by_cases h : c = 0 <;> simp [cut, h]

theorem cut_eq {s : Str} (h : 0 ∉ s) : cut s = s := by
  induction s with
  | nil => rfl
  | cons c cs ih =>
    rw [List.mem_cons, not_or] at h
    rw [cut_cons, if_neg (Ne.symm h.1), ih h.2]

/-- A NUL behind a string cuts nothing more. -/
theorem cut_append_nul (s : Str) : cut (s ++ [0]) = cut s := by
  induction s with
  | nil => rfl
  | cons c cs ih => rw [List.cons_append, cut_cons, cut_cons, ih]

/-- An encoded string is read back up to its first NUL, whatever follows it. -/
theorem parses_stringEncode_cut {s : Str} {bs : RawData} (h : stringEncode s 0 = .ok bs) :
    Parses stringDecode bs (cut s) := by
  have hacc : StringAccepted s := stringEncode_eq_ok h
  rw [stringEncode_ok hacc, Except.ok.injEq] at h
  subst h
  cases s with
  | nil => exact parses_empty_string
  | cons c cs =>
    have hsize : rawStringSize (c :: cs) = (c :: cs).length + 1 := rfl
    have hone : rawStringSize (c :: cs) - (c :: cs).length = 1 := by omega
    have hlt : rawStringSize (c :: cs) < 256 := by
      unfold StringAccepted at hacc
      omega
    rw [hone]
    -- What was written is the text and its NUL, which ends it again.
    have hread := parses_string (UInt8.ofNat (rawStringSize (c :: cs))) (c :: cs ++ [0])
      (by rw [UInt8.toNat_ofNat_of_lt' hlt]; simp [hsize]) (by simp)
    rw [← cut, cut_append_nul] at hread
    simpa using hread

/-- One without NUL is read back as itself. -/
theorem parses_stringEncode {s : Str} {bs : RawData} (hs : 0 ∉ s)
    (h : stringEncode s 0 = .ok bs) : Parses stringDecode bs s := by
  have hread := parses_stringEncode_cut h
  rwa [cut_eq hs] at hread

/-! ## Ratios -/

/-- `Ratio_decode`. -/
def ratioDecode : Decoder Ratio := do
  let rawData ← remaining
  if rawData.length < 3 then
    throw ⟨"Ratio string size invalid"⟩
  else do
    -- `RawData_getString`
    let ratioStr ← take 3
    match stoul ratioStr with
    -- The exceptions of `std::stoul` are caught and thrown on.
    | none => throw ⟨"stoul"⟩
    | some number =>
      -- `static_cast< unsigned int >`
      let ratio := number % 2 ^ 32
      if h : ratio ≤ 100 then pure ⟨ratio, h⟩
      else throw ⟨"Ratio value out of range"⟩

/-- `Ratio_encode`. -/
def ratioEncode (ratio : Ratio) : RawData := decimalWidth 3 ratio.value

/-- The value of the three bytes of a ratio. -/
def ratioValue (bs : RawData) : Option Nat := (stoul bs).map (· % 2 ^ 32)

/-- The bytes of a ratio field: three, that read as a number up to 100. -/
def ratioField : Language UInt8 :=
  {bs | bs.length = 3 ∧ ∃ v, ratioValue bs = some v ∧ v ≤ 100}

private theorem ratioDecode_append {bs rest : RawData} (h : bs.length = 3) :
    ratioDecode (bs ++ rest) =
      match ratioValue bs with
      | none => .thrown ⟨"stoul"⟩
      | some v => if h : v ≤ 100 then .done (⟨v, h⟩, rest)
          else .thrown ⟨"Ratio value out of range"⟩ := by
  have htake : (take 3 : Decoder RawData) (bs ++ rest) = .done (bs, rest) :=
    (parses_take_iff.mpr ⟨h, rfl⟩) rest
  have hlen : ¬ (bs ++ rest).length < 3 := by
    rw [List.length_append]
    omega
  simp only [ratioDecode, bind_apply, remaining_apply, Outcome.bind_done, if_neg hlen,
    htake, ratioValue]
  cases stoul bs with
  | none => rfl
  | some number =>
    simp only [Option.map_some]
    split <;> rfl

private theorem ratioDecode_short {bs : RawData} (h : bs.length < 3) :
    ratioDecode bs = .thrown ⟨"Ratio string size invalid"⟩ := by
  simp [ratioDecode, bind_apply, h]

private theorem split_three {bs : RawData} (h : ¬ bs.length < 3) :
    ∃ p q, bs = p ++ q ∧ p.length = 3 :=
  ⟨bs.take 3, bs.drop 3, (List.take_append_drop 3 bs).symm,
    List.length_take_of_le (by omega)⟩

/-- The ratio reader checks every read it makes. -/
theorem safe_ratioDecode : Safe ratioDecode := by
  intro bs
  by_cases h : bs.length < 3
  · simp [ratioDecode_short h]
  · obtain ⟨p, q, rfl, hp⟩ := split_three h
    rw [ratioDecode_append hp]
    split
    · simp
    · split <;> simp

theorem parses_ratioDecode_iff {bs : RawData} {r : Ratio} :
    Parses ratioDecode bs r ↔ bs.length = 3 ∧ ratioValue bs = some r.value := by
  constructor
  · intro h
    have hw := h.whole
    by_cases hs : bs.length < 3
    · rw [ratioDecode_short hs] at hw
      cases hw
    · obtain ⟨p, q, rfl, hp⟩ := split_three hs
      rw [ratioDecode_append hp] at hw
      split at hw
      · cases hw
      · split at hw
        · simp only [Outcome.done.injEq, Prod.mk.injEq] at hw
          obtain ⟨rfl, rfl⟩ := hw
          rw [List.append_nil]
          exact ⟨hp, by assumption⟩
        · cases hw
  · intro hparts rest
    rcases hparts with ⟨hlen, hval⟩
    rw [ratioDecode_append hlen, hval]
    simp [r.in_range]

theorem regular_ratioDecode : Regular ratioDecode := by
  intro bs r rest h
  by_cases hs : bs.length < 3
  · rw [ratioDecode_short hs] at h
    cases h
  · obtain ⟨p, q, rfl, hp⟩ := split_three hs
    rw [ratioDecode_append hp] at h
    split at h
    · cases h
    · split at h
      · simp only [Outcome.done.injEq, Prod.mk.injEq] at h
        obtain ⟨rfl, rfl⟩ := h
        exact ⟨p, rfl, parses_ratioDecode_iff.mpr ⟨hp, by assumption⟩⟩
      · cases h

/-- The ratio reader accepts exactly the ratio fields. -/
theorem language_ratioDecode : language ratioDecode = ratioField := by
  ext bs
  constructor
  · intro hparts
    rcases hparts with ⟨r, h⟩
    obtain ⟨hlen, hval⟩ := parses_ratioDecode_iff.mp h
    exact ⟨hlen, r.value, hval, r.in_range⟩
  · intro hparts
    rcases hparts with ⟨hlen, v, hval, hv⟩
    exact ⟨⟨v, hv⟩, parses_ratioDecode_iff.mpr ⟨hlen, hval⟩⟩

/-- A ratio field, and then what follows it. -/
theorem language_ratio {β : Type} {k : Ratio → Decoder β} {L : Language UInt8}
    (hk : ∀ r, Regular (k r)) (h : ∀ r, language (k r) = L) :
    language (ratioDecode >>= k) = ratioField * L := by
  rw [language_bind regular_ratioDecode hk h, language_ratioDecode]

theorem overruns_ratio {β : Type} {k : Ratio → Decoder β} {L : Language UInt8}
    (h : ∀ r, overruns (k r) = L) : overruns (ratioDecode >>= k) = ratioField * L := by
  rw [overruns_safe_bind regular_ratioDecode safe_ratioDecode h, language_ratioDecode]

/-- A ratio of up to three digits fills its field exactly. -/
theorem length_ratioEncode (r : Ratio) : (ratioEncode r).length = 3 := by
  have hr : r.value ≤ 100 := r.in_range
  have hdec : (decimal r.value).length ≤ 3 := by
    unfold decimal
    split
    · simp
    · rw [List.length_map, List.length_reverse]
      exact (Nat.digits_length_le_iff (by omega) _).mpr (by omega)
  rw [ratioEncode, decimalWidth, List.length_append, List.length_replicate]
  omega

/-- An encoded ratio is read back. -/
theorem parses_ratioEncode (r : Ratio) : Parses ratioDecode (ratioEncode r) r := by
  have hr : r.value ≤ 100 := r.in_range
  refine parses_ratioDecode_iff.mpr ⟨length_ratioEncode r, ?_⟩
  rw [ratioValue, ratioEncode, stoul_decimalWidth (by omega), Option.map_some,
    Nat.mod_eq_of_lt (by omega)]

end Arinc615a.Files
