import Arinc615a.Files.ProtocolFile

/-!
# The load configuration list

`files/information/LoadConfigurationListFile.cpp`: two nested counted loops
over strings. The encoder and the decoder are inverse on the content of the
file; the frame of the decoder refuses content shorter than 13 bytes, which the
encoder produces for short lists.
-/

namespace Arinc615a.Files

open Readers Readers.Reader
open Information (PartNumber TargetHardware)

/-- `LoadConfigurationListFile`. -/
structure LoadConfigurationListFile where
  protocolVersion : Arinc615aVersion := .arinc615a34
  targetsHardware : List TargetHardware := []
  deriving DecidableEq

/-- The part number fields of the encoder's inner loop. -/
def encodePartNumber (partNumber : PartNumber) : Except Arinc615aException RawData := do
  let rawPartNumber ← stringEncode partNumber.partNumber 0
  let rawAmendment ← stringEncode partNumber.amendment 0
  let rawPartDesignationText ← stringEncode partNumber.partDesignation 0
  .ok (rawPartNumber ++ rawAmendment ++ rawPartDesignationText)

/-- A target hardware of the encoder's outer loop. -/
def encodeTargetHardware (thw : TargetHardware) : Except Arinc615aException RawData := do
  let rawTargetHardwareCode ← stringEncode thw.literalName 0
  let rawSerialNumber ← stringEncode thw.serialNumber 0
  if 65535 < thw.partNumbers.length then
    .error ⟨"More Part Numbers than allowed"⟩
  else do
    let rawPartNumbers ← writeEach encodePartNumber thw.partNumbers
    .ok (rawTargetHardwareCode ++ rawSerialNumber ++
      setUInt16 (UInt16.ofNat thw.partNumbers.length) ++ rawPartNumbers)

/-- `LoadConfigurationListFile::encode`. -/
def LoadConfigurationListFile.encode (file : LoadConfigurationListFile) :
    Except Arinc615aException RawData :=
  if 65535 < file.targetsHardware.length then
    .error ⟨"More THW IDs than allowed"⟩
  else do
    let rawTargetsHardware ← writeEach encodeTargetHardware file.targetsHardware
    .ok (insertHeader file.protocolVersion
      (setUInt16 (UInt16.ofNat file.targetsHardware.length) ++ rawTargetsHardware))

/-- The inner loop of the decoder. -/
def decodePartNumber : Decoder PartNumber := do
  let partNumber ← stringDecode
  let amendment ← stringDecode
  let partDesignation ← stringDecode
  pure ⟨partNumber, amendment, partDesignation⟩

/-- The outer loop of the decoder. -/
def decodeTargetHardware : Decoder TargetHardware := do
  let literalName ← stringDecode
  let serialNumber ← stringDecode
  -- Unchecked: the strings may have used up the data.
  let partNumbersCount ← getUInt16
  let partNumbers ← times partNumbersCount.toNat decodePartNumber
  pure ⟨literalName, serialNumber, partNumbers⟩

/-- `LoadConfigurationListFile::decode`. The decoded entries are appended to
the list of the object. -/
def LoadConfigurationListFile.decode (self : LoadConfigurationListFile) :
    Decoder LoadConfigurationListFile :=
  decodeFile (headerSize + 13) "Protocol file to small" fun protocolVersion => do
    let targetHardwareCount ← getUInt16
    let targetsHardware ← times targetHardwareCount.toNat decodeTargetHardware
    noMoreData "More data then expected"
    pure ⟨protocolVersion, self.targetsHardware ++ targetsHardware⟩

/-! ## What is written is read back -/

/-- A string that survives: no NUL, and accepted by `String_encode`. -/
def StringOk (s : Str) : Prop := 0 ∉ s ∧ StringAccepted s

/-- The string fields of a part number are sound. -/
def PartNumberOk (p : PartNumber) : Prop :=
  StringOk p.partNumber ∧ StringOk p.amendment ∧ StringOk p.partDesignation

/-- The string fields of an entry are sound and the number of its part numbers
fits its field. -/
def TargetHardwareOk (thw : TargetHardware) : Prop :=
  StringOk thw.literalName ∧ StringOk thw.serialNumber ∧
    thw.partNumbers.length ≤ 65535 ∧ ∀ p ∈ thw.partNumbers, PartNumberOk p

/-- A list that the encoder accepts, of NUL-free strings. -/
def LoadConfigurationListFile.Ok (file : LoadConfigurationListFile) : Prop :=
  file.targetsHardware.length ≤ 65535 ∧
    ∀ thw ∈ file.targetsHardware, TargetHardwareOk thw

/-- The size of an encoded string. -/
def stringSize (s : Str) : Nat := 1 + rawStringSize s

def partNumberSize (p : PartNumber) : Nat :=
  stringSize p.partNumber + stringSize p.amendment + stringSize p.partDesignation

def targetHardwareSize (thw : TargetHardware) : Nat :=
  stringSize thw.literalName + stringSize thw.serialNumber + 2 +
    (thw.partNumbers.map partNumberSize).sum

/-- The size of the encoded file: header, count and entries. -/
def LoadConfigurationListFile.size (file : LoadConfigurationListFile) : Nat :=
  headerSize + 2 + (file.targetsHardware.map targetHardwareSize).sum

theorem encodePartNumber_eq_ok {p : PartNumber} {bs : RawData} :
    encodePartNumber p = .ok bs ↔
      ∃ a b c, stringEncode p.partNumber 0 = .ok a ∧ stringEncode p.amendment 0 = .ok b ∧
        stringEncode p.partDesignation 0 = .ok c ∧ bs = a ++ b ++ c := by
  unfold encodePartNumber
  cases stringEncode p.partNumber 0 <;> cases stringEncode p.amendment 0 <;>
    cases stringEncode p.partDesignation 0 <;>
    simp [bind, Except.bind, eq_comm]

theorem encodeTargetHardware_eq_ok {thw : TargetHardware} {bs : RawData} :
    encodeTargetHardware thw = .ok bs ↔
      thw.partNumbers.length ≤ 65535 ∧
      ∃ a b c, stringEncode thw.literalName 0 = .ok a ∧
        stringEncode thw.serialNumber 0 = .ok b ∧
        writeEach encodePartNumber thw.partNumbers = .ok c ∧
        bs = a ++ b ++ setUInt16 (UInt16.ofNat thw.partNumbers.length) ++ c := by
  unfold encodeTargetHardware
  cases stringEncode thw.literalName 0 <;> cases stringEncode thw.serialNumber 0 <;>
    cases writeEach encodePartNumber thw.partNumbers <;>
    by_cases hlen : 65535 < thw.partNumbers.length <;>
    simp [bind, Except.bind, hlen, Nat.not_lt.mp, eq_comm]

/-- The count of a list that fits its field. -/
theorem toNat_ofNat_count {n : Nat} (h : n ≤ 65535) : (UInt16.ofNat n).toNat = n :=
  UInt16.toNat_ofNat_of_lt' (Nat.lt_succ_of_le h)

/-- A count and that many records, to the end of the data. -/
theorem decode_counted {α β : Type} {record : Decoder α} {records : List α} {bs : RawData}
    {message : String} {make : List α → β} (hcount : records.length ≤ 65535)
    (h : Parses (times records.length record) bs records) :
    (do
      let count ← getUInt16
      let records ← times count.toNat record
      noMoreData message
      pure (make records) : Decoder β)
      (setUInt16 (UInt16.ofNat records.length) ++ bs) = .done (make records, []) := by
  have hread := parses_setUInt16 (UInt16.ofNat records.length)
  simp only [bind_apply, hread bs, Outcome.bind_done, toNat_ofNat_count hcount, h.whole,
    noMoreData_nil, pure_apply]

theorem parses_encodePartNumber {p : PartNumber} (hp : PartNumberOk p) {bs : RawData}
    (h : encodePartNumber p = .ok bs) : Parses decodePartNumber bs p := by
  obtain ⟨⟨ha, -⟩, ⟨hb, -⟩, ⟨hc, -⟩⟩ := hp
  obtain ⟨a, b, c, hea, heb, hec, rfl⟩ := encodePartNumber_eq_ok.mp h
  intro rest
  simp only [decodePartNumber, bind_apply, List.append_assoc,
    parses_stringEncode ha hea (b ++ (c ++ rest)), parses_stringEncode hb heb (c ++ rest),
    parses_stringEncode hc hec rest, Outcome.bind_done, pure_apply]

theorem parses_encodeTargetHardware {thw : TargetHardware} (ht : TargetHardwareOk thw)
    {bs : RawData} (h : encodeTargetHardware thw = .ok bs) :
    Parses decodeTargetHardware bs thw := by
  obtain ⟨⟨ha, -⟩, ⟨hb, -⟩, hlen, hparts⟩ := ht
  obtain ⟨-, a, b, c, hea, heb, hec, rfl⟩ := encodeTargetHardware_eq_ok.mp h
  have hcount := parses_setUInt16 (UInt16.ofNat thw.partNumbers.length)
  have hloop : Parses (times thw.partNumbers.length decodePartNumber) c thw.partNumbers :=
    parses_writeEach (fun p hp _ h => parses_encodePartNumber (hparts p hp) h) hec
  intro rest
  simp only [decodeTargetHardware, bind_apply, List.append_assoc,
    parses_stringEncode ha hea (b ++ (_ ++ (c ++ rest))),
    parses_stringEncode hb heb (_ ++ (c ++ rest)), hcount (c ++ rest),
    toNat_ofNat_count hlen, hloop rest, Outcome.bind_done, pure_apply]

theorem length_encodePartNumber {p : PartNumber} {bs : RawData}
    (h : encodePartNumber p = .ok bs) : bs.length = partNumberSize p := by
  obtain ⟨a, b, c, hea, heb, hec, rfl⟩ := encodePartNumber_eq_ok.mp h
  simp only [List.length_append, length_stringEncode hea, length_stringEncode heb,
    length_stringEncode hec, partNumberSize, stringSize]

theorem length_encodeTargetHardware {thw : TargetHardware} {bs : RawData}
    (h : encodeTargetHardware thw = .ok bs) : bs.length = targetHardwareSize thw := by
  obtain ⟨-, a, b, c, hea, heb, hec, rfl⟩ := encodeTargetHardware_eq_ok.mp h
  simp only [List.length_append, length_stringEncode hea, length_stringEncode heb,
    length_setUInt16, length_writeEach (fun p _ _ h => length_encodePartNumber h) hec,
    targetHardwareSize, stringSize]

/-- The encoder accepts every sound list; its output is the framed content. -/
theorem LoadConfigurationListFile.encode_ok {file : LoadConfigurationListFile}
    (hf : file.Ok) :
    ∃ content, writeEach encodeTargetHardware file.targetsHardware = .ok content ∧
      file.encode = .ok (insertHeader file.protocolVersion
        (setUInt16 (UInt16.ofNat file.targetsHardware.length) ++ content)) ∧
      headerSize + (2 + content.length) = file.size := by
  obtain ⟨hlen, hthws⟩ := hf
  have hpart : ∀ p, PartNumberOk p → ∃ bs, encodePartNumber p = .ok bs := by
    intro p hentry
    rcases hentry with ⟨⟨-, ha⟩, ⟨-, hb⟩, -, hc⟩
    exact ⟨_, encodePartNumber_eq_ok.mpr
      ⟨_, _, _, stringEncode_ok ha, stringEncode_ok hb, stringEncode_ok hc, rfl⟩⟩
  have hthw : ∀ thw ∈ file.targetsHardware, ∃ bs, encodeTargetHardware thw = .ok bs := by
    intro thw hmem
    obtain ⟨⟨-, ha⟩, ⟨-, hb⟩, hcount, hps⟩ := hthws thw hmem
    obtain ⟨c, hc⟩ := exists_writeEach_iff.mpr fun p hp => hpart p (hps p hp)
    exact ⟨_, encodeTargetHardware_eq_ok.mpr
      ⟨hcount, _, _, c, stringEncode_ok ha, stringEncode_ok hb, hc, rfl⟩⟩
  obtain ⟨content, hcontent⟩ := exists_writeEach_iff.mpr hthw
  refine ⟨content, hcontent, ?_, ?_⟩
  · rw [encode, if_neg (by omega), hcontent]
    rfl
  · rw [length_writeEach (fun thw _ _ h => length_encodeTargetHardware h) hcontent,
      LoadConfigurationListFile.size, Nat.add_assoc]

/-- The content of the file is read back. -/
private theorem decode_content {file : LoadConfigurationListFile} (hf : file.Ok)
    {content : RawData}
    (h : writeEach encodeTargetHardware file.targetsHardware = .ok content) :
    (do
      let targetHardwareCount ← getUInt16
      let targetsHardware ← times targetHardwareCount.toNat decodeTargetHardware
      noMoreData "More data then expected"
      pure ⟨file.protocolVersion, targetsHardware⟩ : Decoder LoadConfigurationListFile)
      (setUInt16 (UInt16.ofNat file.targetsHardware.length) ++ content) =
    .done (file, []) := by
  obtain ⟨hlen, hthws⟩ := hf
  have hloop : Parses (times file.targetsHardware.length decodeTargetHardware) content
      file.targetsHardware :=
    parses_writeEach (fun t ht _ h => parses_encodeTargetHardware (hthws t ht) h) h
  exact decode_counted hlen hloop

/-- Encoding throws, or decoding the encoded bytes gives the list back. -/
def LoadConfigurationListFile.RoundTrips (file : LoadConfigurationListFile) : Prop :=
  ∀ rawData, file.encode = .ok rawData → decode {} rawData = .done (file, [])

/-- **The round trip**: it holds exactly of the lists whose encoding has the
decoder's minimum size of 19 bytes and fits the 32 bit length field. -/
theorem loadConfigurationList_roundTrips_iff {file : LoadConfigurationListFile}
    (hv : file.protocolVersion.Supported) (hf : file.Ok) :
    file.RoundTrips ↔ 19 ≤ file.size ∧ file.size < 2 ^ 32 := by
  obtain ⟨content, hcontent, hencode, hsize⟩ := file.encode_ok hf
  have hdecode : ∀ rawData, file.encode = .ok rawData →
      LoadConfigurationListFile.decode {} rawData =
        if file.size < 19 then .thrown ⟨"Protocol file to small"⟩
        else if 2 ^ 32 ≤ file.size then
          .thrown ⟨"internal length field and data size differs"⟩
        else .done (file, []) := by
    intro rawData h
    rw [hencode, Except.ok.injEq] at h
    subst h
    rw [LoadConfigurationListFile.decode, decodeFile_insertHeader hv, List.length_append,
      length_setUInt16, hsize, ← decode_content hf hcontent]
    rfl
  constructor
  · intro h
    -- The other two outcomes of the decoder are exceptions.
    have hd := hdecode _ hencode
    rw [h _ hencode] at hd
    split at hd
    · cases hd
    · split at hd
      · cases hd
      · omega
  · intro hsizes rawData h
    rcases hsizes with ⟨hmin, hmax⟩
    rw [hdecode rawData h, if_neg (by omega), if_neg (by omega)]

/-- One entry with an eight byte serial number and no part numbers. -/
theorem loadConfigurationList_roundTrips_one :
    LoadConfigurationListFile.RoundTrips
      ⟨.arinc615a34, [⟨str "FMGEC", str "SN 00042", []⟩]⟩ := by
  refine (loadConfigurationList_roundTrips_iff (.inr rfl) ⟨by decide, ?_⟩).mpr
    (by decide)
  intro thw hthw
  rw [List.mem_singleton] at hthw
  subst hthw
  exact ⟨⟨by decide, by unfold StringAccepted; decide⟩,
    ⟨by decide, by unfold StringAccepted; decide⟩, by decide, by simp⟩

/-- The empty list is encoded to eight bytes, which the decoder refuses. -/
theorem loadConfigurationList_empty_not_roundTrips :
    ∃ file : LoadConfigurationListFile, file.protocolVersion.Supported ∧ file.Ok ∧
      ¬ file.RoundTrips := by
  refine ⟨⟨.arinc615a34, []⟩, .inr rfl, ⟨by decide, by simp⟩, fun h => ?_⟩
  have hd := h _ rfl
  cases hd

end Arinc615a.Files
