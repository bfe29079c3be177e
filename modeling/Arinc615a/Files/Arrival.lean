import Arinc615a.Files.Accepted

/-!
# Protocol files as they arrive

A round trip asks for texts without NUL. The encoders do not: they write every text
that fits, and the decoders take it up to its first NUL. Whatever an encoder writes of
a supported version is read back so, in every class; only the load configuration list
has files that its own decoder refuses, the ones below its minimum size.
-/

namespace Arinc615a.Files

open Readers Readers.Reader
open Information

/-! ## Records as they arrive -/

def cutUploadLoad (load : UploadLoad) : UploadLoad :=
  ⟨cut load.headerFilename, cut load.partNumber⟩

def cutDownloadFileInformation (downloadInfo : DownloadFileInformation) :
    DownloadFileInformation :=
  ⟨cut downloadInfo.filename, cut downloadInfo.description⟩

def cutPartNumber (p : PartNumber) : PartNumber :=
  ⟨cut p.partNumber, cut p.amendment, cut p.partDesignation⟩

def cutTargetHardware (thw : TargetHardware) : TargetHardware :=
  ⟨cut thw.literalName, cut thw.serialNumber, thw.partNumbers.map cutPartNumber⟩

/-- A string that was written arrives. -/
theorem travels_written {s : Str} {bs : RawData} (h : stringEncode s 0 = .ok bs) :
    Travels (stringEncode s 0) 255 stringDecode (cut s) :=
  travels_accepted (stringEncode_eq_ok h)

/-- Two strings in a row. -/
theorem encodeTwo_eq_ok {s t : Str} {bs : RawData}
    (h : (do
      let a ← stringEncode s 0
      let b ← stringEncode t 0
      .ok (a ++ b) : Except Arinc615aException RawData) = .ok bs) :
    StringAccepted s ∧ StringAccepted t := by
  cases hs : stringEncode s 0 with
  | error e =>
    rw [hs] at h
    cases h
  | ok a =>
    cases ht : stringEncode t 0 with
    | error e =>
      rw [hs, ht] at h
      cases h
    | ok b => exact ⟨stringEncode_eq_ok hs, stringEncode_eq_ok ht⟩

/-- They are written, and read back by a reader of two strings. -/
theorem travels_two {α : Type} {s t : Str} {make : Str → Str → α} (hs : StringAccepted s)
    (ht : StringAccepted t) :
    Travels (do
        let a ← stringEncode s 0
        let b ← stringEncode t 0
        .ok (a ++ b) : Except Arinc615aException RawData) 510
      (do
        let s ← stringDecode
        let t ← stringDecode
        pure (make s t) : Decoder α) (make (cut s) (cut t)) := by
  obtain ⟨a, ha, hlena, hpa⟩ := travels_accepted hs
  obtain ⟨b, hb, hlenb, hpb⟩ := travels_accepted ht
  refine ⟨a ++ b, ?_, ?_, hpa.bind (hpb.map (make (cut s)))⟩
  · rw [ha, hb]
    rfl
  · rw [List.length_append]
    omega

theorem travels_cutUploadLoad {load : UploadLoad} {bs : RawData}
    (h : encodeUploadLoad load = .ok bs) :
    Travels (encodeUploadLoad load) 510 decodeUploadLoad (cutUploadLoad load) := by
  obtain ⟨hheader, hpart⟩ := encodeTwo_eq_ok h
  exact travels_two hheader hpart

theorem travels_cutDownloadFileInformation {downloadInfo : DownloadFileInformation}
    {bs : RawData} (h : encodeDownloadFileInformation downloadInfo = .ok bs) :
    Travels (encodeDownloadFileInformation downloadInfo) 510 decodeDownloadFileInformation
      (cutDownloadFileInformation downloadInfo) := by
  obtain ⟨hname, hdescription⟩ := encodeTwo_eq_ok h
  exact travels_two hname hdescription

theorem travels_cutPartNumber {p : PartNumber} {bs : RawData} (h : encodePartNumber p = .ok bs) :
    Travels (encodePartNumber p) 765 decodePartNumber (cutPartNumber p) := by
  obtain ⟨a, b, c, ha, hb, hc, rfl⟩ := encodePartNumber_eq_ok.mp h
  have hlena := length_stringEncode ha
  have hlenb := length_stringEncode hb
  have hlenc := length_stringEncode hc
  have hacca := stringEncode_eq_ok ha
  have haccb := stringEncode_eq_ok hb
  have haccc := stringEncode_eq_ok hc
  unfold StringAccepted at hacca haccb haccc
  refine ⟨a ++ b ++ c, h, ?_, fun rest => ?_⟩
  · rw [List.length_append, List.length_append]
    omega
  · simp only [decodePartNumber, bind_apply, List.append_assoc,
      parses_stringEncode_cut ha (b ++ (c ++ rest)), parses_stringEncode_cut hb (c ++ rest),
      parses_stringEncode_cut hc rest, Outcome.bind_done, pure_apply]
    rfl

theorem travels_cutTargetHardware {thw : TargetHardware} {bs : RawData}
    (h : encodeTargetHardware thw = .ok bs) :
    Travels (encodeTargetHardware thw) (512 + 65535 * 765) decodeTargetHardware
      (cutTargetHardware thw) := by
  obtain ⟨hcount, a, b, c, ha, hb, hc, rfl⟩ := encodeTargetHardware_eq_ok.mp h
  have hlena := length_stringEncode ha
  have hlenb := length_stringEncode hb
  have hacca := stringEncode_eq_ok ha
  have haccb := stringEncode_eq_ok hb
  unfold StringAccepted at hacca haccb
  have hnumber := parses_setUInt16 (UInt16.ofNat thw.partNumbers.length)
  obtain ⟨c', hc', hlenc, hparts⟩ := travels_writeEach_map fun p hp => by
    obtain ⟨bs, hbs⟩ := exists_writeEach_iff.mp ⟨c, hc⟩ p hp
    exact travels_cutPartNumber hbs
  obtain rfl : c = c' := Except.ok.inj (hc.symm.trans hc')
  refine ⟨_, h, ?_, fun rest => ?_⟩
  · have hfit : thw.partNumbers.length * 765 ≤ 65535 * 765 := Nat.mul_le_mul_right _ hcount
    simp only [List.length_append, length_setUInt16]
    omega
  · simp only [decodeTargetHardware, bind_apply, List.append_assoc,
      parses_stringEncode_cut ha (b ++ (_ ++ (c ++ rest))),
      parses_stringEncode_cut hb (_ ++ (c ++ rest)), hnumber (c ++ rest),
      toNat_ofNat_count hcount, hparts rest, Outcome.bind_done, pure_apply]
    rfl

/-! ## Lists as they arrive -/

/-- A framed list that was written is refused if it is too small or too large for its
frame, and else arrives record by record. -/
theorem decode_writtenList {α β : Type} (make : Arinc615aVersion → List α → β)
    {write : α → Except Arinc615aException RawData} {record : Decoder α} {size : Nat}
    {g : α → α} {records : List α} {version : Arinc615aVersion} {minimumSize : Nat}
    {tooSmall message : String} {bs : RawData} (hversion : version.Supported)
    (hcount : records.length ≤ 65535) (hbs : writeEach write records = .ok bs)
    (h : ∀ a bs, write a = .ok bs → Travels (write a) size record (g a)) :
    decodeFile minimumSize tooSmall
      (fun version => do
        let count ← getUInt16
        let records ← times count.toNat record
        noMoreData message
        pure (make version records))
      (insertHeader version (setUInt16 (UInt16.ofNat records.length) ++ bs)) =
        if headerSize + (2 + bs.length) < minimumSize then .thrown ⟨tooSmall⟩
        else if 2 ^ 32 ≤ headerSize + (2 + bs.length) then
          .thrown ⟨"internal length field and data size differs"⟩
        else .done (make version (records.map g), []) := by
  obtain ⟨bs', hbs', -, hparses⟩ := travels_writeEach_map fun a ha => by
    obtain ⟨raw, hraw⟩ := exists_writeEach_iff.mp ⟨bs, hbs⟩ a ha
    exact h a raw hraw
  obtain rfl : bs = bs' := Except.ok.inj (hbs.symm.trans hbs')
  rw [← List.length_map g] at hcount hparses ⊢
  rw [decodeFile_insertHeader hversion, List.length_append, length_setUInt16,
    decode_counted hcount hparses]

/-- Records of a bounded size always fit. -/
theorem arrives_list {α β : Type} (make : Arinc615aVersion → List α → β)
    {write : α → Except Arinc615aException RawData} {record : Decoder α} {size : Nat}
    {g : α → α} {records : List α} {version : Arinc615aVersion} {tooSmall message : String}
    {bs : RawData} (hversion : version.Supported) (hcount : records.length ≤ 65535)
    (hsize : size ≤ 1000) (hbs : writeEach write records = .ok bs)
    (h : ∀ a bs, write a = .ok bs → Travels (write a) size record (g a)) :
    decodeFile (headerSize + 2) tooSmall
      (fun version => do
        let count ← getUInt16
        let records ← times count.toNat record
        noMoreData message
        pure (make version records))
      (insertHeader version (setUInt16 (UInt16.ofNat records.length) ++ bs)) =
        .done (make version (records.map g), []) := by
  obtain ⟨bs', hbs', hlen, -⟩ := travels_writeEach_map fun a ha => by
    obtain ⟨raw, hraw⟩ := exists_writeEach_iff.mp ⟨bs, hbs⟩ a ha
    exact h a raw hraw
  obtain rfl : bs = bs' := Except.ok.inj (hbs.symm.trans hbs')
  have hfit := records_fit hcount hsize
  rw [decode_writtenList make hversion hcount hbs h, headerSize, if_neg (by omega),
    if_neg (by omega)]

/-- What the encoders of lists write. -/
theorem encodeList_eq_ok {α : Type} {write : α → Except Arinc615aException RawData}
    {records : List α} {tooMany : Arinc615aException} {frame : RawData → RawData}
    {rawData : RawData}
    (h : (if 65535 < records.length then .error tooMany
      else do
        let bs ← writeEach write records
        .ok (frame bs)) = Except.ok rawData) :
    records.length ≤ 65535 ∧ ∃ bs, writeEach write records = .ok bs ∧ rawData = frame bs := by
  split at h
  · cases h
  · cases hbs : writeEach write records with
    | error e =>
      rw [hbs] at h
      cases h
    | ok bs =>
      rw [hbs] at h
      exact ⟨by omega, bs, rfl, (Except.ok.inj h).symm⟩

/-! ## Request, list and answer files -/

def UploadOperationRequestFile.arrived (file : UploadOperationRequestFile) :
    UploadOperationRequestFile :=
  ⟨file.protocolVersion, file.loads.map cutUploadLoad⟩

/-- The user defined data is not text, and arrives as it is. -/
def DownloadOperationRequestFile.arrived (file : DownloadOperationRequestFile) :
    DownloadOperationRequestFile :=
  ⟨file.protocolVersion, file.files.map cut, file.userDefinedData⟩

def DownloadOperationListFile.arrived (file : DownloadOperationListFile) :
    DownloadOperationListFile :=
  ⟨file.protocolVersion, file.files.map cutDownloadFileInformation⟩

def DownloadOperationAnswerFile.arrived (file : DownloadOperationAnswerFile) :
    DownloadOperationAnswerFile :=
  ⟨file.protocolVersion, file.files.map cut⟩

def LoadConfigurationListFile.arrived (file : LoadConfigurationListFile) :
    LoadConfigurationListFile :=
  ⟨file.protocolVersion, file.targetsHardware.map cutTargetHardware⟩

theorem UploadOperationRequestFile.arrives {file : UploadOperationRequestFile}
    {rawData : RawData} (hversion : file.protocolVersion.Supported)
    (h : file.encode = .ok rawData) : decode {} rawData = .done (file.arrived, []) := by
  obtain ⟨hcount, bs, hbs, rfl⟩ := encodeList_eq_ok h
  exact arrives_list UploadOperationRequestFile.mk hversion hcount (by norm_num) hbs
    fun _ _ => travels_cutUploadLoad

theorem DownloadOperationListFile.arrives {file : DownloadOperationListFile}
    {rawData : RawData} (hversion : file.protocolVersion.Supported)
    (h : file.encode = .ok rawData) : decode {} rawData = .done (file.arrived, []) := by
  obtain ⟨hcount, bs, hbs, rfl⟩ := encodeList_eq_ok h
  exact arrives_list DownloadOperationListFile.mk hversion hcount (by norm_num) hbs
    fun _ _ => travels_cutDownloadFileInformation

theorem DownloadOperationAnswerFile.arrives {file : DownloadOperationAnswerFile}
    {rawData : RawData} (hversion : file.protocolVersion.Supported)
    (h : file.encode = .ok rawData) : decode {} rawData = .done (file.arrived, []) := by
  obtain ⟨hcount, bs, hbs, rfl⟩ := encodeList_eq_ok h
  exact arrives_list DownloadOperationAnswerFile.mk hversion hcount (by norm_num) hbs
    fun _ _ => travels_written

/-- A load configuration list arrives unless it is too small for its own decoder, or too
large for the length field. -/
theorem LoadConfigurationListFile.decode_encode {file : LoadConfigurationListFile}
    {rawData : RawData} (hversion : file.protocolVersion.Supported)
    (h : file.encode = .ok rawData) :
    decode {} rawData =
      if rawData.length < 19 then .thrown ⟨"Protocol file to small"⟩
      else if 2 ^ 32 ≤ rawData.length then
        .thrown ⟨"internal length field and data size differs"⟩
      else .done (file.arrived, []) := by
  obtain ⟨hcount, bs, hbs, rfl⟩ := encodeList_eq_ok h
  rw [length_insertHeader, List.length_append, length_setUInt16]
  exact decode_writtenList LoadConfigurationListFile.mk hversion hcount hbs
    fun _ _ => travels_cutTargetHardware

/-- The user defined data stands behind its length byte. -/
theorem DownloadOperationRequestFile.encode_eq_ok {file : DownloadOperationRequestFile}
    {rawData : RawData} (h : file.encode = .ok rawData) :
    file.files.length ≤ 65535 ∧ file.userDefinedData.length ≤ 255 ∧
      ∃ bs, writeEach (stringEncode · 0) file.files = .ok bs := by
  unfold encode at h
  split at h
  · cases h
  · cases hbs : writeEach (stringEncode · 0) file.files with
    | error e =>
      rw [hbs] at h
      cases h
    | ok bs =>
      rw [hbs] at h
      change (if 255 < file.userDefinedData.length then _ else _) = _ at h
      split at h
      · cases h
      · exact ⟨by omega, by omega, bs, rfl⟩

theorem DownloadOperationRequestFile.arrives {file : DownloadOperationRequestFile}
    {rawData : RawData} (hversion : file.protocolVersion.Supported)
    (h : file.encode = .ok rawData) :
    decode {} rawData = .done (file.arrived, file.userDefinedData) := by
  obtain ⟨hcount, hdata, bs, hbs⟩ := encode_eq_ok h
  obtain ⟨bs', hbs', hlen, hparses⟩ := travels_writeEach_map fun filename hmem => by
    obtain ⟨raw, hraw⟩ := exists_writeEach_iff.mp ⟨bs, hbs⟩ filename hmem
    exact travels_written hraw
  obtain rfl : bs = bs' := Except.ok.inj (hbs.symm.trans hbs')
  have hfit : file.files.length * 255 ≤ 65535000 := records_fit hcount (by norm_num)
  have hnumber := parses_setUInt16 (UInt16.ofNat file.files.length)
  have hlength : (UInt8.ofNat file.userDefinedData.length).toNat = file.userDefinedData.length :=
    UInt8.toNat_ofNat_of_lt' (Nat.lt_succ_of_le hdata)
  have hbyte : Parses getUInt8 [UInt8.ofNat file.userDefinedData.length]
      (UInt8.ofNat file.userDefinedData.length) :=
    parses_getUInt8_iff.mpr ⟨rfl, by
      rw [BigEndian.beNat, hlength]
      simp [BigEndian.beNat]⟩
  have hraw : rawData = insertHeader file.protocolVersion
      (setUInt16 (UInt16.ofNat file.files.length) ++
        (bs ++ ([UInt8.ofNat file.userDefinedData.length] ++ file.userDefinedData))) := by
    rw [encode, if_neg (by omega), hbs] at h
    change (if 255 < file.userDefinedData.length then _ else _) = _ at h
    rw [if_neg (by omega)] at h
    simpa using (Except.ok.inj h).symm
  rw [hraw]
  refine roundTrip_frame hversion ?_ ?_ ?_
  · simp only [List.length_append, length_setUInt16, List.length_singleton]
    omega
  · simp only [List.length_append, length_setUInt16, List.length_singleton, headerSize]
    omega
  · simp only [bind_apply, hnumber _, Outcome.bind_done, toNat_ofNat_count hcount, hparses _,
      hbyte _, remaining_apply, hlength]
    rw [if_neg (not_not.mpr rfl)]
    rfl

/-! ## Initialisation and status files -/

def InitializationFile.arrived (file : InitializationFile) : InitializationFile :=
  { file with
    response := { file.response with description := cut file.response.description } }

def InformationOperationStatusFile.arrived (file : InformationOperationStatusFile) :
    InformationOperationStatusFile :=
  ⟨file.protocolVersion, cutStatus file.status⟩

def UploadOperationStatusFile.arrived (file : UploadOperationStatusFile) :
    UploadOperationStatusFile :=
  ⟨file.protocolVersion, ⟨cutStatus file.status.toStatus, file.status.listRatio,
    file.status.loads.map cutLoad⟩⟩

def DownloadOperationStatusFile.arrived (file : DownloadOperationStatusFile) :
    DownloadOperationStatusFile :=
  ⟨file.protocolVersion, ⟨cutStatus file.status.toStatus, file.status.listRatio,
    file.status.files.map cutFile⟩⟩

theorem InitializationFile.arrives_written {file : InitializationFile} {rawData : RawData}
    (hversion : file.protocolVersion.Supported)
    (hcode : file.response.code ≠ .operationDeferred) (h : file.encode = .ok rawData)
    (self : InitializationFile) : self.decode rawData = .done (file.arrived, []) := by
  unfold encode at h
  cases ha : stringEncode file.response.description 0 with
  | error e =>
    rw [ha] at h
    cases h
  | ok a =>
    rw [ha] at h
    obtain rfl := Except.ok.inj h
    obtain ⟨a', ha', hlen, hpa⟩ := travels_written ha
    obtain rfl : a = a' := Except.ok.inj (ha.symm.trans ha')
    have hsize := length_stringEncode ha
    have hint := parses_setUInt16 file.response.code.toUInt16
    refine roundTrip_frame hversion ?_ ?_ ?_
    · rw [List.length_append, length_setUInt16]
      omega
    · rw [List.length_append, length_setUInt16, headerSize]
      omega
    · simp only [bind_apply, hint _, hpa.whole, Outcome.bind_done,
        operationAcceptanceStatusCode_toUInt16 hcode, ofExcept_ok, noMoreData_nil, pure_apply]
      rfl

theorem InformationOperationStatusFile.arrives_written {file : InformationOperationStatusFile}
    {rawData : RawData} (hversion : file.protocolVersion.Supported)
    (hcode : file.status.code.Transmissible) (h : file.encode = .ok rawData)
    (self : InformationOperationStatusFile) :
    self.decode rawData = .done (file.arrived, []) := by
  unfold encode at h
  cases ha : stringEncode file.status.description 0 with
  | error e =>
    rw [ha] at h
    cases h
  | ok a =>
    rw [ha] at h
    obtain rfl := Except.ok.inj h
    obtain ⟨a', ha', hlen, hpa⟩ := travels_written ha
    obtain rfl : a = a' := Except.ok.inj (ha.symm.trans ha')
    have hsize := length_stringEncode ha
    have hcounter := parses_setUInt16 file.status.counter
    have hint := parses_setUInt16 file.status.code.toUInt16
    have htimer := parses_setUInt16 file.status.exceptionTimer
    have htime := parses_setInt16 file.status.estimatedTime
    refine roundTrip_frame hversion ?_ ?_ ?_
    · simp only [List.length_append, length_setUInt16, length_setInt16]
      omega
    · simp only [List.length_append, length_setUInt16, length_setInt16, headerSize]
      omega
    · simp only [bind_apply, List.append_assoc, hcounter _, hint _, htimer _, htime _,
        hpa.whole, Outcome.bind_done, statusCode_toUInt16 hcode, ofExcept_ok, noMoreData_nil,
        pure_apply]
      rfl

theorem UploadOperationStatusFile.arrives_written {file : UploadOperationStatusFile}
    {rawData : RawData} (hversion : file.protocolVersion.Supported)
    (hcode : file.status.code.Transmissible)
    (hloads : ∀ load ∈ file.status.loads, load.code.Transmissible)
    (h : file.encode = .ok rawData) (self : UploadOperationStatusFile) :
    self.decode rawData = .done (file.arrived, []) := by
  obtain ⟨hdescription, hcount, haccepted⟩ := exists_counted_iff.mp ⟨rawData, h⟩
  obtain ⟨rawData', hencode, hdecode⟩ := arrives file hversion hcode
    ((exists_encodeStatusFront_iff _ _).mp hdescription) hcount
    (fun load hload => ⟨(exists_encodeUploadLoadStatus_iff load).mp (haccepted load hload),
      hloads load hload⟩) self
  obtain rfl := Except.ok.inj (h.symm.trans hencode)
  exact hdecode

theorem DownloadOperationStatusFile.arrives_written {file : DownloadOperationStatusFile}
    {rawData : RawData} (hversion : file.protocolVersion.Supported)
    (hcode : file.status.code.Transmissible)
    (hfiles : ∀ f ∈ file.status.files, f.code.Transmissible)
    (h : file.encode = .ok rawData) (self : DownloadOperationStatusFile) :
    self.decode rawData = .done (file.arrived, []) := by
  obtain ⟨hdescription, hcount, haccepted⟩ := exists_counted_iff.mp ⟨rawData, h⟩
  obtain ⟨rawData', hencode, hdecode⟩ := arrives file hversion hcode
    ((exists_encodeStatusFront_iff _ _).mp hdescription) hcount
    (fun f hf => ⟨(exists_encodeDownloadFileStatus_iff f).mp (haccepted f hf), hfiles f hf⟩) self
  obtain rfl := Except.ok.inj (h.symm.trans hencode)
  exact hdecode

/-! ## What arrives as itself -/

theorem zero_notMem_cut (s : Str) : 0 ∉ cut s := by
  induction s with
  | nil => simp [cut]
  | cons c s ih =>
    rw [cut_cons]
    split
    · simp
    · rw [List.mem_cons, not_or]
      exact ⟨fun h => ‹¬ c = 0› h.symm, ih⟩

theorem cut_eq_iff {s : Str} : cut s = s ↔ 0 ∉ s := by
  constructor
  · intro h
    rw [← h]
    exact zero_notMem_cut s
  · exact cut_eq

theorem map_eq_self_iff {α : Type} {f : α → α} {l : List α} :
    l.map f = l ↔ ∀ a ∈ l, f a = a := by
  induction l with
  | nil => simp
  | cons a l ih => simp [ih]

theorem cutUploadLoad_eq_iff {load : UploadLoad} :
    cutUploadLoad load = load ↔ 0 ∉ load.headerFilename ∧ 0 ∉ load.partNumber := by
  obtain ⟨headerFilename, partNumber⟩ := load
  simp [cutUploadLoad, cut_eq_iff]

theorem cutDownloadFileInformation_eq_iff {downloadInfo : DownloadFileInformation} :
    cutDownloadFileInformation downloadInfo = downloadInfo ↔
      0 ∉ downloadInfo.filename ∧ 0 ∉ downloadInfo.description := by
  obtain ⟨filename, description⟩ := downloadInfo
  simp [cutDownloadFileInformation, cut_eq_iff]

theorem cutPartNumber_eq_iff {p : PartNumber} :
    cutPartNumber p = p ↔ 0 ∉ p.partNumber ∧ 0 ∉ p.amendment ∧ 0 ∉ p.partDesignation := by
  obtain ⟨partNumber, amendment, partDesignation⟩ := p
  simp [cutPartNumber, cut_eq_iff]

theorem cutTargetHardware_eq_iff {thw : TargetHardware} :
    cutTargetHardware thw = thw ↔ 0 ∉ thw.literalName ∧ 0 ∉ thw.serialNumber ∧
      ∀ p ∈ thw.partNumbers, 0 ∉ p.partNumber ∧ 0 ∉ p.amendment ∧ 0 ∉ p.partDesignation := by
  obtain ⟨literalName, serialNumber, partNumbers⟩ := thw
  simp [cutTargetHardware, cut_eq_iff, map_eq_self_iff, cutPartNumber_eq_iff]

theorem cutStatus_eq_iff {status : Status} :
    cutStatus status = status ↔ 0 ∉ status.description := by
  obtain ⟨counter, exceptionTimer, estimatedTime, code, description⟩ := status
  simp [cutStatus, cut_eq_iff]

theorem cutLoad_eq_iff {load : UploadLoadStatus} :
    cutLoad load = load ↔ 0 ∉ load.headerFilename ∧ 0 ∉ load.partNumber ∧
      0 ∉ load.description := by
  obtain ⟨headerFilename, partNumber, ratio, code, description⟩ := load
  simp [cutLoad, cut_eq_iff]

theorem cutFile_eq_iff {file : DownloadFileStatus} :
    cutFile file = file ↔ 0 ∉ file.filename ∧ 0 ∉ file.description := by
  obtain ⟨filename, code, description⟩ := file
  simp [cutFile, cut_eq_iff]

/-! ## All classes -/

namespace ProtocolFileClass

/-- An object as it arrives. -/
def arrived : (T : ProtocolFileClass) → T.Object → T.Object
  | uploadRequest => UploadOperationRequestFile.arrived
  | downloadRequest => DownloadOperationRequestFile.arrived
  | downloadList => DownloadOperationListFile.arrived
  | downloadAnswer => DownloadOperationAnswerFile.arrived
  | loadConfigurationList => LoadConfigurationListFile.arrived
  | uploadStatus => UploadOperationStatusFile.arrived
  | downloadStatus => DownloadOperationStatusFile.arrived
  | informationStatus => InformationOperationStatusFile.arrived
  | initialization => InitializationFile.arrived

/-- The codes of an object are ones that a file may carry. -/
def CodesTravel : (T : ProtocolFileClass) → T.Object → Prop
  | uploadStatus => fun (file : UploadOperationStatusFile) =>
    file.status.code.Transmissible ∧ ∀ load ∈ file.status.loads, load.code.Transmissible
  | downloadStatus => fun (file : DownloadOperationStatusFile) =>
    file.status.code.Transmissible ∧ ∀ f ∈ file.status.files, f.code.Transmissible
  | informationStatus => fun (file : InformationOperationStatusFile) =>
    file.status.code.Transmissible
  | initialization => fun (file : InitializationFile) =>
    file.response.code ≠ .operationDeferred
  | _ => fun _ => True

/-- The decoder of the load configuration list refuses what is smaller, or larger. -/
def SizeAccepted (T : ProtocolFileClass) (rawData : RawData) : Prop :=
  T = loadConfigurationList → 19 ≤ rawData.length ∧ rawData.length < 2 ^ 32

/-- Every class reads what it wrote. -/
theorem construct_encode {T : ProtocolFileClass} {file : T.Object} {rawData : RawData}
    (hversion : (T.protocolVersion file).Supported) (hcodes : T.CodesTravel file)
    (hsize : T.SizeAccepted rawData) (h : T.encode file = .ok rawData) :
    T.construct rawData = .done (T.arrived file) := by
  suffices hdecode : ∃ rest, T.decode T.fresh rawData = .done (T.arrived file, rest) by
    obtain ⟨rest, hdecode⟩ := hdecode
    rw [construct, hdecode]
    rfl
  cases T with
  | uploadRequest => exact ⟨_, UploadOperationRequestFile.arrives hversion h⟩
  | downloadRequest => exact ⟨_, DownloadOperationRequestFile.arrives hversion h⟩
  | downloadList => exact ⟨_, DownloadOperationListFile.arrives hversion h⟩
  | downloadAnswer => exact ⟨_, DownloadOperationAnswerFile.arrives hversion h⟩
  | loadConfigurationList =>
    obtain ⟨hmin, hmax⟩ := hsize rfl
    refine ⟨[], (LoadConfigurationListFile.decode_encode hversion h).trans ?_⟩
    rw [if_neg (by omega), if_neg (by omega)]
    rfl
  | uploadStatus =>
    exact ⟨_, UploadOperationStatusFile.arrives_written hversion hcodes.1 hcodes.2 h _⟩
  | downloadStatus =>
    exact ⟨_, DownloadOperationStatusFile.arrives_written hversion hcodes.1 hcodes.2 h _⟩
  | informationStatus =>
    exact ⟨_, InformationOperationStatusFile.arrives_written hversion hcodes h {}⟩
  | initialization => exact ⟨_, InitializationFile.arrives_written hversion hcodes h {}⟩

/-- An object arrives as itself exactly if no text of it holds a NUL. -/
theorem arrived_eq_iff (T : ProtocolFileClass) (file : T.Object) :
    T.arrived file = file ↔ ∀ s ∈ T.texts file, 0 ∉ s := by
  cases T with
  | uploadRequest =>
    obtain ⟨version, loads⟩ := file
    simp only [texts, List.forall_mem_flatMap, forall_mem_two]
    simp [arrived, UploadOperationRequestFile.arrived, map_eq_self_iff, cutUploadLoad_eq_iff]
  | downloadRequest =>
    obtain ⟨version, files, data⟩ := file
    simp [arrived, DownloadOperationRequestFile.arrived, texts, map_eq_self_iff, cut_eq_iff]
  | downloadList =>
    obtain ⟨version, files⟩ := file
    simp only [texts, List.forall_mem_flatMap, forall_mem_two]
    simp [arrived, DownloadOperationListFile.arrived, map_eq_self_iff,
      cutDownloadFileInformation_eq_iff]
  | downloadAnswer =>
    obtain ⟨version, files⟩ := file
    simp [arrived, DownloadOperationAnswerFile.arrived, texts, map_eq_self_iff, cut_eq_iff]
  | loadConfigurationList =>
    obtain ⟨version, thws⟩ := file
    simp only [texts, List.forall_mem_flatMap, List.forall_mem_cons]
    simp [arrived, LoadConfigurationListFile.arrived, map_eq_self_iff,
      cutTargetHardware_eq_iff]
  | uploadStatus =>
    obtain ⟨version, status, ratio, loads⟩ := file
    simp only [texts, List.forall_mem_cons, List.forall_mem_flatMap]
    simp [arrived, UploadOperationStatusFile.arrived, map_eq_self_iff, cutLoad_eq_iff,
      cutStatus_eq_iff]
  | downloadStatus =>
    obtain ⟨version, status, ratio, files⟩ := file
    simp only [texts, List.forall_mem_cons, List.forall_mem_flatMap]
    simp [arrived, DownloadOperationStatusFile.arrived, map_eq_self_iff, cutFile_eq_iff,
      cutStatus_eq_iff]
  | informationStatus =>
    obtain ⟨version, status⟩ := file
    simp [arrived, InformationOperationStatusFile.arrived, texts, cutStatus_eq_iff]
  | initialization =>
    obtain ⟨version, ⟨code, description⟩⟩ := file
    simp [arrived, InitializationFile.arrived, texts, cut_eq_iff]

/-- A file that an encoder writes is framed with the version of its object. -/
theorem exists_framed {T : ProtocolFileClass} {file : T.Object} {rawData : RawData}
    (h : T.encode file = .ok rawData) :
    ∃ body, rawData = insertHeader (T.protocolVersion file) body := by
  cases T with
  | downloadRequest =>
    simp only [encode, DownloadOperationRequestFile.encode] at h
    split at h
    · cases h
    · obtain ⟨files, -, hfile⟩ := bind_eq_ok.mp h
      split at hfile
      · cases hfile
      · exact ⟨_, (Except.ok.inj hfile).symm⟩
  | uploadStatus =>
    obtain ⟨front, -, hfront⟩ := bind_eq_ok.mp h
    split at hfront
    · cases hfront
    · obtain ⟨loads, -, hfile⟩ := bind_eq_ok.mp hfront
      exact ⟨_, (Except.ok.inj hfile).symm⟩
  | downloadStatus =>
    obtain ⟨front, -, hfront⟩ := bind_eq_ok.mp h
    split at hfront
    · cases hfront
    · obtain ⟨files, -, hfile⟩ := bind_eq_ok.mp hfront
      exact ⟨_, (Except.ok.inj hfile).symm⟩
  | informationStatus =>
    obtain ⟨description, -, hfile⟩ := bind_eq_ok.mp h
    exact ⟨_, (Except.ok.inj hfile).symm⟩
  | initialization =>
    obtain ⟨description, -, hfile⟩ := bind_eq_ok.mp h
    exact ⟨_, (Except.ok.inj hfile).symm⟩
  | _ =>
    -- The other files are one list behind their header.
    obtain ⟨-, records, -, hfile⟩ := encodeList_eq_ok h
    exact ⟨_, hfile⟩

/-- What is read of a file that was written had a supported version. -/
theorem supported_of_decode {T : ProtocolFileClass} {file : T.Object} {rawData : RawData}
    {result : T.Object × RawData} (self : T.Object) (h : T.encode file = .ok rawData)
    (hdecode : T.decode self rawData = .done result) : (T.protocolVersion file).Supported := by
  obtain ⟨body, rfl⟩ := exists_framed h
  cases T <;> exact supported_of_decodeFile hdecode

/-- The answer that only the host knows of is written, but no decoder takes it. -/
theorem ne_operationDeferred_of_decode {file : InitializationFile} {rawData : RawData}
    {result : InitializationFile × RawData} (h : file.encode = .ok rawData)
    (hdecode : InitializationFile.decode {} rawData = .done result) :
    file.response.code ≠ .operationDeferred := by
  intro hcode
  have hversion : file.protocolVersion.Supported :=
    @supported_of_decode .initialization file rawData result {} h hdecode
  obtain ⟨description, -, hfile⟩ := bind_eq_ok.mp h
  obtain rfl := (Except.ok.inj hfile).symm
  rw [hcode, InitializationFile.decode, decodeFile_insertHeader hversion] at hdecode
  split at hdecode
  · cases hdecode
  split at hdecode
  · cases hdecode
  · rw [bind_apply, parses_setUInt16 _ description] at hdecode
    cases hdecode

/-- **Arrival**: whatever an encoder writes is read back up to the first NUL of each text,
and so as itself exactly if no text holds one. -/
theorem encoded_arrives {T : ProtocolFileClass} {file : T.Object} {rawData : RawData}
    (hversion : (T.protocolVersion file).Supported) (hcodes : T.CodesTravel file)
    (hsize : T.SizeAccepted rawData) (h : T.encode file = .ok rawData) :
    T.construct rawData = .done (T.arrived file) ∧
      (T.construct rawData = .done file ↔ ∀ s ∈ T.texts file, 0 ∉ s) := by
  have hread := construct_encode hversion hcodes hsize h
  refine ⟨hread, ?_⟩
  rw [hread, Outcome.done.injEq, arrived_eq_iff]

/-- A load whose part number holds a NUL. -/
theorem encoded_arrives_request :
    ∃ rawData, encode uploadRequest ⟨.arinc615a34, [⟨str "A.LUH", [0x50, 0, 0x4E]⟩]⟩ =
        .ok rawData ∧
      construct uploadRequest rawData = .done ⟨.arinc615a34, [⟨str "A.LUH", [0x50]⟩]⟩ :=
  ⟨_, rfl, (@encoded_arrives uploadRequest ⟨.arinc615a34, [⟨str "A.LUH", [0x50, 0, 0x4E]⟩]⟩ _
    (.inr rfl) trivial nofun rfl).1⟩

end ProtocolFileClass

end Arinc615a.Files
