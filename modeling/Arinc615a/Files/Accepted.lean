import Arinc615a.Files.Assignment
import Arinc615a.Files.RoundTrip

/-!
# What the encoders accept

An encoder looks at the sizes of what it writes: at the texts, at the numbers of the
entries of its lists, and at the size of the user defined data. It accepts an object
exactly if these fit (`exists_encode_iff`), whatever else the object holds.
-/

namespace Arinc615a.Files

open Readers Readers.Reader
open Information

/-! ## Records and fronts -/

theorem exists_stringEncode_iff (s : Str) : (∃ bs, stringEncode s 0 = .ok bs) ↔ StringAccepted s :=
  ⟨fun ⟨_, h⟩ => stringEncode_eq_ok h, fun h => ⟨_, stringEncode_ok h⟩⟩

theorem exists_encodeStatusFront_iff (status : Status) (listRatio : Ratio) :
    (∃ bs, encodeStatusFront status listRatio = .ok bs) ↔ StringAccepted status.description := by
  simp [encodeStatusFront, exists_bind_ok, exists_stringEncode_iff]

theorem exists_encodeUploadLoadStatus_iff (load : UploadLoadStatus) :
    (∃ bs, encodeUploadLoadStatus load = .ok bs) ↔ LoadAccepted load := by
  simp only [encodeUploadLoadStatus, exists_bind_ok, Except.ok.injEq, exists_eq', and_true,
    exists_and_right, exists_stringEncode_iff]
  constructor
  · rintro ⟨hheader, hpart, hdescription⟩
    exact ⟨hheader, hpart, hdescription⟩
  · rintro ⟨hheader, hpart, hdescription⟩
    exact ⟨hheader, hpart, hdescription⟩

theorem exists_encodeDownloadFileStatus_iff (file : DownloadFileStatus) :
    (∃ bs, encodeDownloadFileStatus file = .ok bs) ↔ FileAccepted file := by
  simp only [encodeDownloadFileStatus, exists_bind_ok, Except.ok.injEq, exists_eq', and_true,
    exists_and_right, exists_stringEncode_iff]
  constructor
  · rintro ⟨hfilename, hdescription⟩
    exact ⟨hfilename, hdescription⟩
  · rintro ⟨hfilename, hdescription⟩
    exact ⟨hfilename, hdescription⟩

/-- A front, and a list behind its count. -/
theorem exists_counted_iff {α : Type} {front : Except Arinc615aException RawData}
    {write : α → Except Arinc615aException RawData} {records : List α}
    {tooMany : Arinc615aException} {make : RawData → RawData → RawData} :
    (∃ bs, (do
        let rawFront ← front
        if 65535 < records.length then .error tooMany
        else do
          let rawRecords ← writeEach write records
          .ok (make rawFront rawRecords)) = Except.ok bs) ↔
      (∃ bs, front = .ok bs) ∧ records.length ≤ 65535 ∧
        ∀ a ∈ records, ∃ bs, write a = .ok bs := by
  rw [exists_bind_ok, ← exists_writeEach_iff]
  by_cases hcount : 65535 < records.length
  · simp [hcount]
  · simp [hcount, exists_bind_ok, Nat.le_of_not_lt hcount]

theorem loadAccepted_iff (load : UploadLoadStatus) :
    LoadAccepted load ↔ StringAccepted load.headerFilename ∧ StringAccepted load.partNumber ∧
      StringAccepted load.description :=
  ⟨fun h => ⟨h.headerFilename, h.partNumber, h.description⟩, fun ⟨a, b, c⟩ => ⟨a, b, c⟩⟩

theorem fileAccepted_iff (file : DownloadFileStatus) :
    FileAccepted file ↔ StringAccepted file.filename ∧ StringAccepted file.description :=
  ⟨fun h => ⟨h.filename, h.description⟩, fun ⟨a, b⟩ => ⟨a, b⟩⟩

theorem forall_mem_two {α : Type} {p : α → Prop} {a b : α} :
    (∀ x ∈ [a, b], p x) ↔ p a ∧ p b := by
  simp

theorem forall_mem_three {α : Type} {p : α → Prop} {a b c : α} :
    (∀ x ∈ [a, b, c], p x) ↔ p a ∧ p b ∧ p c := by
  simp

/-- A list behind its count. -/
theorem exists_list_iff {α : Type} {write : α → Except Arinc615aException RawData}
    {records : List α} {tooMany : Arinc615aException} {make : RawData → RawData} :
    (∃ bs, (if 65535 < records.length then .error tooMany
        else do
          let rawRecords ← writeEach write records
          .ok (make rawRecords)) = Except.ok bs) ↔
      records.length ≤ 65535 ∧ ∀ a ∈ records, ∃ bs, write a = .ok bs := by
  rw [← exists_writeEach_iff]
  by_cases hcount : 65535 < records.length
  · simp [hcount]
  · simp [hcount, exists_bind_ok, Nat.le_of_not_lt hcount]

theorem exists_encodeUploadLoad_iff (load : UploadLoad) :
    (∃ bs, encodeUploadLoad load = .ok bs) ↔
      StringAccepted load.headerFilename ∧ StringAccepted load.partNumber := by
  simp [encodeUploadLoad, exists_bind_ok, exists_stringEncode_iff]

theorem exists_encodeDownloadFileInformation_iff (downloadInfo : DownloadFileInformation) :
    (∃ bs, encodeDownloadFileInformation downloadInfo = .ok bs) ↔
      StringAccepted downloadInfo.filename ∧ StringAccepted downloadInfo.description := by
  simp [encodeDownloadFileInformation, exists_bind_ok, exists_stringEncode_iff]

theorem exists_encodePartNumber_iff (p : PartNumber) :
    (∃ bs, encodePartNumber p = .ok bs) ↔
      StringAccepted p.partNumber ∧ StringAccepted p.amendment ∧
        StringAccepted p.partDesignation := by
  simp [encodePartNumber, exists_bind_ok, exists_stringEncode_iff]

theorem exists_encodeTargetHardware_iff (thw : TargetHardware) :
    (∃ bs, encodeTargetHardware thw = .ok bs) ↔
      StringAccepted thw.literalName ∧ StringAccepted thw.serialNumber ∧
        thw.partNumbers.length ≤ 65535 ∧
          ∀ p ∈ thw.partNumbers, StringAccepted p.partNumber ∧ StringAccepted p.amendment ∧
            StringAccepted p.partDesignation := by
  simp only [encodeTargetHardware, exists_bind_ok, exists_list_iff,
    exists_encodePartNumber_iff, ← exists_stringEncode_iff, exists_and_right]

/-! ## The objects of the classes -/

namespace ProtocolFileClass

/-- `encode` of the class. -/
def encode : (T : ProtocolFileClass) → T.Object → Except Arinc615aException RawData
  | uploadRequest => UploadOperationRequestFile.encode
  | downloadRequest => DownloadOperationRequestFile.encode
  | downloadList => DownloadOperationListFile.encode
  | downloadAnswer => DownloadOperationAnswerFile.encode
  | loadConfigurationList => LoadConfigurationListFile.encode
  | uploadStatus => UploadOperationStatusFile.encode
  | downloadStatus => DownloadOperationStatusFile.encode
  | informationStatus => InformationOperationStatusFile.encode
  | initialization => InitializationFile.encode

/-- `protocolVersion` of an object. -/
def protocolVersion : (T : ProtocolFileClass) → T.Object → Arinc615aVersion
  | uploadRequest => UploadOperationRequestFile.protocolVersion
  | downloadRequest => DownloadOperationRequestFile.protocolVersion
  | downloadList => DownloadOperationListFile.protocolVersion
  | downloadAnswer => DownloadOperationAnswerFile.protocolVersion
  | loadConfigurationList => LoadConfigurationListFile.protocolVersion
  | uploadStatus => UploadOperationStatusFile.protocolVersion
  | downloadStatus => DownloadOperationStatusFile.protocolVersion
  | informationStatus => InformationOperationStatusFile.protocolVersion
  | initialization => InitializationFile.protocolVersion

/-- The texts of an object. -/
def texts : (T : ProtocolFileClass) → T.Object → List Str
  | uploadRequest => fun (file : UploadOperationRequestFile) =>
    file.loads.flatMap fun load => [load.headerFilename, load.partNumber]
  | downloadRequest => fun (file : DownloadOperationRequestFile) => file.files
  | downloadList => fun (file : DownloadOperationListFile) =>
    file.files.flatMap fun info => [info.filename, info.description]
  | downloadAnswer => fun (file : DownloadOperationAnswerFile) => file.files
  | loadConfigurationList => fun (file : LoadConfigurationListFile) =>
    file.targetsHardware.flatMap fun thw => thw.literalName :: thw.serialNumber ::
      thw.partNumbers.flatMap fun p => [p.partNumber, p.amendment, p.partDesignation]
  | uploadStatus => fun (file : UploadOperationStatusFile) =>
    file.status.description :: file.status.loads.flatMap fun load =>
      [load.headerFilename, load.partNumber, load.description]
  | downloadStatus => fun (file : DownloadOperationStatusFile) =>
    file.status.description :: file.status.files.flatMap fun f => [f.filename, f.description]
  | informationStatus => fun (file : InformationOperationStatusFile) =>
    [file.status.description]
  | initialization => fun (file : InitializationFile) => [file.response.description]

/-- The numbers of entries that an object is written with. -/
def counts : (T : ProtocolFileClass) → T.Object → List Nat
  | uploadRequest => fun (file : UploadOperationRequestFile) => [file.loads.length]
  | downloadRequest => fun (file : DownloadOperationRequestFile) => [file.files.length]
  | downloadList => fun (file : DownloadOperationListFile) => [file.files.length]
  | downloadAnswer => fun (file : DownloadOperationAnswerFile) => [file.files.length]
  | loadConfigurationList => fun (file : LoadConfigurationListFile) =>
    file.targetsHardware.length :: file.targetsHardware.map (·.partNumbers.length)
  | uploadStatus => fun (file : UploadOperationStatusFile) => [file.status.loads.length]
  | downloadStatus => fun (file : DownloadOperationStatusFile) => [file.status.files.length]
  | informationStatus => fun _ => []
  | initialization => fun _ => []

/-- The user defined data of an object: only a download request has some. -/
def userDefinedData : (T : ProtocolFileClass) → T.Object → RawData
  | downloadRequest => fun (file : DownloadOperationRequestFile) => file.userDefinedData
  | _ => fun _ => []

/-- What an object is written with fits its fields. -/
structure Fits (T : ProtocolFileClass) (file : T.Object) : Prop where
  texts : ∀ s ∈ T.texts file, StringAccepted s
  counts : ∀ n ∈ T.counts file, n ≤ 65535
  userDefinedData : (T.userDefinedData file).length ≤ 255

/-- A download request is a list with the user defined data behind it. -/
theorem exists_encode_downloadRequest_iff (file : DownloadOperationRequestFile) :
    (∃ rawData, file.encode = .ok rawData) ↔ file.files.length ≤ 65535 ∧
      (∀ filename ∈ file.files, StringAccepted filename) ∧ file.userDefinedData.length ≤ 255 := by
  unfold DownloadOperationRequestFile.encode
  by_cases hcount : 65535 < file.files.length
  · simp [hcount]
  · by_cases hdata : 255 < file.userDefinedData.length
    · simp [hcount, hdata, exists_bind_ok]
    · simp [hcount, hdata, exists_bind_ok, exists_writeEach_iff, exists_stringEncode_iff,
        Nat.le_of_not_lt]

/-- **Acceptance**: an encoder accepts exactly the objects that fit their fields. -/
theorem exists_encode_iff (T : ProtocolFileClass) (file : T.Object) :
    (∃ rawData, T.encode file = .ok rawData) ↔ T.Fits file := by
  have hfits : T.Fits file ↔ (∀ s ∈ T.texts file, StringAccepted s) ∧
      (∀ n ∈ T.counts file, n ≤ 65535) ∧ (T.userDefinedData file).length ≤ 255 :=
    ⟨fun h => ⟨h.texts, h.counts, h.userDefinedData⟩, fun ⟨ht, hc, hd⟩ => ⟨ht, hc, hd⟩⟩
  rw [hfits]
  cases T with
  | uploadRequest =>
    simp only [encode, UploadOperationRequestFile.encode, exists_list_iff,
      exists_encodeUploadLoad_iff, texts, counts, userDefinedData, List.forall_mem_flatMap,
      forall_mem_two, List.mem_singleton, forall_eq, List.length_nil, Nat.zero_le, and_true]
    exact and_comm
  | downloadRequest =>
    simp only [encode, exists_encode_downloadRequest_iff, texts, counts, userDefinedData,
      List.mem_singleton, forall_eq]
    exact and_left_comm
  | downloadList =>
    simp only [encode, DownloadOperationListFile.encode, exists_list_iff,
      exists_encodeDownloadFileInformation_iff, texts, counts, userDefinedData,
      List.forall_mem_flatMap, forall_mem_two, List.mem_singleton, forall_eq,
      List.length_nil, Nat.zero_le, and_true]
    exact and_comm
  | downloadAnswer =>
    simp only [encode, DownloadOperationAnswerFile.encode, exists_list_iff,
      exists_stringEncode_iff, texts, counts, userDefinedData, List.mem_singleton, forall_eq,
      List.length_nil, Nat.zero_le, and_true]
    exact and_comm
  | loadConfigurationList =>
    simp only [encode, LoadConfigurationListFile.encode, exists_list_iff,
      exists_encodeTargetHardware_iff, texts, counts, userDefinedData, List.forall_mem_flatMap,
      List.forall_mem_cons, List.forall_mem_map, List.length_nil, Nat.zero_le, and_true,
      forall_and]
    tauto
  | uploadStatus =>
    simp only [encode, UploadOperationStatusFile.encode, exists_counted_iff,
      exists_encodeStatusFront_iff, exists_encodeUploadLoadStatus_iff, texts, counts,
      userDefinedData, List.forall_mem_cons, List.forall_mem_flatMap, List.mem_singleton,
      forall_eq, List.length_nil, Nat.zero_le, and_true, loadAccepted_iff]
    tauto
  | downloadStatus =>
    simp only [encode, DownloadOperationStatusFile.encode, exists_counted_iff,
      exists_encodeStatusFront_iff, exists_encodeDownloadFileStatus_iff, texts, counts,
      userDefinedData, List.forall_mem_cons, List.forall_mem_flatMap, List.mem_singleton,
      forall_eq, List.length_nil, Nat.zero_le, and_true, fileAccepted_iff]
    tauto
  | informationStatus =>
    simp [encode, InformationOperationStatusFile.encode, exists_bind_ok,
      exists_stringEncode_iff, texts, counts, userDefinedData]
  | initialization =>
    simp [encode, InitializationFile.encode, exists_bind_ok, exists_stringEncode_iff, texts,
      counts, userDefinedData]

end ProtocolFileClass

end Arinc615a.Files
