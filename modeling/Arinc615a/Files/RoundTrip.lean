import Arinc615a.Files.ListFiles
import Arinc615a.Files.LoadConfigurationListFile
import Arinc615a.Files.StatusFiles

/-!
# Round trips of protocol files

Every sound initialisation, status, request, list and answer file is encoded, and
the decoder of its class reads the bytes back to the same object. What is sound
is what the encoder accepts and the decoder can tell apart: strings without NUL
that fit their length byte, codes that travel, and lists that fit their count.
-/

namespace Arinc615a.Files

open Readers Readers.Reader
open Information

/-! ## Fields and frames -/

/-- The object is encoded, and decoding the bytes gives it back. What is left of the
bytes is what the decoder copies without taking it. -/
def RoundTrip {α : Type} (encoded : Except Arinc615aException RawData) (decode : Decoder α)
    (file : α) : Prop :=
  ∃ rawData rest, encoded = .ok rawData ∧ decode rawData = .done (file, rest)

/-- A string that the encoder accepts arrives up to its first NUL. -/
theorem travels_accepted {s : Str} (h : StringAccepted s) :
    Travels (stringEncode s 0) 255 stringDecode (cut s) := by
  have hencode := stringEncode_ok h
  refine ⟨_, hencode, ?_, parses_stringEncode_cut hencode⟩
  rw [length_stringEncode hencode]
  unfold StringAccepted at h
  omega

theorem travels_string {s : Str} (h : StringOk s) :
    Travels (stringEncode s 0) 255 stringDecode s := by
  have htravels := travels_accepted h.2
  rwa [cut_eq h.1] at htravels

/-- A framed file whose content is read back. -/
theorem roundTrip_frame {α : Type} {content : Arinc615aVersion → Decoder α}
    {version : Arinc615aVersion} {body rest : RawData} {file : α} {minimumSize : Nat}
    {tooSmall : String} (hversion : version.Supported)
    (hmin : minimumSize ≤ headerSize + body.length) (hmax : headerSize + body.length < 2 ^ 32)
    (h : content version body = .done (file, rest)) :
    decodeFile minimumSize tooSmall content (insertHeader version body) = .done (file, rest) := by
  rw [decodeFile_insertHeader hversion, if_neg (by omega), if_neg (by omega)]
  exact h

/-- Records of at most this size fit the length field of a file. -/
theorem records_fit {count size : Nat} (hcount : count ≤ 65535) (hsize : size ≤ 1000) :
    count * size ≤ 65535000 := by
  calc count * size ≤ 65535 * 1000 := Nat.mul_le_mul hcount hsize
    _ = 65535000 := by norm_num

/-! ## Request, list and answer files -/

/-- **Lists**: a framed list of records that travel is read back. -/
theorem roundTrip_list {α β : Type} (make : Arinc615aVersion → List α → β)
    {write : α → Except Arinc615aException RawData} {record : Decoder α} {size : Nat}
    {records : List α} {version : Arinc615aVersion} {tooSmall message : String}
    (hversion : version.Supported) (hcount : records.length ≤ 65535) (hsize : size ≤ 1000)
    (h : ∀ a ∈ records, Travels (write a) size record a) :
    ∃ bs, writeEach write records = .ok bs ∧
      decodeFile (headerSize + 2) tooSmall
        (fun version => do
          let count ← getUInt16
          let records ← times count.toNat record
          noMoreData message
          pure (make version records))
        (insertHeader version (setUInt16 (UInt16.ofNat records.length) ++ bs)) =
          .done (make version records, []) := by
  obtain ⟨bs, hbs, hlen, hparses⟩ := travels_writeEach h
  have hfit := records_fit hcount hsize
  refine ⟨bs, hbs, roundTrip_frame hversion ?_ ?_ (decode_counted hcount hparses)⟩
  · rw [List.length_append, length_setUInt16]
    omega
  · rw [List.length_append, length_setUInt16, headerSize]
    omega

/-- The strings of a load that is requested are sound. -/
def UploadLoadOk (load : UploadLoad) : Prop :=
  StringOk load.headerFilename ∧ StringOk load.partNumber

/-- The strings of a file that is offered are sound. -/
def DownloadFileInformationOk (downloadInfo : DownloadFileInformation) : Prop :=
  StringOk downloadInfo.filename ∧ StringOk downloadInfo.description

theorem travels_uploadLoad {load : UploadLoad} (h : UploadLoadOk load) :
    Travels (encodeUploadLoad load) 510 decodeUploadLoad load := by
  obtain ⟨a, ha, hlena, hpa⟩ := travels_string h.1
  obtain ⟨b, hb, hlenb, hpb⟩ := travels_string h.2
  refine ⟨a ++ b, ?_, ?_, hpa.bind (hpb.map (UploadLoad.mk load.headerFilename))⟩
  · rw [encodeUploadLoad, ha, hb]
    rfl
  · rw [List.length_append]
    omega

theorem travels_downloadFileInformation {downloadInfo : DownloadFileInformation}
    (h : DownloadFileInformationOk downloadInfo) :
    Travels (encodeDownloadFileInformation downloadInfo) 510 decodeDownloadFileInformation
      downloadInfo := by
  obtain ⟨a, ha, hlena, hpa⟩ := travels_string h.1
  obtain ⟨b, hb, hlenb, hpb⟩ := travels_string h.2
  refine ⟨a ++ b, ?_, ?_, hpa.bind (hpb.map (DownloadFileInformation.mk downloadInfo.filename))⟩
  · rw [encodeDownloadFileInformation, ha, hb]
    rfl
  · rw [List.length_append]
    omega

/-- A load request of a supported version that fits its fields. -/
structure UploadOperationRequestFile.Ok (file : UploadOperationRequestFile) : Prop where
  version : file.protocolVersion.Supported
  count : file.loads.length ≤ 65535
  loads : ∀ load ∈ file.loads, UploadLoadOk load

/-- So a download request, with its user defined data. -/
structure DownloadOperationRequestFile.Ok (file : DownloadOperationRequestFile) : Prop where
  version : file.protocolVersion.Supported
  count : file.files.length ≤ 65535
  files : ∀ filename ∈ file.files, StringOk filename
  userDefinedData : file.userDefinedData.length ≤ 255

/-- So a list of files. -/
structure DownloadOperationListFile.Ok (file : DownloadOperationListFile) : Prop where
  version : file.protocolVersion.Supported
  count : file.files.length ≤ 65535
  files : ∀ downloadInfo ∈ file.files, DownloadFileInformationOk downloadInfo

/-- And so a download answer. -/
structure DownloadOperationAnswerFile.Ok (file : DownloadOperationAnswerFile) : Prop where
  version : file.protocolVersion.Supported
  count : file.files.length ≤ 65535
  files : ∀ filename ∈ file.files, StringOk filename

theorem UploadOperationRequestFile.roundTrip {file : UploadOperationRequestFile} (h : file.Ok) :
    RoundTrip file.encode (decode {}) file := by
  obtain ⟨bs, hbs, hdecode⟩ := roundTrip_list UploadOperationRequestFile.mk h.version h.count
    (by norm_num) fun load hload => travels_uploadLoad (h.loads load hload)
  refine ⟨_, _, ?_, hdecode⟩
  rw [encode, if_neg (Nat.not_lt.mpr h.count), hbs]
  rfl

theorem DownloadOperationListFile.roundTrip {file : DownloadOperationListFile} (h : file.Ok) :
    RoundTrip file.encode (decode {}) file := by
  obtain ⟨bs, hbs, hdecode⟩ := roundTrip_list DownloadOperationListFile.mk h.version h.count
    (by norm_num) fun downloadInfo hmem =>
      travels_downloadFileInformation (h.files downloadInfo hmem)
  refine ⟨_, _, ?_, hdecode⟩
  rw [encode, if_neg (Nat.not_lt.mpr h.count), hbs]
  rfl

theorem DownloadOperationAnswerFile.roundTrip {file : DownloadOperationAnswerFile}
    (h : file.Ok) : RoundTrip file.encode (decode {}) file := by
  obtain ⟨bs, hbs, hdecode⟩ := roundTrip_list DownloadOperationAnswerFile.mk h.version h.count
    (by norm_num) fun filename hmem => travels_string (h.files filename hmem)
  refine ⟨_, _, ?_, hdecode⟩
  rw [encode, if_neg (Nat.not_lt.mpr h.count), hbs]
  rfl

/-- The user defined data stands behind its length byte, to the end of the file. -/
theorem DownloadOperationRequestFile.roundTrip {file : DownloadOperationRequestFile}
    (h : file.Ok) : RoundTrip file.encode (decode {}) file := by
  obtain ⟨bs, hbs, hlen, hparses⟩ := travels_writeEach fun filename hmem =>
    travels_string (h.files filename hmem)
  have hfit : file.files.length * 255 ≤ 65535000 := records_fit h.count (by norm_num)
  have hdata := h.userDefinedData
  have hcount := parses_setUInt16 (UInt16.ofNat file.files.length)
  have hlength : (UInt8.ofNat file.userDefinedData.length).toNat = file.userDefinedData.length :=
    UInt8.toNat_ofNat_of_lt' (Nat.lt_succ_of_le hdata)
  have hbyte : Parses getUInt8 [UInt8.ofNat file.userDefinedData.length]
      (UInt8.ofNat file.userDefinedData.length) :=
    parses_getUInt8_iff.mpr ⟨rfl, by
      rw [BigEndian.beNat, hlength]
      simp [BigEndian.beNat]⟩
  refine ⟨insertHeader file.protocolVersion (setUInt16 (UInt16.ofNat file.files.length) ++
      (bs ++ ([UInt8.ofNat file.userDefinedData.length] ++ file.userDefinedData))),
    file.userDefinedData, ?_, roundTrip_frame h.version ?_ ?_ ?_⟩
  · rw [encode, if_neg (Nat.not_lt.mpr h.count), hbs]
    show (if 255 < file.userDefinedData.length then _ else _) = _
    rw [if_neg (Nat.not_lt.mpr hdata)]
    simp
  · simp only [List.length_append, length_setUInt16, List.length_singleton, headerSize]
    omega
  · simp only [List.length_append, length_setUInt16, List.length_singleton, headerSize]
    omega
  · simp only [bind_apply, hcount _, Outcome.bind_done, toNat_ofNat_count h.count, hparses _,
      hbyte _, remaining_apply, hlength]
    rw [if_neg (not_not.mpr rfl)]
    rfl

/-- **The round trip of request, list and answer files**: a fresh object reads back what a
sound one wrote. -/
theorem listFiles_roundTrip :
    (∀ file : UploadOperationRequestFile, file.Ok →
      RoundTrip file.encode (UploadOperationRequestFile.decode {}) file) ∧
    (∀ file : DownloadOperationRequestFile, file.Ok →
      RoundTrip file.encode (DownloadOperationRequestFile.decode {}) file) ∧
    (∀ file : DownloadOperationListFile, file.Ok →
      RoundTrip file.encode (DownloadOperationListFile.decode {}) file) ∧
    ∀ file : DownloadOperationAnswerFile, file.Ok →
      RoundTrip file.encode (DownloadOperationAnswerFile.decode {}) file :=
  ⟨fun _ => UploadOperationRequestFile.roundTrip,
    fun _ => DownloadOperationRequestFile.roundTrip,
    fun _ => DownloadOperationListFile.roundTrip,
    fun _ => DownloadOperationAnswerFile.roundTrip⟩

/-- A download request of two files, one without a name, with user defined data that holds
a NUL. -/
theorem listFiles_roundTrip_request :
    RoundTrip
      (DownloadOperationRequestFile.encode ⟨.arinc615a2, [[0x41, 0x2E, 0x42], []], [0, 0xFF]⟩)
      (DownloadOperationRequestFile.decode {})
      ⟨.arinc615a2, [[0x41, 0x2E, 0x42], []], [0, 0xFF]⟩ := by
  refine listFiles_roundTrip.2.1 _ ⟨.inl rfl, ?_, ?_, ?_⟩
  · decide
  · unfold StringOk StringAccepted
    decide
  · decide

/-! ## Initialisation and status files -/

/-- The code and the description of a status are sound. Its numbers may be any. -/
def StatusOk (status : Status) : Prop :=
  status.code.Transmissible ∧ StringOk status.description

/-- So those of a load. -/
def UploadLoadStatusOk (headerFile : UploadLoadStatus) : Prop :=
  StringOk headerFile.headerFilename ∧ StringOk headerFile.partNumber ∧
    headerFile.code.Transmissible ∧ StringOk headerFile.description

/-- And those of a file. -/
def DownloadFileStatusOk (file : DownloadFileStatus) : Prop :=
  StringOk file.filename ∧ file.code.Transmissible ∧ StringOk file.description

/-- The texts of a load fit. -/
structure LoadAccepted (load : UploadLoadStatus) : Prop where
  headerFilename : StringAccepted load.headerFilename
  partNumber : StringAccepted load.partNumber
  description : StringAccepted load.description

/-- So those of a file. -/
structure FileAccepted (file : DownloadFileStatus) : Prop where
  filename : StringAccepted file.filename
  description : StringAccepted file.description

/-- A status as it arrives. -/
def cutStatus (status : Status) : Status :=
  { status with description := cut status.description }

/-- A load as it arrives. -/
def cutLoad (load : UploadLoadStatus) : UploadLoadStatus :=
  { load with
    headerFilename := cut load.headerFilename
    partNumber := cut load.partNumber
    description := cut load.description }

/-- A file as it arrives. -/
def cutFile (file : DownloadFileStatus) : DownloadFileStatus :=
  { file with filename := cut file.filename, description := cut file.description }

theorem cutStatus_eq {status : Status} (h : StatusOk status) : cutStatus status = status := by
  rw [cutStatus, cut_eq h.2.1]

theorem cutLoad_eq {load : UploadLoadStatus} (h : UploadLoadStatusOk load) :
    cutLoad load = load := by
  rw [cutLoad, cut_eq h.1.1, cut_eq h.2.1.1, cut_eq h.2.2.2.1]

theorem cutFile_eq {file : DownloadFileStatus} (h : DownloadFileStatusOk file) :
    cutFile file = file := by
  rw [cutFile, cut_eq h.1.1, cut_eq h.2.2.1]

theorem travels_cutLoad {headerFile : UploadLoadStatus} (h : LoadAccepted headerFile)
    (hcode : headerFile.code.Transmissible) :
    Travels (encodeUploadLoadStatus headerFile) 770 decodeUploadLoadStatus
      (cutLoad headerFile) := by
  obtain ⟨a, ha, hlena, hpa⟩ := travels_accepted h.headerFilename
  obtain ⟨b, hb, hlenb, hpb⟩ := travels_accepted h.partNumber
  obtain ⟨c, hc, hlenc, hpc⟩ := travels_accepted h.description
  have hratio := parses_ratioEncode headerFile.ratio
  have hint := parses_setUInt16 headerFile.code.toUInt16
  refine ⟨a ++ b ++ ratioEncode headerFile.ratio ++ setUInt16 headerFile.code.toUInt16 ++ c,
    ?_, ?_, ?_⟩
  · rw [encodeUploadLoadStatus, ha, hb, hc]
    rfl
  · simp only [List.length_append, length_ratioEncode, length_setUInt16]
    omega
  · intro rest
    simp only [decodeUploadLoadStatus, bind_apply, List.append_assoc, hpa _, hpb _, hratio _,
      hint _, hpc _, Outcome.bind_done, statusCode_toUInt16 hcode, ofExcept_ok, pure_apply]
    rfl

theorem travels_cutFile {file : DownloadFileStatus} (h : FileAccepted file)
    (hcode : file.code.Transmissible) :
    Travels (encodeDownloadFileStatus file) 512 decodeDownloadFileStatus (cutFile file) := by
  obtain ⟨a, ha, hlena, hpa⟩ := travels_accepted h.filename
  obtain ⟨b, hb, hlenb, hpb⟩ := travels_accepted h.description
  have hint := parses_setUInt16 file.code.toUInt16
  refine ⟨a ++ setUInt16 file.code.toUInt16 ++ b, ?_, ?_, ?_⟩
  · rw [encodeDownloadFileStatus, ha, hb]
    rfl
  · simp only [List.length_append, length_setUInt16]
    omega
  · intro rest
    simp only [decodeDownloadFileStatus, bind_apply, List.append_assoc, hpa _, hint _, hpb _,
      Outcome.bind_done, statusCode_toUInt16 hcode, ofExcept_ok, pure_apply]
    rfl

/-- The front of a status is read back into any object. -/
theorem statusFront_roundTrip {status : Status} (hcode : status.code.Transmissible)
    (hdescription : StringAccepted status.description) (listRatio : Ratio) :
    ∃ front, encodeStatusFront status listRatio = .ok front ∧ 11 ≤ front.length ∧
      front.length ≤ 266 ∧
        ∀ self, Parses (decodeStatusFront self) front (cutStatus status, listRatio) := by
  obtain ⟨a, ha, hlena, hpa⟩ := travels_accepted hdescription
  have hint := parses_setUInt16 status.code.toUInt16
  have hcounter := parses_setUInt16 status.counter
  have htimer := parses_setUInt16 status.exceptionTimer
  have htime := parses_setInt16 status.estimatedTime
  have hratio := parses_ratioEncode listRatio
  refine ⟨setUInt16 status.code.toUInt16 ++ a ++ setUInt16 status.counter ++
    setUInt16 status.exceptionTimer ++ setInt16 status.estimatedTime ++ ratioEncode listRatio,
    ?_, ?_, ?_, ?_⟩
  · rw [encodeStatusFront, ha]
    rfl
  · simp only [List.length_append, length_ratioEncode, length_setUInt16, length_setInt16]
    omega
  · simp only [List.length_append, length_ratioEncode, length_setUInt16, length_setInt16]
    omega
  · intro self rest
    simp only [decodeStatusFront, bind_apply, List.append_assoc, hint _, hpa _, hcounter _,
      htimer _, htime _, hratio _, Outcome.bind_done, statusCode_toUInt16 hcode,
      ofExcept_ok, pure_apply]
    rfl

/-- **Status lists**: a framed status with a list of records that travel is read
into any object, as it arrives. -/
theorem roundTrip_statusList {α β : Type}
    (make : Arinc615aVersion → Status → Ratio → List α → β)
    {write : α → Except Arinc615aException RawData} {record : Decoder α} {size : Nat}
    {records : List α} {g : α → α} {version : Arinc615aVersion} {status : Status}
    {tooSmall message : String} (listRatio : Ratio) (hversion : version.Supported)
    (hcode : status.code.Transmissible) (hdescription : StringAccepted status.description)
    (hcount : records.length ≤ 65535) (hsize : size ≤ 1000)
    (h : ∀ a ∈ records, Travels (write a) size record (g a)) :
    ∃ front bs, encodeStatusFront status listRatio = .ok front ∧
      writeEach write records = .ok bs ∧ ∀ self,
      decodeFile (headerSize + 9) tooSmall
        (fun version => do
          let (status, listRatio) ← decodeStatusFront self
          let count ← getUInt16
          let records ← times count.toNat record
          noMoreData message
          pure (make version status listRatio records))
        (insertHeader version
          (front ++ setUInt16 (UInt16.ofNat records.length) ++ bs)) =
          .done (make version (cutStatus status) listRatio (records.map g), []) := by
  obtain ⟨front, hfront, hmin, hmax, hparses⟩ :=
    statusFront_roundTrip hcode hdescription listRatio
  obtain ⟨bs, hbs, hlen, hrecords⟩ := travels_writeEach_map h
  have hfit := records_fit hcount hsize
  refine ⟨front, bs, hfront, hbs, fun self => roundTrip_frame hversion ?_ ?_ ?_⟩
  · simp only [List.length_append, length_setUInt16]
    omega
  · simp only [List.length_append, length_setUInt16, headerSize]
    omega
  · rw [bind_apply, List.append_assoc, hparses self, Outcome.bind_done]
    rw [← List.length_map (f := g)] at hcount hrecords ⊢
    exact decode_counted hcount hrecords

/-- A response of a supported version that may be sent. -/
structure InitializationFile.Ok (file : InitializationFile) : Prop where
  version : file.protocolVersion.Supported
  code : file.response.code ≠ .operationDeferred
  description : StringOk file.response.description

/-- The status of an information operation that may be sent. -/
structure InformationOperationStatusFile.Ok (file : InformationOperationStatusFile) : Prop where
  version : file.protocolVersion.Supported
  status : StatusOk file.status

/-- The status of an upload that may be sent, with its loads. -/
structure UploadOperationStatusFile.Ok (file : UploadOperationStatusFile) : Prop where
  version : file.protocolVersion.Supported
  status : StatusOk file.status.toStatus
  count : file.status.loads.length ≤ 65535
  loads : ∀ headerFile ∈ file.status.loads, UploadLoadStatusOk headerFile

/-- The status of a download that may be sent, with its files. -/
structure DownloadOperationStatusFile.Ok (file : DownloadOperationStatusFile) : Prop where
  version : file.protocolVersion.Supported
  status : StatusOk file.status.toStatus
  count : file.status.files.length ≤ 65535
  files : ∀ downloadFile ∈ file.status.files, DownloadFileStatusOk downloadFile

theorem InitializationFile.roundTrip {file : InitializationFile} (h : file.Ok)
    (self : InitializationFile) : RoundTrip file.encode self.decode file := by
  obtain ⟨a, ha, hlen, hpa⟩ := travels_string h.description
  have hsize := length_stringEncode ha
  have hint := parses_setUInt16 file.response.code.toUInt16
  refine ⟨insertHeader file.protocolVersion (setUInt16 file.response.code.toUInt16 ++ a), [],
    ?_, roundTrip_frame h.version ?_ ?_ ?_⟩
  · rw [encode, ha]
    rfl
  · rw [List.length_append, length_setUInt16]
    omega
  · rw [List.length_append, length_setUInt16, headerSize]
    omega
  · simp only [bind_apply, hint _, hpa.whole, Outcome.bind_done,
      operationAcceptanceStatusCode_toUInt16 h.code, ofExcept_ok, noMoreData_nil, pure_apply]

theorem InformationOperationStatusFile.roundTrip {file : InformationOperationStatusFile}
    (h : file.Ok) (self : InformationOperationStatusFile) :
    RoundTrip file.encode self.decode file := by
  obtain ⟨hcode, hdescription⟩ := h.status
  obtain ⟨a, ha, hlen, hpa⟩ := travels_string hdescription
  have hsize := length_stringEncode ha
  have hcounter := parses_setUInt16 file.status.counter
  have hint := parses_setUInt16 file.status.code.toUInt16
  have htimer := parses_setUInt16 file.status.exceptionTimer
  have htime := parses_setInt16 file.status.estimatedTime
  refine ⟨insertHeader file.protocolVersion (setUInt16 file.status.counter ++
      setUInt16 file.status.code.toUInt16 ++ setUInt16 file.status.exceptionTimer ++
      setInt16 file.status.estimatedTime ++ a), [], ?_, roundTrip_frame h.version ?_ ?_ ?_⟩
  · rw [encode, ha]
    rfl
  · simp only [List.length_append, length_setUInt16, length_setInt16]
    omega
  · simp only [List.length_append, length_setUInt16, length_setInt16, headerSize]
    omega
  · simp only [bind_apply, List.append_assoc, hcounter _, hint _, htimer _, htime _, hpa.whole,
      Outcome.bind_done, statusCode_toUInt16 hcode, ofExcept_ok, noMoreData_nil, pure_apply]

/-- The status of an upload that the encoder accepts is read into any object, as it
arrives. -/
theorem UploadOperationStatusFile.arrives (file : UploadOperationStatusFile)
    (hversion : file.protocolVersion.Supported) (hcode : file.status.code.Transmissible)
    (hdescription : StringAccepted file.status.description)
    (hcount : file.status.loads.length ≤ 65535)
    (hloads : ∀ load ∈ file.status.loads, LoadAccepted load ∧ load.code.Transmissible)
    (self : UploadOperationStatusFile) :
    ∃ rawData, file.encode = .ok rawData ∧ self.decode rawData =
      .done (⟨file.protocolVersion, ⟨cutStatus file.status.toStatus, file.status.listRatio,
        file.status.loads.map cutLoad⟩⟩, []) := by
  obtain ⟨front, bs, hfront, hbs, hdecode⟩ := roundTrip_statusList
    (fun version status listRatio loads => UploadOperationStatusFile.mk version
      ⟨status, listRatio, loads⟩) file.status.listRatio hversion hcode hdescription hcount
    (by norm_num) fun load hmem => travels_cutLoad (hloads load hmem).1 (hloads load hmem).2
  refine ⟨_, ?_, hdecode self.status.toStatus⟩
  rw [encode, hfront]
  show (if 65535 < file.status.loads.length then _ else _) = _
  rw [if_neg (Nat.not_lt.mpr hcount), hbs]
  rfl

/-- So is that of a download. -/
theorem DownloadOperationStatusFile.arrives (file : DownloadOperationStatusFile)
    (hversion : file.protocolVersion.Supported) (hcode : file.status.code.Transmissible)
    (hdescription : StringAccepted file.status.description)
    (hcount : file.status.files.length ≤ 65535)
    (hfiles : ∀ f ∈ file.status.files, FileAccepted f ∧ f.code.Transmissible)
    (self : DownloadOperationStatusFile) :
    ∃ rawData, file.encode = .ok rawData ∧ self.decode rawData =
      .done (⟨file.protocolVersion, ⟨cutStatus file.status.toStatus, file.status.listRatio,
        file.status.files.map cutFile⟩⟩, []) := by
  obtain ⟨front, bs, hfront, hbs, hdecode⟩ := roundTrip_statusList
    (fun version status listRatio files => DownloadOperationStatusFile.mk version
      ⟨status, listRatio, files⟩) file.status.listRatio hversion hcode hdescription hcount
    (by norm_num) fun f hmem => travels_cutFile (hfiles f hmem).1 (hfiles f hmem).2
  refine ⟨_, ?_, hdecode self.status.toStatus⟩
  rw [encode, hfront]
  show (if 65535 < file.status.files.length then _ else _) = _
  rw [if_neg (Nat.not_lt.mpr hcount), hbs]
  rfl

theorem UploadOperationStatusFile.roundTrip {file : UploadOperationStatusFile} (h : file.Ok)
    (self : UploadOperationStatusFile) : RoundTrip file.encode self.decode file := by
  obtain ⟨rawData, hencode, hdecode⟩ := arrives file h.version h.status.1 h.status.2.2 h.count
    (fun load hmem =>
      have hload := h.loads load hmem
      ⟨⟨hload.1.2, hload.2.1.2, hload.2.2.2.2⟩, hload.2.2.1⟩) self
  have hsame : file.status.loads.map cutLoad = file.status.loads := by
    rw [List.map_congr_left fun load hmem => cutLoad_eq (h.loads load hmem), List.map_id']
  rw [cutStatus_eq h.status, hsame] at hdecode
  exact ⟨rawData, [], hencode, hdecode⟩

theorem DownloadOperationStatusFile.roundTrip {file : DownloadOperationStatusFile} (h : file.Ok)
    (self : DownloadOperationStatusFile) : RoundTrip file.encode self.decode file := by
  obtain ⟨rawData, hencode, hdecode⟩ := arrives file h.version h.status.1 h.status.2.2 h.count
    (fun f hmem =>
      have hfile := h.files f hmem
      ⟨⟨hfile.1.2, hfile.2.2.2⟩, hfile.2.1⟩) self
  have hsame : file.status.files.map cutFile = file.status.files := by
    rw [List.map_congr_left fun f hmem => cutFile_eq (h.files f hmem), List.map_id']
  rw [cutStatus_eq h.status, hsame] at hdecode
  exact ⟨rawData, [], hencode, hdecode⟩

/-- **The round trip of initialisation and status files**: any object reads back what a
sound one wrote. -/
theorem statusFiles_roundTrip :
    (∀ file : UploadOperationStatusFile, file.Ok →
      ∀ self : UploadOperationStatusFile, RoundTrip file.encode self.decode file) ∧
    (∀ file : DownloadOperationStatusFile, file.Ok →
      ∀ self : DownloadOperationStatusFile, RoundTrip file.encode self.decode file) ∧
    (∀ file : InformationOperationStatusFile, file.Ok →
      ∀ self : InformationOperationStatusFile, RoundTrip file.encode self.decode file) ∧
    ∀ file : InitializationFile, file.Ok →
      ∀ self : InitializationFile, RoundTrip file.encode self.decode file :=
  ⟨fun _ => UploadOperationStatusFile.roundTrip,
    fun _ => DownloadOperationStatusFile.roundTrip,
    fun _ => InformationOperationStatusFile.roundTrip,
    fun _ => InitializationFile.roundTrip⟩

/-- An upload in progress, with a negative estimated time and one load that failed, read
into an object that holds a default status. -/
theorem statusFiles_roundTrip_upload :
    RoundTrip
      (UploadOperationStatusFile.encode ⟨.arinc615a34,
        ⟨⟨0xFFFF, 3, -1, .operationInProgress, [0x41]⟩, ⟨100, by omega⟩,
          [⟨[0x42], [], ⟨7, by omega⟩, .loadPartNumberOrDownloadFileFailed, [0x43, 0x44]⟩]⟩⟩)
      (UploadOperationStatusFile.decode {})
      ⟨.arinc615a34,
        ⟨⟨0xFFFF, 3, -1, .operationInProgress, [0x41]⟩, ⟨100, by omega⟩,
          [⟨[0x42], [], ⟨7, by omega⟩, .loadPartNumberOrDownloadFileFailed, [0x43, 0x44]⟩]⟩⟩ := by
  refine statusFiles_roundTrip.1 _ ⟨.inr rfl, ?_, ?_, ?_⟩ {}
  · unfold StatusOk StatusCode.Transmissible StringOk StringAccepted
    decide
  · decide
  · unfold UploadLoadStatusOk StatusCode.Transmissible StringOk StringAccepted
    decide

end Arinc615a.Files
