import Arinc615a.Files.Arrival
import Arinc615a.Lib.Postcondition

/-!
# Encoding what was decoded

What a decoder accepts is sound: its version is supported, its codes are ones that a
file may carry, and its texts hold no NUL. It can be encoded again unless a text has
254 characters: a decoder takes that many in front of the NUL, and `String_encode`
one less. What is encoded again is read back to the same object.
-/

namespace Arinc615a.Files

open Readers Readers.Reader
open Information

/-! ## Fields -/

/-- A text as a decoder yields it. -/
def TextDecoded (s : Str) : Prop := 0 ∉ s ∧ s.length ≤ 254

theorem yields_stringDecode : Yields stringDecode TextDecoded := by
  intro bs s rest hdone
  rcases stringDecode_done hdone with ⟨-, rfl⟩ | ⟨length, body, -, hlen, hnul, rfl⟩
  · exact ⟨by simp, by simp⟩
  · refine ⟨zero_notMem_cut body, ?_⟩
    -- The NUL is not among the characters in front of it.
    have hlt : (cut body).length < body.length := by
      rcases Nat.lt_or_ge (cut body).length body.length with h | h
      · exact h
      · have heq : cut body = body :=
          (List.takeWhile_prefix _).eq_of_length (Nat.le_antisymm
            (List.takeWhile_prefix _).length_le h)
        exact absurd hnul (cut_eq_iff.mp heq)
    have hmax := UInt8.toNat_lt length
    change (cut body).length ≤ 254
    omega

/-- `String_encode` accepts it unless it is as long as can be. -/
theorem stringAccepted_decoded {s : Str} (h : TextDecoded s) :
    StringAccepted s ↔ s.length ≠ 254 := by
  obtain ⟨-, hlength⟩ := h
  unfold StringAccepted rawStringSize
  split
  · rename_i hempty
    rw [List.isEmpty_iff.mp hempty]
    simp
  · omega

theorem transmissible_statusCode {value : UInt16} {code : StatusCode}
    (h : statusCode value = .ok code) : code.Transmissible := by
  unfold statusCode at h
  split at h <;> cases h <;> exact ⟨by decide, by decide⟩

theorem accepted_operationAcceptanceStatusCode {value : UInt16}
    {code : OperationAcceptanceStatusCode}
    (h : operationAcceptanceStatusCode value = .ok code) : code ≠ .operationDeferred := by
  unfold operationAcceptanceStatusCode at h
  split at h <;> cases h <;> decide

theorem yields_statusCode (value : UInt16) :
    Yields (ofExcept (statusCode value) : Decoder StatusCode) StatusCode.Transmissible :=
  yields_ofExcept fun _ => transmissible_statusCode

/-- A file is of a supported version, and its content is decoded for that version. -/
theorem yields_decodeFile {α : Type} {minimumSize : Nat} {tooSmall : String}
    {content : Arinc615aVersion → Decoder α} {P : α → Prop}
    (h : ∀ version, version.Supported → Yields (content version) P) :
    Yields (decodeFile minimumSize tooSmall content) P := by
  refine yields_seq fun rawData => ?_
  refine yields_ite (fun _ => yields_throw _ _) fun _ => ?_
  refine yields_bind (P := Arinc615aVersion.Supported) ?_ h
  intro bs version rest hdone
  exact (decodeHeader_done_iff.mp hdone).1

/-- A list behind its count: as many records, each with the property, and nothing more. -/
theorem yields_list {α β : Type} {record : Decoder α} {P : α → Prop} {Q : β → Prop}
    {message : String} {make : List α → β} (hrecord : Yields record P)
    (h : ∀ records : List α, records.length ≤ 65535 → (∀ a ∈ records, P a) → Q (make records)) :
    Yields (do
      let count ← getUInt16
      let records ← times count.toNat record
      noMoreData message
      pure (make records) : Decoder β) Q := by
  refine yields_seq fun count => ?_
  refine yields_bind (yields_times hrecord _) fun records hrecords => ?_
  have hcount : records.length ≤ 65535 := by
    have := UInt16.toNat_lt count
    omega
  exact yields_seq fun _ => yields_pure (h records hcount hrecords.2)

/-! ## Records -/

theorem yields_decodeUploadLoad : Yields decodeUploadLoad fun load =>
    ∀ s ∈ [load.headerFilename, load.partNumber], TextDecoded s := by
  refine yields_bind yields_stringDecode fun headerFilename hname => ?_
  refine yields_bind yields_stringDecode fun loadPartNumber hpart => ?_
  exact yields_pure (forall_mem_two.mpr ⟨hname, hpart⟩)

theorem yields_decodeDownloadFileInformation : Yields decodeDownloadFileInformation fun info =>
    ∀ s ∈ [info.filename, info.description], TextDecoded s := by
  refine yields_bind yields_stringDecode fun filename hname => ?_
  refine yields_bind yields_stringDecode fun description hdescription => ?_
  exact yields_pure (forall_mem_two.mpr ⟨hname, hdescription⟩)

theorem yields_decodePartNumber : Yields decodePartNumber fun p =>
    ∀ s ∈ [p.partNumber, p.amendment, p.partDesignation], TextDecoded s := by
  refine yields_bind yields_stringDecode fun partNumber hpart => ?_
  refine yields_bind yields_stringDecode fun amendment hamendment => ?_
  refine yields_bind yields_stringDecode fun partDesignation hdesignation => ?_
  exact yields_pure (forall_mem_three.mpr ⟨hpart, hamendment, hdesignation⟩)

/-- A target hardware, with its part numbers. -/
theorem yields_decodeTargetHardware : Yields decodeTargetHardware fun thw =>
    thw.partNumbers.length ≤ 65535 ∧
      ∀ s ∈ thw.literalName :: thw.serialNumber :: thw.partNumbers.flatMap fun p =>
        [p.partNumber, p.amendment, p.partDesignation], TextDecoded s := by
  refine yields_bind yields_stringDecode fun literalName hname => ?_
  refine yields_bind yields_stringDecode fun serialNumber hserial => ?_
  refine yields_seq fun partNumbersCount => ?_
  refine yields_bind (yields_times yields_decodePartNumber _) fun partNumbers hparts => ?_
  obtain ⟨hlength, hparts⟩ := hparts
  refine yields_pure ⟨?_, ?_⟩
  · show partNumbers.length ≤ 65535
    have := UInt16.toNat_lt partNumbersCount
    omega
  · rw [List.forall_mem_cons, List.forall_mem_cons, List.forall_mem_flatMap]
    exact ⟨hname, hserial, hparts⟩

theorem yields_decodeUploadLoadStatus : Yields decodeUploadLoadStatus fun load =>
    load.code.Transmissible ∧
      ∀ s ∈ [load.headerFilename, load.partNumber, load.description], TextDecoded s := by
  refine yields_bind yields_stringDecode fun headerFilename hname => ?_
  refine yields_bind yields_stringDecode fun loadPartNumber hpart => ?_
  refine yields_seq fun loadRatio => ?_
  refine yields_seq fun intLoadStatusCode => ?_
  refine yields_bind yields_stringDecode fun loadStatusDescription hdescription => ?_
  refine yields_bind (yields_statusCode intLoadStatusCode) fun code hcode => ?_
  exact yields_pure ⟨hcode, forall_mem_three.mpr ⟨hname, hpart, hdescription⟩⟩

theorem yields_decodeDownloadFileStatus : Yields decodeDownloadFileStatus fun file =>
    file.code.Transmissible ∧ ∀ s ∈ [file.filename, file.description], TextDecoded s := by
  refine yields_bind yields_stringDecode fun filename hname => ?_
  refine yields_seq fun intFileStatusCode => ?_
  refine yields_bind yields_stringDecode fun fileStatusDescription hdescription => ?_
  refine yields_bind (yields_statusCode intFileStatusCode) fun code hcode => ?_
  exact yields_pure ⟨hcode, forall_mem_two.mpr ⟨hname, hdescription⟩⟩

/-- The front of a status, in whatever object it is read into. -/
theorem yields_decodeStatusFront (status : Status) :
    Yields (decodeStatusFront status) fun front =>
      front.1.code.Transmissible ∧ TextDecoded front.1.description := by
  refine yields_seq fun intStatusCode => ?_
  refine yields_bind (yields_statusCode intStatusCode) fun code hcode => ?_
  refine yields_bind yields_stringDecode fun statusDescription hdescription => ?_
  -- The counter, the timers and the ratio are any.
  refine yields_seq fun counter => ?_
  refine yields_seq fun exceptionTimer => ?_
  refine yields_seq fun estimatedTime => ?_
  refine yields_seq fun listRatio => ?_
  exact yields_pure ⟨hcode, hdescription⟩

/-! ## Objects -/

namespace ProtocolFileClass

/-- An object as a decoder yields it. -/
structure Decoded (T : ProtocolFileClass) (file : T.Object) : Prop where
  protocolVersion : (T.protocolVersion file).Supported
  codes : T.CodesTravel file
  texts : ∀ s ∈ T.texts file, TextDecoded s
  counts : ∀ n ∈ T.counts file, n ≤ 65535
  userDefinedData : (T.userDefinedData file).length ≤ 255

theorem yields_downloadRequest :
    Yields (DownloadOperationRequestFile.decode {}) (Decoded downloadRequest) := by
  refine yields_decodeFile fun version hversion => ?_
  refine yields_seq fun count => ?_
  refine yields_bind (yields_times yields_stringDecode _) fun files hfiles => ?_
  refine yields_seq fun length => ?_
  refine yields_seq fun data => ?_
  refine yields_ite (fun _ => yields_throw _ _) fun hdata => yields_pure ?_
  obtain ⟨hlength, htexts⟩ := hfiles
  have hcount := UInt16.toNat_lt count
  have hbyte := UInt8.toNat_lt length
  refine ⟨hversion, trivial, htexts, ?_, ?_⟩
  · intro n hn
    obtain rfl := List.mem_singleton.mp hn
    show files.length ≤ 65535
    omega
  · show data.length ≤ 255
    omega

theorem yields_uploadStatus :
    Yields (UploadOperationStatusFile.decode {}) (Decoded uploadStatus) := by
  refine yields_decodeFile fun version hversion => ?_
  refine yields_bind (yields_decodeStatusFront _) fun front hfront => ?_
  obtain ⟨status, ratio⟩ := front
  refine yields_list yields_decodeUploadLoadStatus fun loads hcount hloads => ?_
  have htexts := List.forall_mem_flatMap.mpr fun load hload => (hloads load hload).2
  exact ⟨hversion, ⟨hfront.1, fun load hload => (hloads load hload).1⟩,
    List.forall_mem_cons.mpr ⟨hfront.2, htexts⟩, List.forall_mem_singleton.mpr hcount,
    Nat.zero_le _⟩

theorem yields_downloadStatus :
    Yields (DownloadOperationStatusFile.decode {}) (Decoded downloadStatus) := by
  refine yields_decodeFile fun version hversion => ?_
  refine yields_bind (yields_decodeStatusFront _) fun front hfront => ?_
  obtain ⟨status, ratio⟩ := front
  refine yields_list yields_decodeDownloadFileStatus fun files hcount hfiles => ?_
  have htexts := List.forall_mem_flatMap.mpr fun f hf => (hfiles f hf).2
  exact ⟨hversion, ⟨hfront.1, fun f hf => (hfiles f hf).1⟩,
    List.forall_mem_cons.mpr ⟨hfront.2, htexts⟩, List.forall_mem_singleton.mpr hcount,
    Nat.zero_le _⟩

theorem yields_informationStatus :
    Yields (InformationOperationStatusFile.decode {}) (Decoded informationStatus) := by
  refine yields_decodeFile fun version hversion => ?_
  refine yields_seq fun counter => ?_
  refine yields_seq fun intStatusCode => ?_
  refine yields_bind (yields_statusCode intStatusCode) fun code hcode => ?_
  refine yields_seq fun exceptionTimer => ?_
  refine yields_seq fun estimatedTime => ?_
  refine yields_bind yields_stringDecode fun statusDescription hdescription => ?_
  refine yields_seq fun _ => yields_pure ?_
  exact ⟨hversion, hcode, List.forall_mem_singleton.mpr hdescription, by simp [counts],
    Nat.zero_le _⟩

theorem yields_initialization :
    Yields (InitializationFile.decode {}) (Decoded initialization) := by
  refine yields_decodeFile fun version hversion => ?_
  refine yields_seq fun intStatusCode => ?_
  refine yields_bind (yields_ofExcept fun _ => accepted_operationAcceptanceStatusCode)
    fun code hcode => ?_
  refine yields_bind yields_stringDecode fun description hdescription => ?_
  refine yields_seq fun _ => yields_pure ?_
  exact ⟨hversion, hcode, List.forall_mem_singleton.mpr hdescription, by simp [counts],
    Nat.zero_le _⟩

/-- **Soundness of the decoders**: what they accept could be encoded, but for the length
of a text. -/
theorem yields_decode (T : ProtocolFileClass) : Yields (T.decode T.fresh) (Decoded T) := by
  cases T with
  | uploadRequest =>
    refine yields_decodeFile fun version hversion => ?_
    refine yields_list yields_decodeUploadLoad fun loads hcount hloads => ?_
    exact ⟨hversion, trivial, List.forall_mem_flatMap.mpr hloads,
      List.forall_mem_singleton.mpr hcount, Nat.zero_le _⟩
  | downloadRequest => exact yields_downloadRequest
  | downloadList =>
    refine yields_decodeFile fun version hversion => ?_
    refine yields_list yields_decodeDownloadFileInformation fun files hcount hfiles => ?_
    exact ⟨hversion, trivial, List.forall_mem_flatMap.mpr hfiles,
      List.forall_mem_singleton.mpr hcount, Nat.zero_le _⟩
  | downloadAnswer =>
    refine yields_decodeFile fun version hversion => ?_
    refine yields_list yields_stringDecode fun files hcount hfiles => ?_
    exact ⟨hversion, trivial, hfiles, List.forall_mem_singleton.mpr hcount, Nat.zero_le _⟩
  | loadConfigurationList =>
    refine yields_decodeFile fun version hversion => ?_
    refine yields_list yields_decodeTargetHardware fun thws hcount hthws => ?_
    have htexts := List.forall_mem_flatMap.mpr fun thw hthw => (hthws thw hthw).2
    have hcounts : ∀ n ∈ thws.map (·.partNumbers.length), n ≤ 65535 :=
      List.forall_mem_map.mpr fun thw hthw => (hthws thw hthw).1
    exact ⟨hversion, trivial, htexts, List.forall_mem_cons.mpr ⟨hcount, hcounts⟩, Nat.zero_le _⟩
  | uploadStatus => exact yields_uploadStatus
  | downloadStatus => exact yields_downloadStatus
  | informationStatus => exact yields_informationStatus
  | initialization => exact yields_initialization

theorem decoded_construct {T : ProtocolFileClass} {rawData : RawData} {file : T.Object}
    (h : T.construct rawData = .done file) : T.Decoded file := by
  obtain ⟨⟨object, rest⟩, hdecode, hobject⟩ := Outcome.bind_eq_done.mp h
  obtain rfl := Outcome.done.inj hobject
  exact yields_decode T rawData object rest hdecode

/-- What was decoded fits its fields, but for texts that are as long as can be. -/
theorem fits_iff_of_decoded {T : ProtocolFileClass} {file : T.Object} (h : T.Decoded file) :
    T.Fits file ↔ ∀ s ∈ T.texts file, s.length ≠ 254 := by
  constructor
  · intro hfits s hs
    exact (stringAccepted_decoded (h.texts s hs)).mp (hfits.texts s hs)
  · intro htexts
    exact ⟨fun s hs => (stringAccepted_decoded (h.texts s hs)).mpr (htexts s hs), h.counts,
      h.userDefinedData⟩

/-- **Encoding again**: an object that was decoded is sound; it is encoded exactly if no
text has 254 characters, and then read back as itself. -/
theorem decoded_reencodes {T : ProtocolFileClass} {rawData : RawData} {file : T.Object}
    (h : T.construct rawData = .done file) :
    T.Decoded file ∧
      ((∃ rawData', T.encode file = .ok rawData') ↔ ∀ s ∈ T.texts file, s.length ≠ 254) ∧
        ∀ rawData', T.encode file = .ok rawData' → T.SizeAccepted rawData' →
          T.construct rawData' = .done file := by
  have hdecoded := decoded_construct h
  refine ⟨hdecoded, (exists_encode_iff T file).trans (fits_iff_of_decoded hdecoded), ?_⟩
  intro rawData' hencode hsize
  rw [construct_encode hdecoded.protocolVersion hdecoded.codes hsize hencode]
  -- No text that was decoded holds a NUL.
  exact congrArg Outcome.done ((arrived_eq_iff T file).mpr fun s hs => (hdecoded.texts s hs).1)

/-- An answer with one file, its name padded with NULs, is encoded without them. -/
theorem decoded_reencodes_answer :
    ∃ rawData', encode downloadAnswer ⟨.arinc615a34, [[0x41]]⟩ = .ok rawData' ∧
      rawData' ≠ insertHeader .arinc615a34 [0, 1, 4, 0x41, 0, 0, 0] ∧
        construct downloadAnswer rawData' = .done ⟨.arinc615a34, [[0x41]]⟩ := by
  refine ⟨_, rfl, by decide, ?_⟩
  exact (@decoded_reencodes downloadAnswer (insertHeader .arinc615a34 [0, 1, 4, 0x41, 0, 0, 0])
    ⟨.arinc615a34, [[0x41]]⟩ (by decide)).2.2 _ rfl nofun

end ProtocolFileClass

end Arinc615a.Files
