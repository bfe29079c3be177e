import Arinc615a.Files.Arrival
import Arinc615a.Host.Deliveries
import Arinc615a.Target.Deliveries

/-!
# What one party writes and the other one reads

The files that host and target exchange, as the other one gets them: texts arrive up to
their first NUL, and everything else as it was. Both parties read files of a supported
version only, so that what was read was written for one.
-/

namespace Arinc615a.System

open Readers
open Files Information

/-! ## The status -/

/-- A status as the host reads it. -/
def arrivedStatus : OperationStatus → OperationStatus
  | .information status => .information (cutStatus status)
  | .upload status =>
    .upload ⟨cutStatus status.toStatus, status.listRatio, status.loads.map cutLoad⟩
  | .download status =>
    .download ⟨cutStatus status.toStatus, status.listRatio, status.files.map cutFile⟩

@[simp] theorem status_arrivedStatus (status : OperationStatus) :
    (arrivedStatus status).status = cutStatus status.status := by
  cases status <;> rfl

variable {cfg : Target.Configuration}

/-- **Status files** are read as they were sent. -/
theorem decodeStatus_arrived {filename : Str} {status : OperationStatus} {file : RawData}
    (hversion : cfg.protocolVersion.Supported) (h : Target.SentStatus cfg filename status file) :
    Host.decodeStatus cfg.operation file = .done (arrivedStatus status, []) := by
  have hclass := h.operationClass_eq
  have hcode : status.status.code.Transmissible := ⟨h.codes.code_ne, h.code_ne⟩
  have hentries := h.codes.entries
  have hencode := h.encoded
  cases status with
  | information status =>
    have hop : cfg.operation = .information := by
      cases hop : cfg.operation <;> rw [hop] at hclass <;> first | rfl | cases hclass
    rw [hop]
    exact congrArg (Outcome.bind · _)
      (InformationOperationStatusFile.arrives_written hversion hcode hencode {})
  | upload status =>
    have hop : cfg.operation = .upload := by
      cases hop : cfg.operation <;> rw [hop] at hclass <;> first | rfl | cases hclass
    rw [hop]
    exact congrArg (Outcome.bind · _) (UploadOperationStatusFile.arrives_written hversion hcode
      (fun load hload => hentries _ (List.mem_map_of_mem hload)) hencode {})
  | download status =>
    have hop : Host.decodeStatus cfg.operation = Host.DownloadOperation.decodeStatus := by
      cases hop : cfg.operation <;> rw [hop] at hclass <;> first | rfl | cases hclass
    rw [hop]
    exact congrArg (Outcome.bind · _) (DownloadOperationStatusFile.arrives_written hversion hcode
      (fun f hf => hentries _ (List.mem_map_of_mem hf)) hencode {})

/-- What the host reads of a status file is the status that was sent. -/
theorem eq_arrivedStatus {filename : Str} {status received : OperationStatus}
    {file rest : RawData}
    (h : Target.SentStatus cfg filename status file)
    (hread : Host.decodeStatus cfg.operation file = .done (received, rest)) :
    received = arrivedStatus status := by
  obtain ⟨body, rfl⟩ := Target.exists_framed h.encoded
  rw [decodeStatus_arrived (Target.supported_of_decode hread) h] at hread
  exact (congrArg Prod.fst (Outcome.done.inj hread)).symm

/-! ## The files of the user -/

/-- What the user sends, as the application gets it. -/
def given : Host.Event → Option Target.Received
  | .loadList loads => some (.loadList (loads.map cutUploadLoad))
  | .request files userDefinedData => some (.downloadingRequest (files.map cut) userDefinedData)
  | .answer files => some (.downloadingAnswer (files.map cut))
  | _ => none

variable {host : Host.Configuration} {s : Host.State}

/-- **Files of the user** are read as they were given, with the version they were sent in. -/
theorem decodeRequest_given {file : RawData} {filename : Str} {e : Host.Event}
    (hversion : s.protocolVersion.Supported) (h : Host.SentBy host s file filename e) :
    ∃ received rest, given e = some received ∧
      Target.decodeRequest host.operation file = .done ((s.protocolVersion, received), rest) := by
  cases h with
  | loadList hop hencode =>
    rw [hop]
    exact ⟨_, _, rfl, congrArg (Outcome.bind · _)
      (UploadOperationRequestFile.arrives hversion hencode)⟩
  | request hop hencode =>
    rw [hop]
    exact ⟨_, _, rfl, congrArg (Outcome.bind · _)
      (DownloadOperationRequestFile.arrives hversion hencode)⟩
  | answer hop hencode =>
    rw [hop]
    exact ⟨_, _, rfl, congrArg (Outcome.bind · _)
      (DownloadOperationAnswerFile.arrives hversion hencode)⟩

/-- What is read of a file of the user was sent in a supported version. -/
theorem supported_of_decodeRequest {file : RawData} {filename : Str} {e : Host.Event}
    {result : (Arinc615aVersion × Target.Received) × RawData}
    (h : Host.SentBy host s file filename e)
    (hread : Target.decodeRequest host.operation file = .done result) :
    s.protocolVersion.Supported := by
  cases h with
  | loadList hop hencode =>
    rw [hop] at hread
    obtain ⟨decoded, hdecode, -⟩ := Outcome.bind_eq_done.mp hread
    exact ProtocolFileClass.supported_of_decode (T := .uploadRequest) {} hencode hdecode
  | request hop hencode =>
    rw [hop] at hread
    obtain ⟨decoded, hdecode, -⟩ := Outcome.bind_eq_done.mp hread
    exact ProtocolFileClass.supported_of_decode (T := .downloadRequest) {} hencode hdecode
  | answer hop hencode =>
    rw [hop] at hread
    obtain ⟨decoded, hdecode, -⟩ := Outcome.bind_eq_done.mp hread
    exact ProtocolFileClass.supported_of_decode (T := .downloadAnswer) {} hencode hdecode

/-- What the application gets is what the user gave. -/
theorem eq_given {file rest : RawData} {filename : Str} {e : Host.Event}
    {version : Arinc615aVersion} {received : Target.Received}
    (h : Host.SentBy host s file filename e)
    (hread : Target.decodeRequest host.operation file = .done ((version, received), rest)) :
    given e = some received ∧ s.protocolVersion = version := by
  obtain ⟨received', rest', hgiven, hdecode⟩ :=
    decodeRequest_given (supported_of_decodeRequest h hread) h
  rw [hdecode] at hread
  cases hread
  exact ⟨hgiven, rfl⟩

/-! ## The lists of the application -/

theorem eq_arrivedTargetsHardware {version : Arinc615aVersion} {thws : List TargetHardware}
    {file rest : RawData} {received : LoadConfigurationListFile}
    (h : LoadConfigurationListFile.encode ⟨version, thws⟩ = .ok file)
    (hread : LoadConfigurationListFile.decode {} file = .done (received, rest)) :
    received.targetsHardware = thws.map cutTargetHardware := by
  have hversion : version.Supported :=
    ProtocolFileClass.supported_of_decode (T := .loadConfigurationList) {} h hread
  rw [LoadConfigurationListFile.decode_encode hversion h] at hread
  split at hread
  · cases hread
  split at hread
  · cases hread
  · cases hread
    rfl

theorem eq_arrivedFiles {version : Arinc615aVersion} {files : List DownloadFileInformation}
    {file rest : RawData} {received : DownloadOperationListFile}
    (h : DownloadOperationListFile.encode ⟨version, files⟩ = .ok file)
    (hread : DownloadOperationListFile.decode {} file = .done (received, rest)) :
    received.files = files.map cutDownloadFileInformation := by
  have hversion : version.Supported :=
    ProtocolFileClass.supported_of_decode (T := .downloadList) {} h hread
  rw [DownloadOperationListFile.arrives hversion h] at hread
  cases hread
  rfl

end Arinc615a.System
