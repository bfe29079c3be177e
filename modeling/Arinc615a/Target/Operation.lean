import Arinc615a.Files.ListFiles
import Arinc615a.Files.LoadConfigurationListFile
import Arinc615a.Files.ProtocolFilename
import Arinc615a.Files.StatusFiles
import Arinc615a.Lib.Action
import Arinc615a.Lib.Timer
import Arinc615a.Tftp.Transfer

/-!
# Target operations

`target/implementation/OperationImpl.cpp`: what the four operations of the
target share, and the transmission of their status. As in the host, handlers
are actions, calls of the application's handler and of TFTP operations are
outputs, and a call of the application's handler that the operation continues
after stops with a `Continuation`.
-/

namespace Arinc615a.Target

open Actions Actions.Action Timers
open Files Information Tftp

/-- What an operation is created with, and what it takes from its environment. -/
structure Configuration where
  operation : OperationType
  targetId : TargetId
  protocolVersion : Arinc615aVersion
  /-- In seconds. -/
  statusTransmissionRate : Nat
  /-- The port of hosts that do not send the port option. -/
  tftpServerPort : UInt16
  /-- The check value generators of the ARINC 649 library. -/
  checkValue : CheckValueType → RawData → CheckValue
  /-- C++ leaves the order open in which the arguments of a call are evaluated:
  `description.empty()` stands to the left of `std::move( description )`. -/
  argumentsLeftToRight : Bool
  /-- An operation of the TFTP client aborts its transfer when it is destroyed.
  This says whether the TFTP library then calls its completion handler. -/
  completesDestroyed : Bool

/-- TFTP operations are told apart by the order in which they were started. -/
abbrev TransferId := Nat

/-- The completion handler of a TFTP operation. -/
inductive TransferKind where
  /-- `sendInitFileComplete`. -/
  | initialisation
  /-- `statusFileCompleted`, with the status that is sent. -/
  | statusFile (sentStatus : OperationStatus)
  /-- `targetInformationCompleted` or `downloadingListCompleted`. -/
  | listFile
  /-- `requestFileCompleted` or `answerFileCompleted`. -/
  | requestFile
  deriving DecidableEq

/-- A TFTP operation that has not completed. -/
structure Transfer where
  id : TransferId
  kind : TransferKind
  deriving DecidableEq

/-- A call of the application's handler that the operation continues after. -/
inductive Continuation where
  | status (sentStatus : OperationStatus)
  /-- `finished`, in `finalise`. -/
  | finalised
  /-- `loadList`, `downloadingRequest` or `downloadingAnswer`. -/
  | receivedFile
  deriving DecidableEq

/-- A call of the application's handler with a file that was received. -/
inductive Received where
  | loadList (loads : List UploadLoad)
  | downloadingRequest (files : List Str) (userDefinedData : RawData)
  | downloadingAnswer (files : List Str)
  deriving DecidableEq

/-- What an operation does to its environment. -/
inductive Output where
  | initialised
  | abortRequest (abortRequest : AbortRequest)
  | status (sentStatus : OperationStatus)
  /-- `OperationHandler::finished`. -/
  | finished (finalStatus : FinalStatus) (description : Str)
  | received (file : Received)
  /-- `Server::errorOperation`, and the starts of a `Server::readOperation` and of
  a `Server::writeOperation`. -/
  | errorOperation (remote : Endpoint) (errorCode : ErrorCode) (errorMessage : Str)
  | readOperation (remote : Endpoint) (operation : TransferId) (file : RawData)
  | writeOperation (remote : Endpoint) (operation : TransferId)
  /-- The request of a `Client::writeOperation` for a status file and for a list. -/
  | statusFile (remote : Endpoint) (operation : TransferId) (filename : Str)
      (sentStatus : OperationStatus) (file : RawData)
  | listFile (remote : Endpoint) (operation : TransferId) (filename : Str) (file : RawData)
      (checkValue : CheckValue)
  /-- An operation of the TFTP client is destroyed while its transfer is in flight. -/
  | abortTransfer (operation : TransferId)
  /-- A wait of the status transmission timer is started. -/
  | timerArmed (deadline : Nat)
  /-- A call leaves with an exception. -/
  | thrown (exception : Arinc615aException)
  deriving DecidableEq

/-- The class of an operation. -/
def operationClass : OperationType → OperationClass
  | .information => .information
  | .upload => .upload
  | .mediaDefinedDownload => .download
  | .operatorDefinedDownload => .download

/-- The status of a new operation. -/
def initialStatus (operation : OperationType) : OperationStatus :=
  match operationClass operation with
  | .information => .information {}
  | .upload => .upload {}
  | .download => .download {}

/-- `OperationImpl` and the members of the operation classes. -/
structure State where
  /-- `statusV`. -/
  status : OperationStatus
  statusOperation : Option TransferId := none
  /-- `targetInformationOperation` or `downloadingListOperation`. -/
  listOperation : Option TransferId := none
  /-- `requestFileOperation` or `answerFileOperation`. -/
  requestFileOperation : Option TransferId := none
  initialisationOperation : Option TransferId := none
  hostAddress : Nat := 0
  hostPort : UInt16
  timer : Timer := {}
  /-- The environment: transfers that have not completed, the call of the
  application's handler that has not returned, and the clock. -/
  transfers : List Transfer := []
  nextTransfer : TransferId := 0
  callback : Option Continuation := none
  now : Nat := 0

/-- A new operation. -/
def newOperation (cfg : Configuration) : State :=
  { status := initialStatus cfg.operation, hostPort := cfg.tftpServerPort }

/-- The status code of the operation. -/
abbrev State.code (s : State) : StatusCode := s.status.status.code

/-- Where files are sent to. -/
def State.remote (s : State) : Endpoint := ⟨s.hostAddress, s.hostPort⟩

/-- The handlers of an operation. -/
abbrev Handler := Action State Output Unit

/-- Start a TFTP operation. -/
def startTransfer (kind : TransferKind) : Action State Output TransferId := do
  let s ← get
  modify fun s =>
    { s with
      transfers := ⟨s.nextTransfer, kind⟩ :: s.transfers
      nextTransfer := s.nextTransfer + 1 }
  pure s.nextTransfer

/-- A transfer leaves the environment. -/
def endTransfer (operation : TransferId) : Handler :=
  modify fun s => { s with transfers := s.transfers.filter (·.id ≠ operation) }

/-- The operation that sends a file is replaced. If its transfer is in flight,
it is aborted; a completion handler that is called for it resets the member that
the new operation is in already, and the call goes on with a null pointer. -/
def destroyOperation (cfg : Configuration) (operation : Option TransferId) : Handler :=
  match operation with
  | none => pure ()
  | some operation => do
    require (cfg.completesDestroyed = false)
    endTransfer operation
    emit (.abortTransfer operation)

/-- Start a wait of the status transmission timer. -/
def armTimer (seconds : Nat) : Handler := do
  let s ← get
  let deadline := s.now + seconds * second
  modify fun s => { s with timer := s.timer.start deadline }
  emit (.timerArmed deadline)

/-- `OperationImpl::triggerStatusTransmission`. -/
def triggerStatusTransmission : Handler := armTimer 0

/-- `OperationImpl::triggerStatusTransmissionTimer`. -/
def triggerStatusTransmissionTimer (cfg : Configuration) : Handler :=
  armTimer cfg.statusTransmissionRate

/-- `OperationImpl::protocolFilename`. -/
def protocolFilename (cfg : Configuration) (fileType : ProtocolFileType) : Str :=
  ProtocolFilename.toString ⟨cfg.targetId, fileType⟩

/-- `OperationImpl::finalise`, up to the call of the application's handler. -/
def finalise (finalStatus : FinalStatus) (description : Str) : Handler := do
  -- Transfers go on, and no member says that the operation has ended.
  emit (.finished finalStatus description)
  modify fun s => { s with callback := some .finalised }

/-- `finalise`, behind the call. -/
def finalisedReturned : Handler := modify fun s => { s with timer := s.timer.cancel }

/-- `OperationImpl::sendInitFile`. A file that cannot be encoded is logged. -/
def sendInitFile (cfg : Configuration) (hostAddress : Endpoint) : Handler :=
  match InitializationFile.encode ⟨cfg.protocolVersion, ⟨.operationAccepted, []⟩⟩ with
  | .error _ => pure ()
  | .ok file => do
    let operation ← startTransfer .initialisation
    modify fun s => { s with initialisationOperation := some operation }
    emit (.readOperation hostAddress operation file)

/-- `OperationImpl::doStart`, the start of all four operations. -/
def start (cfg : Configuration) (hostAddress : Endpoint) (port : Option UInt16) : Handler := do
  modify fun s => { s with hostAddress := hostAddress.address }
  match port with
  | none => pure ()
  | some port => modify fun s => { s with hostPort := port }
  sendInitFile cfg hostAddress

/-- `OperationImpl::sendInitFileComplete`. -/
def sendInitFileComplete (cfg : Configuration) (transferStatus : LibraryTransferStatus) :
    Handler := do
  modify fun s => { s with initialisationOperation := none }
  if transferStatus ≠ .successful then
    finalise .abortedByTargetHardware (str "Initialisation file transmission failed")
  else do
    triggerStatusTransmissionTimer cfg
    emit .initialised

/-! ## The status -/

/-- The type of the status files of an operation. -/
def statusFileType (operation : OperationType) : ProtocolFileType :=
  match operationClass operation with
  | .information => .loadConfigurationStatus
  | .upload => .uploadStatus
  | .download => .downloadStatus

/-- The status file of a status. -/
def encodeStatus (protocolVersion : Arinc615aVersion) :
    OperationStatus → Except Arinc615aException RawData
  | .information status => InformationOperationStatusFile.encode ⟨protocolVersion, status⟩
  | .upload status => UploadOperationStatusFile.encode ⟨protocolVersion, status⟩
  | .download status => DownloadOperationStatusFile.encode ⟨protocolVersion, status⟩

/-- The status to send: one that was never set is sent as accepted. -/
def statusToSend (status : OperationStatus) : OperationStatus :=
  if status.status.code = .invalid then status.update (·.setCode .operationAccepted) else status

/-- `statusFile` of the four classes. The encoder may throw, out of the timer
handler or out of the call of the application. Nothing waits for a status file
that is still in transmission. -/
def statusFile (cfg : Configuration) : Handler := do
  modify fun s => { s with status := statusToSend s.status }
  let s ← get
  match encodeStatus cfg.protocolVersion s.status with
  | .error e => emit (.thrown e)
  | .ok file => do
    -- The file that is still in transmission, if any.
    destroyOperation cfg s.statusOperation
    let operation ← startTransfer (.statusFile s.status)
    modify fun s => { s with statusOperation := some operation }
    emit (.statusFile s.remote operation
      (protocolFilename cfg (statusFileType cfg.operation)) s.status file)
    -- The completion handler gets the status as it was before this.
    modify fun s => { s with status := s.status.update Status.incrementCounter }
    triggerStatusTransmissionTimer cfg

/-- `status` of the four classes. -/
def reported (code : StatusCode) (description : Str) (estimatedTime : Int16)
    (status : OperationStatus) : OperationStatus :=
  status.update fun status => { status.set code description with estimatedTime := estimatedTime }

/-- Change the status. -/
def updateStatus (f : OperationStatus → OperationStatus) : Handler :=
  modify fun s => { s with status := f s.status }

/-- `OperationImpl::statusTransmissionTimerHandler`. An error of the timer is
logged, and the status sent all the same. -/
def statusTransmissionTimerHandler (cfg : Configuration) (errorCode : WaitResult) : Handler :=
  match errorCode with
  | .operationAborted => pure ()
  | .failure => statusFile cfg
  | .success => statusFile cfg

/-! ## The code and the class of a status -/

@[simp] theorem status_reported (code : StatusCode) (description : Str) (estimatedTime : Int16)
    (status : OperationStatus) :
    (reported code description estimatedTime status).status =
      { status.status.set code description with estimatedTime := estimatedTime } :=
  OperationStatus.status_update ..

@[simp] theorem operationClass_reported (code : StatusCode) (description : Str)
    (estimatedTime : Int16) (status : OperationStatus) :
    (reported code description estimatedTime status).operationClass = status.operationClass :=
  OperationStatus.operationClass_update ..

@[simp] theorem operationClass_statusToSend (status : OperationStatus) :
    (statusToSend status).operationClass = status.operationClass := by
  unfold statusToSend
  split
  · exact OperationStatus.operationClass_update ..
  · rfl

/-- A status that was set is sent as it is. -/
theorem statusToSend_eq {status : OperationStatus} (h : status.status.code ≠ .invalid) :
    statusToSend status = status := if_neg h

/-- A status that is sent carries a code. -/
theorem code_statusToSend_ne (status : OperationStatus) :
    (statusToSend status).status.code ≠ .invalid := by
  unfold statusToSend
  split
  · rw [OperationStatus.status_update]
    simp [Status.setCode]
  · assumption

/-! ## Effects -/

/-- The deadline of a wait of so many seconds. -/
def State.deadline (s : State) (seconds : Nat) : Nat := s.now + seconds * second

/-- The state with the status transmission timer armed. -/
def State.armed (s : State) (seconds : Nat) : State :=
  { s with timer := s.timer.start (s.deadline seconds) }

@[simp] theorem armTimer_apply (seconds : Nat) (s : State) (out : List Output) :
    armTimer seconds s out =
      some ((), s.armed seconds, out ++ [.timerArmed (s.deadline seconds)]) := rfl

@[simp] theorem startTransfer_bind {α : Type} (kind : TransferKind)
    (f : TransferId → Action State Output α) (s : State) (out : List Output) :
    (startTransfer kind >>= f) s out =
      f s.nextTransfer { s with
        transfers := ⟨s.nextTransfer, kind⟩ :: s.transfers
        nextTransfer := s.nextTransfer + 1 } out := rfl

/-- The state with a new transfer. -/
def State.withTransfer (s : State) (kind : TransferKind) : State :=
  { s with
    transfers := ⟨s.nextTransfer, kind⟩ :: s.transfers
    nextTransfer := s.nextTransfer + 1 }

/-- The state with another status. -/
def State.withStatus (s : State) (status : OperationStatus) : State :=
  { s with status := status }

@[simp] theorem status_withStatus (s : State) (status : OperationStatus) :
    (s.withStatus status).status = status := rfl

/-- The state without a transfer that completed. -/
def State.withoutTransfer (s : State) (operation : TransferId) : State :=
  { s with transfers := s.transfers.filter (·.id ≠ operation) }

@[simp] theorem endTransfer_bind {α : Type} (operation : TransferId)
    (f : Unit → Action State Output α) (s : State) (out : List Output) :
    (endTransfer operation >>= f) s out = f () (s.withoutTransfer operation) out := rfl

/-- The state without the transfer of an operation that is replaced. -/
def State.without (s : State) (operation : Option TransferId) : State :=
  { s with transfers := s.transfers.filter fun t => some t.id ≠ operation }

/-- The abort of the transfer of an operation that is replaced. -/
def transferAborts : Option TransferId → List Output
  | none => []
  | some operation => [.abortTransfer operation]

/-- An operation whose transfer is in flight is replaced only where this is
defined. -/
def Replaceable (cfg : Configuration) (operation : Option TransferId) : Prop :=
  operation.isSome → cfg.completesDestroyed = false

instance (cfg : Configuration) (operation : Option TransferId) :
    Decidable (Replaceable cfg operation) :=
  inferInstanceAs (Decidable (_ → _))

@[simp] theorem destroyOperation_bind {α : Type} (cfg : Configuration)
    (operation : Option TransferId) (f : Unit → Action State Output α) (s : State)
    (out : List Output) :
    (destroyOperation cfg operation >>= f) s out =
      if Replaceable cfg operation then
        f () (s.without operation) (out ++ transferAborts operation)
      else none := by
  cases operation with
  | none => simp [destroyOperation, Replaceable, State.without, transferAborts]
  | some operation =>
    simp only [destroyOperation, Replaceable, State.without, transferAborts,
      Option.isSome_some, true_imp_iff, bind_bind, require_bind, endTransfer_bind,
      State.withoutTransfer, emit_bind, ne_eq, Option.some.injEq]

/-- The state behind the start of a status file. -/
def State.withStatusFile (cfg : Configuration) (s : State) : State :=
  State.armed
    { (s.without s.statusOperation).withTransfer (.statusFile s.status) with
      statusOperation := some s.nextTransfer
      status := s.status.update Status.incrementCounter }
    cfg.statusTransmissionRate

/-- The outputs of the start of a status file. -/
def statusFileOutputs (cfg : Configuration) (s : State) (file : RawData) : List Output :=
  transferAborts s.statusOperation ++
    [.statusFile s.remote s.nextTransfer
      (protocolFilename cfg (statusFileType cfg.operation)) s.status file,
      .timerArmed (s.deadline cfg.statusTransmissionRate)]

/-- The state and the outputs of a transmission of the status. -/
def transmission (cfg : Configuration) (s : State) : Option (State × List Output) :=
  match encodeStatus cfg.protocolVersion s.status with
  | .error e => some (s, [.thrown e])
  | .ok file =>
    if Replaceable cfg s.statusOperation then
      some (s.withStatusFile cfg, statusFileOutputs cfg s file)
    else none

/-- `statusFile` sends the status, which it sets first if it was never set. -/
theorem statusFile_apply (cfg : Configuration) (s : State) :
    statusFile cfg s [] =
      (transmission cfg (s.withStatus (statusToSend s.status))).map ((), ·) := by
  simp only [statusFile, modify_bind, get_bind, transmission, State.withStatus]
  cases encodeStatus cfg.protocolVersion (statusToSend s.status) with
  | error e => rfl
  | ok file =>
    by_cases h : Replaceable cfg s.statusOperation
    · simp only [destroyOperation_bind, h, if_true, startTransfer_bind, modify_bind, emit_bind,
        triggerStatusTransmissionTimer, armTimer_apply, List.nil_append, List.append_assoc]
      rfl
    · simp only [destroyOperation_bind, h, if_false]
      rfl

end Arinc615a.Target
