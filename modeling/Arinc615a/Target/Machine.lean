import Arinc615a.Lib.Machine
import Arinc615a.Target.Files

/-!
# The target operation as a machine

What can happen to an operation behind `start()`: requests of the host,
completions of transfers, timer waits, calls of the application, and returns
from the application's handler.
-/

namespace Arinc615a.Target

open Actions Actions.Action Machines Timers
open Files Information Tftp

/-! ## The four classes -/

/-- `tftpRequest`. -/
def tftpRequest (cfg : Configuration) : Request → Handler :=
  match cfg.operation with
  | .information => InformationOperation.tftpRequest
  | .upload => UploadOperation.tftpRequest
  | .mediaDefinedDownload => MediaDefinedDownloadOperation.tftpRequest
  | .operatorDefinedDownload => OperatorDefinedDownloadOperation.tftpRequest

/-- `statusFileCompleted`, behind the call of the application's handler. -/
def statusReturned (cfg : Configuration) : OperationStatus → Handler :=
  match operationClass cfg.operation with
  | .information => InformationOperation.statusReturned cfg
  | .upload => UploadOperation.statusReturned cfg
  | .download => DownloadOperation.statusReturned cfg

/-- The other two classes send no lists. -/
def listFileCompleted (cfg : Configuration) : TransferStatus → Handler :=
  match cfg.operation with
  | .information => InformationOperation.targetInformationCompleted cfg
  | .operatorDefinedDownload => OperatorDefinedDownloadOperation.downloadingListCompleted
  | _ => fun _ => undefined

/-- An information operation receives no file. -/
def requestFileCompleted (cfg : Configuration) : RawData → LibraryTransferStatus → Handler :=
  match cfg.operation with
  | .information => fun _ _ => undefined
  | .upload => UploadOperation.requestFileCompleted cfg
  | .mediaDefinedDownload => MediaDefinedDownloadOperation.requestFileCompleted cfg
  | .operatorDefinedDownload => OperatorDefinedDownloadOperation.answerFileCompleted cfg

/-- The texts of the failures of a received file. -/
def failureTexts : OperationType → FailureTexts
  | .upload => UploadOperation.texts
  | .mediaDefinedDownload => MediaDefinedDownloadOperation.texts
  | _ => OperatorDefinedDownloadOperation.texts

def accepted (cfg : Configuration) : Handler :=
  match operationClass cfg.operation with
  | .information => InformationOperation.accepted cfg
  | .upload => UploadOperation.accepted
  | .download => DownloadOperation.accepted

def inProgress (cfg : Configuration) : Bool → Int16 → Str → Handler :=
  match operationClass cfg.operation with
  | .information => InformationOperation.inProgress cfg
  | .upload => UploadOperation.inProgress cfg
  | .download => DownloadOperation.inProgress cfg

/-- An information operation has no list ratio. -/
def inProgressList (cfg : Configuration) : Bool → Int16 → Str → Ratio → Handler :=
  match operationClass cfg.operation with
  | .information => fun _ _ _ _ => undefined
  | .upload => UploadOperation.inProgressList cfg
  | .download => DownloadOperation.inProgressList cfg

def finished (cfg : Configuration) : FinalStatus → Str → Handler :=
  match operationClass cfg.operation with
  | .information => InformationOperation.finished cfg
  | .upload => UploadOperation.finished
  | .download => DownloadOperation.finished

/-! ## Calls of the application -/

inductive ApplicationCall where
  | accepted
  | inProgress (immediateTransmission : Bool) (estimatedTime : Int16) (description : Str)
  | inProgressList (immediateTransmission : Bool) (estimatedTime : Int16) (description : Str)
      (listRatio : Ratio)
  | finished (finalStatus : FinalStatus) (description : Str)
  | loadAccepted (headerFilename partNumber : Str)
  | loadInProgress (headerFilename : Str) (ratio : Ratio) (description : Str)
  | loadFinished (headerFilename : Str) (finalStatus : FinalStatus) (description : Str)
  | loadsFinished (finalStatus : FinalStatus) (description : Str)
  | fileAccepted (filename : Str)
  | fileInProgress (filename description : Str)
  | fileFinished (filename : Str) (finalStatus : FinalStatus) (description : Str)
  | filesFinished (finalStatus : FinalStatus) (description : Str)
  | targetInformation (targetsHardware : List TargetHardware) (checkValueType : CheckValueType)
  | downloadingList (files : List DownloadFileInformation)
  deriving DecidableEq

/-- The operations that have a call. -/
def offers (operation : OperationType) : ApplicationCall → Bool
  | .inProgressList _ _ _ _ => operation ≠ .information
  | .loadAccepted _ _ | .loadInProgress _ _ _ | .loadFinished _ _ _ | .loadsFinished _ _ =>
    operationClass operation = .upload
  | .fileAccepted _ | .fileInProgress _ _ | .fileFinished _ _ _ | .filesFinished _ _ =>
    operationClass operation = .download
  | .targetInformation _ _ => operation = .information
  | .downloadingList _ => operation = .operatorDefinedDownload
  | _ => true

/-- A call of the application. -/
def application (cfg : Configuration) : ApplicationCall → Handler
  | .accepted => accepted cfg
  | .inProgress immediateTransmission estimatedTime description =>
    inProgress cfg immediateTransmission estimatedTime description
  | .inProgressList immediateTransmission estimatedTime description listRatio =>
    inProgressList cfg immediateTransmission estimatedTime description listRatio
  | .finished finalStatus description => finished cfg finalStatus description
  | .loadAccepted headerFilename partNumber =>
    UploadOperation.loadAccepted headerFilename partNumber
  | .loadInProgress headerFilename ratio description =>
    UploadOperation.loadInProgress cfg headerFilename ratio description
  | .loadFinished headerFilename finalStatus description =>
    UploadOperation.loadFinished headerFilename finalStatus description
  | .loadsFinished finalStatus description =>
    UploadOperation.loadsFinished finalStatus description
  | .fileAccepted filename => DownloadOperation.fileAccepted filename
  | .fileInProgress filename description =>
    DownloadOperation.fileInProgress cfg filename description
  | .fileFinished filename finalStatus description =>
    DownloadOperation.fileFinished filename finalStatus description
  | .filesFinished finalStatus description =>
    DownloadOperation.filesFinished finalStatus description
  | .targetInformation targetsHardware checkValueType =>
    InformationOperation.targetInformation cfg targetsHardware checkValueType
  | .downloadingList files => OperatorDefinedDownloadOperation.downloadingList cfg files

/-! ## Events -/

inductive Event where
  /-- The protocol hands on a request. -/
  | tftpRequest (request : Request)
  /-- An operation of the TFTP client or of the TFTP server completes, with the
  data it received. -/
  | clientCompleted (operation : TransferId) (status : TransferStatus)
  | serverCompleted (operation : TransferId) (status : LibraryTransferStatus) (data : RawData)
  /-- The wait of the timer is over, or ends with an error. -/
  | timerExpired
  | timerFailed
  /-- The queued timer handler runs. -/
  | timerHandler (result : WaitResult)
  /-- The application's handler returns, or throws an `Arinc615aException`. -/
  | callbackReturned
  | callbackThrew
  | application (call : ApplicationCall)
  /-- Time passes. -/
  | advance (time : Nat)
  deriving DecidableEq

/-- The transfer with this number, if it has not completed. -/
def transfer? (s : State) (operation : TransferId) : Option Transfer :=
  s.transfers.find? (·.id = operation)

/-- The completion handler of a transfer of the TFTP client. -/
def clientCompleted (cfg : Configuration) (operation : TransferId) (status : TransferStatus) :
    Handler := do
  let s ← get
  match transfer? s operation with
  | none => undefined
  | some t => do
    endTransfer operation
    match t.kind with
    | .statusFile sentStatus => statusFileCompleted sentStatus status
    | .listFile => listFileCompleted cfg status
    | _ => undefined

/-- The completion handler of a transfer of the TFTP server. -/
def serverCompleted (cfg : Configuration) (operation : TransferId)
    (status : LibraryTransferStatus) (data : RawData) : Handler := do
  let s ← get
  match transfer? s operation with
  | none => undefined
  | some t => do
    endTransfer operation
    match t.kind with
    | .initialisation => sendInitFileComplete cfg status
    | .requestFile => requestFileCompleted cfg data status
    | _ => undefined

/-- What stands behind a call of the application's handler. -/
def callbackReturned (cfg : Configuration) : Continuation → Handler
  | .status sentStatus => statusReturned cfg sentStatus
  | .finalised => finalisedReturned
  | .receivedFile => pure ()

/-- The `catch` around a call of the application's handler. -/
def callbackThrew (cfg : Configuration) : Continuation → Handler
  | .status _ => pure ()
  | .finalised => pure ()
  | .receivedFile =>
    finished cfg .abortedByTargetHardware (failureTexts cfg.operation).formatError

/-- The reaction to an event, where it can happen. While the application's
handler is called, only the application acts and time passes. -/
def react (cfg : Configuration) : Event → Handler
  | .tftpRequest request => do
    let s ← get
    require (s.callback = none)
    tftpRequest cfg request
  | .clientCompleted operation status => do
    let s ← get
    require (s.callback = none)
    clientCompleted cfg operation status
  | .serverCompleted operation status data => do
    let s ← get
    require (s.callback = none)
    serverCompleted cfg operation status data
  | .timerExpired => do
    let s ← get
    require (s.timer.due s.now)
    modify fun s => { s with timer := s.timer.complete .success }
  | .timerFailed => do
    let s ← get
    require s.timer.deadline.isSome
    modify fun s => { s with timer := s.timer.complete .failure }
  | .timerHandler result => do
    let s ← get
    require (s.callback = none ∧ s.timer.queue.head? = some result)
    modify fun s => { s with timer := { s.timer with queue := s.timer.queue.tail } }
    statusTransmissionTimerHandler cfg result
  | .callbackReturned => do
    let s ← get
    match s.callback with
    | none => undefined
    | some continuation => do
      modify fun s => { s with callback := none }
      callbackReturned cfg continuation
  | .callbackThrew => do
    let s ← get
    match s.callback with
    | none => undefined
    | some continuation => do
      modify fun s => { s with callback := none }
      callbackThrew cfg continuation
  | .application call => do
    require (offers cfg.operation call)
    application cfg call
  | .advance time => modify fun s => { s with now := s.now + time }

/-- The operation as a machine. -/
def machine (cfg : Configuration) : Machine State Event Output where
  step s e := (react cfg e).run s

/-- The state that `start()` leaves: the transfer of the initialisation file is in
flight. -/
def started (cfg : Configuration) (hostAddress : Endpoint) (port : Option UInt16) : State :=
  { newOperation cfg with
    hostAddress := hostAddress.address
    hostPort := port.getD cfg.tftpServerPort
    initialisationOperation := some 0
    transfers := [⟨0, .initialisation⟩]
    nextTransfer := 1 }

/-- `start()` of a new operation answers with the initialisation file. -/
theorem start_run (cfg : Configuration) (hostAddress : Endpoint) (port : Option UInt16) :
    ∃ file,
      InitializationFile.encode ⟨cfg.protocolVersion, ⟨.operationAccepted, []⟩⟩ = .ok file ∧
      (start cfg hostAddress port).run (newOperation cfg) =
        some (started cfg hostAddress port, [.readOperation hostAddress 0 file]) := by
  refine ⟨_, rfl, ?_⟩
  cases port <;> rfl

theorem step_eq_some {cfg : Configuration} {s s' : State} {e : Event} {out : List Output} :
    (machine cfg).step s e = some (s', out) ↔ react cfg e s [] = some ((), s', out) :=
  run_eq_some

/-- An operation on the target `HNPFMS_L`, for examples. -/
def exampleConfiguration (operation : OperationType) : Configuration :=
  { operation := operation
    targetId := ⟨str "HNPFMS", str "L"⟩
    protocolVersion := .arinc615a34
    statusTransmissionRate := 1
    tftpServerPort := 59
    checkValue := fun type _ => ⟨type, []⟩
    argumentsLeftToRight := true
    completesDestroyed := false }

/-- The host of the examples. -/
def exampleHost : Endpoint := ⟨1, 1025⟩

end Arinc615a.Target
