import Arinc615a.Host.Files
import Arinc615a.Lib.Machine

/-!
# The host operation as a machine

The dispatch of TFTP requests by the four operation classes, and everything
that can happen to an operation behind `start()`: requests of the target,
completions of transfers, timer waits, calls of the user, and returns from the
user's handler.
-/

namespace Arinc615a.Host

open Actions Actions.Action Machines Timers
open Files Information Tftp

/-! ## Start -/

/-- The initialisation file of an operation. -/
def initialisationFileType : OperationType → ProtocolFileType
  | .information => .loadConfigurationInitialization
  | .upload => .uploadInitialization
  | .mediaDefinedDownload => .mediaDefinedDownloadInitialization
  | .operatorDefinedDownload => .operatorDefinedDownloadInitialization

/-- `start()` of the four classes: each resets its own flag. -/
def start (cfg : Configuration) : Handler := do
  if cfg.operation = .information then
    modify fun s => { s with waitForFinalStatus := false }
  else
    modify fun s => { s with sent := false }
  initialise cfg (initialisationFileType cfg.operation)

/-! ## TFTP requests -/

/-- `handler.fileRequest` of a request. -/
def fileRequest (request : Request) : Handler :=
  emit (.fileRequest request.remote request.filename request.clientTftpOptions
    request.clientArinc615aOptions.partNumber request.clientArinc615aOptions.checksum)

/-- `InformationOperationImpl::tftpRequest`. A request that is not a write
request is answered with an error, and handled all the same. -/
def InformationOperation.tftpRequest (cfg : Configuration) (request : Request) : Handler := do
  let file := ProtocolFilename.ofString request.filename
  let checked ← checkRequest cfg request.filename request.remote
  if ¬ checked then pure ()
  else do
    if request.requestType ≠ .write then
      emit (.errorOperation request.remote .illegalTftpOperation (str "Only WRQ allowed"))
    -- No return here: the dispatch below answers a read request a second time.
    match file.fileType with
    | .loadConfigurationList =>
      listFileRequest request.remote request.clientArinc615aOptions.checksum
    | .loadConfigurationStatus => statusFileRequest cfg request.remote
    | _ => emit (.errorOperation request.remote .fileNotFound (str "Wrong filename"))

/-- `UploadOperationImpl::tftpRequest`. -/
def UploadOperation.tftpRequest (cfg : Configuration) (request : Request) : Handler := do
  let checked ← checkRequest cfg request.filename request.remote
  if ¬ checked then pure ()
  else
    match request.requestType with
    | .read => fileRequest request
    | .write =>
      match (ProtocolFilename.ofString request.filename).fileType with
      | .uploadStatus => statusFileRequest cfg request.remote
      | _ => emit (.errorOperation request.remote .fileNotFound (str "Wrong filename"))
    | .invalid => pure ()

/-- `MediaDefinedDownloadOperationImpl::tftpRequest`. -/
def MediaDefinedDownloadOperation.tftpRequest (cfg : Configuration) (request : Request) :
    Handler := do
  let checked ← checkRequest cfg request.filename request.remote
  if ¬ checked then pure ()
  else
    match request.requestType with
    | .read =>
      emit (.errorOperation request.remote .illegalTftpOperation (str "Unexpected read request"))
    | .write =>
      match (ProtocolFilename.ofString request.filename).fileType with
      | .downloadStatus => statusFileRequest cfg request.remote
      | _ => fileRequest request
    | .invalid => pure ()

/-- `OperatorDefinedDownloadOperationImpl::tftpRequest`. -/
def OperatorDefinedDownloadOperation.tftpRequest (cfg : Configuration) (request : Request) :
    Handler := do
  let checked ← checkRequest cfg request.filename request.remote
  if ¬ checked then pure ()
  else
    match request.requestType with
    | .read =>
      emit (.errorOperation request.remote .illegalTftpOperation (str "Unexpected read request"))
    | .write =>
      match (ProtocolFilename.ofString request.filename).fileType with
      | .downloadStatus => statusFileRequest cfg request.remote
      | .operatorDefinedDownloadList => listFileRequest request.remote {}
      | _ => fileRequest request
    | .invalid => pure ()

/-! ## The four classes -/

def tftpRequest (cfg : Configuration) : Request → Handler :=
  match cfg.operation with
  | .information => InformationOperation.tftpRequest cfg
  | .upload => UploadOperation.tftpRequest cfg
  | .mediaDefinedDownload => MediaDefinedDownloadOperation.tftpRequest cfg
  | .operatorDefinedDownload => OperatorDefinedDownloadOperation.tftpRequest cfg

def statusFileCompleted (cfg : Configuration) :
    RawData → TransferId → LibraryTransferStatus → Handler :=
  match cfg.operation with
  | .information => InformationOperation.statusFileCompleted
  | .upload => UploadOperation.statusFileCompleted
  | .mediaDefinedDownload => DownloadOperation.statusFileCompleted
  | .operatorDefinedDownload => DownloadOperation.statusFileCompleted

def statusReturned (cfg : Configuration) : Status → Handler :=
  match cfg.operation with
  | .information => InformationOperation.statusReturned cfg
  | .upload => UploadOperation.statusReturned cfg
  | .mediaDefinedDownload => DownloadOperation.statusReturned cfg
  | .operatorDefinedDownload => DownloadOperation.statusReturned cfg

/-- The other two classes have no list transfers. -/
def listFileCompleted (cfg : Configuration) (rawListFile : RawData) (checkValue : CheckValue)
    (status : LibraryTransferStatus) : Handler :=
  match cfg.operation with
  | .information => InformationOperation.listFileCompleted cfg rawListFile checkValue status
  | .operatorDefinedDownload =>
    OperatorDefinedDownloadOperation.listFileCompleted rawListFile status
  | _ => undefined

/-! ## Events -/

inductive Event where
  /-- The TFTP server hands on a request. -/
  | tftpRequest (request : Request)
  /-- The read of the initialisation file is put off. -/
  | initialisationDeferred (waitTime : Nat)
  /-- An operation of the TFTP client or of the TFTP server completes, with the
  data it received. -/
  | clientCompleted (operation : TransferId) (status : TransferStatus) (data : RawData)
  | serverCompleted (operation : TransferId) (status : LibraryTransferStatus) (data : RawData)
  /-- The wait of the timer is over, or ends with an error. -/
  | timerExpired
  | timerFailed
  /-- The queued timer handler runs. -/
  | timerHandler (result : WaitResult)
  /-- The user's handler returns, or throws an `Arinc615aException`. -/
  | callbackReturned
  | callbackThrew
  /-- The calls of the user. -/
  | abort (reason : AbortReason)
  | terminate (reason : AbortReason)
  | loadList (loads : List UploadLoad)
  | request (files : List Str) (userDefinedData : RawData)
  | answer (files : List Str)
  /-- Time passes. -/
  | advance (time : Nat)
  deriving DecidableEq

/-- The transfer with this number, if it has not completed. -/
def transfer? (s : State) (operation : TransferId) : Option Transfer :=
  s.transfers.find? (·.id = operation)

/-- The completion handler of a transfer of the TFTP client. -/
def clientCompleted (operation : TransferId) (status : TransferStatus) (data : RawData) :
    Handler := do
  let s ← get
  match transfer? s operation with
  | none => undefined
  | some t => do
    endTransfer operation
    match t.kind with
    | .initialisation => initialisationFileCompleted status data
    | .sentFile => sentFileCompleted status
    | _ => undefined

/-- The completion handler of a transfer of the TFTP server. One that was
aborted does not complete successfully. -/
def serverCompleted (cfg : Configuration) (operation : TransferId)
    (status : LibraryTransferStatus) (data : RawData) : Handler := do
  let s ← get
  match transfer? s operation with
  | none => undefined
  | some t => do
    require (t.aborted → status ≠ .successful)
    endTransfer operation
    match t.kind with
    | .statusFile => statusFileCompleted cfg data operation status
    | .listFile checkValue => listFileCompleted cfg data checkValue status
    | _ => undefined

/-- What stands behind a call of the user's handler. -/
def callbackReturned (cfg : Configuration) : Continuation → Handler
  | .initialisationResponse initFile => initialisationResponseReturned cfg initFile
  | .status status => statusReturned cfg status
  | .targetInformation => InformationOperation.targetInformationReturned cfg
  | .downloadingList => pure ()

/-- The `catch` around a call of the user's handler. -/
def callbackThrew : Continuation → Handler
  | .initialisationResponse _ =>
    finished .operationAbortedByDlp (str "Initialisation File could not be received")
  | .status _ => pure ()
  | .targetInformation => InformationOperation.listFileFailed
  | .downloadingList => abort .protocol

/-- The reaction to an event, where it can happen. The TFTP server hands on
requests while it runs. While the user's handler is called, only the user acts
and time passes. -/
def react (cfg : Configuration) : Event → Handler
  | .tftpRequest request => do
    let s ← get
    require (s.callback = none ∧ s.serverRunning)
    tftpRequest cfg request
  | .initialisationDeferred waitTime => do
    let s ← get
    require (s.callback = none ∧ s.initialisationOperation.isSome)
    initialisationFileDeferred waitTime
  | .clientCompleted operation status data => do
    let s ← get
    require (s.callback = none)
    clientCompleted operation status data
  | .serverCompleted operation status data => do
    let s ← get
    require (s.callback = none)
    serverCompleted cfg operation status data
  | .timerExpired => do
    let s ← get
    require (s.timer.due s.now)
    modify fun s => { s with timer := s.timer.complete .success }
  | .timerFailed => do
    let s ← get
    require s.timer.deadline.isSome
    modify fun s => { s with timer := s.timer.complete .failure }
  | .timerHandler result => do
    let s ← get
    require (s.callback = none ∧ s.timer.queue.head? = some result)
    modify fun s => { s with timer := { s.timer with queue := s.timer.queue.tail } }
    timerHandler result
  | .callbackReturned => do
    let s ← get
    match s.callback with
    | none => undefined
    | some continuation => do
      modify fun s => { s with callback := none }
      callbackReturned cfg continuation
  | .callbackThrew => do
    let s ← get
    match s.callback with
    | none => undefined
    | some continuation => do
      modify fun s => { s with callback := none }
      callbackThrew continuation
  | .abort reason => abort reason
  | .terminate reason => terminate reason
  | .loadList loads => do
    require (cfg.operation = .upload)
    loadList cfg loads
  | .request files userDefinedData => do
    require (cfg.operation = .mediaDefinedDownload)
    request cfg files userDefinedData
  | .answer files => do
    require (cfg.operation = .operatorDefinedDownload)
    answer cfg files
  | .advance time => modify fun s => { s with now := s.now + time }

/-- The operation as a machine. -/
def machine (cfg : Configuration) : Machine State Event Output where
  step s e := (react cfg e).run s

/-- The state that `start()` leaves: the server runs, and the read of the
initialisation file is in flight. -/
def started : State :=
  { serverRunning := true
    initialisationOperation := some 0
    transfers := [⟨0, .initialisation, false⟩]
    nextTransfer := 1 }

/-- `start()` of a new operation requests the initialisation file. -/
theorem start_run (cfg : Configuration) :
    (start cfg).run {} = some (started, [.clientReadOperation 0
      (protocolFilename cfg (initialisationFileType cfg.operation))]) := by
  cases h : cfg.operation <;> simp only [start, h] <;> rfl

theorem step_eq_some {cfg : Configuration} {s s' : State} {e : Event} {out : List Output} :
    (machine cfg).step s e = some (s', out) ↔ react cfg e s [] = some ((), s', out) :=
  run_eq_some

/-- An operation on the target `HNPFMS_L`, for examples. -/
def exampleConfiguration (operation : OperationType) : Configuration :=
  ⟨operation, ⟨str "HNPFMS", str "L"⟩, 13, fun type _ => ⟨type, []⟩, false⟩

/-- A request for a file, for examples. -/
def exampleRequest (requestType : RequestType) (filename : String) : Request :=
  ⟨⟨0, 59⟩, requestType, str filename, [], {}⟩

end Arinc615a.Host
