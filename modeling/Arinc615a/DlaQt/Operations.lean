import Arinc615a.Information
import Arinc615a.Lib.Action

/-!
# The operations of the graphical data loader

`arinc_615a_dla_qt/operations`: the objects between the wizards and the operations of the
core. Their slots call the core, and the callbacks of the core come out as signals. How a
call of the core or of the file system ends is an input here: it returns, or it leaves with
an exception. Only a `boost::exception` is caught.
-/

namespace Arinc615a.DlaQt

open Actions Actions.Action
open Information

/-- What an exception is caught as. -/
inductive Exception where
  | boost
  | other
  deriving DecidableEq

/-- How a call ends. -/
inductive CallResult where
  | returned
  | thrown (exception : Exception)
  deriving DecidableEq

/-- The signals of the operations. -/
inductive Signal where
  | operationDeferred (waitTime : Nat)
  | operationInitialised (response : InitializationResponse)
  | operationFinished (code : StatusCode) (description : Str)
  | receivedStatus (status : OperationStatus)
  | receivedDownloadingList (list : List DownloadFileInformation)
  deriving DecidableEq

/-- The operations. -/
inductive Operation where
  | mediaDefinedDownload
  | operatorDefinedDownload
  | upload
  deriving DecidableEq

/-- Operations of the core are told apart by the call of `startOperation` that has created
them. -/
structure State where
  /-- `operationV`. -/
  operation : Option Nat := none
  /-- The calls of `startOperation` so far. -/
  starts : Nat := 0
  /-- The environment: the operations of the core that were started and have not called
  `finished`, and whether an exception has ended the application. -/
  running : List Nat := []
  terminated : Bool := false
  deriving DecidableEq

/-- A slot or a callback, which may leave with an exception. -/
abbrev Slot := ExceptT Exception (Action State Signal)

/-- A call that ends like this. -/
def call : CallResult → Slot Unit
  | .returned => pure ()
  | .thrown exception => throw exception

def signal (s : Signal) : Slot Unit := ExceptT.lift (emit s)

/-- The `try` block of a slot, and its `catch` block: the error is shown, and the operation
reported as finished. The operation of the core goes on. -/
def reporting (block : Slot Unit) : Slot Unit :=
  tryCatch block fun exception =>
    match exception with
    | .boost => signal (.operationFinished .operationAbortedByDlp (str "Error During Operation"))
    | .other => throw .other

/-- Do this if there is an operation of the core. -/
def withOperation (block : Slot Unit) : Slot Unit := do
  let s ← ExceptT.lift get
  match s.operation with
  | none => pure ()
  | some _ => block

/-! ## Start -/

/-- How the calls of `startOperation` end: the start of the download information and its
paths, the creation of the directories, the creation of the operation of the core, and its
`start()`. An operation whose `start()` has thrown is not started. -/
structure StartResults where
  prepared : CallResult
  directoryError : Bool
  created : CallResult
  started : CallResult
  deriving DecidableEq

/-- Create the operation of the core and start it. -/
def createAndStart (results : StartResults) : Slot Unit := do
  call results.created
  ExceptT.lift (modify fun s => { s with operation := some s.starts })
  call results.started
  ExceptT.lift (modify fun s => { s with running := s.starts :: s.running })

/-- `startOperation` of the two downloads. -/
def startDownload (results : StartResults) : Slot Unit := do
  ExceptT.lift (modify fun s => { s with starts := s.starts + 1 })
  reporting do
    call results.prepared
    if results.directoryError then
      signal (.operationFinished .operationAbortedByDlp
        (str "Error creating download directory"))
    -- No return here: the operation is created and started all the same.
    createAndStart results

def MediaDefinedDownloadOperation.startOperation : StartResults → Slot Unit := startDownload

def OperatorDefinedDownloadOperation.startOperation : StartResults → Slot Unit := startDownload

/-- It creates no directory. -/
def UploadOperation.startOperation (results : StartResults) : Slot Unit := do
  ExceptT.lift (modify fun s => { s with starts := s.starts + 1 })
  reporting (createAndStart results)

/-! ## The other slots -/

/-- `abortOperation` of all three operations. -/
def abortOperation (aborted : CallResult) : Slot Unit :=
  reporting (withOperation (call aborted))

/-- `transmitFiles` of the two downloads: the files go to the download information, and to
the operation of the core. -/
def transmitDownload (prepared sent : CallResult) : Slot Unit :=
  reporting do
    withOperation do
      call prepared
      call sent

def MediaDefinedDownloadOperation.transmitFiles : CallResult → CallResult → Slot Unit :=
  transmitDownload

def OperatorDefinedDownloadOperation.transmitFiles : CallResult → CallResult → Slot Unit :=
  transmitDownload

/-- The check values are looked up without an operation of the core as well. -/
def UploadOperation.transmitLoads (prepared sent : CallResult) : Slot Unit :=
  reporting do
    call prepared
    withOperation (call sent)

/-! ## The callbacks of the core -/

/-- `finished` of the two downloads saves the download information. -/
def finishedDownload (code : StatusCode) (description : Str) (saved : CallResult) :
    Slot Unit :=
  reporting do
    call saved
    signal (.operationFinished code description)

def MediaDefinedDownloadOperation.finished : StatusCode → Str → CallResult → Slot Unit :=
  finishedDownload

def OperatorDefinedDownloadOperation.finished : StatusCode → Str → CallResult → Slot Unit :=
  finishedDownload

def UploadOperation.finished (code : StatusCode) (description : Str) : Slot Unit :=
  signal (.operationFinished code description)

def initialisationDeferred (waitTime : Nat) : Slot Unit := signal (.operationDeferred waitTime)

def initialisationResponse (response : InitializationResponse) : Slot Unit :=
  signal (.operationInitialised response)

def status (status : OperationStatus) : Slot Unit := signal (.receivedStatus status)

def OperatorDefinedDownloadOperation.downloadingList (files : List DownloadFileInformation) :
    Slot Unit :=
  signal (.receivedDownloadingList files)

/-- Run a slot or a callback. An exception that leaves it ends the application. -/
def run (slot : Slot Unit) (s : State) : Option (State × List Signal) :=
  match slot s [] with
  | none => none
  | some (.ok _, s', signals) => some (s', signals)
  | some (.error _, s', signals) => some ({ s' with terminated := true }, signals)

end Arinc615a.DlaQt
