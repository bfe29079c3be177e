import Arinc615a.Files.ProtocolFilename
import Arinc615a.Files.StatusFiles
import Arinc615a.Lib.Action
import Arinc615a.Lib.Timer
import Arinc615a.Tftp.Transfer

/-!
# Host operations

`host/implementation/OperationImpl.cpp`: what the four operations of the data
loader share. The class members are the state, the handlers of its callbacks
are actions on it, and calls of the user's handler, of the TFTP server and of
TFTP operations are outputs.

A call of the user's handler that the operation continues after is split in
two: the handler stops with a `Continuation`, and what stands behind the call
runs when the call returns. In between the user may call the operation.
-/

namespace Arinc615a.Host

open Actions Actions.Action Readers Timers
open Files Information Tftp

/-- `Operation::AbortReason`. -/
inductive AbortReason where
  | noAbort
  | operator
  | protocol
  deriving DecidableEq

/-- What an operation is created with, and the check value generators of the
ARINC 649 library. -/
structure Configuration where
  operation : OperationType
  targetId : TargetId
  /-- In seconds. -/
  dlpTimeout : Nat
  checkValue : CheckValueType → RawData → CheckValue
  /-- An operation of the TFTP client aborts its transfer when it is destroyed.
  This says whether the TFTP library then calls its completion handler. -/
  completesDestroyed : Bool

/-- TFTP operations are told apart by the order in which they were started. -/
abbrev TransferId := Nat

/-- The completion handler of a TFTP operation. -/
inductive TransferKind where
  /-- `initialisationFileCompleted`. -/
  | initialisation
  /-- `statusFileCompleted`. -/
  | statusFile
  /-- `listFileCompleted`, with the check value of the request. -/
  | listFile (checkValue : CheckValue)
  /-- `loadListCompleted`, `requestCompleted` or `answerCompleted`. -/
  | sentFile
  deriving DecidableEq

/-- A TFTP operation that has not completed. -/
structure Transfer where
  id : TransferId
  kind : TransferKind
  /-- `gracefulAbort` was called. -/
  aborted : Bool := false
  deriving DecidableEq

/-- A call of the user's handler that the operation continues after. -/
inductive Continuation where
  | initialisationResponse (file : InitializationFile)
  | status (status : Status)
  | targetInformation
  | downloadingList
  deriving DecidableEq

/-- What an operation does to its environment. -/
inductive Output where
  /-- `OperationHandler::finished`. -/
  | finished (status : StatusCode) (description : Str)
  | initialisationResponse (response : InitializationResponse)
  | initialisationDeferred (waitTime : Nat)
  | status (status : OperationStatus)
  | targetInformation (targetsHardware : List TargetHardware) (integrityInformation : Bool)
  | downloadingList (files : List DownloadFileInformation)
  | fileRequest (remote : Endpoint) (filename : Str) (clientTftpOptions : TftpOptions)
      (partNumber : Str) (checkValue : CheckValue)
  /-- `Server::errorOperation`, `Server::abortOperation`, and the start of a
  `Server::writeOperation`. -/
  | errorOperation (remote : Endpoint) (errorCode : ErrorCode) (errorMessage : Str)
  | abortOperation (remote : Endpoint) (status : StatusCode)
  | writeOperation (remote : Endpoint) (operation : TransferId) (kind : TransferKind)
  | gracefulAbort (operation : TransferId) (errorCode : ErrorCode) (errorMessage : Str)
  /-- An operation of the TFTP client is destroyed while its transfer is in flight. -/
  | abortTransfer (operation : TransferId)
  /-- The request of a `Client::readOperation` and of a `Client::writeOperation`. -/
  | clientReadOperation (operation : TransferId) (filename : Str)
  | clientWriteOperation (operation : TransferId) (filename : Str) (file : RawData)
  /-- A wait of the DLP timer is started. -/
  | timerArmed (deadline : Nat)
  /-- A call of the user leaves with an exception. -/
  | thrown (exception : Arinc615aException)
  deriving DecidableEq

/-- `OperationImpl` and the members of the operation classes. -/
structure State where
  protocolVersion : Arinc615aVersion := .undetermined
  abortReason : AbortReason := .noAbort
  initialisationOperation : Option TransferId := none
  statusFileOperations : List TransferId := []
  listFileOperation : Option TransferId := none
  waitForFinalStatus : Bool := false
  /-- `loadListOperation`, `requestOperation` or `answerOperation`. -/
  sentFileOperation : Option TransferId := none
  /-- `loadListSent`, `requestSent` or `answerSent`. -/
  sent : Bool := false
  timer : Timer := {}
  serverRunning : Bool := false
  /-- The environment: transfers that have not completed, the call of the user's
  handler that has not returned, and the clock. -/
  transfers : List Transfer := []
  nextTransfer : TransferId := 0
  callback : Option Continuation := none
  now : Nat := 0

/-- The handlers of an operation. -/
abbrev Handler := Action State Output Unit

/-- Start a TFTP operation. -/
def startTransfer (kind : TransferKind) : Action State Output TransferId := do
  let s ← get
  modify fun s =>
    { s with
      transfers := ⟨s.nextTransfer, kind, false⟩ :: s.transfers
      nextTransfer := s.nextTransfer + 1 }
  pure s.nextTransfer

/-- A transfer leaves the environment. -/
def endTransfer (operation : TransferId) : Handler :=
  modify fun s => { s with transfers := s.transfers.filter (·.id ≠ operation) }

/-- `OperationImpl::triggerDlpTimeout`. -/
def triggerDlpTimeout (cfg : Configuration) (exceptionTime : Nat) : Handler := do
  let s ← get
  let deadline := s.now + max exceptionTime cfg.dlpTimeout * second
  modify fun s => { s with timer := s.timer.start deadline }
  emit (.timerArmed deadline)

/-- `OperationImpl::finished`. -/
def finished (status : StatusCode) (description : Str) : Handler := do
  emit (.finished status description)
  -- Transfers that were started go on, and no flag says that the operation has finished.
  modify fun s => { s with timer := s.timer.cancel, serverRunning := false }

/-- Abort an initialisation that is in progress. -/
def abortInitialisation : Handler := do
  let s ← get
  match s.initialisationOperation with
  | none => pure ()
  | some operation => emit (.gracefulAbort operation .notDefined (str "Abort"))

/-- `OperationImpl::doAbort`, the abort of all four operations. -/
def abort (reason : AbortReason) : Handler := do
  let s ← get
  if s.abortReason ≠ .noAbort then pure ()
  else do
    -- The next request for a status file is answered with the abort.
    modify fun s => { s with abortReason := reason }
    abortInitialisation

/-- The status code of an abort. -/
def AbortReason.statusCode : AbortReason → StatusCode
  | operator => .operationAbortedByOperator
  | protocol => .operationAbortedByDlp
  -- The default case, which only logs a warning.
  | noAbort => .operationAbortedByDlp

/-- `OperationImpl::doTerminate`, the terminate of all four operations. -/
def terminate (reason : AbortReason) : Handler := do
  abortInitialisation
  finished reason.statusCode (str "Terminate Request")

/-- `OperationImpl::protocolFilename`. -/
def protocolFilename (cfg : Configuration) (fileType : ProtocolFileType) : Str :=
  ProtocolFilename.toString ⟨cfg.targetId, fileType⟩

/-- `OperationImpl::isAborted`: a pending abort is sent to the target. -/
def isAborted (cfg : Configuration) (remote : Endpoint) : Action State Output Bool := do
  let s ← get
  if s.abortReason = .noAbort then pure false
  else do
    emit (.abortOperation remote s.abortReason.statusCode)
    modify fun s => { s with abortReason := .noAbort }
    triggerDlpTimeout cfg 0
    pure true

/-- The filename passes `checkRequest`: what is no protocol filename does. -/
def checksRequest (cfg : Configuration) (filename : Str) : Bool :=
  !ProtocolFilename.isProtocolFilename filename ||
    (ProtocolFilename.ofString filename).targetId = cfg.targetId

/-- `OperationImpl::checkRequest`. -/
def checkRequest (cfg : Configuration) (filename : Str) (remote : Endpoint) :
    Action State Output Bool :=
  if checksRequest cfg filename then pure true
  else do
    emit (.errorOperation remote .fileNotFound (str "Wrong target ID for protocol file"))
    pure false

/-- `OperationImpl::initialise`. -/
def initialise (cfg : Configuration) (fileType : ProtocolFileType) : Handler := do
  modify fun s => { s with serverRunning := true }
  let operation ← startTransfer .initialisation
  modify fun s => { s with initialisationOperation := some operation }
  emit (.clientReadOperation operation (protocolFilename cfg fileType))

/-- `OperationImpl::initialisationFileDeferred`. -/
def initialisationFileDeferred (waitTime : Nat) : Handler :=
  emit (.initialisationDeferred waitTime)

/-- `OperationImpl::initialisationFileCompleted`, up to the call of the user's
handler. -/
def initialisationFileCompleted (status : TransferStatus) (rawInitialisationFile : RawData) :
    Handler := do
  modify fun s => { s with initialisationOperation := none }
  if status ≠ .successful then
    finished .operationAbortedByDlp (str "Initialisation File could not be received")
  else
    -- An exception of the decoder ends in the same way.
    match InitializationFile.decode {} rawInitialisationFile with
    | .overrun => undefined
    | .thrown _ =>
      finished .operationAbortedByDlp (str "Initialisation File could not be received")
    | .done (initFile, _) => do
      emit (.initialisationResponse initFile.response)
      modify fun s => { s with callback := some (.initialisationResponse initFile) }

/-- `initialisationFileCompleted`, behind the call. -/
def initialisationResponseReturned (cfg : Configuration) (initFile : InitializationFile) :
    Handler :=
  match initFile.response.code with
  | .operationAccepted => do
    modify fun s => { s with protocolVersion := initFile.protocolVersion }
    triggerDlpTimeout cfg 0
  | .operationDenied => finished .operationNotAccepted initFile.response.description
  | .operationNotSupported => finished .operationNotSupported initFile.response.description
  | .operationDeferred => finished .operationAbortedByDlp (str "unknown status code")

/-- `OperationImpl::timerHandler`. -/
def timerHandler (result : WaitResult) : Handler :=
  match result with
  | .operationAborted => pure ()
  | .failure => finished .operationAbortedByDlp (str "Internal timer error")
  | .success => finished .operationAbortedByDlp (str "DLP Timeout")

/-! ## Effects -/

@[simp] theorem finished_apply (status : StatusCode) (description : Str) (s : State)
    (out : List Output) :
    finished status description s out =
      some ((), { s with timer := s.timer.cancel, serverRunning := false },
        out ++ [.finished status description]) := rfl

/-- The deadline that a status with the exception time sets. -/
def dlpDeadline (cfg : Configuration) (s : State) (exceptionTime : Nat) : Nat :=
  s.now + max exceptionTime cfg.dlpTimeout * second

@[simp] theorem triggerDlpTimeout_apply (cfg : Configuration) (exceptionTime : Nat) (s : State)
    (out : List Output) :
    triggerDlpTimeout cfg exceptionTime s out =
      some ((), { s with timer := s.timer.start (dlpDeadline cfg s exceptionTime) },
        out ++ [.timerArmed (dlpDeadline cfg s exceptionTime)]) := rfl

@[simp] theorem startTransfer_bind {α : Type} (kind : TransferKind)
    (f : TransferId → Action State Output α) (s : State) (out : List Output) :
    (startTransfer kind >>= f) s out =
      f s.nextTransfer { s with
        transfers := ⟨s.nextTransfer, kind, false⟩ :: s.transfers
        nextTransfer := s.nextTransfer + 1 } out := rfl

/-- The outputs of `abortInitialisation`. -/
def initialisationAborts (s : State) : List Output :=
  match s.initialisationOperation with
  | none => []
  | some operation => [.gracefulAbort operation .notDefined (str "Abort")]

@[simp] theorem abortInitialisation_apply (s : State) (out : List Output) :
    abortInitialisation s out = some ((), s, out ++ initialisationAborts s) := by
  cases h : s.initialisationOperation <;> simp [abortInitialisation, initialisationAborts, h]

@[simp] theorem terminate_apply (reason : AbortReason) (s : State) (out : List Output) :
    terminate reason s out =
      some ((), { s with timer := s.timer.cancel, serverRunning := false },
        out ++ initialisationAborts s ++
          [.finished reason.statusCode (str "Terminate Request")]) := by
  rw [terminate, bind_of_eq_some (abortInitialisation_apply s out), finished_apply]

/-- An abort is stored where none is pending, and else ignored. -/
@[simp] theorem abort_apply (reason : AbortReason) (s : State) (out : List Output) :
    abort reason s out =
      if s.abortReason = .noAbort then
        some ((), { s with abortReason := reason }, out ++ initialisationAborts s)
      else some ((), s, out) := by
  simp only [abort, get_bind, if_apply, pure_apply, modify_bind, abortInitialisation_apply,
    ne_eq, ite_not]
  rfl

@[simp] theorem checkRequest_bind {α : Type} (cfg : Configuration) (filename : Str)
    (remote : Endpoint) (f : Bool → Action State Output α) (s : State) (out : List Output) :
    (checkRequest cfg filename remote >>= f) s out =
      if checksRequest cfg filename then f true s out
      else f false s (out ++ [.errorOperation remote .fileNotFound
        (str "Wrong target ID for protocol file")]) := by
  simp only [checkRequest, if_bind, pure_bind_apply, bind_bind, emit_bind]

@[simp] theorem isAborted_bind {α : Type} (cfg : Configuration) (remote : Endpoint)
    (f : Bool → Action State Output α) (s : State) (out : List Output) :
    (isAborted cfg remote >>= f) s out =
      if s.abortReason = .noAbort then f false s out
      else f true
        { s with abortReason := .noAbort, timer := s.timer.start (dlpDeadline cfg s 0) }
        (out ++ [.abortOperation remote s.abortReason.statusCode] ++
          [.timerArmed (dlpDeadline cfg s 0)]) := by
  simp only [isAborted, bind_bind, get_bind, if_bind, pure_bind_apply, emit_bind, modify_bind]
  rfl

end Arinc615a.Host
