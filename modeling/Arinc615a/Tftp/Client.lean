import Arinc615a.Lib.Action
import Arinc615a.Lib.Machine
import Arinc615a.Lib.Timer
import Arinc615a.Tftp.ErrorMessage

/-!
# The ARINC 615A TFTP client operation

`tftp/clients/implementation/OperationImpl.cpp`: a TFTP request that is
repeated when it fails, up to a number of retries, and that a WAIT message of
the server puts off. A run starts behind `request()`; the TFTP library
completes every operation it was asked for once, and completes it as aborted
when it was aborted.
-/

namespace Arinc615a.Tftp.Client

open Actions Actions.Action Machines Timers

/-- The configuration of an operation. -/
structure Configuration where
  dlpRetries : UInt16
  handleAbort : Bool

/-- What the operation does to its environment. -/
inductive Output where
  /-- A TFTP operation is requested. -/
  | request
  /-- The completion handler is called. -/
  | completed (status : TransferStatus)
  /-- The operation deferred handler is called, with the time in seconds. -/
  | deferred (waitTime : Nat)
  /-- The TFTP operation in flight is told to abort. -/
  | abortTransfer
  | gracefulAbortTransfer (errorCode : ErrorCode) (errorMessage : Str)
  deriving DecidableEq

/-- `Tftp::Clients::OperationImpl`. -/
structure State where
  retries : UInt16 := 0
  /-- `operationV`: the operation in flight, and whether it was aborted. -/
  operation : Option Bool := none
  errorInformation : ErrorInformation := none
  waitTimer : Timer := {}
  now : Nat := 0

/-- What can happen to an operation. -/
inductive Event where
  /-- The TFTP operation completes, with its error information. -/
  | transferCompleted (status : LibraryTransferStatus) (errorInformation : ErrorInformation)
  /-- The wait of the timer is over, or ends with an error. -/
  | timerExpired
  | timerFailed
  /-- The queued wait handler runs. -/
  | waitHandler (result : WaitResult)
  /-- The user aborts. -/
  | abort
  | gracefulAbort (errorCode : ErrorCode) (errorMessage : Str)
  /-- Time passes. -/
  | advance (time : Nat)
  deriving DecidableEq

/-- The handlers of the operation. -/
abbrev Handler := Action State Output Unit

/-- Get a TFTP operation and request it. -/
def requestOperation : Handler := do
  modify fun s => { s with operation := some false }
  emit .request

/-- `OperationImpl::request`. -/
def request : Handler := do
  modify fun s => { s with retries := 0 }
  requestOperation

/-- Cancel the wait timer, and abort the operation in flight as told. -/
def abortWith (abortOperation : Output) : Handler := do
  modify fun s => { s with waitTimer := s.waitTimer.cancel }
  let s ← get
  if s.operation.isSome then do
    modify fun s => { s with operation := some true }
    emit abortOperation
  else pure ()

/-- `OperationImpl::abort`. -/
def abort : Handler := abortWith .abortTransfer

/-- `OperationImpl::gracefulAbort`. -/
def gracefulAbort (errorCode : ErrorCode) (errorMessage : Str) : Handler :=
  abortWith (.gracefulAbortTransfer errorCode errorMessage)

/-- The end of `handleCompletion`: count a retry, and repeat the request or
give up. -/
def retry (cfg : Configuration) : Handler := do
  -- Both numbers have 16 bits: the sum wraps around.
  modify fun s => { s with retries := s.retries + 1 }
  let s ← get
  if cfg.dlpRetries < s.retries then
    emit (.completed .communicationError)
  else
    requestOperation

/-- The answer to a rejected request: an ABORT that is handled, a WAIT, or a
failure. -/
def requestRejected (cfg : Configuration) (errorInformation : ErrorInformation) : Handler :=
  let errorMessage := (errorInformation.map Prod.snd).getD []
  match errorMessageType errorInformation with
  | .abort =>
    if cfg.handleAbort then
      match errorMessageAbort errorMessage with
      | .operationAbortedByDlp => emit (.completed .operationAbortedByDlp)
      | .operationAbortedByOperator => emit (.completed .operationAbortedByOperator)
      | _ => retry cfg
    else retry cfg
  | .wait =>
    match errorMessageWait errorMessage with
    | none => retry cfg
    | some waitTime => do
      -- The request is repeated without counting a retry.
      modify fun s =>
        { s with waitTimer := s.waitTimer.start (s.now + waitTime * second) }
      emit (.deferred waitTime)
  | .invalid => retry cfg

/-- `OperationImpl::handleCompletion`. -/
def handleCompletion (cfg : Configuration) (status : LibraryTransferStatus)
    (errorInformation : ErrorInformation) : Handler :=
  if status = .successful then do
    modify fun s => { s with operation := none, errorInformation := none }
    emit (.completed .successful)
  else do
    modify fun s => { s with operation := none, errorInformation := errorInformation }
    if status = .aborted then
      emit (.completed .aborted)
    else if status = .requestError then
      requestRejected cfg errorInformation
    else
      retry cfg

/-- `OperationImpl::handleWaitTimeout`. -/
def handleWaitTimeout (result : WaitResult) : Handler :=
  match result with
  | .operationAborted => emit (.completed .operationAbortedByDlp)
  | .failure => emit (.completed .operationAbortedByDlp)
  | .success => requestOperation

/-- The reaction to an event, where it can happen: a transfer completes while
it is in flight, one that was aborted as aborted; a timer expires when its
deadline has passed; the wait handler that runs is the first queued. -/
def react (cfg : Configuration) : Event → Handler
  | .transferCompleted status errorInformation => do
    let s ← get
    require (s.operation.isSome ∧ (s.operation = some true → status = .aborted))
    handleCompletion cfg status errorInformation
  | .timerExpired => do
    let s ← get
    require (s.waitTimer.due s.now)
    modify fun s => { s with waitTimer := s.waitTimer.complete .success }
  | .timerFailed => do
    let s ← get
    require s.waitTimer.deadline.isSome
    modify fun s => { s with waitTimer := s.waitTimer.complete .failure }
  | .waitHandler result => do
    let s ← get
    require (s.waitTimer.queue.head? = some result)
    modify fun s => { s with waitTimer := { s.waitTimer with queue := s.waitTimer.queue.tail } }
    handleWaitTimeout result
  | .abort => abort
  | .gracefulAbort errorCode errorMessage => gracefulAbort errorCode errorMessage
  | .advance time => modify fun s => { s with now := s.now + time }

/-- The operation as a machine. Each output carries the event it answers. -/
def machine (cfg : Configuration) : Machine State Event (Event × Output) where
  step s e := ((react cfg e).run s).map fun (s', out) => (s', out.map fun o => (e, o))

/-- The state that `request()` leaves, with the first request made. -/
def started : State := { operation := some false }

/-- `request()` on a new operation requests once and leaves `started`. -/
theorem request_run : request.run {} = some (started, [.request]) := rfl

/-! ## What a completion asks for -/

/-- What the end of a TFTP operation means: the operation ends, it waits, or it
is a failure that may be retried. -/
inductive Answer where
  | final (status : TransferStatus)
  | wait (waitTime : Nat)
  | failure
  deriving DecidableEq

/-- Success, abort by the user, an ABORT that is handled and a WAIT are answers;
every other end is a failure. -/
def answer (cfg : Configuration) (status : LibraryTransferStatus)
    (errorInformation : ErrorInformation) : Answer :=
  let errorMessage := (errorInformation.map Prod.snd).getD []
  if status = .successful then .final .successful
  else if status = .aborted then .final .aborted
  else if status = .requestError then
    match errorMessageType errorInformation with
    | .abort =>
      if cfg.handleAbort then
        match errorMessageAbort errorMessage with
        | .operationAbortedByDlp => .final .operationAbortedByDlp
        | .operationAbortedByOperator => .final .operationAbortedByOperator
        | _ => .failure
      else .failure
    | .wait =>
      match errorMessageWait errorMessage with
      | none => .failure
      | some waitTime => .wait waitTime
    | .invalid => .failure
  else .failure

/-- The error information that a completion leaves. -/
def errorInformationAfter (status : LibraryTransferStatus)
    (errorInformation : ErrorInformation) : ErrorInformation :=
  if status = .successful then none else errorInformation

/-- The completion handler acts on the answer. -/
theorem handleCompletion_eq (cfg : Configuration) (status : LibraryTransferStatus)
    (errorInformation : ErrorInformation) (s : State) (out : List Output) :
    handleCompletion cfg status errorInformation s out =
      (match answer cfg status errorInformation with
        | .final status => emit (.completed status)
        | .wait waitTime => do
          modify fun s =>
            { s with waitTimer := s.waitTimer.start (s.now + waitTime * second) }
          emit (.deferred waitTime)
        | .failure => retry cfg : Handler)
      { s with
        operation := none
        errorInformation := errorInformationAfter status errorInformation } out := by
  unfold handleCompletion answer errorInformationAfter
  by_cases hsucc : status = .successful
  · simp [hsucc]
  by_cases habort : status = .aborted
  · simp [habort]
  by_cases hreq : status = .requestError
  · subst hreq
    simp only [requestRejected, reduceCtorEq, if_false, if_true, modify_bind]
    cases errorMessageType errorInformation with
    | abort =>
      cases cfg.handleAbort with
      | false => rfl
      | true => cases errorMessageAbort _ <;> rfl
    | wait => cases errorMessageWait _ <;> rfl
    | invalid => rfl
  · simp [hsucc, habort, hreq]

end Arinc615a.Tftp.Client
