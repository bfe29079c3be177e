import Arinc615a.Files.StatusFiles
import Arinc615a.Lib.Action
import Arinc615a.Lib.Machine
import Arinc615a.Tftp.Transfer

/-!
# The error operation

`target/implementation/ErrorOperationImpl.cpp`: an application that does not take an
operation answers the request for its initialisation file with a response that says so,
and with nothing else. The operation may be started again, for a host that asks again.
-/

namespace Arinc615a.Target.ErrorOperation

open Actions Actions.Action Machines
open Files Information Tftp

/-- `ErrorOperationConfiguration`, and what the operation takes from its environment. -/
structure Configuration where
  protocolVersion : Arinc615aVersion
  status : OperationAcceptanceStatusCode
  description : Str
  /-- A completion handler is set. -/
  completionHandler : Bool
  /-- Whether the TFTP library calls the completion handler of a transfer whose
  operation is destroyed. -/
  completesDestroyed : Bool

/-- The file with the response. -/
def Configuration.initialisationFile (cfg : Configuration) : InitializationFile :=
  ⟨cfg.protocolVersion, ⟨cfg.status, cfg.description⟩⟩

abbrev TransferId := Nat

inductive Output where
  /-- The start of a `Server::readOperation`. -/
  | readOperation (remote : Endpoint) (operation : TransferId) (file : RawData)
      (clientTftpOptions : TftpOptions) (port : Option UInt16)
  /-- An operation is destroyed while its transfer is in flight. -/
  | abortTransfer (operation : TransferId)
  | completed
  /-- `start()` leaves with an exception. -/
  | thrown (exception : Arinc615aException)
  deriving DecidableEq

structure State where
  initialisationFileOperation : Option TransferId := none
  /-- The environment: the operations that were started and have not completed. -/
  transfers : List TransferId := []
  nextTransfer : TransferId := 0
  deriving DecidableEq

abbrev Handler := Action State Output Unit

/-- The operation in the member, if it was started. -/
def State.inFlight (s : State) : Option TransferId :=
  s.initialisationFileOperation.filter (· ∈ s.transfers)

/-- The operation in the member is replaced. A completion handler that is called for it
resets the member that the new operation is in already. -/
def destroyOperation (cfg : Configuration) : Handler := do
  let s ← get
  match s.inFlight with
  | none => pure ()
  | some operation => do
    require (cfg.completesDestroyed = false)
    modify fun s => { s with transfers := s.transfers.filter (· ≠ operation) }
    emit (.abortTransfer operation)

/-- `tftpServerV->readOperation()`, and the assignment of its result. -/
def readOperation (cfg : Configuration) : Action State Output TransferId := do
  destroyOperation cfg
  let s ← get
  modify fun s =>
    { s with
      initialisationFileOperation := some s.nextTransfer
      nextTransfer := s.nextTransfer + 1 }
  pure s.nextTransfer

/-- `ErrorOperationImpl::start`. -/
def start (cfg : Configuration) (hostAddress : Endpoint) (clientTftpOptions : TftpOptions)
    (port : Option UInt16) : Handler := do
  let operation ← readOperation cfg
  -- The encoder throws behind the assignment: the member holds an operation not started.
  match cfg.initialisationFile.encode with
  | .error e => emit (.thrown e)
  | .ok file => do
    modify fun s => { s with transfers := operation :: s.transfers }
    emit (.readOperation hostAddress operation file clientTftpOptions port)

/-- `ErrorOperationImpl::initialisationFileCompleted`. A failure is logged only. -/
def initialisationFileCompleted (cfg : Configuration) (status : LibraryTransferStatus) :
    Handler := do
  modify fun s => { s with initialisationFileOperation := none }
  if status ≠ .successful then pure ()
  else if cfg.completionHandler then emit .completed
  else pure ()

inductive Event where
  | start (hostAddress : Endpoint) (clientTftpOptions : TftpOptions) (port : Option UInt16)
  | initialisationFileCompleted (operation : TransferId) (status : LibraryTransferStatus)
  deriving DecidableEq

def react (cfg : Configuration) : Event → Handler
  | .start hostAddress clientTftpOptions port => start cfg hostAddress clientTftpOptions port
  | .initialisationFileCompleted operation status => do
    let s ← get
    require (operation ∈ s.transfers)
    modify fun s => { s with transfers := s.transfers.filter (· ≠ operation) }
    initialisationFileCompleted cfg status

/-- The operation as a machine. -/
def machine (cfg : Configuration) : Machine State Event Output where
  step s e := (react cfg e).run s

variable {cfg : Configuration} {s s' : State} {e : Event} {out : List Output}

/-! ## What a step does -/

/-- The state that a start leaves in front of the encoder. -/
def State.renewed (s : State) : State where
  initialisationFileOperation := some s.nextTransfer
  transfers := s.transfers.filter fun operation => some operation ≠ s.inFlight
  nextTransfer := s.nextTransfer + 1

def transferAborts (s : State) : List Output :=
  match s.inFlight with
  | none => []
  | some operation => [.abortTransfer operation]

/-- An operation whose transfer is in flight is replaced only where this is defined. -/
def Replaceable (cfg : Configuration) (s : State) : Prop :=
  s.inFlight.isSome → cfg.completesDestroyed = false

theorem readOperation_bind {α : Type} {f : TransferId → Action State Output α} {r} :
    (readOperation cfg >>= f) s out = some r ↔
      Replaceable cfg s ∧ f s.nextTransfer s.renewed (out ++ transferAborts s) = some r := by
  simp only [readOperation, destroyOperation, bind_bind, get_bind, State.renewed, transferAborts,
    Replaceable]
  cases s.inFlight with
  | none => simp
  | some operation =>
    simp only [bind_bind, require_bind_eq_some, modify_bind, emit_bind, get_bind, pure_bind_apply,
      Option.isSome_some, true_imp_iff, ne_eq, Option.some.injEq]

/-- What the operation does with an event. -/
inductive Steps (cfg : Configuration) (s : State) : Event → State → List Output → Prop where
  | thrown {hostAddress : Endpoint} {clientTftpOptions : TftpOptions} {port : Option UInt16}
    {exception : Arinc615aException} (hreplaceable : Replaceable cfg s)
    (hencode : cfg.initialisationFile.encode = .error exception) :
    Steps cfg s (.start hostAddress clientTftpOptions port) s.renewed
      (transferAborts s ++ [.thrown exception])
  | started {hostAddress : Endpoint} {clientTftpOptions : TftpOptions} {port : Option UInt16}
    {file : RawData} (hreplaceable : Replaceable cfg s)
    (hencode : cfg.initialisationFile.encode = .ok file) :
    Steps cfg s (.start hostAddress clientTftpOptions port)
      { s.renewed with transfers := s.nextTransfer :: s.renewed.transfers }
      (transferAborts s ++
        [.readOperation hostAddress s.nextTransfer file clientTftpOptions port])
  | completed {operation : TransferId} {status : LibraryTransferStatus}
    (hmem : operation ∈ s.transfers) :
    Steps cfg s (.initialisationFileCompleted operation status)
      { s with
        initialisationFileOperation := none
        transfers := s.transfers.filter (· ≠ operation) }
      (if status = .successful ∧ cfg.completionHandler = true then [.completed] else [])

/-- **Inversion**: every step is one of these. -/
theorem steps_of_step (h : (machine cfg).step s e = some (s', out)) : Steps cfg s e s' out := by
  replace h := run_eq_some.mp h
  cases e with
  | start hostAddress clientTftpOptions port =>
    obtain ⟨hreplaceable, hsent⟩ := readOperation_bind.mp h
    cases hencode : cfg.initialisationFile.encode with
    | error exception =>
      simp only [hencode] at hsent
      cases hsent
      exact .thrown hreplaceable hencode
    | ok file =>
      simp only [hencode] at hsent
      cases hsent
      exact .started hreplaceable hencode
  | initialisationFileCompleted operation status =>
    simp only [react, get_bind, require_bind_eq_some, modify_bind,
      initialisationFileCompleted, if_apply, pure_apply, emit_apply, List.nil_append] at h
    obtain ⟨hmem, h⟩ := h
    have hcompleted := @Steps.completed cfg s operation status hmem
    split at h
    · cases h
      rwa [if_neg (fun hboth => ‹status ≠ .successful› hboth.1)] at hcompleted
    · split at h
      · cases h
        rwa [if_pos ⟨not_not.mp ‹_›, ‹_›⟩] at hcompleted
      · cases h
        rwa [if_neg (fun hboth => ‹¬ cfg.completionHandler = true› hboth.2)] at hcompleted

/-! ## The response -/

theorem not_mem_transferAborts {remote : Endpoint} {operation : TransferId} {file : RawData}
    {clientTftpOptions : TftpOptions} {port : Option UInt16} :
    .readOperation remote operation file clientTftpOptions port ∉ transferAborts s := by
  unfold transferAborts
  split <;> simp

/-- **The response**: every file of the operation is the one response it was made for. -/
theorem response_of_step (h : (machine cfg).step s e = some (s', out)) {remote : Endpoint}
    {operation : TransferId} {file : RawData} {clientTftpOptions : TftpOptions}
    {port : Option UInt16}
    (ho : .readOperation remote operation file clientTftpOptions port ∈ out) :
    cfg.initialisationFile.encode = .ok file := by
  cases steps_of_step h with
  | thrown hreplaceable hencode =>
    rcases List.mem_append.mp ho with hmem | hmem
    · exact absurd hmem not_mem_transferAborts
    · cases List.mem_singleton.mp hmem
  | started hreplaceable hencode =>
    rcases List.mem_append.mp ho with hmem | hmem
    · exact absurd hmem not_mem_transferAborts
    · cases List.mem_singleton.mp hmem
      exact hencode
  | completed hmem => split at ho <;> simp at ho

end Arinc615a.Target.ErrorOperation
