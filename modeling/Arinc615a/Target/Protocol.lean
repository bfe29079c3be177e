import Arinc615a.Target.StatusSteps

/-!
# The protocol of the target

`target/implementation/ProtocolImpl.cpp`: one TFTP server for the operations of
any number of target IDs. A request for an initialisation file is handed to the
application, which may create an operation for it; any other request goes to the
operation that was created last, whatever target it names.
-/

namespace Arinc615a.Target.Protocol

open Actions Actions.Action Machines
open Files Tftp

/-- `ProtocolConfiguration`, and what the operations take from their environment. -/
structure Configuration where
  protocolVersion : Arinc615aVersion
  tftpServerPort : UInt16
  checkValue : CheckValueType → RawData → CheckValue
  argumentsLeftToRight : Bool
  completesDestroyed : Bool

/-- What an operation is created with. -/
def Configuration.operation (cfg : Configuration) (operation : OperationType)
    (targetId : TargetId) (statusTransmissionRate : Nat) : Target.Configuration :=
  ⟨operation, targetId, cfg.protocolVersion, statusTransmissionRate, cfg.tftpServerPort,
    cfg.checkValue, cfg.argumentsLeftToRight, cfg.completesDestroyed⟩

/-- An operation, until the application releases it. -/
structure Member where
  configuration : Target.Configuration
  state : Target.State
  released : Bool := false

/-- `ProtocolImpl`, with the operations in the order in which they were created. -/
structure State where
  operations : List Member := []
  /-- `operationV`, a weak pointer. -/
  operation : Option Nat := none

/-- What the protocol does to its environment. -/
inductive Output where
  | errorOperation (remote : Endpoint) (errorCode : ErrorCode) (errorMessage : Str)
  /-- `newOperationRequestHandler`. -/
  | newOperationRequest (operationType : OperationType) (remote : Endpoint)
      (clientTftpOptions : TftpOptions) (port : Option UInt16) (targetId : TargetId)
  /-- What an operation does. -/
  | operation (index : Nat) (output : Target.Output)
  deriving DecidableEq

inductive Event where
  /-- `informationOperation`, ..., called by the application. -/
  | create (operation : OperationType) (targetId : TargetId) (statusTransmissionRate : Nat)
  | start (index : Nat) (hostAddress : Endpoint) (port : Option UInt16)
  | release (index : Nat)
  /-- The TFTP server hands on a request. -/
  | receivedTftpRequest (request : Request)
  /-- Anything else that happens to an operation. -/
  | operation (index : Nat) (event : Target.Event)
  deriving DecidableEq

abbrev Handler := Action State Output Unit

/-- The operations of the protocol that are not released. -/
def State.member? (s : State) (index : Nat) : Option Member :=
  (s.operations[index]?).filter fun member => !member.released

/-- The operation that `operationV.lock()` gives. -/
def State.registered? (s : State) : Option (Nat × Member) :=
  s.operation.bind fun index => (s.member? index).map fun member => (index, member)

/-- `informationOperation`, `uploadOperation`, ...: the new operation takes the
place of the registered one, which goes on. -/
def create (cfg : Configuration) (operation : OperationType) (targetId : TargetId)
    (statusTransmissionRate : Nat) : Handler :=
  modify fun s =>
    let configuration := cfg.operation operation targetId statusTransmissionRate
    { operations := s.operations ++ [⟨configuration, newOperation configuration, false⟩]
      operation := some s.operations.length }

/-- The application gives up its pointer to an operation. -/
def release (index : Nat) : Handler :=
  modify fun s =>
    { s with
      operations := s.operations.modify index fun member => { member with released := true } }

/-- Run an action of an operation. -/
def onOperation (index : Nat)
    (run : Target.Configuration → Target.State → Option (Target.State × List Target.Output)) :
    Handler := do
  let s ← get
  match s.member? index with
  | none => undefined
  | some member =>
    match run member.configuration member.state with
    | none => undefined
    | some (state, outputs) => do
      modify fun s =>
        { s with operations := s.operations.modify index fun member =>
            { member with state := state } }
      emitAll (outputs.map (.operation index))

/-- The operation type of an initialisation file. -/
def initialisationFile : ProtocolFileType → Option OperationType
  | .loadConfigurationInitialization => some .information
  | .uploadInitialization => some .upload
  | .mediaDefinedDownloadInitialization => some .mediaDefinedDownload
  | .operatorDefinedDownloadInitialization => some .operatorDefinedDownload
  | _ => none

/-- `ProtocolImpl::handleInitialisationFile`. The port option is handed on in
ARINC 615A-3/4 mode. -/
def handleInitialisationFile (cfg : Configuration) (request : Request)
    (operationType : OperationType) : Handler :=
  emit (.newOperationRequest operationType request.remote request.clientTftpOptions
    (if cfg.protocolVersion = .arinc615a34 then request.clientArinc615aOptions.port else none)
    (ProtocolFilename.ofString request.filename).targetId)

/-- A request for an initialisation file. -/
def requestedOperation (request : Request) : Option OperationType :=
  if request.requestType = .read then
    initialisationFile (ProtocolFilename.ofString request.filename).fileType
  else none

/-- `ProtocolImpl::receivedTftpRequest`. -/
def receivedTftpRequest (cfg : Configuration) (request : Request) : Handler := do
  if ¬ ProtocolFilename.isProtocolFilename request.filename then
    emit (.errorOperation request.remote .fileNotFound (str "File not found"))
  else
    match requestedOperation request with
    | some operationType => handleInitialisationFile cfg request operationType
    | none => do
      let s ← get
      match s.registered? with
      | none => emit (.errorOperation request.remote .fileNotFound (str "No registered operation"))
      -- The target ID of the filename is not compared with the one of the operation.
      | some (index, _) =>
        onOperation index fun configuration state =>
          (Target.machine configuration).step state (.tftpRequest request)

def react (cfg : Configuration) : Event → Handler
  | .create operation targetId statusTransmissionRate =>
    create cfg operation targetId statusTransmissionRate
  | .start index hostAddress port =>
    onOperation index fun configuration state =>
      (Target.start configuration hostAddress port).run state
  | .release index => release index
  | .receivedTftpRequest request => receivedTftpRequest cfg request
  -- Requests reach an operation through the protocol only.
  | .operation _ (.tftpRequest _) => undefined
  | .operation index event =>
    onOperation index fun configuration state => (Target.machine configuration).step state event

/-- The protocol as a machine. -/
def machine (cfg : Configuration) : Machine State Event Output where
  step s e := (react cfg e).run s

/-- What is run of an operation is done to the operation with this number. -/
theorem onOperation_apply (index : Nat)
    (run : Target.Configuration → Target.State → Option (Target.State × List Target.Output))
    (s : State) (out : List Output) :
    onOperation index run s out =
      (s.member? index).bind fun member =>
        (run member.configuration member.state).map fun r =>
          ((), { s with operations := s.operations.modify index fun member =>
            { member with state := r.1 } }, out ++ r.2.map (.operation index)) := by
  simp only [onOperation, get_bind]
  cases s.member? index with
  | none => rfl
  | some member =>
    simp only [Option.bind_some]
    cases run member.configuration member.state with
    | none => rfl
    | some r => rfl

/-! ## Which requests an operation accepts -/

/-- The file that an operation receives. -/
def requestFileType : OperationType → ProtocolFileType
  | .information => .invalid
  | .upload => .uploadRequest
  | .mediaDefinedDownload => .mediaDefinedDownloadRequest
  | .operatorDefinedDownload => .operatorDefinedDownloadAnswer

/-- The operation accepts the request: it starts to receive its file. -/
def Accepts (cfg : Configuration) (s : State) (index : Nat) (request : Request) : Prop :=
  ∃ s' out operation, (machine cfg).step s (.receivedTftpRequest request) = some (s', out) ∧
    .operation index (.writeOperation request.remote operation) ∈ out

/-- The checks on a request, of the protocol and of the operation. -/
def PassesChecks (member : Member) (request : Request) : Prop :=
  ProtocolFilename.isProtocolFilename request.filename ∧
    member.state.hostAddress = request.remote.address ∧
      request.requestType = .write ∧
        (ProtocolFilename.ofString request.filename).fileType =
          requestFileType member.configuration.operation

variable {cfg : Configuration} {s : State}

/-- An operation answers a request with an error, or starts to receive a file. -/
theorem tftpReaction_eq {configuration : Target.Configuration} {state : Target.State}
    {request : Request} (hop : configuration.operation ≠ .information) :
    tftpReaction configuration state request = .receive request.remote ↔
      state.hostAddress = request.remote.address ∧ request.requestType = .write ∧
        (ProtocolFilename.ofString request.filename).fileType =
          requestFileType configuration.operation := by
  cases h : configuration.operation with
  | information => exact absurd h hop
  | _ =>
    simp only [tftpReaction, h, requestReaction, requestFileType]
    grind

/-- What the step of an operation does with a request. -/
theorem step_tftpRequest {configuration : Target.Configuration} {state state' : Target.State}
    {request : Request} {outputs : List Target.Output} {operation : TransferId}
    (h : (Target.machine configuration).step state (.tftpRequest request) =
      some (state', outputs)) :
    state.callback = none ∧
      (.writeOperation request.remote operation ∈ outputs ↔
        tftpReaction configuration state request = .receive request.remote ∧
          operation = state.nextTransfer) := by
  obtain ⟨r, hr, hresult⟩ := step_iff.mp h
  have hreaction := tftpRequest_eq_some hr
  simp only [reaction] at hr
  split at hr
  · rename_i hcallback
    obtain rfl := Option.some.inj hr
    refine ⟨hcallback, ?_⟩
    obtain ⟨errorCode, errorMessage, hreply⟩ | hreceive := hreaction
    · rw [hreply] at hresult ⊢
      cases hresult
      simp
    · rw [hreceive] at hresult ⊢
      cases hresult
      simp [taken]
  · cases hr

/-- An operation that does not wait for the application takes the request. -/
theorem tftpRequest_step {configuration : Target.Configuration} {state : Target.State}
    {request : Request} (hcallback : state.callback = none)
    (hreceive : tftpReaction configuration state request = .receive request.remote) :
    ∃ state', (Target.machine configuration).step state (.tftpRequest request) =
      some (state', [.writeOperation request.remote state.nextTransfer]) := by
  refine ⟨_, step_iff.mpr ⟨.receive request.remote, ?_, rfl⟩⟩
  simp only [reaction, hcallback, if_true, hreceive]

/-- The step of the protocol with a request that it hands on. -/
theorem receivedTftpRequest_step {request : Request} {s' : State} {out : List Output} :
    (machine cfg).step s (.receivedTftpRequest request) = some (s', out) ↔
      receivedTftpRequest cfg request s [] = some ((), s', out) :=
  run_eq_some

/-- **Acceptance**: an operation accepts a request exactly if it was created last,
does not wait for the application, and the request passes the checks of the
protocol and of the operation. -/
theorem accepts_iff {index : Nat} {member : Member} {request : Request}
    (hmember : s.member? index = some member)
    (hop : member.configuration.operation ≠ .information) :
    Accepts cfg s index request ↔
      s.operation = some index ∧ member.state.callback = none ∧ PassesChecks member request := by
  constructor
  · intro h
    rcases h with ⟨s', out, operation, hstep, hmem⟩
    rw [receivedTftpRequest_step] at hstep
    simp only [receivedTftpRequest, if_apply] at hstep
    split at hstep
    · cases hstep
      simp at hmem
    rename_i hprotocol
    cases hrequested : requestedOperation request with
    | some operationType =>
      simp only [hrequested, handleInitialisationFile] at hstep
      cases hstep
      simp at hmem
    | none =>
      simp only [hrequested, get_bind] at hstep
      cases hregistered : s.registered? with
      | none =>
        simp only [hregistered] at hstep
        cases hstep
        simp at hmem
      | some registered =>
        obtain ⟨i, m⟩ := registered
        obtain ⟨hi, hm⟩ : s.operation = some i ∧ s.member? i = some m := by
          simp only [State.registered?, Option.bind_eq_some_iff, Option.map_eq_some_iff,
            Prod.mk.injEq] at hregistered
          obtain ⟨_, hi, _, hm, rfl, rfl⟩ := hregistered
          exact ⟨hi, hm⟩
        simp only [hregistered, onOperation_apply, hm, Option.bind_some,
          Option.map_eq_some_iff, Prod.mk.injEq, true_and] at hstep
        obtain ⟨⟨state', outputs⟩, hrun, -, rfl⟩ := hstep
        simp only [List.nil_append, List.mem_map, Output.operation.injEq] at hmem
        obtain ⟨_, hmem, rfl, rfl⟩ := hmem
        obtain rfl := Option.some.inj (hm.symm.trans hmember)
        obtain ⟨hcallback, hwrites⟩ := step_tftpRequest hrun
        obtain ⟨haddress, htype, hfile⟩ := (tftpReaction_eq hop).mp (hwrites.mp hmem).1
        exact ⟨hi, hcallback, not_not.mp hprotocol, haddress, htype, hfile⟩
  · intro h
    rcases h with ⟨hregistered, hcallback, hprotocol, haddress, htype, hfile⟩
    obtain ⟨state', hrun⟩ := tftpRequest_step hcallback
      ((tftpReaction_eq hop).mpr ⟨haddress, htype, hfile⟩)
    have hrequested : requestedOperation request = none := by
      simp [requestedOperation, htype]
    have hregistered? : s.registered? = some (index, member) := by
      simp [State.registered?, hregistered, hmember]
    have hstep : receivedTftpRequest cfg request s [] =
        some ((), { s with operations := s.operations.modify index fun member =>
          { member with state := state' } },
          [.operation index (.writeOperation request.remote member.state.nextTransfer)]) := by
      simp only [receivedTftpRequest, if_apply, hprotocol, not_true_eq_false, if_false,
        hrequested, get_bind, hregistered?, onOperation_apply, hmember, Option.bind_some, hrun,
        Option.map_some]
      rfl
    exact ⟨_, _, _, receivedTftpRequest_step.mpr hstep, List.mem_singleton_self _⟩

/-- **Authorisation**: an operation accepts only requests for its own target ID
exactly where the filename names it, or a check that does not look at the target
ID refuses the request. -/
theorem protocol_accepts_own_target_iff {index : Nat} {member : Member} {request : Request}
    (hmember : s.member? index = some member)
    (hop : member.configuration.operation ≠ .information) (hwrite : request.requestType = .write) :
    (Accepts cfg s index request →
        (ProtocolFilename.ofString request.filename).targetId = member.configuration.targetId) ↔
      (ProtocolFilename.ofString request.filename).targetId = member.configuration.targetId ∨
        s.operation ≠ some index ∨ member.state.callback ≠ none ∨
        ¬ ProtocolFilename.isProtocolFilename request.filename ∨
        member.state.hostAddress ≠ request.remote.address ∨
        (ProtocolFilename.ofString request.filename).fileType ≠
          requestFileType member.configuration.operation := by
  rw [accepts_iff hmember hop, PassesChecks]
  simp only [hwrite, true_and]
  tauto

/-- A protocol of version 615A-3/4, for examples. -/
def exampleConfiguration : Configuration :=
  ⟨.arinc615a34, 59, fun type _ => ⟨type, []⟩, true, false⟩

/-- The load request of the own target, and of another one. -/
def loadRequest (filename : String) : Request := ⟨exampleHost, .write, str filename, [], {}⟩

/-- An upload operation on the target `HNPFMS_L`, started for the host. -/
def exampleMember : Member :=
  ⟨Target.exampleConfiguration .upload,
    started (Target.exampleConfiguration .upload) exampleHost none, false⟩

/-- The load request for its own target is accepted, and names that target. -/
theorem protocol_accepts_own_target_upload :
    Accepts exampleConfiguration ⟨[exampleMember], some 0⟩ 0 (loadRequest "HNPFMS_L.LUR") ∧
      (ProtocolFilename.ofString (loadRequest "HNPFMS_L.LUR").filename).targetId =
        exampleMember.configuration.targetId := by
  have haccepts : Accepts exampleConfiguration ⟨[exampleMember], some 0⟩ 0
      (loadRequest "HNPFMS_L.LUR") := ⟨_, _, 1, rfl, by decide⟩
  refine ⟨haccepts, ?_⟩
  exact (protocol_accepts_own_target_iff rfl (by decide) rfl).mpr (.inl (by decide)) haccepts

/-- The host of an upload on the target `HNPFMS_L` sends the load request of the
target `OTHER_R`: it is accepted. -/
theorem protocol_accepts_other_target :
    ∃ s out, (machine exampleConfiguration).exec {}
        [.create .upload ⟨str "HNPFMS", str "L"⟩ 1, .start 0 exampleHost none] = some (s, out) ∧
      Accepts exampleConfiguration s 0 (loadRequest "OTHER_R.LUR") ∧
      (ProtocolFilename.ofString (loadRequest "OTHER_R.LUR").filename).targetId ≠
        ⟨str "HNPFMS", str "L"⟩ :=
  ⟨_, _, rfl, ⟨_, _, 1, rfl, by decide⟩, by decide⟩

end Arinc615a.Target.Protocol
