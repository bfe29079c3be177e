import Arinc615a.Target.Deliveries
import Arinc615a.Target.Protocol

/-!
# The operations of the protocol

Operations are created, started and released in any order, and requests go to the one
that was created last. Still, what each of them does is what it would do alone: a run of
the protocol is, for each operation, a run of that operation on the calls that are made to
it (`protocol_operations`). What holds of the steps of one operation then holds of the
operations of a protocol (`protocol_files`).
-/

namespace Arinc615a.Target.Protocol

open Actions Actions.Action Machines
open Files Information Tftp

/-! ## The life of an operation -/

/-- What the protocol and the application do to an operation. -/
inductive Call where
  | start (hostAddress : Endpoint) (port : Option UInt16)
  | event (event : Target.Event)
  deriving DecidableEq

/-- An operation from its construction on. -/
def lifetime (configuration : Target.Configuration) :
    Machine Target.State Call Target.Output where
  step s
    | .start hostAddress port => (Target.start configuration hostAddress port).run s
    | .event event => (Target.machine configuration).step s event

/-- A run of the operation, behind its start. -/
theorem lifetime_events {configuration : Target.Configuration} {s : Target.State}
    {events : List Target.Event} :
    (lifetime configuration).exec s (events.map .event) =
      (Target.machine configuration).exec s events := by
  induction events generalizing s with
  | nil => rfl
  | cons e events ih =>
    rw [List.map_cons, Machine.exec, Machine.exec]
    simp only [ih]
    rfl

/-- The outputs of the operation with this number. -/
def outputsOf (index : Nat) (out : List Output) : List Target.Output :=
  out.filterMap fun
    | .operation i output => if i = index then some output else none
    | _ => none

@[simp] theorem outputsOf_append (index : Nat) (out out' : List Output) :
    outputsOf index (out ++ out') = outputsOf index out ++ outputsOf index out' :=
  List.filterMap_append ..

@[simp] theorem outputsOf_map_self (index : Nat) (outputs : List Target.Output) :
    outputsOf index (outputs.map (.operation index)) = outputs := by
  simp [outputsOf, List.filterMap_map]

theorem outputsOf_map_of_ne {index i : Nat} (h : i ≠ index) (outputs : List Target.Output) :
    outputsOf index (outputs.map (.operation i)) = [] := by
  simp [outputsOf, List.filterMap_map, h]

theorem mem_outputsOf {index : Nat} {out : List Output} {output : Target.Output} :
    output ∈ outputsOf index out ↔ .operation index output ∈ out := by
  rw [outputsOf, List.mem_filterMap]
  constructor
  · rintro ⟨o, ho, heq⟩
    split at heq
    · split at heq
      · rename_i hindex
        cases heq
        exact hindex ▸ ho
      · cases heq
    · cases heq
  · exact fun h => ⟨_, h, by simp⟩

/-! ## The steps of the protocol -/

/-- What an event calls an operation for: its start, an event of its own, or a request that
the protocol hands on. Requests for an initialisation file go to the application, and all
others to the operation that is registered. -/
def callOf? (s : State) (index : Nat) : Event → Option Call
  | .start i hostAddress port => if i = index then some (.start hostAddress port) else none
  | .operation i event => if i = index then some (.event event) else none
  | .receivedTftpRequest request =>
    if ProtocolFilename.isProtocolFilename request.filename ∧ requestedOperation request = none ∧
        s.registered?.map (·.1) = some index then
      some (.event (.tftpRequest request))
    else none
  | _ => none

/-- The calls that a run of the protocol makes to an operation. -/
def callsTo (cfg : Configuration) (index : Nat) (es : List Event) : List Call :=
  ((machine cfg).steps {} es).filterMap fun (s, e) => callOf? s index e

/-- What the operations of a run are created with, in the order of their numbers. -/
def created (cfg : Configuration) (es : List Event) : List Target.Configuration :=
  es.filterMap fun
    | .create operation targetId rate => some (cfg.operation operation targetId rate)
    | _ => none

/-- The steps: an operation is added, given up or called, or none is concerned. -/
inductive Taken (cfg : Configuration) (s : State) : Event → State → List Output → Prop where
  | created {operation : OperationType} {targetId : TargetId} {rate : Nat} :
    Taken cfg s (.create operation targetId rate)
      { operations := s.operations ++
          [⟨cfg.operation operation targetId rate,
            newOperation (cfg.operation operation targetId rate), false⟩]
        operation := some s.operations.length } []
  | released {index : Nat} :
    Taken cfg s (.release index)
      { s with operations := s.operations.modify index fun member =>
          { member with released := true } } []
  | called {e : Event} {index : Nat} {member : Member} {call : Call} {state : Target.State}
    {outputs : List Target.Output} (hmember : s.member? index = some member)
    (hcall : callOf? s index e = some call)
    (hstep : (lifetime member.configuration).step member.state call = some (state, outputs)) :
    Taken cfg s e
      { s with operations := s.operations.modify index fun member =>
          { member with state := state } } (outputs.map (.operation index))
  | answered {request : Request} {o : Output} (h : ∀ index output, o ≠ .operation index output)
    (hnone : ∀ index, callOf? s index (.receivedTftpRequest request) = none) :
    Taken cfg s (.receivedTftpRequest request) s [o]

variable {cfg : Configuration} {s s' : State} {e : Event} {out : List Output}

/-- An event calls one operation. -/
theorem callOf?_unique {i j : Nat} {call call' : Call} (h : callOf? s i e = some call)
    (h' : callOf? s j e = some call') : i = j := by
  cases e with
  | start index hostAddress port =>
    simp only [callOf?, Option.ite_none_right_eq_some] at h h'
    exact h.1.symm.trans h'.1
  | operation index event =>
    simp only [callOf?, Option.ite_none_right_eq_some] at h h'
    exact h.1.symm.trans h'.1
  | receivedTftpRequest request =>
    simp only [callOf?, Option.ite_none_right_eq_some] at h h'
    exact Option.some.inj (h.1.2.2.symm.trans h'.1.2.2)
  | create operation targetId rate => cases h
  | release index => cases h

/-- An operation that something is run of is called. -/
theorem taken_of_onOperation {index : Nat} {call : Call} (hcall : callOf? s index e = some call)
    (h : onOperation index (fun configuration state => (lifetime configuration).step state call)
      s [] = some ((), s', out)) : Taken cfg s e s' out := by
  rw [onOperation_apply, Option.bind_eq_some_iff] at h
  obtain ⟨member, hmember, h⟩ := h
  obtain ⟨⟨state, outputs⟩, hstep, h⟩ := Option.map_eq_some_iff.mp h
  cases h
  rw [List.nil_append]
  exact .called hmember hcall hstep

/-- Every step is one of these. -/
theorem taken_of_step (h : (machine cfg).step s e = some (s', out)) : Taken cfg s e s' out := by
  have h : react cfg e s [] = some ((), s', out) := run_eq_some.mp h
  cases e with
  | create operation targetId rate =>
    cases h
    exact .created
  | start index hostAddress port => exact taken_of_onOperation (if_pos rfl) h
  | release index =>
    cases h
    exact .released
  | receivedTftpRequest request =>
    simp only [react, receivedTftpRequest, if_apply] at h
    split at h
    · rename_i hprotocol
      cases h
      exact .answered (by simp) fun index => if_neg fun hhands => hprotocol hhands.1
    rename_i hprotocol
    cases hrequested : requestedOperation request with
    | some operationType =>
      simp only [hrequested] at h
      cases h
      exact .answered (by simp) fun index => if_neg (by simp [hrequested])
    | none =>
      simp only [hrequested, get_bind] at h
      cases hregistered : s.registered? with
      | none =>
        simp only [hregistered] at h
        cases h
        exact .answered (by simp) fun index => if_neg (by simp [hregistered])
      | some registered =>
        obtain ⟨index, member⟩ := registered
        simp only [hregistered] at h
        have hcall : callOf? s index (.receivedTftpRequest request) =
            some (.event (.tftpRequest request)) :=
          if_pos ⟨not_not.mp hprotocol, hrequested, by rw [hregistered]; rfl⟩
        exact taken_of_onOperation hcall h
  | operation index event =>
    cases event with
    | tftpRequest request => simp [react] at h
    | _ => exact taken_of_onOperation (if_pos rfl) h

/-! ## The runs of the operations -/

theorem getElem?_of_member? {index : Nat} {member : Member}
    (h : s.member? index = some member) : s.operations[index]? = some member :=
  (Option.filter_eq_some_iff.mp h).1

/-- A step leaves an operation alone, or is a step of it. -/
inductive MemberStep (s : State) (e : Event) (index : Nat) (member member' : Member)
    (outputs : List Target.Output) : Prop where
  | idle (hcall : callOf? s index e = none) (hstate : member'.state = member.state)
    (houtputs : outputs = [])
  | step {call : Call} (hcall : callOf? s index e = some call)
    (h : (lifetime member.configuration).step member.state call = some (member'.state, outputs))

theorem member_step {index : Nat} {member : Member} (h : (machine cfg).step s e = some (s', out))
    (hmember : s.operations[index]? = some member) :
    ∃ member', s'.operations[index]? = some member' ∧
      member'.configuration = member.configuration ∧
      MemberStep s e index member member' (outputsOf index out) := by
  cases taken_of_step h with
  | created =>
    refine ⟨member, ?_, rfl, .idle rfl rfl rfl⟩
    show (s.operations ++ _)[index]? = _
    rw [List.getElem?_append_left (List.getElem?_eq_some_iff.mp hmember).1, hmember]
  | @released i =>
    by_cases hsame : i = index
    · exact ⟨{ member with released := true }, by simp [hsame, hmember], rfl,
        .idle rfl rfl rfl⟩
    · exact ⟨member, by simp [hsame, hmember], rfl, .idle rfl rfl rfl⟩
  | @called _ i called call state outputs hcalled hcall hstep =>
    by_cases hsame : i = index
    · subst hsame
      obtain rfl : called = member :=
        Option.some.inj ((getElem?_of_member? hcalled).symm.trans hmember)
      refine ⟨{ called with state := state }, by simp [hmember], rfl, ?_⟩
      rw [outputsOf_map_self]
      exact .step hcall hstep
    · refine ⟨member, by simp [hsame, hmember], rfl, ?_⟩
      rw [outputsOf_map_of_ne hsame]
      refine .idle ?_ rfl rfl
      rw [Option.eq_none_iff_forall_ne_some]
      exact fun call' hcall' => hsame (callOf?_unique hcall hcall')
  | @answered request o hother hnone =>
    refine ⟨member, hmember, rfl, .idle (hnone index) rfl ?_⟩
    rw [List.eq_nil_iff_forall_not_mem]
    intro output houtput
    exact hother index output (List.mem_singleton.mp (mem_outputsOf.mp houtput)).symm

/-- An operation that was not created is not called. -/
theorem not_called_step {index : Nat} (h : (machine cfg).step s e = some (s', out))
    (hmember : s.operations[index]? = none) :
    callOf? s index e = none ∧ outputsOf index out = [] := by
  cases taken_of_step h with
  | created => exact ⟨rfl, rfl⟩
  | released => exact ⟨rfl, rfl⟩
  | @called _ i called call state outputs hcalled hcall hstep =>
    have hne : i ≠ index := by
      rintro rfl
      rw [getElem?_of_member? hcalled] at hmember
      cases hmember
    refine ⟨?_, outputsOf_map_of_ne hne outputs⟩
    rw [Option.eq_none_iff_forall_ne_some]
    exact fun call' hcall' => hne (callOf?_unique hcall hcall')
  | @answered request o hother hnone =>
    refine ⟨hnone index, ?_⟩
    rw [List.eq_nil_iff_forall_not_mem]
    intro output houtput
    exact hother index output (List.mem_singleton.mp (mem_outputsOf.mp houtput)).symm

/-- A step adds the call that it makes. -/
theorem callsTo_append {es : List Event} {tr : List Output} (index : Nat)
    (h : (machine cfg).exec {} es = some (s, tr)) (e : Event) :
    callsTo cfg index (es ++ [e]) = callsTo cfg index es ++ (callOf? s index e).toList := by
  rw [callsTo, Machine.steps_append_singleton h, filterMap_concat]
  rfl

/-- A step creates no operation, or the next one. -/
theorem operations_step (h : (machine cfg).step s e = some (s', out)) :
    (created cfg [e] = [] ∧ s'.operations.length = s.operations.length) ∨
      ∃ configuration, created cfg [e] = [configuration] ∧
        s'.operations =
          s.operations ++ [⟨configuration, newOperation configuration, false⟩] := by
  cases taken_of_step h with
  | created => exact .inr ⟨_, rfl, rfl⟩
  | released => exact .inl ⟨rfl, List.length_modify ..⟩
  | called hcalled hcall hstep =>
    refine .inl ⟨?_, List.length_modify ..⟩
    cases e with
    | create operation targetId rate => cases hcall
    | _ => rfl
  | answered hother hnone => exact .inl ⟨rfl, rfl⟩

/-- An operation that is there only behind the step is new. -/
theorem new_of_step (h : (machine cfg).step s e = some (s', out)) {index : Nat} {member : Member}
    (hbefore : s.operations[index]? = none) (hmember : s'.operations[index]? = some member) :
    index = s.operations.length ∧ created cfg [e] = [member.configuration] ∧
      member.state = newOperation member.configuration := by
  have hge := List.getElem?_eq_none_iff.mp hbefore
  have hlt := (List.getElem?_eq_some_iff.mp hmember).1
  obtain ⟨-, hsame⟩ | ⟨configuration, hcreated, hnew⟩ := operations_step h
  · omega
  · rw [hnew, List.length_append, List.length_singleton] at hlt
    obtain rfl : index = s.operations.length := by omega
    rw [hnew, List.getElem?_concat_length] at hmember
    cases hmember
    exact ⟨rfl, hcreated, rfl⟩

/-- An operation of a run is what the calls to it have made of a new one. -/
structure OwnRun (cfg : Configuration) (es : List Event) (tr : List Output) (index : Nat)
    (member : Member) : Prop where
  configuration : (created cfg es)[index]? = some member.configuration
  exec : (lifetime member.configuration).exec (newOperation member.configuration)
    (callsTo cfg index es) = some (member.state, outputsOf index tr)

/-- The operations of a run. -/
structure OwnRuns (cfg : Configuration) (es : List Event) (s : State) (tr : List Output) :
    Prop where
  length_eq : s.operations.length = (created cfg es).length
  /-- The numbers that are not given yet. -/
  free : ∀ index, s.operations[index]? = none → callsTo cfg index es = [] ∧ outputsOf index tr = []
  own : ∀ index member, s.operations[index]? = some member → OwnRun cfg es tr index member

theorem created_append (es es' : List Event) :
    created cfg (es ++ es') = created cfg es ++ created cfg es' :=
  List.filterMap_append ..

/-- What a step makes of an operation that was created before. -/
theorem ownRun_step {es : List Event} {tr : List Output}
    (hexec : (machine cfg).exec {} es = some (s, tr))
    (hstep : (machine cfg).step s e = some (s', out)) {index : Nat} {member : Member}
    (h : OwnRun cfg es tr index member) (hmember : s.operations[index]? = some member) :
    ∃ member', s'.operations[index]? = some member' ∧
      OwnRun cfg (es ++ [e]) (tr ++ out) index member' := by
  obtain ⟨member', hmember', hconfiguration, hown⟩ := member_step hstep hmember
  have hlt := (List.getElem?_eq_some_iff.mp h.configuration).1
  refine ⟨member', hmember', ?_, ?_⟩
  · rw [created_append, List.getElem?_append_left hlt, h.configuration, hconfiguration]
  · rw [callsTo_append index hexec e, outputsOf_append, hconfiguration]
    cases hown with
    | idle hcall hstate houtputs =>
      rw [hcall, hstate, houtputs, Option.toList_none, List.append_nil, List.append_nil]
      exact h.exec
    | step hcall hown =>
      rw [hcall, Option.toList_some]
      exact Machine.exec_append_singleton.mpr ⟨_, _, _, h.exec, hown, rfl⟩

theorem ownRuns_step {es : List Event} {tr : List Output}
    (hexec : (machine cfg).exec {} es = some (s, tr)) (h : OwnRuns cfg es s tr)
    (hstep : (machine cfg).step s e = some (s', out)) :
    OwnRuns cfg (es ++ [e]) s' (tr ++ out) := by
  -- A number that is not given before the step.
  have hfree : ∀ index, s.operations[index]? = none →
      callsTo cfg index (es ++ [e]) = [] ∧ outputsOf index (tr ++ out) = [] := by
    intro index hnone
    obtain ⟨hcalls, houtputs⟩ := h.free index hnone
    obtain ⟨hcall, hout⟩ := not_called_step hstep hnone
    rw [callsTo_append index hexec e, outputsOf_append, hcalls, houtputs, hcall, hout]
    exact ⟨rfl, rfl⟩
  have hlength : s'.operations.length = (created cfg (es ++ [e])).length ∧
      s.operations.length ≤ s'.operations.length := by
    rw [created_append, List.length_append, ← h.length_eq]
    obtain ⟨hcreated, hsame⟩ | ⟨configuration, hcreated, hnew⟩ := operations_step hstep
    · simp [hcreated, hsame]
    · simp [hcreated, hnew]
  refine ⟨hlength.1, ?_, ?_⟩
  · intro index hnone
    apply hfree index
    rw [List.getElem?_eq_none_iff] at hnone ⊢
    exact hlength.2.trans hnone
  · intro index member hmember
    cases hbefore : s.operations[index]? with
    | some before =>
      obtain ⟨member', hmember', hown⟩ := ownRun_step hexec hstep (h.own index before hbefore)
        hbefore
      rw [hmember] at hmember'
      cases hmember'
      exact hown
    | none =>
      obtain ⟨hindex, hcreated, hnew⟩ := new_of_step hstep hbefore hmember
      obtain ⟨hcalls, houtputs⟩ := hfree index hbefore
      constructor
      · rw [created_append, hcreated, hindex, h.length_eq, List.getElem?_concat_length]
      · rw [hcalls, houtputs, hnew]
        rfl

/-- **Operations**: in every run, each operation is what the calls to it have made of it. -/
theorem ownRuns_run {es : List Event} {tr : List Output}
    (h : (machine cfg).exec {} es = some (s, tr)) : OwnRuns cfg es s tr := by
  refine Machine.exec_history (fun es s tr => OwnRuns cfg es s tr) ⟨rfl, ?_, ?_⟩ ?_ h
  · exact fun index _ => ⟨rfl, rfl⟩
  · intro index member hmember
    cases hmember
  · exact fun es s tr e s' out hexec hruns hstep => ownRuns_step hexec hruns hstep

/-- **Operations**: whatever happens to the others, an operation that a run of the protocol
creates is a run of this operation alone, from its construction on: on the calls that the
run makes to it. If its start is the first of them, and the only one, it is a run of the
target operation from its start on. -/
theorem protocol_operations {es : List Event} {tr : List Output} {index : Nat}
    {configuration : Target.Configuration}
    (hrun : (machine cfg).exec {} es = some (s, tr))
    (hcreated : (created cfg es)[index]? = some configuration) :
    ∃ member, s.operations[index]? = some member ∧ member.configuration = configuration ∧
      (lifetime configuration).exec (newOperation configuration) (callsTo cfg index es) =
        some (member.state, outputsOf index tr) ∧
      ∀ hostAddress port events,
        callsTo cfg index es = .start hostAddress port :: events.map .event →
          ∃ file outputs,
            InitializationFile.encode
                ⟨configuration.protocolVersion, ⟨.operationAccepted, []⟩⟩ = .ok file ∧
              outputsOf index tr = .readOperation hostAddress 0 file :: outputs ∧
              (Target.machine configuration).exec (started configuration hostAddress port)
                  events = some (member.state, outputs) := by
  have hruns := ownRuns_run hrun
  have hlt : index < s.operations.length := by
    rw [hruns.length_eq]
    exact (List.getElem?_eq_some_iff.mp hcreated).1
  obtain ⟨member, hmember⟩ : ∃ member, s.operations[index]? = some member :=
    ⟨_, List.getElem?_eq_getElem hlt⟩
  have hown := hruns.own index member hmember
  obtain rfl : member.configuration = configuration :=
    Option.some.inj (hown.configuration.symm.trans hcreated)
  refine ⟨member, hmember, rfl, hown.exec, fun hostAddress port events hcalls => ?_⟩
  have hexec := hown.exec
  rw [hcalls] at hexec
  obtain ⟨state, first, rest, hstart, hrest, houtputs⟩ := Machine.exec_cons.mp hexec
  obtain ⟨file, hencode, hfirst⟩ := Target.start_run member.configuration hostAddress port
  obtain ⟨rfl, rfl⟩ := Prod.mk.inj (Option.some.inj (hfirst.symm.trans hstart))
  rw [lifetime_events] at hrest
  exact ⟨file, rest, hencode, houtputs, hrest⟩

/-- An upload and a download are created and then started, and the status of the upload is
due. -/
def exampleEvents : List Event :=
  [.create .upload ⟨str "HNPFMS", str "L"⟩ 1,
    .create .operatorDefinedDownload ⟨str "HNPFMS", str "R"⟩ 1,
    .start 0 exampleHost none, .start 1 ⟨8, 60⟩ none,
    .operation 0 (.serverCompleted 0 .successful []), .operation 0 (.advance Timers.second),
    .operation 0 .timerExpired, .operation 0 (.timerHandler .success)]

/-- What the upload of the example is created with. -/
def exampleUpload : Target.Configuration :=
  exampleConfiguration.operation .upload ⟨str "HNPFMS", str "L"⟩ 1

/-- The upload is a run of an upload alone. -/
theorem protocol_operations_upload : ∃ s tr member file outputs,
    (machine exampleConfiguration).exec {} exampleEvents = some (s, tr) ∧
      s.operations[0]? = some member ∧
      outputsOf 0 tr = .readOperation exampleHost 0 file :: outputs ∧
      (Target.machine exampleUpload).exec (started exampleUpload exampleHost none)
          [.serverCompleted 0 .successful [], .advance Timers.second, .timerExpired,
            .timerHandler .success] =
        some (member.state, outputs) := by
  have hrun : ∃ s tr,
      (machine exampleConfiguration).exec {} exampleEvents = some (s, tr) := ⟨_, _, rfl⟩
  obtain ⟨s, tr, hrun⟩ := hrun
  obtain ⟨member, hmember, -, -, hstarted⟩ :=
    @protocol_operations exampleConfiguration s exampleEvents tr 0 exampleUpload hrun rfl
  obtain ⟨file, outputs, -, houtputs, hexec⟩ := hstarted exampleHost none
    [.serverCompleted 0 .successful [], .advance Timers.second, .timerExpired,
      .timerHandler .success] rfl
  exact ⟨s, tr, member, file, outputs, hrun, hmember, houtputs, hexec⟩

/-! ## What holds of one operation holds of the operations -/

/-- The remote of an operation is set by its start alone, and its files go there. -/
theorem own_step {index : Nat} {member : Member} (h : (machine cfg).step s e = some (s', out))
    (hmember : s.operations[index]? = some member)
    (hnot : ∀ hostAddress port, e ≠ .start index hostAddress port) :
    ∃ member', s'.operations[index]? = some member' ∧
      member'.configuration = member.configuration ∧
      member'.state.remote = member.state.remote ∧
      ∀ o ∈ outputsOf index out, ∀ remote filename, o.file? = some (remote, filename) →
        remote = member.state.remote ∧ ∃ fileType, fileType ≠ .invalid ∧
          filename = protocolFilename member.configuration fileType := by
  obtain ⟨member', hmember', hconfiguration, hown⟩ := member_step h hmember
  refine ⟨member', hmember', hconfiguration, ?_⟩
  cases hown with
  | idle hcall hstate houtputs =>
    rw [hstate, houtputs]
    exact ⟨rfl, fun o ho => by cases ho⟩
  | @step call hcall hown =>
    cases call with
    | start hostAddress port =>
      cases e with
      | start i hostAddress' port' =>
        obtain ⟨rfl, -⟩ := Option.ite_none_right_eq_some.mp hcall
        exact absurd rfl (hnot hostAddress' port')
      | operation i event =>
        cases (Option.ite_none_right_eq_some.mp hcall).2
      | receivedTftpRequest request =>
        cases (Option.ite_none_right_eq_some.mp hcall).2
      | create operation targetId rate => cases hcall
      | release i => cases hcall
    | event event =>
      exact ⟨remote_step hown, fun o ho remote filename hfile => addressed_step hown ho hfile⟩

/-- Before its start, an operation has the port of the configuration. -/
theorem hostPort_run {es : List Event} {tr : List Output} {index : Nat} {member : Member}
    (h : (machine cfg).exec {} es = some (s, tr))
    (hnot : ∀ hostAddress port, .start index hostAddress port ∉ es)
    (hmember : s.operations[index]? = some member) :
    member.state.hostPort = member.configuration.tftpServerPort := by
  refine Machine.exec_history (fun es s _ =>
    (∀ hostAddress port, .start index hostAddress port ∉ es) → ∀ member,
      s.operations[index]? = some member →
        member.state.hostPort = member.configuration.tftpServerPort) ?_ ?_ h hnot member hmember
  · intro _ member hmember
    cases hmember
  · intro es s tr e s' out hexec ih hstep hnot member hmember
    have hbefore : ∀ hostAddress port, .start index hostAddress port ∉ es :=
      fun hostAddress port hmem => hnot hostAddress port (List.mem_append_left _ hmem)
    have hlast : ∀ hostAddress port, e ≠ .start index hostAddress port := by
      rintro hostAddress port rfl
      exact hnot hostAddress port (by simp)
    cases hold : s.operations[index]? with
    | some before =>
      obtain ⟨member', hmember', hconfiguration, hremote, -⟩ := own_step hstep hold hlast
      rw [hmember] at hmember'
      cases hmember'
      rw [hconfiguration, ← ih hbefore before hold]
      exact congrArg Endpoint.port hremote
    | none =>
      obtain ⟨-, -, hnew⟩ := new_of_step hstep hold hmember
      rw [hnew]
      rfl

/-- The start of an operation sets its remote, and sends no status or list file. -/
theorem start_remote {configuration : Target.Configuration} {state state' : Target.State}
    {hostAddress : Endpoint} {port : Option UInt16} {outputs : List Target.Output}
    (h : (lifetime configuration).step state (.start hostAddress port) =
      some (state', outputs)) :
    state'.remote = ⟨hostAddress.address, port.getD state.hostPort⟩ ∧
      ∀ o ∈ outputs, o.file? = none := by
  cases port with
  | none =>
    cases h
    exact ⟨rfl, fun o ho => by rw [List.mem_singleton.mp ho]; rfl⟩
  | some port =>
    cases h
    exact ⟨rfl, fun o ho => by rw [List.mem_singleton.mp ho]; rfl⟩

/-- What an operation that is not started again sends. -/
structure SendsTo (s : State) (tr : List Output) (index : Nat)
    (configuration : Target.Configuration) (remote : Endpoint) : Prop where
  member : ∃ member, s.operations[index]? = some member ∧
    member.configuration = configuration ∧ member.state.remote = remote
  files : ∀ o ∈ outputsOf index tr, ∀ remote' filename, o.file? = some (remote', filename) →
    remote' = remote ∧ ∃ fileType, fileType ≠ .invalid ∧
      filename = protocolFilename configuration fileType

theorem sendsTo_step {tr : List Output} {index : Nat} {configuration : Target.Configuration}
    {remote : Endpoint} (h : SendsTo s tr index configuration remote)
    (hstep : (machine cfg).step s e = some (s', out))
    (hnot : ∀ hostAddress port, e ≠ .start index hostAddress port) :
    SendsTo s' (tr ++ out) index configuration remote := by
  obtain ⟨member, hmember, rfl, rfl⟩ := h.member
  obtain ⟨member', hmember', hconfiguration, hremote, hfiles⟩ := own_step hstep hmember hnot
  refine ⟨⟨member', hmember', hconfiguration, hremote⟩, ?_⟩
  intro o ho
  rw [outputsOf_append] at ho
  rcases List.mem_append.mp ho with ho | ho
  · exact h.files o ho
  · exact hfiles o ho

theorem sendsTo_run {es : List Event} {tr tr' : List Output} {index : Nat}
    {configuration : Target.Configuration} {remote : Endpoint}
    (h : SendsTo s tr index configuration remote)
    (hrun : (machine cfg).exec s es = some (s', tr'))
    (hnot : ∀ hostAddress port, .start index hostAddress port ∉ es) :
    SendsTo s' (tr ++ tr') index configuration remote := by
  induction es generalizing s tr tr' with
  | nil =>
    simp only [Machine.exec_nil, Option.some.injEq, Prod.mk.injEq] at hrun
    obtain ⟨rfl, rfl⟩ := hrun
    rwa [List.append_nil]
  | cons e es ih =>
    obtain ⟨s₁, o, os, hstep, hrest, rfl⟩ := Machine.exec_cons.mp hrun
    rw [← List.append_assoc]
    refine ih (sendsTo_step h hstep ?_) hrest ?_
    · rintro hostAddress port rfl
      exact hnot hostAddress port (List.mem_cons_self ..)
    · exact fun hostAddress port hmem => hnot hostAddress port (List.mem_cons_of_mem _ hmem)

/-- **Addresses**: whatever a protocol does with its operations before and behind it, the
status and list files that an operation sends behind its start go to the host that it was
started for, under protocol filenames of its own target. -/
theorem protocol_files {pre post : List Event} {operation : OperationType}
    {targetId : TargetId} {rate index : Nat} {hostAddress : Endpoint} {port : Option UInt16}
    {s₀ : State} {tr₀ tr : List Output}
    (hcreated : (created cfg pre)[index]? = some (cfg.operation operation targetId rate))
    (honce : ∀ hostAddress port, .start index hostAddress port ∉ pre ++ post)
    (hpre : (machine cfg).exec {} pre = some (s₀, tr₀))
    (hrun : (machine cfg).exec s₀ (.start index hostAddress port :: post) = some (s, tr))
    {o : Target.Output} (ho : .operation index o ∈ tr) {remote : Endpoint} {filename : Str}
    (hfile : o.file? = some (remote, filename)) :
    remote = ⟨hostAddress.address, port.getD cfg.tftpServerPort⟩ ∧
      ∃ fileType, fileType ≠ .invalid ∧
        filename = ProtocolFilename.toString ⟨targetId, fileType⟩ := by
  have hruns := ownRuns_run hpre
  have hlt : index < s₀.operations.length := by
    rw [hruns.length_eq]
    exact (List.getElem?_eq_some_iff.mp hcreated).1
  obtain ⟨member, hmember⟩ : ∃ member, s₀.operations[index]? = some member :=
    ⟨_, List.getElem?_eq_getElem hlt⟩
  have hconfiguration : member.configuration = cfg.operation operation targetId rate :=
    Option.some.inj ((hruns.own index member hmember).configuration.symm.trans hcreated)
  have hport := hostPort_run hpre
    (fun hostAddress port hmem => honce hostAddress port (List.mem_append_left _ hmem)) hmember
  rw [hconfiguration] at hport
  obtain ⟨s₁, out, tr₁, hstart, hpost, rfl⟩ := Machine.exec_cons.mp hrun
  -- Behind the start, the operation sends to its host.
  have hstarted : SendsTo s₁ out index (cfg.operation operation targetId rate)
      ⟨hostAddress.address, port.getD cfg.tftpServerPort⟩ := by
    obtain ⟨member', hmember', hsame, hown⟩ := member_step hstart hmember
    cases hown with
    | idle hcall hstate houtputs => simp [callOf?] at hcall
    | step hcall hown =>
      obtain ⟨-, rfl⟩ := by simpa [callOf?] using hcall
      obtain ⟨hremote, hnone⟩ := start_remote hown
      rw [hport] at hremote
      refine ⟨⟨member', hmember', hsame.trans hconfiguration, hremote⟩, ?_⟩
      intro o ho remote filename hfile
      rw [hnone o ho] at hfile
      cases hfile
  have hsends := sendsTo_run hstarted hpost
    (fun hostAddress port hmem => honce hostAddress port (List.mem_append_right _ hmem))
  exact hsends.files o (mem_outputsOf.mpr ho) remote filename hfile

/-- The first status of the upload goes to its host. -/
theorem protocol_files_status : ∃ s₀ tr₀ s tr status file,
    (machine exampleConfiguration).exec {} (exampleEvents.take 2) = some (s₀, tr₀) ∧
      (machine exampleConfiguration).exec s₀ (exampleEvents.drop 2) = some (s, tr) ∧
      .operation 0 (.statusFile ⟨exampleHost.address, 59⟩ 1 (str "HNPFMS_L.LUS") status file) ∈
        tr ∧
      ∃ fileType, fileType ≠ .invalid ∧
        str "HNPFMS_L.LUS" = ProtocolFilename.toString ⟨⟨str "HNPFMS", str "L"⟩, fileType⟩ := by
  have hsent : ∃ s₀ tr₀ s tr status file,
      (machine exampleConfiguration).exec {} (exampleEvents.take 2) = some (s₀, tr₀) ∧
        (machine exampleConfiguration).exec s₀ (exampleEvents.drop 2) = some (s, tr) ∧
        .operation 0 (.statusFile ⟨exampleHost.address, 59⟩ 1 (str "HNPFMS_L.LUS") status file) ∈
          tr :=
    ⟨_, _, _, _, _, _, rfl, rfl, .tail _ (.tail _ (.tail _ (.tail _ (.head _))))⟩
  obtain ⟨s₀, tr₀, s, tr, status, file, hpre, hrun, hmem⟩ := hsent
  have honce : ∀ hostAddress port,
      .start 0 hostAddress port ∉ exampleEvents.take 2 ++ exampleEvents.drop 3 := by
    simp [exampleEvents]
  exact ⟨s₀, tr₀, s, tr, status, file, hpre, hrun, hmem,
    (@protocol_files exampleConfiguration s (exampleEvents.take 2) (exampleEvents.drop 3) .upload
      ⟨str "HNPFMS", str "L"⟩ 1 0 exampleHost none s₀ tr₀ tr rfl honce hpre hrun _ hmem _ _
      rfl).2⟩

end Arinc615a.Target.Protocol
