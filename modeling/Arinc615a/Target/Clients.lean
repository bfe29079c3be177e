import Arinc615a.Lib.Delegation
import Arinc615a.Target.Deliveries
import Arinc615a.Target.Completions
import Arinc615a.Target.Ending
import Arinc615a.Tftp.Completion

/-!
# A target operation and its TFTP clients

A target operation sends each status file and each list with an operation of the TFTP client,
which repeats its request, puts it off where the host says so, and at last calls the completion
handler. The operation alone takes a completion for every file that is in flight; here its
clients run with it.

An operation that is replaced is destroyed. Its timer is then cancelled, and if it was waiting
the wait handler would be called on what is there no longer: no step does so.
-/

namespace Arinc615a.Target

open Actions Actions.Action Machines Timers
open Files Information Tftp

/-! ## The clients of an operation -/

/-- The settings of `OperationImpl::protocolFileOperation`: ABORT messages are handled for
status files. -/
def protocolFileOperation (dlpRetries : UInt16) (fileType : ProtocolFileType) :
    Client.Configuration :=
  { dlpRetries := dlpRetries
    handleAbort :=
      match fileType with
      | .loadConfigurationStatus => true
      | .uploadStatus => true
      | .downloadStatus => true
      | _ => false }

/-- The list that an operation sends, if its class has one. -/
def listFileType : OperationType → ProtocolFileType
  | .operatorDefinedDownload => .operatorDefinedDownloadList
  | _ => .loadConfigurationList

/-- The client that sends a file. The TFTP server sends the initialisation file and receives
the request. -/
def clientOf (cfg : Configuration) (dlpRetries : UInt16) :
    TransferKind → Option Client.Configuration
  | .statusFile _ => some (protocolFileOperation dlpRetries (statusFileType cfg.operation))
  | .listFile => some (protocolFileOperation dlpRetries (listFileType cfg.operation))
  | _ => none

/-- The client whose completion the operation awaits. -/
def awaitedClient (cfg : Configuration) (dlpRetries : UInt16) (s : State)
    (operation : TransferId) : Option Client.Configuration :=
  (transfer? s operation).bind fun t => clientOf cfg dlpRetries t.kind

/-- The files that are sent, and the operations that are destroyed. -/
def clientAssignment (cfg : Configuration) (dlpRetries : UInt16) :
    Output → Option (Assignment Client.Configuration)
  | .statusFile _ operation _ _ _ =>
    some (.start operation (protocolFileOperation dlpRetries (statusFileType cfg.operation)))
  | .listFile _ operation _ _ _ =>
    some (.start operation (protocolFileOperation dlpRetries (listFileType cfg.operation)))
  | .abortTransfer operation => some (.drop operation)
  | _ => none

/-- The transfer of the TFTP client that completes. -/
def clientCompletion : Event → Option TransferId
  | .clientCompleted operation _ => some operation
  | _ => none

/-- An operation and its clients. They do not abort themselves, and their handlers are not
called while the application's handler is. -/
def withClients (cfg : Configuration) (dlpRetries : UInt16) : Delegation where
  State := State
  Event := Event
  Output := Output
  master := machine cfg
  Order := Client.Configuration
  WorkerState := Client.State
  WorkerEvent := Client.Event
  WorkerOutput := Client.Event × Client.Output
  worker := Client.machine
  fresh := Client.started
  happens f := !Client.isAbort f
  ready s := s.callback = none
  destroyable t := t.waitTimer.waits = 0
  assigns := clientAssignment cfg dlpRetries
  Data := Unit
  calls _ operation _ out := (Client.completion out).map (.clientCompleted operation ·)
  called e := (clientCompletion e).isSome
  endOf := clientCompletion

variable {cfg : Configuration} {dlpRetries : UInt16} {s : State}

/-! ## Transfers -/

theorem transfer?_withTransfer (s : State) (kind : TransferKind) (operation : TransferId) :
    transfer? (s.withTransfer kind) operation =
      if s.nextTransfer = operation then some ⟨s.nextTransfer, kind⟩
      else transfer? s operation := by
  simp only [transfer?, State.withTransfer, List.find?_cons]
  split <;> simp_all

theorem transfer?_withoutTransfer (s : State) (removed operation : TransferId) :
    transfer? (s.withoutTransfer removed) operation =
      if removed = operation then none else transfer? s operation :=
  Keyed.find?_remove s.transfers removed operation

theorem transfer?_without (s : State) (removed : Option TransferId) (operation : TransferId) :
    transfer? (s.without removed) operation =
      if removed = some operation then none else transfer? s operation := by
  cases removed with
  | none => rw [without_none, if_neg (by simp)]
  | some removed =>
    rw [without_some, transfer?_withoutTransfer]
    simp only [Option.some.injEq]

/-- A number that was not given is the one of no transfer. -/
theorem transfer?_next (h : Members s) : transfer? s s.nextTransfer = none := by
  rw [transfer?, List.find?_eq_none]
  intro t ht
  simpa using (h.lt t ht).ne

theorem awaitedClient_of_eq {t : State} (h : t.transfers = s.transfers) (job : TransferId) :
    awaitedClient cfg dlpRetries t job = awaitedClient cfg dlpRetries s job := by
  rw [awaitedClient, awaitedClient, transfer?, transfer?, h]

/-! ## What the operation awaits -/

/-- The account behind some outputs. -/
def awaitedBehind (cfg : Configuration) (dlpRetries : UInt16) (operation : TransferId)
    (out : List Output) (awaited : Option Client.Configuration) : Option Client.Configuration :=
  out.foldl ((withClients cfg dlpRetries).awaitsBehind operation) awaited

theorem awaitedBehind_append (operation : TransferId) (out out' : List Output)
    (awaited : Option Client.Configuration) :
    awaitedBehind cfg dlpRetries operation (out ++ out') awaited =
      awaitedBehind cfg dlpRetries operation out'
        (awaitedBehind cfg dlpRetries operation out awaited) :=
  List.foldl_append ..

/-- The abort of an operation that is replaced. -/
theorem awaitedBehind_transferAborts (removed : Option TransferId) (operation : TransferId)
    (awaited : Option Client.Configuration) :
    awaitedBehind cfg dlpRetries operation (transferAborts removed) awaited =
      if removed = some operation then none else awaited := by
  cases removed with
  | none => rfl
  | some removed =>
    simp only [Option.some.injEq]
    rfl

/-- A transfer that replaces another one. -/
theorem awaitedClient_replaced (removed : Option TransferId)
    {kind : TransferKind} {client : Client.Configuration}
    (hclient : clientOf cfg dlpRetries kind = some client) (operation : TransferId) :
    awaitedClient cfg dlpRetries ((s.without removed).withTransfer kind) operation =
      if s.nextTransfer = operation then some client
      else if removed = some operation then none
      else awaitedClient cfg dlpRetries s operation := by
  rw [awaitedClient, transfer?_withTransfer, transfer?_without]
  show Option.bind (if s.nextTransfer = operation then some _ else _) _ = _
  by_cases hnew : s.nextTransfer = operation
  · rw [if_pos hnew, if_pos hnew]
    exact hclient
  · rw [if_neg hnew, if_neg hnew]
    by_cases hremoved : removed = some operation
    · rw [if_pos hremoved, if_pos hremoved]
      rfl
    · rw [if_neg hremoved, if_neg hremoved]
      rfl

/-- A status file that is sent. -/
theorem awaited_transmission {s' : State} {out : List Output}
    (hsent : transmission cfg s = some (s', out)) (operation : TransferId) :
    awaitedClient cfg dlpRetries s' operation =
      awaitedBehind cfg dlpRetries operation out (awaitedClient cfg dlpRetries s operation) := by
  obtain ⟨e, -, rfl, rfl⟩ | ⟨file, -, rfl, rfl⟩ := transmission_eq_some hsent
  · rfl
  · refine (awaitedClient_of_eq
      (s := (s.without s.statusOperation).withTransfer (.statusFile s.status)) rfl _).trans ?_
    rw [awaitedClient_replaced s.statusOperation rfl, statusFileOutputs, awaitedBehind_append,
      awaitedBehind_transferAborts]
    rfl

/-- What a reaction sends and replaces. -/
theorem awaited_result (h : Members s) {r : Reaction} {s' : State} {out : List Output}
    (hresult : r.result cfg s = some (s', out)) (operation : TransferId) :
    awaitedClient cfg dlpRetries s' operation =
      awaitedBehind cfg dlpRetries operation out (awaitedClient cfg dlpRetries s operation) := by
  cases r with
  | transmit => exact awaited_transmission hresult operation
  | report f =>
    obtain ⟨-, hsent⟩ | ⟨-, rfl, rfl⟩ := forced_eq_some hresult
    · exact awaited_transmission hsent operation
    · rfl
  | receive remote =>
    simp only [Reaction.result, Option.some.injEq, Prod.mk.injEq] at hresult
    obtain ⟨rfl, rfl⟩ := hresult
    -- The file comes over the TFTP server: no client has the new number.
    refine (awaitedClient_of_eq (s := s.withTransfer .requestFile) rfl _).trans ?_
    rw [awaitedClient, transfer?_withTransfer]
    by_cases hnew : s.nextTransfer = operation
    · subst hnew
      rw [if_pos rfl, awaitedClient, transfer?_next h]
      rfl
    · rw [if_neg hnew]
      rfl
  | sendList filename file checkValue =>
    simp only [Reaction.result] at hresult
    split at hresult
    · rw [Option.some.injEq, Prod.mk.injEq] at hresult
      obtain ⟨rfl, rfl⟩ := hresult
      refine (awaitedClient_of_eq
        (s := (s.without s.listOperation).withTransfer .listFile) rfl _).trans ?_
      rw [awaitedClient_replaced s.listOperation rfl, awaitedBehind_append,
        awaitedBehind_transferAborts]
      rfl
    · cases hresult
  | call c =>
    simp only [Reaction.result, Option.some.injEq, Prod.mk.injEq] at hresult
    obtain ⟨rfl, rfl⟩ := hresult
    cases c <;> rfl
  | _ =>
    simp only [Reaction.result, Option.some.injEq, Prod.mk.injEq] at hresult
    obtain ⟨rfl, rfl⟩ := hresult
    rfl

/-- A completion of a transfer that is no client's changes nothing for the clients. -/
theorem awaited_afterCompletion (removed operation : TransferId) :
    awaitedClient cfg dlpRetries (s.afterCompletion removed) operation =
      if removed = operation then none else awaitedClient cfg dlpRetries s operation := by
  unfold State.afterCompletion
  cases ht : transfer? s removed with
  | none =>
    show awaitedClient cfg dlpRetries s operation = _
    split
    · rename_i heq
      rw [← heq, awaitedClient, ht]
      rfl
    · rfl
  | some t =>
    have htransfers : (s.completed removed t.kind).transfers =
        (s.withoutTransfer removed).transfers := by
      cases t.kind <;> rfl
    rw [awaitedClient_of_eq htransfers, awaitedClient, transfer?_withoutTransfer]
    split <;> rfl

/-- What an event takes away: its own transfer, if a client has it. -/
theorem awaited_taken {e : Event} {r : Reaction} (hr : reaction cfg s e = some r)
    (operation : TransferId) :
    awaitedClient cfg dlpRetries (taken s e) operation =
      if clientCompletion e = some operation then none
      else awaitedClient cfg dlpRetries s operation := by
  cases e with
  | clientCompleted completed status =>
    simp only [clientCompletion, Option.some.injEq]
    exact awaited_afterCompletion completed operation
  | serverCompleted completed status data =>
    rw [if_neg (by simp [clientCompletion])]
    refine (awaited_afterCompletion completed operation).trans ?_
    split
    · -- The transfer is one of the server.
      rename_i heq
      subst heq
      simp only [reaction, Option.ite_none_right_eq_some] at hr
      obtain ⟨t, ht, hkind⟩ := Option.bind_eq_some_iff.mp hr.2
      rw [awaitedClient, ht, Option.bind_some]
      cases hk : t.kind <;> simp_all [clientOf]
    · rfl
  | _ => rfl

/-- **Account**: what the operation awaits behind a step. -/
theorem awaited_step (h : Members s) {s' : State} {e : Event} {out : List Output}
    (hstep : (machine cfg).step s e = some (s', out)) (operation : TransferId) :
    awaitedClient cfg dlpRetries s' operation =
      awaitedBehind cfg dlpRetries operation out
        (if clientCompletion e = some operation then none
          else awaitedClient cfg dlpRetries s operation) := by
  obtain ⟨r, hr, hresult⟩ := step_iff.mp hstep
  rw [awaited_result (h.taken e) hresult, awaited_taken hr]

/-! ## Numbers -/

/-- The transfers of the client that the outputs start. -/
def clientStarts (cfg : Configuration) (dlpRetries : UInt16) (out : List Output) :
    List TransferId :=
  out.filterMap (withClients cfg dlpRetries).startOf

theorem clientStarts_append (out out' : List Output) :
    clientStarts cfg dlpRetries (out ++ out') =
      clientStarts cfg dlpRetries out ++ clientStarts cfg dlpRetries out' :=
  List.filterMap_append ..

theorem clientStarts_transferAborts (removed : Option TransferId) :
    clientStarts cfg dlpRetries (transferAborts removed) = [] := by
  cases removed <;> rfl

/-- A client that is started gets the next number. -/
structure Numbers (cfg : Configuration) (dlpRetries : UInt16) (s s' : State)
    (out : List Output) : Prop where
  next_le : s.nextTransfer ≤ s'.nextTransfer
  starts : clientStarts cfg dlpRetries out = [] ∨
    (clientStarts cfg dlpRetries out = [s.nextTransfer] ∧ s'.nextTransfer = s.nextTransfer + 1)

theorem numbers_transmission (dlpRetries : UInt16) {s' : State} {out : List Output}
    (hsent : transmission cfg s = some (s', out)) : Numbers cfg dlpRetries s s' out := by
  obtain ⟨e, -, rfl, rfl⟩ | ⟨file, -, rfl, rfl⟩ := transmission_eq_some hsent
  · exact ⟨Nat.le_refl _, .inl rfl⟩
  · refine ⟨Nat.le_succ _, .inr ⟨?_, rfl⟩⟩
    rw [statusFileOutputs, clientStarts_append, clientStarts_transferAborts]
    rfl

theorem numbers_result (dlpRetries : UInt16) {r : Reaction} {s' : State} {out : List Output}
    (hresult : r.result cfg s = some (s', out)) : Numbers cfg dlpRetries s s' out := by
  cases r with
  | transmit =>
    obtain ⟨hle, hstarts⟩ := numbers_transmission dlpRetries hresult
    exact ⟨hle, hstarts⟩
  | report f =>
    obtain ⟨-, hsent⟩ | ⟨-, rfl, rfl⟩ := forced_eq_some hresult
    · obtain ⟨hle, hstarts⟩ := numbers_transmission dlpRetries hsent
      exact ⟨hle, hstarts⟩
    · exact ⟨Nat.le_refl _, .inl rfl⟩
  | receive remote =>
    simp only [Reaction.result, Option.some.injEq, Prod.mk.injEq] at hresult
    obtain ⟨rfl, rfl⟩ := hresult
    exact ⟨Nat.le_succ _, .inl rfl⟩
  | sendList filename file checkValue =>
    simp only [Reaction.result] at hresult
    split at hresult
    · rw [Option.some.injEq, Prod.mk.injEq] at hresult
      obtain ⟨rfl, rfl⟩ := hresult
      refine ⟨Nat.le_succ _, .inr ⟨?_, rfl⟩⟩
      rw [clientStarts_append, clientStarts_transferAborts]
      rfl
    · cases hresult
  | call c =>
    simp only [Reaction.result, Option.some.injEq, Prod.mk.injEq] at hresult
    obtain ⟨rfl, rfl⟩ := hresult
    cases c <;> exact ⟨Nat.le_refl _, .inl rfl⟩
  | _ =>
    simp only [Reaction.result, Option.some.injEq, Prod.mk.injEq] at hresult
    obtain ⟨rfl, rfl⟩ := hresult
    exact ⟨Nat.le_refl _, .inl rfl⟩

theorem nextTransfer_taken (s : State) (e : Event) :
    (taken s e).nextTransfer = s.nextTransfer := by
  have hcompletion : ∀ operation, (s.afterCompletion operation).nextTransfer = s.nextTransfer := by
    intro operation
    unfold State.afterCompletion
    split
    · rfl
    · rename_i t _
      cases t.kind <;> rfl
  cases e with
  | clientCompleted operation status => exact hcompletion operation
  | serverCompleted operation status data => exact hcompletion operation
  | _ => rfl

/-- **Numbers**: every step gives the next one, or none. -/
theorem numbers_step (dlpRetries : UInt16) {s' : State} {e : Event} {out : List Output}
    (hstep : (machine cfg).step s e = some (s', out)) : Numbers cfg dlpRetries s s' out := by
  obtain ⟨r, -, hresult⟩ := step_iff.mp hstep
  obtain ⟨hle, hstarts⟩ := numbers_result dlpRetries hresult
  rw [nextTransfer_taken] at hle hstarts
  exact ⟨hle, hstarts⟩

/-! ## The contract -/

/-- The operation and its clients keep to each other. -/
def clientContract (cfg : Configuration) (dlpRetries : UInt16) (hostAddress : Endpoint)
    (port : Option UInt16) :
    (withClients cfg dlpRetries).Contract (started cfg hostAddress port) where
  awaits := awaitedClient cfg dlpRetries
  atWork := Client.atWork
  next := State.nextTransfer
  awaits_start := by
    intro operation
    simp only [awaitedClient, transfer?, started, List.find?_cons, List.find?_nil]
    split <;> rfl
  awaits_step := fun hexec hstep operation => awaited_step (members_run hexec) hstep operation
  next_step := by
    intro s e s' out hstep
    obtain ⟨hle, hnone | ⟨hone, hnext⟩⟩ := numbers_step dlpRetries hstep
    · exact ⟨hle, by rw [show out.filterMap _ = _ from hnone]; simp,
        by rw [show out.filterMap _ = _ from hnone]; simp⟩
    · refine ⟨hle, by rw [show out.filterMap _ = _ from hone]; simp, ?_⟩
      rw [show out.filterMap _ = _ from hone]
      simp [hnext]
  called_of_endOf := fun hend => Option.isSome_of_eq_some hend
  atWork_fresh := rfl
  works := by
    intro client fs t tr f t' out hexec hstep operation data
    rcases Client.completion_atWork hexec hstep with ⟨hnone, hkept⟩ | ⟨status, hsome, hat, hend⟩
    · exact .inl ⟨congrArg (Option.map _) hnone, hkept⟩
    · refine .inr ⟨.clientCompleted operation status, congrArg (Option.map _) hsome, hat, ?_⟩
      rw [hend]
      rfl

/-! ## Runs -/

section Runs

variable {hostAddress : Endpoint} {port : Option UInt16}
  {es : List (withClients cfg dlpRetries).SystemEvent}
  {c c' : (withClients cfg dlpRetries).Snapshot}
  {tr out : List (withClients cfg dlpRetries).SystemOutput}

/-- **Clients**: along every run of an operation with its clients, the operation runs as it
does alone, on its own events and on the completions that its clients call; each client runs
as it does alone; and the operation awaits the completions of the clients that wait for a
transfer or for their timer, and of no others. -/
theorem clients_run
    (h : (withClients cfg dlpRetries).system.exec
      ((withClients cfg dlpRetries).beginning (started cfg hostAddress port)) es =
        some (c, tr)) :
    (machine cfg).exec (started cfg hostAddress port)
        ((withClients cfg dlpRetries).masterEvents (started cfg hostAddress port) es) =
      some (c.master, Delegation.masterOutputs tr) ∧
    (∀ operation client t, c.workers operation = some (client, t) →
      (Client.machine client).exec Client.started (Delegation.workOf operation es) =
        some (t, Delegation.outputsOf operation tr)) ∧
    ∀ operation client, awaitedClient cfg dlpRetries c.master operation = some client ↔
      ∃ t, c.workers operation = some (client, t) ∧ 0 < Client.pending t := by
  have hc := (clientContract cfg dlpRetries hostAddress port).coherent_run h
  refine ⟨hc.master, hc.workers.own, fun operation client => hc.awaits_iff.trans ?_⟩
  exact exists_congr fun t => and_congr_right fun _ => decide_eq_true_iff

/-- An information operation whose clients repeat a request once. -/
abbrev exampleClients : Delegation := withClients (exampleConfiguration .information) 1

abbrev exampleStart : State := started (exampleConfiguration .information) exampleHost none

/-- The status is sent. -/
def sentStatusFile : List exampleClients.SystemEvent :=
  [.master (.serverCompleted 0 .successful []), .master (.advance second),
    .master .timerExpired, .master (.timerHandler .success)]

/-- The host asks to wait for a second. -/
def deferredStatusFile : List exampleClients.SystemEvent :=
  sentStatusFile ++
    [.work 1 (.transferCompleted .requestError (some (.notDefined, str "WAIT:1"))) ()]

/-- The client repeats its request then, and the host takes the file. -/
def repeatedStatusFile : List exampleClients.SystemEvent :=
  deferredStatusFile ++
    [.work 1 (.advance second) (), .work 1 .timerExpired (), .work 1 (.waitHandler .success) (),
      .work 1 (.transferCompleted .successful none) ()]

/-- For the operation, the file is completed once. -/
theorem clients_run_repeated :
    exampleClients.masterEvents exampleStart repeatedStatusFile =
        [.serverCompleted 0 .successful [], .advance second, .timerExpired,
          .timerHandler .success, .clientCompleted 1 .successful] ∧
      ∃ c tr, exampleClients.system.exec (exampleClients.beginning exampleStart)
          repeatedStatusFile = some (c, tr) ∧
        (machine (exampleConfiguration .information)).exec exampleStart
            (exampleClients.masterEvents exampleStart repeatedStatusFile) =
          some (c.master, Delegation.masterOutputs tr) ∧
        ∀ operation client, awaitedClient (exampleConfiguration .information) 1 c.master operation
            = some client ↔
          ∃ t, c.workers operation = some (client, t) ∧ 0 < Client.pending t := by
  refine ⟨rfl, _, _, rfl, ?_⟩
  have hrun := @clients_run (exampleConfiguration .information) 1 exampleHost none
    repeatedStatusFile _ _ rfl
  exact ⟨hrun.1, hrun.2.2⟩

/-! ## Aborts of the host -/

/-- What the transfer of a status ends with where the host aborts. -/
def abortStatus : AbortRequest → TransferStatus
  | .abortByDlp => .operationAbortedByDlp
  | .abortByOperator => .operationAbortedByOperator

/-- The step that asks the application is the completion of a status file. -/
theorem completed_of_abortRequest {s' : State} {e : Event} {os : List Output}
    (hstep : (machine cfg).step s e = some (s', os)) {request : AbortRequest}
    (ho : .abortRequest request ∈ os) :
    ∃ operation sent sentStatus, e = .clientCompleted operation (abortStatus request) ∧
      transfer? s operation = some sent ∧ sent.kind = .statusFile sentStatus := by
  cases passedBy_of_step hstep ho rfl with
  | abortByDlp ht hkind => exact ⟨_, _, _, rfl, ht, hkind⟩
  | abortByOperator ht hkind => exact ⟨_, _, _, rfl, ht, hkind⟩

/-- **Aborts**: the application is asked to abort in a step of the client of a status file, and
for what the host has answered to its request, or for a wait that failed. -/
theorem clients_abort
    (h : (withClients cfg dlpRetries).system.exec
      ((withClients cfg dlpRetries).beginning (started cfg hostAddress port)) es = some (c, tr))
    {e : (withClients cfg dlpRetries).SystemEvent}
    (hstep : (withClients cfg dlpRetries).system.step c e = some (c', out))
    {request : AbortRequest} (ho : .master (.abortRequest request) ∈ out) :
    ∃ operation f t sent sentStatus, e = .work operation f () ∧
      transfer? c.master operation = some sent ∧ sent.kind = .statusFile sentStatus ∧
      c.workers operation =
        some (protocolFileOperation dlpRetries (statusFileType cfg.operation), t) ∧
      Client.AbortCause (protocolFileOperation dlpRetries (statusFileType cfg.operation)) f
        (abortStatus request) := by
  have hc := (clientContract cfg dlpRetries hostAddress port).coherent_run h
  rcases Delegation.step_of_output hstep ho with
    ⟨e', s, os, rfl, hcalled, hmaster, hos⟩ |
    ⟨operation, f, data, client, t, t', p, e', s, os, rfl, hworker, hclient, hcalls, hmaster, hos⟩
  · obtain ⟨operation, sent, sentStatus, rfl, -⟩ := completed_of_abortRequest hmaster hos
    exact absurd rfl hcalled
  · obtain ⟨completed, sent, sentStatus, rfl, ht, hkind⟩ := completed_of_abortRequest hmaster hos
    have hawaits : ((transfer? c.master operation).bind fun t =>
        clientOf cfg dlpRetries t.kind) = some client :=
      hc.awaits_of_calls hworker hclient hcalls
    obtain ⟨status, hstatus, heq⟩ := Option.map_eq_some_iff.mp hcalls
    cases heq
    have hcause : Client.AbortCause client f (abortStatus request) := by
      refine Client.abortCause_of_completed hclient hstatus ?_
      cases request with
      | abortByDlp => exact .inl rfl
      | abortByOperator => exact .inr rfl
    -- The client is the one that the operation has started.
    rw [ht, Option.bind_some, hkind] at hawaits
    cases hawaits
    exact ⟨operation, f, t, sent, sentStatus, rfl, ht, hkind, hworker, hcause⟩

/-- The operator aborts with the answer to a status file. -/
theorem clients_abort_operator :
    ∃ c tr c' out, exampleClients.system.exec (exampleClients.beginning exampleStart)
        sentStatusFile = some (c, tr) ∧
      exampleClients.system.step c (.work 1 (.transferCompleted .requestError
        (some (.notDefined, str "ABORT:1005"))) ()) = some (c', out) ∧
      .master (.abortRequest .abortByOperator) ∈ out ∧
      ∃ operation f t sent sentStatus,
        (.work 1 (.transferCompleted .requestError (some (.notDefined, str "ABORT:1005"))) () :
          exampleClients.SystemEvent) = .work operation f () ∧
        transfer? c.master operation = some sent ∧ sent.kind = .statusFile sentStatus ∧
        c.workers operation = some (protocolFileOperation 1 .loadConfigurationStatus, t) ∧
        Client.AbortCause (protocolFileOperation 1 .loadConfigurationStatus) f
          (abortStatus .abortByOperator) := by
  refine ⟨_, _, _, _, rfl, rfl, .tail _ (.head _), ?_⟩
  exact @clients_abort (exampleConfiguration .information) 1 exampleHost none sentStatusFile _ _ _
    _ rfl _ rfl .abortByOperator (.tail _ (.head _))

/-! ## Completions -/

/-- Where no operation completes behind its end, every reaction is defined. -/
theorem exists_result (hcompletes : cfg.completesDestroyed = false) (s : State) (r : Reaction) :
    ∃ s' os, r.result cfg s = some (s', os) := by
  have hsent : ∀ u : State, ∃ s' os, transmission cfg u = some (s', os) := by
    intro u
    unfold transmission
    split
    · exact ⟨_, _, rfl⟩
    · exact ⟨_, _, if_pos fun _ => hcompletes⟩
  cases r with
  | transmit => exact hsent _
  | report f =>
    simp only [Reaction.result, forced]
    split
    · exact hsent _
    · exact ⟨_, _, rfl⟩
  | sendList filename file checkValue => exact ⟨_, _, if_pos fun _ => hcompletes⟩
  | _ => exact ⟨_, _, rfl⟩

/-- The reactions to the completion of a client: none sends a file but the reports of an
information operation. -/
def Reaction.completes : Reaction → Bool
  | transmit => false
  | sendList _ _ _ => false
  | _ => true

/-- The operation that such a reaction replaces: its report is sent in the place of the status
before. -/
theorem replaced_of_result {r : Reaction} {s' : State} {os : List Output}
    (hresult : r.result cfg s = some (s', os)) (hr : r.completes = true)
    {removed : TransferId} (ho : .abortTransfer removed ∈ os) :
    cfg.operation = .information ∧ s.statusOperation = some removed := by
  cases r with
  | transmit => cases hr
  | sendList filename file checkValue => cases hr
  | report f =>
    obtain ⟨hop, hsent⟩ | ⟨-, rfl, rfl⟩ := forced_eq_some hresult
    · refine ⟨hop, ?_⟩
      obtain ⟨e, -, -, rfl⟩ | ⟨file, -, -, rfl⟩ := transmission_eq_some hsent
      · simp at ho
      · rw [statusFileOutputs, List.mem_append] at ho
        rcases ho with hmem | hmem
        · cases hoperation : s.statusOperation with
          | none => simp [State.withStatus, hoperation, transferAborts] at hmem
          | some operation =>
            have heq : removed = operation := by
              simpa [State.withStatus, hoperation, transferAborts] using hmem
            rw [heq]
        · simp at hmem
    · simp at ho
  | call c =>
    simp only [Reaction.result, Option.some.injEq, Prod.mk.injEq] at hresult
    obtain ⟨-, rfl⟩ := hresult
    cases c <;> simp [Call.output] at ho
  | _ =>
    simp only [Reaction.result, Option.some.injEq, Prod.mk.injEq] at hresult
    obtain ⟨-, rfl⟩ := hresult
    simp at ho

/-- The classes that send a list. -/
theorem listClass_run {hostAddress : Endpoint} {port : Option UInt16} {es : List Event}
    {tr : List Output} (h : (machine cfg).exec (started cfg hostAddress port) es = some (s, tr))
    {t : Transfer} (ht : t ∈ s.transfers) (hkind : t.kind = .listFile) :
    cfg.operation = .information ∨ cfg.operation = .operatorDefinedDownload := by
  refine Machine.exec_history (fun _ s _ => ∀ t ∈ s.transfers, t.kind = .listFile →
    cfg.operation = .information ∨ cfg.operation = .operatorDefinedDownload) ?_ ?_ h t ht hkind
  · intro t ht hkind
    rw [List.mem_singleton.mp ht] at hkind
    cases hkind
  · intro es s tr e s' out _ ih hstep t ht hkind
    obtain ⟨r, hr, hresult⟩ := step_iff.mp hstep
    rcases listTransfer_of_result hresult ht hkind with hmem | ⟨_, _, _, _, _, hmem⟩
    · exact ih t (mem_transfers_of_taken hmem) hkind
    · cases passedBy_of_step hstep hmem rfl with
      | targetInformation hop _ => exact .inl hop
      | downloadingList hop _ => exact .inr hop

/-- An idle operation takes the completion of every client that it awaits, and replaces at most
the status file that is in flight besides. -/
theorem exists_completion {hostAddress : Endpoint} {port : Option UInt16} {es : List Event}
    {tr : List Output} (h : (machine cfg).exec (started cfg hostAddress port) es = some (s, tr))
    (hcompletes : cfg.completesDestroyed = false) (hidle : s.callback = none)
    {operation : TransferId} {client : Client.Configuration}
    (hawaits : awaitedClient cfg dlpRetries s operation = some client) (status : TransferStatus) :
    ∃ s' os, (machine cfg).step s (.clientCompleted operation status) = some (s', os) ∧
      ∀ removed, .abortTransfer removed ∈ os → cfg.operation = .information ∧
        s.statusOperation = some removed ∧ removed ≠ operation := by
  obtain ⟨t, ht, hclient⟩ := Option.bind_eq_some_iff.mp hawaits
  have htaken : taken s (.clientCompleted operation status) = s.completed operation t.kind := by
    simp only [taken, State.afterCompletion, ht]
  have htakes : ∀ r, reaction cfg s (.clientCompleted operation status) = some r →
      r.completes = true →
      ∃ s' os, (machine cfg).step s (.clientCompleted operation status) = some (s', os) ∧
        ∀ removed, .abortTransfer removed ∈ os → cfg.operation = .information ∧
          (s.completed operation t.kind).statusOperation = some removed := by
    intro r hr hcompletes'
    obtain ⟨s', os, hresult⟩ := exists_result hcompletes (s.completed operation t.kind) r
    refine ⟨s', os, step_iff.mpr ⟨r, hr, by rw [htaken]; exact hresult⟩, fun removed ho => ?_⟩
    exact replaced_of_result hresult hcompletes' ho
  cases hkind : t.kind with
  | statusFile sentStatus =>
    obtain ⟨s', os, hstep, hreplaced⟩ := htakes (statusFileReaction sentStatus status)
      (by simp [reaction, hidle, ht, hkind])
      (by cases status <;> rfl)
    refine ⟨s', os, hstep, fun removed ho => ?_⟩
    have hnone := (hreplaced removed ho).2
    rw [hkind] at hnone
    cases hnone
  | listFile =>
    obtain ⟨r, hr, hlist⟩ : ∃ r, listFileReaction cfg s status = some r ∧
        r.completes = true := by
      rcases listClass_run h (transfer?_mem ht).1 hkind with hop | hop
      · refine ⟨_, by rw [listFileReaction, hop], ?_⟩
        split
        · rfl
        · split <;> rfl
      · refine ⟨_, by rw [listFileReaction, hop], ?_⟩
        split <;> rfl
    obtain ⟨s', os, hstep, hreplaced⟩ := htakes r (by simp [reaction, hidle, ht, hkind, hr]) hlist
    refine ⟨s', os, hstep, fun removed ho => ?_⟩
    obtain ⟨hop, hremoved⟩ := hreplaced removed ho
    rw [hkind] at hremoved
    refine ⟨hop, hremoved, ?_⟩
    -- The transfer of the status has another kind.
    rintro rfl
    obtain ⟨t', sentStatus, ht', hkind'⟩ :=
      (members_run h).exists_transfer (show s.statusOperation = _ from hremoved)
    rw [ht] at ht'
    cases ht'
    rw [hkind] at hkind'
    cases hkind'
  | _ =>
    rw [hkind] at hclient
    cases hclient

/-- **Calls**: while the application's handler is not called, a client takes every step that it
can take, and the operation its completion, unless an information operation then replaces a
status file whose client waits for its timer. -/
theorem clients_step (hcompletes : cfg.completesDestroyed = false)
    (h : (withClients cfg dlpRetries).system.exec
      ((withClients cfg dlpRetries).beginning (started cfg hostAddress port)) es = some (c, tr))
    (hidle : State.callback c.master = none) {operation : TransferId}
    {client : Client.Configuration} {t t' : Client.State} {f : Client.Event}
    {p : List (Client.Event × Client.Output)} (hf : Client.isAbort f = false)
    (hworker : c.workers operation = some (client, t))
    (hstep : (Client.machine client).step t f = some (t', p))
    (hwaits : cfg.operation = .information → (Client.completion p).isSome →
      ∀ other client' u, State.statusOperation c.master = some other → other ≠ operation →
        c.workers other = some (client', u) → u.waitTimer.waits = 0) :
    ∃ c' out, (withClients cfg dlpRetries).system.step c (.work operation f ()) =
      some (c', out) := by
  have hc := (clientContract cfg dlpRetries hostAddress port).coherent_run h
  refine (clientContract cfg dlpRetries hostAddress port).exists_work_step rfl hc
    (decide_eq_true hidle) (congrArg not hf) hworker hstep fun e hawaits hcalls => ?_
  obtain ⟨status, hstatus, rfl⟩ := Option.map_eq_some_iff.mp hcalls
  obtain ⟨s', os, htaken, hreplaced⟩ :=
    exists_completion hc.master hcompletes hidle hawaits status
  refine ⟨s', os, htaken, fun o ho removed hdrop client' u hother => ?_⟩
  have hremoved : o = .abortTransfer removed := by
    cases o with
    | abortTransfer removed' =>
      cases hdrop
      rfl
    | _ => cases hdrop
  subst hremoved
  obtain ⟨hop, hflight, hne⟩ := hreplaced removed ho
  have hother : Function.update c.workers operation _ removed = some (client', u) := hother
  rw [Function.update_of_ne hne] at hother
  exact decide_eq_true
    (hwaits hop (Option.isSome_of_eq_some hstatus) removed client' u hflight hne hother)

/-- The client of the status file may fail. -/
theorem clients_step_failed :
    ∃ c tr c' out, exampleClients.system.exec (exampleClients.beginning exampleStart)
        sentStatusFile = some (c, tr) ∧
      exampleClients.system.step c
        (.work 1 (.transferCompleted .communicationError none) ()) = some (c', out) := by
  have hwaits : ∀ other client u, some 1 = some other → other ≠ 1 →
      (Function.update (fun _ => none) 1 (some (protocolFileOperation 1 .loadConfigurationStatus,
        Client.started)) : exampleClients.Workers) other = some (client, u) →
      u.waitTimer.waits = 0 := by
    intro other client u heq hne
    exact absurd (Option.some.inj heq).symm hne
  have hstep := @clients_step (exampleConfiguration .information) 1 exampleHost none
    sentStatusFile _ _ rfl rfl rfl 1 _ _ _ (.transferCompleted .communicationError none) _ rfl rfl
    rfl fun _ _ => hwaits
  obtain ⟨c', out, htaken⟩ := hstep
  exact ⟨_, _, c', out, rfl, htaken⟩

/-- A status that is sent while the client of the one before still waits: alone, the operation
takes this step. -/
example : ∃ c tr, exampleClients.system.exec (exampleClients.beginning exampleStart)
      (deferredStatusFile ++ [.master (.advance second), .master .timerExpired]) = some (c, tr) ∧
    exampleClients.system.step c (.master (.timerHandler .success)) = none ∧
    ((machine (exampleConfiguration .information)).step c.master
      (.timerHandler .success)).isSome = true :=
  ⟨_, _, rfl, rfl, rfl⟩

end Runs

end Arinc615a.Target
