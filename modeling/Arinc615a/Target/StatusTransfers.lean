import Arinc615a.Lib.Counter
import Arinc615a.Lib.Keyed
import Arinc615a.Target.FinalStatus

/-!
# The status files of a target operation

A status file is started when the timer's handler runs, and in an information
operation with each report. Neither waits for the file before: its operation is
replaced, which aborts the transfer. The members refer to the only transfers
there are (`Members`); that each file is completed before the next is started,
and the host receives all of them, depends on the order of the events
(`target_statusTransfers_iff`).
-/

namespace Arinc615a.Target

open Actions Machines Readers Timers Counters
open Files Information Tftp

/-! ## The law -/

/-- The transfer of a status file. -/
def isStatusFile (t : Transfer) : Bool :=
  match t.kind with
  | .statusFile _ => true
  | _ => false

/-- The transfer of a list. -/
def isListFile (t : Transfer) : Bool := t.kind = .listFile

/-- The transfers in flight of such a kind. -/
def inFlight (p : Transfer → Bool) (s : State) : List TransferId :=
  (s.transfers.filter p).map (·.id)

/-- A write operation for a status file is started. -/
def startsStatusFile : Output → Bool
  | .statusFile _ _ _ _ _ => true
  | _ => false

/-- The event completes a status file: the status that was sent, and the result. -/
def statusCompleted (s : State) : Event → Option (OperationStatus × TransferStatus)
  | .clientCompleted operation status =>
    (transfer? s operation).bind fun t =>
      match t.kind with
      | .statusFile sentStatus => some (sentStatus, status)
      | _ => none
  | _ => none

/-- The status files that complete in a run: the counter, and whether the host
received the file. -/
def completedStatusFiles (cfg : Configuration) (s₀ : State) (es : List Event) :
    List (UInt16 × Bool) :=
  ((machine cfg).steps s₀ es).filterMap fun (s, e) =>
    (statusCompleted s e).map fun (sentStatus, status) =>
      (sentStatus.status.counter, decide (status = .successful))

/-- The counters of two status files, one sent after the other. -/
def nextCounter (counter : UInt16) : UInt16 := counter + 1

/-- What a run owes. -/
structure StatusTransferLaw (cfg : Configuration) (s₀ : State) (es : List Event) (s : State) :
    Prop where
  /-- A status file is started only when the one before has completed. -/
  single : ∀ pre tr s e s' out, (machine cfg).HasStep s₀ es pre tr s e s' out →
    ∀ o ∈ out, startsStatusFile o = true → inFlight isStatusFile s = []
  /-- The member refers to the only transfer of a status file. -/
  refers : inFlight isStatusFile s = s.statusOperation.toList
  /-- Its completion resets it, and ends no other transfer. -/
  resets : ∀ pre tr s operation status s' out,
    (machine cfg).HasStep s₀ es pre tr s (.clientCompleted operation status) s' out →
      (statusCompleted s (.clientCompleted operation status)).isSome →
        s.statusOperation = some operation ∧ s'.statusOperation = none ∧
          s'.transfers = s.transfers.filter (·.id ≠ operation)
  /-- The host receives consecutive counters. -/
  consecutive : (arrived (completedStatusFiles cfg s₀ es)).IsChain fun a b => b = nextCounter a

/-- The status that an event sends. -/
def dueStatus (cfg : Configuration) (s : State) (e : Event) : Option OperationStatus :=
  match reaction cfg s e with
  | some .transmit => some (statusToSend s.status)
  | some (.report f) =>
    if cfg.operation = .information then some (statusToSend (f s.status)) else none
  | _ => none

/-- Where an event sends a status that can be encoded, the file before has completed. -/
def InTime (cfg : Configuration) (s : State) (e : Event) : Prop :=
  ∀ status ∈ dueStatus cfg s e,
    (encodeStatus cfg.protocolVersion status).isOk → s.statusOperation = none

instance (cfg : Configuration) (s : State) (e : Event) : Decidable (InTime cfg s e) :=
  inferInstanceAs (Decidable (∀ status ∈ dueStatus cfg s e, _))

/-- Between two status files that the host received, those that it did not receive
are whole turns of the counter (none, as a rule). -/
def LostInTurns (cfg : Configuration) (s₀ : State) (es : List Event) : Prop :=
  ∀ lost ∈ gaps ((completedStatusFiles cfg s₀ es).map (·.2)), 65536 ∣ lost

/-! ## The members -/

variable {cfg : Configuration} {s : State}

/-- The members hold the numbers of the transfers of their kind. -/
structure Members (s : State) : Prop where
  lt : ∀ t ∈ s.transfers, t.id < s.nextTransfer
  nodup : (s.transfers.map (·.id)).Nodup
  statusFiles_eq : inFlight isStatusFile s = s.statusOperation.toList
  listFiles_eq : inFlight isListFile s = s.listOperation.toList

theorem members_started (hostAddress : Endpoint) (port : Option UInt16) :
    Members (started cfg hostAddress port) where
  lt := by simp [started]
  nodup := by simp [started]
  statusFiles_eq := rfl
  listFiles_eq := rfl

/-- What has the same transfers and the same members. -/
theorem Members.of_eq {t : State} (h : Members s) (htransfers : t.transfers = s.transfers)
    (hnext : t.nextTransfer = s.nextTransfer)
    (hstatus : t.statusOperation = s.statusOperation)
    (hlist : t.listOperation = s.listOperation) : Members t where
  lt := by
    rw [htransfers, hnext]
    exact h.lt
  nodup := by
    rw [htransfers]
    exact h.nodup
  statusFiles_eq := by
    rw [inFlight, htransfers, hstatus]
    exact h.statusFiles_eq
  listFiles_eq := by
    rw [inFlight, htransfers, hlist]
    exact h.listFiles_eq

theorem isListFile_of_isStatusFile {t : Transfer} (h : isStatusFile t = true) :
    isListFile t = false := by
  cases hkind : t.kind <;> simp_all [isStatusFile, isListFile]

theorem isStatusFile_of_isListFile {t : Transfer} (h : isListFile t = true) :
    isStatusFile t = false := by
  cases hkind : t.kind <;> simp_all [isStatusFile, isListFile]

theorem transfer?_mem {operation : TransferId} {t : Transfer}
    (h : transfer? s operation = some t) : t ∈ s.transfers ∧ t.id = operation :=
  ⟨List.mem_of_find?_eq_some h, by simpa using List.find?_some h⟩

/-- Without a transfer of another kind. -/
theorem inFlight_withoutTransfer {p : Transfer → Bool} (h : Members s) {t : Transfer}
    (ht : t ∈ s.transfers) (hp : p t = false) :
    inFlight p (s.withoutTransfer t.id) = inFlight p s :=
  congrArg (List.map _) (Keyed.filter_remove_of_not h.nodup ht hp)

/-- Without the only transfer of its kind. -/
theorem inFlight_withoutTransfer_of_mem {p : Transfer → Bool} {member : Option TransferId}
    (h : inFlight p s = member.toList) {t : Transfer} (ht : t ∈ s.transfers) (hp : p t = true) :
    member = some t.id ∧ inFlight p (s.withoutTransfer t.id) = [] := by
  have hmem : t.id ∈ inFlight p s := List.mem_map_of_mem (List.mem_filter.mpr ⟨ht, hp⟩)
  rw [h, Option.mem_toList] at hmem
  rw [hmem] at h
  refine ⟨hmem, ?_⟩
  show (((s.transfers.filter fun u => u.id ≠ t.id).filter p).map (·.id)) = []
  rw [Keyed.filter_remove_of_single h]
  rfl

/-- A transfer less keeps the numbers. -/
theorem Members.lt_withoutTransfer (h : Members s) (operation : TransferId) :
    (∀ t ∈ (s.withoutTransfer operation).transfers, t.id < s.nextTransfer) ∧
      ((s.withoutTransfer operation).transfers.map (·.id)).Nodup :=
  ⟨fun t ht => h.lt t (List.mem_filter.mp ht).1, Keyed.nodup_filter h.nodup _⟩

/-- A completed transfer leaves the transfers together with its member. -/
theorem Members.completed (h : Members s) {operation : TransferId} {t : Transfer}
    (ht : transfer? s operation = some t) : Members (s.completed operation t.kind) := by
  obtain ⟨hmem, rfl⟩ := transfer?_mem ht
  obtain ⟨hlt, hnodup⟩ := h.lt_withoutTransfer t.id
  have hother : ∀ {p : Transfer → Bool}, p t = false →
      inFlight p (s.withoutTransfer t.id) = inFlight p s :=
    fun hp => inFlight_withoutTransfer h hmem hp
  cases hkind : t.kind with
  | statusFile sentStatus =>
    have hstatus : isStatusFile t = true := by simp [isStatusFile, hkind]
    exact ⟨hlt, hnodup, (inFlight_withoutTransfer_of_mem h.statusFiles_eq hmem hstatus).2,
      (hother (isListFile_of_isStatusFile hstatus)).trans h.listFiles_eq⟩
  | listFile =>
    have hlist : isListFile t = true := by simp [isListFile, hkind]
    exact ⟨hlt, hnodup, (hother (isStatusFile_of_isListFile hlist)).trans h.statusFiles_eq,
      (inFlight_withoutTransfer_of_mem h.listFiles_eq hmem hlist).2⟩
  | _ =>
    have hstatus : isStatusFile t = false := by simp [isStatusFile, hkind]
    have hlist : isListFile t = false := by simp [isListFile, hkind]
    exact ⟨hlt, hnodup, (hother hstatus).trans h.statusFiles_eq,
      (hother hlist).trans h.listFiles_eq⟩

theorem Members.taken (h : Members s) (e : Event) : Members (taken s e) := by
  have hcompleted : ∀ operation, Members (s.afterCompletion operation) := by
    intro operation
    unfold State.afterCompletion
    split
    · exact h
    · rename_i t ht
      exact h.completed ht
  cases e with
  | clientCompleted operation status => exact hcompleted operation
  | serverCompleted operation status data => exact hcompleted operation
  | _ => exact h.of_eq rfl rfl rfl rfl

theorem without_none (s : State) : s.without none = s := by
  simp [State.without]

theorem without_some (s : State) (operation : TransferId) :
    s.without (some operation) = s.withoutTransfer operation := by
  simp [State.without, State.withoutTransfer]

/-- Without the operation that is replaced: none of its kind is left, and all of
another kind. -/
theorem Members.without (h : Members s) {p q : Transfer → Bool} {member : Option TransferId}
    (hp : inFlight p s = member.toList) (hpq : ∀ t, p t = true → q t = false) :
    inFlight p (s.without member) = [] ∧ inFlight q (s.without member) = inFlight q s := by
  cases member with
  | none =>
    rw [without_none]
    exact ⟨hp, rfl⟩
  | some operation =>
    rw [without_some]
    obtain ⟨t, ht, rfl⟩ : ∃ t, t ∈ s.transfers.filter p ∧ t.id = operation := by
      have hmem : operation ∈ inFlight p s := by simp [hp]
      exact List.mem_map.mp hmem
    obtain ⟨hmem, hpt⟩ := List.mem_filter.mp ht
    exact ⟨(inFlight_withoutTransfer_of_mem hp hmem hpt).2,
      inFlight_withoutTransfer h hmem (hpq t hpt)⟩

theorem Members.lt_without (h : Members s) (member : Option TransferId) :
    (∀ t ∈ (s.without member).transfers, t.id < s.nextTransfer) ∧
      ((s.without member).transfers.map (·.id)).Nodup :=
  ⟨fun t ht => h.lt t (List.mem_filter.mp ht).1, Keyed.nodup_filter h.nodup _⟩

/-- A new transfer has a new number. -/
theorem lt_withTransfer (hlt : ∀ t ∈ s.transfers, t.id < s.nextTransfer)
    (hnodup : (s.transfers.map (·.id)).Nodup) (kind : TransferKind) :
    (∀ t ∈ (s.withTransfer kind).transfers, t.id < s.nextTransfer + 1) ∧
      ((s.withTransfer kind).transfers.map (·.id)).Nodup := by
  refine ⟨?_, Keyed.nodup_cons hnodup fun t ht => (hlt t ht).ne⟩
  intro t ht
  rcases List.mem_cons.mp ht with rfl | ht
  · exact Nat.lt_succ_self _
  · exact Nat.lt_succ_of_lt (hlt t ht)

/-- It is in flight. -/
theorem inFlight_withTransfer (p : Transfer → Bool) (s : State) (kind : TransferKind) :
    inFlight p (s.withTransfer kind) =
      if p ⟨s.nextTransfer, kind⟩ then s.nextTransfer :: inFlight p s else inFlight p s := by
  show ((⟨s.nextTransfer, kind⟩ :: s.transfers).filter p).map _ = _
  rw [List.filter_cons]
  split <;> rfl

/-- The status file that is started replaces the one before. -/
theorem Members.withStatusFile (h : Members s) : Members (s.withStatusFile cfg) := by
  obtain ⟨hnone, hother⟩ := h.without h.statusFiles_eq fun _ => isListFile_of_isStatusFile
  obtain ⟨hlt, hnodup⟩ := h.lt_without s.statusOperation
  obtain ⟨hlt, hnodup⟩ := lt_withTransfer (s := s.without s.statusOperation) hlt hnodup
    (.statusFile s.status)
  refine ⟨hlt, hnodup, ?_, ?_⟩
  · refine (inFlight_withTransfer isStatusFile (s.without s.statusOperation) _).trans ?_
    rw [if_pos (by simp [isStatusFile]), hnone]
    rfl
  · refine (inFlight_withTransfer isListFile (s.without s.statusOperation) _).trans ?_
    rw [if_neg (by simp [isListFile]), hother]
    exact h.listFiles_eq

/-- So does a list. -/
theorem Members.sendList (h : Members s) : Members
    { (s.without s.listOperation).withTransfer .listFile with
      listOperation := some s.nextTransfer } := by
  obtain ⟨hnone, hother⟩ := h.without h.listFiles_eq fun _ => isStatusFile_of_isListFile
  obtain ⟨hlt, hnodup⟩ := h.lt_without s.listOperation
  obtain ⟨hlt, hnodup⟩ := lt_withTransfer (s := s.without s.listOperation) hlt hnodup .listFile
  refine ⟨hlt, hnodup, ?_, ?_⟩
  · refine (inFlight_withTransfer isStatusFile (s.without s.listOperation) _).trans ?_
    rw [if_neg (by simp [isStatusFile]), hother]
    exact h.statusFiles_eq
  · refine (inFlight_withTransfer isListFile (s.without s.listOperation) _).trans ?_
    rw [if_pos (by simp [isListFile]), hnone]
    rfl

theorem Members.transmission (h : Members s) {status : OperationStatus} {s' : State}
    {out : List Output} (hs' : transmission cfg (s.withStatus status) = some (s', out)) :
    Members s' := by
  have hstatus : Members (s.withStatus status) := h.of_eq rfl rfl rfl rfl
  obtain ⟨e, -, rfl, -⟩ | ⟨file, -, rfl, -⟩ := transmission_eq_some hs'
  · exact hstatus
  · exact hstatus.withStatusFile

theorem Members.result (h : Members s) {r : Reaction} {s' : State} {out : List Output}
    (hs' : r.result cfg s = some (s', out)) : Members s' := by
  cases r with
  | transmit => exact h.transmission hs'
  | report f =>
    have hreport : Members (s.withStatus (f s.status)) := h.of_eq rfl rfl rfl rfl
    obtain ⟨-, hs'⟩ | ⟨-, rfl, -⟩ := forced_eq_some hs'
    · exact hreport.transmission hs'
    · exact hreport.of_eq rfl rfl rfl rfl
  | receive remote =>
    simp only [Reaction.result, Option.some.injEq, Prod.mk.injEq] at hs'
    obtain ⟨rfl, -⟩ := hs'
    obtain ⟨hlt, hnodup⟩ := lt_withTransfer h.lt h.nodup .requestFile
    refine ⟨hlt, hnodup, ?_, ?_⟩
    · refine (inFlight_withTransfer isStatusFile s _).trans ?_
      rw [if_neg (by simp [isStatusFile])]
      exact h.statusFiles_eq
    · refine (inFlight_withTransfer isListFile s _).trans ?_
      rw [if_neg (by simp [isListFile])]
      exact h.listFiles_eq
  | sendList filename file checkValue =>
    simp only [Reaction.result] at hs'
    split at hs'
    · rw [Option.some.injEq, Prod.mk.injEq] at hs'
      obtain ⟨rfl, -⟩ := hs'
      exact h.sendList
    · cases hs'
  | _ =>
    simp only [Reaction.result, Option.some.injEq, Prod.mk.injEq] at hs'
    obtain ⟨rfl, -⟩ := hs'
    exact h.of_eq rfl rfl rfl rfl

/-- **The members** keep to the transfers in every step. -/
theorem members_step {s' : State} {e : Event} {out : List Output} (h : Members s)
    (hstep : (machine cfg).step s e = some (s', out)) : Members s' := by
  obtain ⟨r, -, hresult⟩ := step_iff.mp hstep
  exact (h.taken e).result hresult

theorem members_run {hostAddress : Endpoint} {port : Option UInt16} {es : List Event}
    {tr : List Output}
    (h : (machine cfg).exec (started cfg hostAddress port) es = some (s, tr)) : Members s :=
  Machine.exec_invariant (fun _ _ _ _ => members_step) (members_started hostAddress port) h

/-! ## The counter -/

theorem counter_statusToSend (status : OperationStatus) :
    (statusToSend status).status.counter = status.status.counter := by
  unfold statusToSend
  split
  · rw [OperationStatus.status_update]
    rfl
  · rfl

theorem counter_callUpdate (call : ApplicationCall) (status : OperationStatus) :
    (callUpdate cfg call status).status.counter = status.status.counter := by
  cases hreport : call.isReport with
  | false => rw [status_callUpdate hreport]
  | true => cases call <;> simp [callUpdate, Status.set, ApplicationCall.isReport] at hreport ⊢

/-- Only the start of a status file counts on. -/
theorem counter_updated {e : Event} {r : Reaction} (h : reaction cfg s e = some r)
    (status : OperationStatus) :
    (r.updated cfg status).status.counter = status.status.counter := by
  refine updated_keeps (p := fun status => status.status.counter) counter_statusToSend ?_
    counter_callUpdate h status
  intro code description estimatedTime status
  rw [status_reported]
  rfl

/-! ## What a step does to the status files -/

/-- The effect of a step on the status file in flight and on the counter. -/
inductive StatusEffect (cfg : Configuration) (s : State) (e : Event) (s' : State)
    (out : List Output) : Prop where
  | sent {status : OperationStatus} (hdue : dueStatus cfg s e = some status)
    (hencode : (encodeStatus cfg.protocolVersion status).isOk)
    (hcompleted : statusCompleted s e = none)
    (hstatus : status.status.counter = s.status.status.counter)
    (hcounter : s'.status.status.counter = nextCounter s.status.status.counter)
    (hoperation : s'.statusOperation = some s.nextTransfer)
    (htransfers : ∀ t ∈ s'.transfers, isStatusFile t = true →
      t ∈ s.transfers ∨ t.kind = .statusFile status)
    (hstarts : ∃ o ∈ out, startsStatusFile o = true)
  | completed {operation : TransferId} {status : TransferStatus} {t : Transfer}
    {sentStatus : OperationStatus} (he : e = .clientCompleted operation status)
    (ht : transfer? s operation = some t) (hkind : t.kind = .statusFile sentStatus)
    (hcounter : s'.status.status.counter = s.status.status.counter)
    (hoperation : s'.statusOperation = none)
    (htransfers : s'.transfers = s.transfers.filter (·.id ≠ operation))
    (hdue : dueStatus cfg s e = none) (hout : ∀ o ∈ out, startsStatusFile o = false)
  | kept (hcompleted : statusCompleted s e = none)
    (hdue : ∀ status ∈ dueStatus cfg s e,
      (encodeStatus cfg.protocolVersion status).isOk = false)
    (hcounter : s'.status.status.counter = s.status.status.counter)
    (hoperation : s'.statusOperation = s.statusOperation)
    (htransfers : ∀ t ∈ s'.transfers, isStatusFile t = true → t ∈ s.transfers)
    (hout : ∀ o ∈ out, startsStatusFile o = false)

/-- What an event takes out of the state, unless it completes a status file. -/
theorem taken_of_not_completed {e : Event} {r : Reaction} (h : reaction cfg s e = some r)
    (hcompleted : statusCompleted s e = none) :
    (taken s e).statusOperation = s.statusOperation ∧
      (taken s e).nextTransfer = s.nextTransfer ∧
        ∀ t ∈ (taken s e).transfers, t ∈ s.transfers := by
  have hother : ∀ {operation t}, transfer? s operation = some t → isStatusFile t = false →
      (s.afterCompletion operation).statusOperation = s.statusOperation ∧
        (s.afterCompletion operation).nextTransfer = s.nextTransfer ∧
          ∀ t ∈ (s.afterCompletion operation).transfers, t ∈ s.transfers := by
    intro operation t ht hkind
    simp only [State.afterCompletion, ht]
    cases hk : t.kind with
    | statusFile sentStatus => simp [isStatusFile, hk] at hkind
    | _ => exact ⟨rfl, rfl, fun u hu => (List.mem_filter.mp hu).1⟩
  cases e with
  | clientCompleted operation status =>
    obtain ⟨t, ht, ⟨sentStatus, hkind, -⟩ | ⟨hkind, -⟩⟩ := clientCompleted_eq_some h
    · simp [statusCompleted, ht, hkind] at hcompleted
    · exact hother ht (by simp [isStatusFile, hkind])
  | serverCompleted operation status data =>
    obtain ⟨t, ht, ⟨hkind, -⟩ | ⟨hkind, -⟩⟩ := serverCompleted_eq_some h
    · exact hother ht (by simp [isStatusFile, hkind])
    · exact hother ht (by simp [isStatusFile, hkind])
  | _ => exact ⟨rfl, rfl, fun t ht => ht⟩

/-- The status that is due is sent, if it can be encoded. -/
theorem effect_transmission {e : Event} {r : Reaction} (hr : reaction cfg s e = some r)
    (hcompleted : statusCompleted s e = none) (status : OperationStatus)
    (hdue : dueStatus cfg s e = some status)
    (hstatus : status.status.counter = s.status.status.counter) {s' : State}
    {out : List Output}
    (h : transmission cfg ((taken s e).withStatus status) = some (s', out)) :
    StatusEffect cfg s e s' out := by
  obtain ⟨hoperation, hnext, htransfers⟩ := taken_of_not_completed hr hcompleted
  obtain ⟨error, hencode, rfl, rfl⟩ | ⟨file, hencode, rfl, rfl⟩ := transmission_eq_some h
  · refine .kept hcompleted ?_ hstatus hoperation (fun t ht _ => htransfers t ht) ?_
    · intro other hother
      obtain rfl : status = other := Option.some.inj (hdue.symm.trans hother)
      rw [show encodeStatus cfg.protocolVersion status = .error error from hencode]
      rfl
    · intro o ho
      rw [List.mem_singleton.mp ho]
      rfl
  · refine .sent hdue ?_ hcompleted hstatus ?_ (congrArg some hnext) ?_ ?_
    · rw [show encodeStatus cfg.protocolVersion status = .ok file from hencode]
      rfl
    · show (status.update Status.incrementCounter).status.counter = _
      rw [OperationStatus.status_update, ← hstatus]
      rfl
    · intro t ht _
      rcases List.mem_cons.mp ht with rfl | ht
      · exact .inr rfl
      · exact .inl (htransfers t (List.mem_filter.mp ht).1)
    · refine ⟨_, List.mem_append_right _ List.mem_cons_self, rfl⟩

/-- The reactions that send the status. -/
def Reaction.sends (cfg : Configuration) : Reaction → Bool
  | transmit => true
  | report _ => cfg.operation = .information
  | _ => false

/-- The others start no status file. -/
theorem result_of_not_sends {r : Reaction} {s' : State} {out : List Output}
    (h : r.result cfg s = some (s', out)) (hsends : r.sends cfg = false) :
    s'.status = r.updated cfg s.status ∧ s'.statusOperation = s.statusOperation ∧
      (∀ t ∈ s'.transfers, isStatusFile t = true → t ∈ s.transfers) ∧
        ∀ o ∈ out, startsStatusFile o = false := by
  have hsingle : ∀ {o}, startsStatusFile o = false → ∀ o' ∈ [o], startsStatusFile o' = false := by
    intro o ho o' hmem
    rw [List.mem_singleton.mp hmem]
    exact ho
  have hnone : ∀ o ∈ ([] : List Output), startsStatusFile o = false := nofun
  cases r with
  | transmit => cases hsends
  | report f =>
    have hop : cfg.operation ≠ .information := of_decide_eq_false hsends
    obtain ⟨heq, -⟩ | ⟨-, rfl, rfl⟩ := forced_eq_some h
    · exact absurd heq hop
    · exact ⟨(if_neg hop).symm, rfl, fun t ht _ => ht, hsingle rfl⟩
  | sendList filename file checkValue =>
    simp only [Reaction.result] at h
    split at h
    · rw [Option.some.injEq, Prod.mk.injEq] at h
      obtain ⟨rfl, rfl⟩ := h
      refine ⟨rfl, rfl, ?_, ?_⟩
      · intro t ht hp
        rcases List.mem_cons.mp ht with rfl | ht
        · cases hp
        · exact (List.mem_filter.mp ht).1
      · intro o ho
        rcases List.mem_append.mp ho with haborts | hlist
        · cases hop : s.listOperation with
          | none =>
            rw [hop] at haborts
            cases haborts
          | some operation =>
            rw [hop] at haborts
            exact hsingle rfl o haborts
        · exact hsingle rfl o hlist
    · cases h
  | receive remote =>
    simp only [Reaction.result, Option.some.injEq, Prod.mk.injEq] at h
    obtain ⟨rfl, rfl⟩ := h
    refine ⟨rfl, rfl, ?_, hsingle rfl⟩
    intro t ht hp
    rcases List.mem_cons.mp ht with rfl | ht
    · cases hp
    · exact ht
  | initialised =>
    simp only [Reaction.result, Option.some.injEq, Prod.mk.injEq] at h
    obtain ⟨rfl, rfl⟩ := h
    refine ⟨rfl, rfl, fun t ht _ => ht, ?_⟩
    intro o ho
    rcases List.mem_pair.mp ho with rfl | rfl <;> rfl
  | call c =>
    simp only [Reaction.result, Option.some.injEq, Prod.mk.injEq] at h
    obtain ⟨rfl, rfl⟩ := h
    refine ⟨rfl, rfl, fun t ht _ => ht, hsingle ?_⟩
    cases c <;> rfl
  | _ =>
    simp only [Reaction.result, Option.some.injEq, Prod.mk.injEq] at h
    obtain ⟨rfl, rfl⟩ := h
    refine ⟨rfl, rfl, fun t ht _ => ht, ?_⟩
    first | exact hnone | exact hsingle rfl

/-- Nothing is due then. -/
theorem dueStatus_of_not_sends {e : Event} {r : Reaction} (h : reaction cfg s e = some r)
    (hsends : r.sends cfg = false) : dueStatus cfg s e = none := by
  cases r with
  | transmit => cases hsends
  | report f =>
    have hop : cfg.operation ≠ .information := of_decide_eq_false hsends
    simp only [dueStatus, h, hop, if_false]
  | _ => simp only [dueStatus, h]

/-- The completion of a status file. -/
theorem effect_completed {operation : TransferId} {status : TransferStatus} {t : Transfer}
    {sentStatus : OperationStatus} (ht : transfer? s operation = some t)
    (hkind : t.kind = .statusFile sentStatus) {s' : State} {out : List Output}
    (hr : reaction cfg s (.clientCompleted operation status) =
      some (statusFileReaction sentStatus status))
    (hresult : (statusFileReaction sentStatus status).result cfg
      (taken s (.clientCompleted operation status)) = some (s', out)) :
    StatusEffect cfg s (.clientCompleted operation status) s' out := by
  have htaken : taken s (.clientCompleted operation status) =
      { s.withoutTransfer operation with statusOperation := none } := by
    simp only [taken, State.afterCompletion, ht, hkind, State.completed]
  have hsends : (statusFileReaction sentStatus status).sends cfg = false := by
    obtain ⟨c, hc⟩ | ⟨request, hc⟩ := statusFileReaction_cases sentStatus status <;> rw [hc] <;> rfl
  have htransfers : s'.transfers = s.transfers.filter (·.id ≠ operation) := by
    rw [htaken] at hresult
    obtain ⟨c, hc⟩ | ⟨request, hc⟩ := statusFileReaction_cases sentStatus status
    all_goals
      rw [hc] at hresult
      simp only [Reaction.result, Option.some.injEq, Prod.mk.injEq] at hresult
      rw [← hresult.1]
      rfl
  obtain ⟨hstatus, hoperation, -, hout⟩ := result_of_not_sends hresult hsends
  refine .completed rfl ht hkind ?_ ?_ htransfers (dueStatus_of_not_sends hr hsends) hout
  · rw [hstatus, counter_updated hr, status_taken]
  · rw [hoperation, htaken]

/-- **Effects**: what every step does to the status files. -/
theorem status_effect {s' : State} {e : Event} {out : List Output}
    (hstep : (machine cfg).step s e = some (s', out)) : StatusEffect cfg s e s' out := by
  obtain ⟨r, hr, hresult⟩ := step_iff.mp hstep
  cases hcompleted : statusCompleted s e with
  | some result =>
    cases e with
    | clientCompleted operation status =>
      obtain ⟨t, ht, ⟨sentStatus, hkind, rfl⟩ | ⟨hkind, -⟩⟩ := clientCompleted_eq_some hr
      · exact effect_completed ht hkind hr hresult
      · simp [statusCompleted, ht, hkind] at hcompleted
    | _ => cases hcompleted
  | none =>
    have hcounter := counter_updated hr s.status
    cases hsends : r.sends cfg with
    | false =>
      obtain ⟨hoperation, -, htransfers⟩ := taken_of_not_completed hr hcompleted
      obtain ⟨hstatus, hsame, hsub, hout⟩ := result_of_not_sends hresult hsends
      refine .kept hcompleted ?_ ?_ (hsame.trans hoperation) ?_ hout
      · intro status hdue
        rw [dueStatus_of_not_sends hr hsends] at hdue
        cases hdue
      · rw [hstatus, status_taken, hcounter]
      · exact fun t ht hp => htransfers t (hsub t ht hp)
    | true =>
      cases r with
      | transmit =>
        refine effect_transmission hr hcompleted (statusToSend s.status) ?_ hcounter ?_
        · simp only [dueStatus, hr]
        · rw [← status_taken e]
          exact hresult
      | report f =>
        have hop : cfg.operation = .information := of_decide_eq_true hsends
        obtain ⟨-, hsend⟩ | ⟨hne, -⟩ := forced_eq_some hresult
        · refine effect_transmission hr hcompleted (statusToSend (f s.status)) ?_ ?_ ?_
          · simp only [dueStatus, hr, hop, if_true]
          · simpa only [Reaction.updated, hop, if_true] using hcounter
          · rw [← status_taken e]
            exact hsend
        · exact absurd hop hne
      | _ => cases hsends

/-- While the member is empty, no status file is in flight. -/
theorem not_isStatusFile_of_none (h : Members s) (hnone : s.statusOperation = none) :
    ∀ t ∈ s.transfers, isStatusFile t = false := by
  have hempty := h.statusFiles_eq
  rw [hnone] at hempty
  intro t ht
  rw [Bool.eq_false_iff]
  intro hp
  have hmem : t.id ∈ inFlight isStatusFile s :=
    List.mem_map_of_mem (List.mem_filter.mpr ⟨ht, hp⟩)
  rw [hempty] at hmem
  cases hmem

/-! ## The counters of a run -/

/-- A step adds the status file that it completes. -/
theorem completedStatusFiles_append {s₀ : State} {es : List Event} {tr : List Output}
    (h : (machine cfg).exec s₀ es = some (s, tr)) (e : Event) :
    completedStatusFiles cfg s₀ (es ++ [e]) = completedStatusFiles cfg s₀ es ++
      ((statusCompleted s e).map fun (sentStatus, status) =>
        (sentStatus.status.counter, decide (status = .successful))).toList := by
  rw [completedStatusFiles, Machine.steps_append_singleton h, filterMap_concat]
  rfl

/-- Where every status file is sent in time: those that completed count on, the one
in flight has the next counter, and the operation the one behind. -/
structure Counting (cfg : Configuration) (s₀ : State) (es : List Event) (s : State) : Prop where
  counts : Counts nextCounter s₀.status.status.counter
    ((completedStatusFiles cfg s₀ es).map (·.1))
  sent : ∀ t ∈ s.transfers, ∀ sentStatus, t.kind = .statusFile sentStatus →
    sentStatus.status.counter =
      nextCounter^[(completedStatusFiles cfg s₀ es).length] s₀.status.status.counter
  counter : s.status.status.counter =
    nextCounter^[(completedStatusFiles cfg s₀ es).length + s.statusOperation.toList.length]
      s₀.status.status.counter

/-- Every step that sends in time keeps count. -/
theorem counting_step {s₀ s' : State} {es : List Event} {tr out : List Output} {e : Event}
    (hexec : (machine cfg).exec s₀ es = some (s, tr)) (hs : Members s)
    (hstep : (machine cfg).step s e = some (s', out)) (hinTime : InTime cfg s e)
    (h : Counting cfg s₀ es s) : Counting cfg s₀ (es ++ [e]) s' := by
  have happend := completedStatusFiles_append hexec e
  cases status_effect hstep with
  | @sent status hdue hencode hcompleted hstatus hcounter hoperation htransfers hstarts =>
    have hnone : s.statusOperation = none := hinTime status hdue hencode
    have hnow := h.counter
    rw [hnone] at hnow
    rw [hcompleted] at happend
    have hsame : completedStatusFiles cfg s₀ (es ++ [e]) = completedStatusFiles cfg s₀ es :=
      happend.trans (List.append_nil _)
    refine ⟨hsame ▸ h.counts, ?_, ?_⟩
    · intro t ht sentStatus hkind
      have hp : isStatusFile t = true := by simp [isStatusFile, hkind]
      rcases htransfers t ht hp with hold | hnew
      · rw [not_isStatusFile_of_none hs hnone t hold] at hp
        cases hp
      · obtain rfl : status = sentStatus := by simpa using hnew.symm.trans hkind
        rw [hsame, hstatus]
        exact hnow
    · rw [hcounter, hnow, hoperation, hsame]
      exact (Function.iterate_succ_apply' ..).symm
  | @completed operation status t sentStatus he ht hkind hcounter hoperation htransfers hdue hout =>
    subst he
    obtain ⟨hmem, rfl⟩ := transfer?_mem ht
    have hp : isStatusFile t = true := by simp [isStatusFile, hkind]
    have hmember := (inFlight_withoutTransfer_of_mem hs.statusFiles_eq hmem hp).1
    have hnow := h.counter
    rw [hmember] at hnow
    have hresult : statusCompleted s (.clientCompleted t.id status) =
        some (sentStatus, status) := by
      simp only [statusCompleted, ht, Option.bind_some, hkind]
    rw [hresult] at happend
    have hs' : Members s' := members_step hs hstep
    refine ⟨?_, ?_, ?_⟩
    · rw [happend, List.map_append]
      refine counts_append_singleton.mpr ⟨h.counts, ?_⟩
      rw [List.length_map]
      exact h.sent t hmem sentStatus hkind
    · intro u hu other hother
      have hpu : isStatusFile u = true := by simp [isStatusFile, hother]
      rw [not_isStatusFile_of_none hs' hoperation u hu] at hpu
      cases hpu
    · rw [hcounter, hnow, hoperation, happend]
      simp
  | kept hcompleted hdue hcounter hoperation htransfers hout =>
    rw [hcompleted] at happend
    have hsame : completedStatusFiles cfg s₀ (es ++ [e]) = completedStatusFiles cfg s₀ es :=
      happend.trans (List.append_nil _)
    refine ⟨hsame ▸ h.counts, ?_, ?_⟩
    · intro t ht sentStatus hkind
      rw [hsame]
      exact h.sent t (htransfers t ht (by simp [isStatusFile, hkind])) sentStatus hkind
    · rw [hcounter, hoperation, hsame]
      exact h.counter

/-- Every step of the run sends in time. -/
def SendsInTime (cfg : Configuration) (s₀ : State) (es : List Event) : Prop :=
  ∀ pre tr s e s' out, (machine cfg).HasStep s₀ es pre tr s e s' out → InTime cfg s e

theorem counting_run {hostAddress : Endpoint} {port : Option UInt16} {es : List Event}
    {tr : List Output} (h : (machine cfg).exec (started cfg hostAddress port) es = some (s, tr))
    (hinTime : SendsInTime cfg (started cfg hostAddress port) es) :
    Counting cfg (started cfg hostAddress port) es s := by
  refine Machine.exec_history
    (fun es s _ => SendsInTime cfg (started cfg hostAddress port) es →
      Counting cfg (started cfg hostAddress port) es s) ?_ ?_ h hinTime
  · intro _
    refine ⟨trivial, ?_, rfl⟩
    intro t ht sentStatus hkind
    rw [List.mem_singleton.mp ht] at hkind
    cases hkind
  · intro es s tr e s' out hexec ih hstep hinTime
    have hlast : InTime cfg s e := hinTime _ _ _ _ _ _ (Machine.hasStep_last hexec hstep)
    refine counting_step hexec (members_run hexec) hstep hlast (ih ?_)
    exact fun _ _ _ _ _ _ hhas => hinTime _ _ _ _ _ _ (hhas.append _)

/-! ## The law of a run -/

/-- What starts a status file was due. -/
theorem due_of_starts {s' : State} {e : Event} {out : List Output}
    (hstep : (machine cfg).step s e = some (s', out)) {o : Output} (ho : o ∈ out)
    (hstarts : startsStatusFile o = true) :
    ∃ status ∈ dueStatus cfg s e, (encodeStatus cfg.protocolVersion status).isOk := by
  cases status_effect hstep with
  | sent hdue hencode _ _ _ _ _ _ => exact ⟨_, hdue, hencode⟩
  | completed _ _ _ _ _ _ _ hout =>
    rw [hout o ho] at hstarts
    cases hstarts
  | kept _ _ _ _ _ hout =>
    rw [hout o ho] at hstarts
    cases hstarts

/-- What is due, and can be encoded, is started. -/
theorem starts_of_due {s' : State} {e : Event} {out : List Output}
    (hstep : (machine cfg).step s e = some (s', out)) {status : OperationStatus}
    (hdue : status ∈ dueStatus cfg s e)
    (hencode : (encodeStatus cfg.protocolVersion status).isOk) :
    ∃ o ∈ out, startsStatusFile o = true := by
  cases status_effect hstep with
  | sent _ _ _ _ _ _ _ hstarts => exact hstarts
  | completed _ _ _ _ _ _ hnone _ =>
    rw [hnone] at hdue
    cases hdue
  | kept _ hnot _ _ _ _ =>
    rw [hnot status hdue] at hencode
    cases hencode

/-- **Status files**: one is in flight at a time and the host receives consecutive
counters, exactly if each is sent in time, and those that the host does not
receive in between are whole turns of the counter. -/
theorem target_statusTransfers_iff {hostAddress : Endpoint} {port : Option UInt16}
    {es : List Event} {tr : List Output}
    (h : (machine cfg).exec (started cfg hostAddress port) es = some (s, tr)) :
    StatusTransferLaw cfg (started cfg hostAddress port) es s ↔
      SendsInTime cfg (started cfg hostAddress port) es ∧
        LostInTurns cfg (started cfg hostAddress port) es := by
  have hconsecutive : SendsInTime cfg (started cfg hostAddress port) es →
      ((arrived (completedStatusFiles cfg (started cfg hostAddress port) es)).IsChain
          (fun a b => b = nextCounter a) ↔ LostInTurns cfg (started cfg hostAddress port) es) :=
    fun hinTime => isChain_arrived_iff cyclic_uint16 (counting_run h hinTime).counts
  constructor
  · intro hlaw
    have hinTime : SendsInTime cfg (started cfg hostAddress port) es := by
      intro pre tr s e s' out hhas status hdue hencode
      obtain ⟨post, hes, hpre, hstep⟩ := hhas
      obtain ⟨o, ho, hstarts⟩ := starts_of_due hstep hdue hencode
      have hempty := hlaw.single pre tr s e s' out ⟨post, hes, hpre, hstep⟩ o ho hstarts
      rw [(members_run hpre).statusFiles_eq] at hempty
      exact Option.toList_eq_nil_iff.mp hempty
    exact ⟨hinTime, (hconsecutive hinTime).mp hlaw.consecutive⟩
  · rintro ⟨hinTime, hlost⟩
    refine ⟨?_, (members_run h).statusFiles_eq, ?_, (hconsecutive hinTime).mpr hlost⟩
    · intro pre tr s e s' out hhas o ho hstarts
      obtain ⟨post, hes, hpre, hstep⟩ := hhas
      obtain ⟨status, hdue, hencode⟩ := due_of_starts hstep ho hstarts
      have hnone := hinTime pre tr s e s' out ⟨post, hes, hpre, hstep⟩ status hdue hencode
      rw [(members_run hpre).statusFiles_eq, hnone]
      rfl
    · intro pre tr s operation status s' out hhas hcompleted
      obtain ⟨post, -, hpre, hstep⟩ := hhas
      cases status_effect hstep with
      | sent _ _ hnone _ _ _ _ _ => simp [hnone] at hcompleted
      | kept hnone _ _ _ _ _ => simp [hnone] at hcompleted
      | @completed _ _ t _ he ht hkind _ hoperation htransfers _ _ =>
        cases he
        obtain ⟨hmem, rfl⟩ := transfer?_mem ht
        have hp : isStatusFile t = true := by simp [isStatusFile, hkind]
        exact ⟨(inFlight_withoutTransfer_of_mem (members_run hpre).statusFiles_eq hmem hp).1,
          hoperation, htransfers⟩

/-- Two status files of an upload, each received before the next is due. -/
def twoStatusFiles : List Event :=
  [.serverCompleted 0 .successful [], .advance second, .timerExpired, .timerHandler .success,
    .clientCompleted 1 .successful, .callbackReturned, .timerHandler .operationAborted,
    .advance second, .timerExpired, .timerHandler .success, .clientCompleted 2 .successful]

/-- Their counters are consecutive. -/
theorem target_statusTransfers_received :
    completedStatusFiles (exampleConfiguration .upload)
        (started (exampleConfiguration .upload) exampleHost none) twoStatusFiles =
      [(0, true), (1, true)] ∧
      ∃ s tr, (machine (exampleConfiguration .upload)).exec
          (started (exampleConfiguration .upload) exampleHost none) twoStatusFiles =
            some (s, tr) ∧
        StatusTransferLaw (exampleConfiguration .upload)
          (started (exampleConfiguration .upload) exampleHost none) twoStatusFiles s := by
  refine ⟨by decide, _, _, rfl, (target_statusTransfers_iff rfl).mpr ⟨?_, ?_⟩⟩
  · intro pre tr s e s' out hhas
    -- The timer's handler runs twice, while no status file is in flight.
    have hall : ∀ step ∈ (machine (exampleConfiguration .upload)).steps
        (started (exampleConfiguration .upload) exampleHost none) twoStatusFiles,
        InTime (exampleConfiguration .upload) step.1 step.2 := by
      decide
    exact hall (s, e) hhas.mem_steps
  · intro lost hlost
    -- None was lost between the two.
    revert lost hlost
    decide

/-- The transfer takes longer than the rate: the second status file is started while
the first one is in flight. -/
theorem target_statusTransfers_overlap :
    ∃ s tr, (machine (exampleConfiguration .upload)).exec
        (started (exampleConfiguration .upload) exampleHost none)
        [.serverCompleted 0 .successful [], .advance second, .timerExpired,
          .timerHandler .success, .advance second, .timerExpired, .timerHandler .success]
        = some (s, tr) ∧
      ¬ StatusTransferLaw (exampleConfiguration .upload)
        (started (exampleConfiguration .upload) exampleHost none)
        [.serverCompleted 0 .successful [], .advance second, .timerExpired,
          .timerHandler .success, .advance second, .timerExpired, .timerHandler .success] s := by
  refine ⟨_, _, rfl, fun hlaw => ?_⟩
  have hsecond := hlaw.single
    [.serverCompleted 0 .successful [], .advance second, .timerExpired,
      .timerHandler .success, .advance second, .timerExpired] _ _ (.timerHandler .success) _ _
    ⟨[], rfl, rfl, rfl⟩
  have hnone := hsecond _ (List.mem_cons_of_mem _ List.mem_cons_self) rfl
  cases hnone

end Arinc615a.Target
