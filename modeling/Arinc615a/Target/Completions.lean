import Arinc615a.Target.Deliveries
import Arinc615a.Target.FinalStatus

/-!
# Whose completion a status tells

A target operation writes the code of a completed operation on its own in one place: an
information operation does behind its list. In every run this code stands in the status
only where the application has completed the operation, or has given the list.
-/

namespace Arinc615a.Target

open Actions Machines
open Files Information Tftp

variable {cfg : Configuration} {s : State}

/-- The application has completed the operation, or has given the information. -/
def CompletionCalled (operation : OperationType) (es : List Event) : Prop :=
  (∃ description, .application (.finished .completed description) ∈ es) ∨
    (operation = .information ∧
      ∃ targetsHardware type, .application (.targetInformation targetsHardware type) ∈ es)

theorem CompletionCalled.append {operation : OperationType} {es : List Event}
    (h : CompletionCalled operation es) (es' : List Event) :
    CompletionCalled operation (es ++ es') := by
  rcases h with ⟨description, hmem⟩ | ⟨hop, targetsHardware, type, hmem⟩
  · exact .inl ⟨description, List.mem_append_left _ hmem⟩
  · exact .inr ⟨hop, targetsHardware, type, List.mem_append_left _ hmem⟩

/-! ## The transfers of lists -/

theorem mem_transfers_of_taken {e : Event} {t : Transfer} (h : t ∈ (taken s e).transfers) :
    t ∈ s.transfers := by
  have hcompletion : ∀ operation, t ∈ (s.afterCompletion operation).transfers →
      t ∈ s.transfers := by
    intro operation hmem
    unfold State.afterCompletion at hmem
    split at hmem
    · exact hmem
    · rename_i u _
      cases hkind : u.kind <;> rw [hkind] at hmem <;> exact (List.mem_filter.mp hmem).1
  cases e with
  | clientCompleted operation status => exact hcompletion operation h
  | serverCompleted operation status data => exact hcompletion operation h
  | _ => exact h

/-- A list transfer is started with the output of its list. -/
theorem listTransfer_of_result {r : Reaction} {s' : State} {out : List Output}
    (h : r.result cfg s = some (s', out)) {t : Transfer} (ht : t ∈ s'.transfers)
    (hkind : t.kind = .listFile) :
    t ∈ s.transfers ∨ ∃ remote operation filename file checkValue,
      .listFile remote operation filename file checkValue ∈ out := by
  have htransmission : ∀ {u : State}, transmission cfg u = some (s', out) →
      u.transfers = s.transfers → t ∈ s.transfers := by
    intro u hsent hu
    obtain ⟨e, -, rfl, -⟩ | ⟨file, -, rfl, -⟩ := transmission_eq_some hsent
    · rwa [← hu]
    · rcases List.mem_cons.mp ht with rfl | hmem
      · cases hkind
      · rw [← hu]
        exact (List.mem_filter.mp hmem).1
  cases r with
  | transmit => exact .inl (htransmission h rfl)
  | report f =>
    obtain ⟨-, hsent⟩ | ⟨-, rfl, -⟩ := forced_eq_some h
    · exact .inl (htransmission hsent rfl)
    · exact .inl ht
  | receive remote =>
    simp only [Reaction.result, Option.some.injEq, Prod.mk.injEq] at h
    obtain ⟨rfl, -⟩ := h
    rcases List.mem_cons.mp ht with rfl | hmem
    · cases hkind
    · exact .inl hmem
  | sendList filename file checkValue =>
    simp only [Reaction.result] at h
    split at h
    · simp only [Option.some.injEq, Prod.mk.injEq] at h
      obtain ⟨-, rfl⟩ := h
      exact .inr ⟨_, _, _, _, _, List.mem_append_right _ (.head _)⟩
    · cases h
  | _ =>
    simp only [Reaction.result, Option.some.injEq, Prod.mk.injEq] at h
    obtain ⟨rfl, -⟩ := h
    exact .inl ht

/-- In an information operation the application has given it. -/
theorem listTransfer_step {s' : State} {e : Event} {out : List Output}
    (h : (machine cfg).step s e = some (s', out)) {t : Transfer} (ht : t ∈ s'.transfers)
    (hkind : t.kind = .listFile) (hop : cfg.operation = .information) :
    t ∈ s.transfers ∨
      ∃ targetsHardware type, e = .application (.targetInformation targetsHardware type) := by
  obtain ⟨r, hr, hresult⟩ := step_iff.mp h
  rcases listTransfer_of_result hresult ht hkind with hmem | ⟨_, _, _, _, _, hmem⟩
  · exact .inl (mem_transfers_of_taken hmem)
  · cases passedBy_of_step h hmem rfl with
    | targetInformation _ hencode => exact .inr ⟨_, _, rfl⟩
    | downloadingList hother hencode =>
      rw [hop] at hother
      cases hother

/-! ## The code -/

theorem completed_of_statusToSend {status : OperationStatus}
    (h : (statusToSend status).status.code = .operationCompleted) :
    status.status.code = .operationCompleted := by
  unfold statusToSend at h
  split at h
  · rw [OperationStatus.status_update] at h
    cases h
  · exact h

/-- Without a call of the application, the code says so where it did before, or where the
list of an information operation was sent. -/
theorem completed_internal {e : Event} {r : Reaction} (he : e.Internal)
    (hr : reaction cfg s e = some r) {status : OperationStatus}
    (hcode : (r.updated cfg status).status.code = .operationCompleted) :
    status.status.code = .operationCompleted ∨
      (cfg.operation = .information ∧ ∃ t ∈ s.transfers, t.kind = .listFile) := by
  have hfailed : ∀ description,
      ((Reaction.report (failed description)).updated cfg status).status.code ≠
        .operationCompleted := by
    intro description heq
    rw [code_failed] at heq
    cases heq
  cases e with
  | application call => exact absurd rfl (he call)
  | tftpRequest request =>
    obtain ⟨errorCode, errorMessage, rfl⟩ | rfl := tftpRequest_eq_some hr <;> exact .inl hcode
  | clientCompleted operation transferStatus =>
    obtain ⟨t, ht, ⟨sentStatus, -, rfl⟩ | ⟨hkind, hlist⟩⟩ := clientCompleted_eq_some hr
    · obtain ⟨c, hc⟩ | ⟨request, hc⟩ := statusFileReaction_cases sentStatus transferStatus <;>
        rw [hc] at hcode <;> exact .inl hcode
    · by_cases hop : cfg.operation = .information
      · exact .inr ⟨hop, t, List.mem_of_find?_eq_some ht, hkind⟩
      · left
        unfold listFileReaction at hlist
        split at hlist
        · exact absurd ‹_› hop
        · cases hlist
          split at hcode
          · exact absurd hcode (hfailed _)
          · exact hcode
        · cases hlist
  | serverCompleted operation transferStatus data =>
    obtain ⟨t, ht, ⟨-, rfl⟩ | ⟨-, hrequest⟩⟩ := serverCompleted_eq_some hr
    · obtain ⟨c, hc⟩ | hc := initialisationReaction_cases transferStatus <;>
        rw [hc] at hcode <;> exact .inl hcode
    · left
      unfold requestFileReaction at hrequest
      split at hrequest
      · cases hrequest
      split at hrequest
      · cases hrequest
        exact absurd hcode (hfailed _)
      split at hrequest
      · cases hrequest
      · cases hrequest
        exact absurd hcode (hfailed _)
      · cases hrequest
        split at hcode
        · exact absurd hcode (hfailed _)
        · exact hcode
  | callbackReturned =>
    obtain ⟨continuation, -, rfl⟩ := Option.map_eq_some_iff.mp hr
    left
    cases continuation with
    | status sentStatus =>
      simp only [returnReaction, statusReaction] at hcode
      split at hcode
      · split at hcode
        · rw [code_report (by decide)] at hcode
          cases hcode
        · exact hcode
      all_goals exact hcode
    | _ => exact hcode
  | callbackThrew =>
    obtain ⟨continuation, -, rfl⟩ := Option.map_eq_some_iff.mp hr
    cases continuation with
    | receivedFile => exact absurd hcode (hfailed _)
    | _ => exact .inl hcode
  | timerHandler result =>
    obtain rfl := timerHandler_eq_some hr
    cases result with
    | operationAborted => exact .inl hcode
    | _ => exact .inl (completed_of_statusToSend hcode)
  | timerExpired =>
    cases nothing_of_eq_some (.inl rfl) hr
    exact .inl hcode
  | timerFailed =>
    cases nothing_of_eq_some (.inr (.inl rfl)) hr
    exact .inl hcode
  | advance time =>
    cases nothing_of_eq_some (.inr (.inr ⟨time, rfl⟩)) hr
    exact .inl hcode

theorem inProgressCode_ne_completed (description : Str) :
    inProgressCode cfg description ≠ .operationCompleted := by
  unfold inProgressCode
  split <;> decide

/-- A call of the application sets the code of a completion only as it completes. -/
theorem completed_callUpdate {call : ApplicationCall} {status : OperationStatus}
    (hcode : (callUpdate cfg call status).status.code = .operationCompleted) :
    status.status.code = .operationCompleted ∨
      ∃ description, call = .finished .completed description := by
  cases hreport : call.isReport with
  | false =>
    rw [status_callUpdate hreport] at hcode
    exact .inl hcode
  | true =>
    cases call with
    | finished finalStatus description =>
      rw [callUpdate, status_reported] at hcode
      cases finalStatus with
      | completed => exact .inr ⟨description, rfl⟩
      | _ => cases hcode
    | accepted =>
      rw [callUpdate, status_reported] at hcode
      cases hcode
    | inProgress immediateTransmission estimatedTime description =>
      rw [callUpdate, status_reported] at hcode
      exact absurd hcode (inProgressCode_ne_completed description)
    | inProgressList immediateTransmission estimatedTime description listRatio =>
      rw [callUpdate, status_setListRatio, status_reported] at hcode
      exact absurd hcode (inProgressCode_ne_completed description)
    | _ => cases hreport

theorem completed_application {call : ApplicationCall} {r : Reaction} {status : OperationStatus}
    (hr : reaction cfg s (.application call) = some r)
    (hcode : (r.updated cfg status).status.code = .operationCompleted) :
    status.status.code = .operationCompleted ∨
      ∃ description, call = .finished .completed description := by
  cases callReaction_of_reaction hr with
  | thrown hid => exact .inl hcode
  | sendList hid => exact .inl hcode
  | report htransmits =>
    simp only [Reaction.updated] at hcode
    split at hcode
    · exact completed_callUpdate (completed_of_statusToSend hcode)
    · exact completed_callUpdate hcode
  | update hkeeps => exact completed_callUpdate hcode

/-! ## Runs -/

/-- The list of an information operation in flight was given by the application. -/
theorem listTransfer_run {hostAddress : Endpoint} {port : Option UInt16} {es : List Event}
    {tr : List Output} (h : (machine cfg).exec (started cfg hostAddress port) es = some (s, tr))
    (hop : cfg.operation = .information) {t : Transfer} (ht : t ∈ s.transfers)
    (hkind : t.kind = .listFile) :
    ∃ targetsHardware type, .application (.targetInformation targetsHardware type) ∈ es := by
  refine Machine.exec_history (fun es s _ => ∀ t ∈ s.transfers, t.kind = .listFile →
    ∃ targetsHardware type, Event.application (.targetInformation targetsHardware type) ∈ es)
    ?_ ?_ h t ht hkind
  · intro t ht hkind
    rw [List.mem_singleton.mp ht] at hkind
    cases hkind
  · intro es s tr e s' out _ ih hstep t ht hkind
    rcases listTransfer_step hstep ht hkind hop with hmem | ⟨targetsHardware, type, rfl⟩
    · obtain ⟨targetsHardware, type, hcall⟩ := ih t hmem hkind
      exact ⟨targetsHardware, type, List.mem_append_left _ hcall⟩
    · exact ⟨targetsHardware, type, by simp⟩

/-- **Completions**: the code of a completed operation comes from the application. -/
theorem completionCalled_run {hostAddress : Endpoint} {port : Option UInt16} {es : List Event}
    {tr : List Output} (h : (machine cfg).exec (started cfg hostAddress port) es = some (s, tr))
    (hcode : s.code = .operationCompleted) : CompletionCalled cfg.operation es := by
  refine Machine.exec_history
    (fun es s _ => s.code = .operationCompleted → CompletionCalled cfg.operation es) ?_ ?_ h hcode
  · intro hstart
    have hinitial : (started cfg hostAddress port).code = .invalid := by
      cases hop : cfg.operation <;> simp [started, newOperation, initialStatus, hop] <;> rfl
    rw [hinitial] at hstart
    cases hstart
  · intro es s tr e s' out hexec ih hstep hcode
    obtain ⟨r, hr, hresult⟩ := step_iff.mp hstep
    rw [code_result hresult, status_taken] at hcode
    by_cases he : e.Internal
    · rcases completed_internal he hr hcode with hbefore | ⟨hop, t, ht, hkind⟩
      · exact (ih hbefore).append _
      · obtain ⟨targetsHardware, type, hcall⟩ := listTransfer_run hexec hop ht hkind
        exact CompletionCalled.append (.inr ⟨hop, targetsHardware, type, hcall⟩) _
    · obtain ⟨call, rfl⟩ := Event.exists_call he
      rcases completed_application hr hcode with hbefore | ⟨description, rfl⟩
      · exact (ih hbefore).append _
      · exact .inl ⟨description, by simp⟩

end Arinc615a.Target
