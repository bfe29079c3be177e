import Arinc615a.Tftp.Abort
import Arinc615a.Tftp.Library

/-!
# The calls of a client operation

What a client operation tells the one that created it: its completion handler is called with
a status. The operation is at work until then, which happens once (`completion_atWork`). It
completes as aborted by the other party for what that party has answered, or for a wait that
failed (`abortCause_of_completed`).
-/

namespace Arinc615a.Tftp.Client

open Actions Actions.Action Machines Timers

variable {cfg : Configuration} {es : List Event} {s s' : State} {tr out : List (Event × Output)}
  {e : Event}

/-- The status that the completion handler is called with. -/
def completion (out : List (Event × Output)) : Option TransferStatus :=
  out.findSome? fun
    | (_, .completed status) => some status
    | _ => none

/-- The operation waits for a transfer or for its timer. -/
def atWork (s : State) : Bool := 0 < pending s

theorem completion_eq_none_iff : completion out = none ↔ completions out = 0 := by
  rw [completion, List.findSome?_eq_none_iff, completions, List.countP_eq_zero]
  refine forall₂_congr fun x _ => ?_
  obtain ⟨e, o⟩ := x
  cases o <;> simp [isCompleted]

/-- What an operation waits for is there behind a step, or was handed to its handler. -/
theorem pending_step (hrun : (machine cfg).exec started es = some (s, tr))
    (hstep : (machine cfg).step s e = some (s', out)) :
    pending s' + completions out = pending s ∧ pending s ≤ 1 := by
  have hpending : ∀ {es s tr}, (machine cfg).exec started es = some (s, tr) →
      pending s + completions tr = 1 := by
    intro es s tr hrun
    obtain ⟨fs, library, hfs⟩ := exists_session_run hrun
    exact (token_run hfs).pending_eq
  have hbefore := hpending hrun
  have hbehind := hpending (Machine.exec_append_singleton.mpr ⟨s, tr, out, hrun, hstep, rfl⟩)
  rw [completions_append] at hbehind
  omega

/-- **Completions**: the completion handler is called by an operation at work, and ends it. -/
theorem completion_atWork (hrun : (machine cfg).exec started es = some (s, tr))
    (hstep : (machine cfg).step s e = some (s', out)) :
    (completion out = none ∧ atWork s' = atWork s) ∨
      ∃ status, completion out = some status ∧ atWork s = true ∧ atWork s' = false := by
  obtain ⟨hpending, hle⟩ := pending_step hrun hstep
  cases hcompletion : completion out with
  | none =>
    rw [completion_eq_none_iff.mp hcompletion, Nat.add_zero] at hpending
    exact .inl ⟨rfl, by rw [atWork, atWork, hpending]⟩
  | some status =>
    have hsome : completions out ≠ 0 := by
      intro hnone
      rw [completion_eq_none_iff.mpr hnone] at hcompletion
      cases hcompletion
    refine .inr ⟨status, rfl, ?_, ?_⟩
    · simp only [atWork, decide_eq_true_eq]
      omega
    · simp only [atWork, decide_eq_false_iff_not]
      omega

/-! ## Aborts of the other party -/

/-- What lets an operation complete as aborted by the other party: an ABORT, where the
operation handles it, or a wait that ends before its time. -/
inductive AbortCause (cfg : Configuration) : Event → TransferStatus → Prop where
  | byDlp {errorInformation : ErrorInformation} (hhandles : cfg.handleAbort = true)
    (htype : errorMessageType errorInformation = .abort)
    (hcode : errorMessageAbort ((errorInformation.map Prod.snd).getD []) =
      .operationAbortedByDlp) :
    AbortCause cfg (.transferCompleted .requestError errorInformation) .operationAbortedByDlp
  | byOperator {errorInformation : ErrorInformation} (hhandles : cfg.handleAbort = true)
    (htype : errorMessageType errorInformation = .abort)
    (hcode : errorMessageAbort ((errorInformation.map Prod.snd).getD []) =
      .operationAbortedByOperator) :
    AbortCause cfg (.transferCompleted .requestError errorInformation)
      .operationAbortedByOperator
  | wait {result : WaitResult} (hresult : result ≠ .success) :
    AbortCause cfg (.waitHandler result) .operationAbortedByDlp

/-- The answers that abort. -/
theorem abortCause_of_answer {status : LibraryTransferStatus}
    {errorInformation : ErrorInformation} {result : TransferStatus}
    (h : answer cfg status errorInformation = .final result)
    (hresult : result = .operationAbortedByDlp ∨ result = .operationAbortedByOperator) :
    AbortCause cfg (.transferCompleted status errorInformation) result := by
  cases status with
  | requestError =>
    simp only [answer, reduceCtorEq, if_false, if_true] at h
    cases htype : errorMessageType errorInformation with
    | abort =>
      simp only [htype] at h
      split at h
      · rename_i hhandles
        cases hcode : errorMessageAbort ((errorInformation.map Prod.snd).getD []) <;>
          simp only [hcode, reduceCtorEq, Answer.final.injEq] at h
        · subst h
          exact .byDlp hhandles htype hcode
        · subst h
          exact .byOperator hhandles htype hcode
      · cases h
    | wait =>
      simp only [htype] at h
      split at h <;> cases h
    | invalid =>
      simp only [htype] at h
      cases h
  | successful =>
    cases h
    simp at hresult
  | aborted =>
    cases h
    simp at hresult
  | _ => cases h

/-- What a completion answers with, where it answers at all. -/
theorem answer_of_completed {status : LibraryTransferStatus} {errorInformation : ErrorInformation}
    {os : List Output} {result : TransferStatus}
    (h : handleCompletion cfg status errorInformation s [] = some ((), s', os))
    (ho : .completed result ∈ os) (hresult : result ≠ .communicationError) :
    answer cfg status errorInformation = .final result := by
  have heffect := handleCompletion_effect h
  cases hanswer : answer cfg status errorInformation with
  | final result' =>
    rw [hanswer] at heffect
    obtain ⟨-, rfl⟩ := heffect
    cases List.mem_singleton.mp ho
    rfl
  | wait waitTime =>
    rw [hanswer] at heffect
    obtain ⟨-, rfl⟩ := heffect
    cases List.mem_singleton.mp ho
  | failure =>
    simp only [hanswer] at heffect
    split at heffect
    · obtain ⟨-, rfl⟩ := heffect
      cases List.mem_singleton.mp ho
      exact absurd rfl hresult
    · obtain ⟨-, rfl⟩ := heffect
      cases List.mem_singleton.mp ho

/-- **Aborts**: what the other party aborts has its cause in a request that it has answered
so, or in a wait. -/
theorem abortCause_of_completed {status : TransferStatus}
    (h : (machine cfg).step s e = some (s', out)) (ho : completion out = some status)
    (hstatus : status = .operationAbortedByDlp ∨ status = .operationAbortedByOperator) :
    AbortCause cfg e status := by
  obtain ⟨os, hreact, rfl⟩ := step_eq_some.mp h
  have hos : .completed status ∈ os := by
    obtain ⟨⟨e', o⟩, hmem, heq⟩ := List.exists_of_findSome?_eq_some ho
    obtain ⟨o', ho', hpair⟩ := List.mem_map.mp hmem
    cases hpair
    cases o with
    | completed status' =>
      cases heq
      exact ho'
    | _ => cases heq
  cases e with
  | transferCompleted transferStatus errorInformation =>
    simp only [react, get_bind, require_bind_eq_some] at hreact
    have hfinal : status ≠ .communicationError := by
      rcases hstatus with rfl | rfl <;> decide
    exact abortCause_of_answer (answer_of_completed hreact.2 hos hfinal) hstatus
  | waitHandler result =>
    simp only [react, get_bind, require_bind_eq_some, modify_bind] at hreact
    obtain ⟨-, hreact⟩ := hreact
    cases result with
    | success =>
      cases hreact
      cases List.mem_singleton.mp hos
    | _ =>
      cases hreact
      cases List.mem_singleton.mp hos
      exact .wait (by decide)
  | abort =>
    obtain ⟨-, rfl⟩ := abortWith_effect hreact
    split at hos <;> simp at hos
  | gracefulAbort errorCode errorMessage =>
    obtain ⟨-, rfl⟩ := abortWith_effect hreact
    split at hos <;> simp at hos
  | advance time =>
    cases hreact
    cases hos
  | timerExpired =>
    simp only [react, get_bind, require_bind_eq_some] at hreact
    cases hreact.2
    cases hos
  | timerFailed =>
    simp only [react, get_bind, require_bind_eq_some] at hreact
    cases hreact.2
    cases hos

end Arinc615a.Tftp.Client
