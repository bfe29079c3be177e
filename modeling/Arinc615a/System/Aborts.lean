import Arinc615a.System.Origins
import Arinc615a.Tftp.Completion

/-!
# Aborts of the operator

The operator aborts at the host. The host answers the next request for a status file
with an ABORT; the TFTP client of the target reads its text and completes with a status
of its own, which the operation of the target passes to its application. Along this
chain no abort arises by itself: the application is asked to abort by the operator only
where the user of the host has called for it (`session_abort`).
-/

namespace Arinc615a.System

open Actions Actions.Action Machines
open Files Information Tftp

/-! ## ABORT messages -/

/-- The packets that the client of the target takes for an abort by the operator. -/
theorem operatorAbort_of_aborts {errorCode : ErrorCode} {errorMessage : Str}
    (h : (Message.error errorCode errorMessage).aborts .operationAbortedByOperator = true) :
    errorMessageType (some (errorCode, errorMessage)) = .abort ∧
      errorMessageAbort errorMessage = .operationAbortedByOperator := by
  cases Client.abortCause_of_answer (of_decide_eq_true h) (.inr rfl) with
  | byOperator _ htype hcode => exact ⟨htype, hcode⟩

/-- An error packet that aborts by the operator is an ABORT of the host. -/
theorem abortOperation_of_aborts {o : Host.Output} {m : Message} (hplain : o.plain = true)
    (hsends : hostSends o = some m) (habort : m.aborts .operationAbortedByOperator = true) :
    ∃ remote, o = .abortOperation remote .operationAbortedByOperator := by
  cases o with
  | abortOperation remote code =>
    cases hsends
    have htext := (operatorAbort_of_aborts habort).2
    rw [errorMessageAbort_abortErrorMessage] at htext
    cases code <;> first | exact ⟨remote, rfl⟩ | cases htext
  | errorOperation remote errorCode errorMessage =>
    cases hsends
    -- No other error of the operation leaves its code open.
    have htype := (operatorAbort_of_aborts habort).1
    have hcode : errorCode ≠ .notDefined := of_decide_eq_true hplain
    cases errorCode <;> first | exact absurd rfl hcode | cases htype
  | gracefulAbort operation errorCode errorMessage =>
    cases hsends
    have htext := (operatorAbort_of_aborts habort).2
    rcases of_decide_eq_true hplain with rfl | rfl <;> cases htext
  | clientWriteOperation operation filename file =>
    cases hsends
    cases habort
  | _ => cases hsends

/-! ## The chain -/

variable {session : Session} {c c' : session.network.Snapshot}
  {es : List (Σ i : Party, i.Event)} {tr out : List (Σ i : Party, i.Output)}
  {e : Σ i : Party, i.Event}

open Session

/-- An ABORT by the operator that was sent is one of the user. -/
theorem abort_of_sent (hrun : session.system.exec session.start es = some (c, tr)) {m : Message}
    (hm : m ∈ c.sent) (habort : m.aborts .operationAbortedByOperator = true) :
    ⟨.host, .abort .operator⟩ ∈ es := by
  have hstart : m ∉ session.start.sent := by
    intro hmem
    obtain ⟨data, rfl, -⟩ := mem_sent_start hmem
    cases habort
  obtain ⟨i, o, ho, hsends⟩ := Network.exists_sender hrun hm hstart
  cases i with
  | host =>
    obtain ⟨es₁, f, s, tr₁, s', os, hes, -, hexec, hstep, hos⟩ := host_output hrun ho
    have hs := Host.consistent_run hexec
    obtain ⟨remote, rfl⟩ :=
      abortOperation_of_aborts (Host.plain_of_step hs hstep hos) hsends habort
    obtain ⟨-, hcode⟩ := Host.pending_of_abortOperation hs hstep hos
    have hoperator : s.abortReason = .operator := by
      cases hreason : s.abortReason <;> rw [hreason] at hcode <;> first | rfl | cases hcode
    exact hes _ (Host.abort_operator_run hexec hoperator)
  | target =>
    cases o <;> cases hsends <;> cases habort

/-- **Aborts**: behind every run of a session, the application of the target is asked to
abort by the operator only where the user of the host has aborted so. -/
theorem session_abort (hrun : session.system.exec session.start es = some (c, tr))
    (hstep : session.system.step c e = some (c', out))
    (ho : ⟨.target, .abortRequest .abortByOperator⟩ ∈ out) : ⟨.host, .abort .operator⟩ ∈ es := by
  obtain ⟨f, s, os, -, hsupplied, htarget, hos⟩ := target_step hstep ho
  cases Target.passedBy_of_step htarget hos rfl with
  | abortByOperator ht hkind =>
    obtain ⟨m, hm, habort⟩ := Network.exists_of_supplied hsupplied rfl
    exact abort_of_sent hrun hm habort

/-- The operator aborts an upload, and the first status is answered with an ABORT. -/
def exampleAbort : List (Σ i : Party, i.Event) :=
  exampleStart ++
    [⟨.host, .abort .operator⟩, ⟨.target, .advance Timers.second⟩, ⟨.target, .timerExpired⟩,
      ⟨.target, .timerHandler .success⟩,
      ⟨.host, .tftpRequest (Host.exampleRequest .write "HNPFMS_L.LUS")⟩]

/-- The application of the target is asked to abort. -/
theorem session_abort_operator : ⟨.host, .abort .operator⟩ ∈ exampleAbort :=
  @session_abort (exampleSession .upload) _ _ exampleAbort _ _
    ⟨.target, .clientCompleted 1 .operationAbortedByOperator⟩ rfl rfl (.head _)

end Arinc615a.System
