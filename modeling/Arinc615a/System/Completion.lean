import Arinc615a.Host.Completed
import Arinc615a.System.Origins
import Arinc615a.Target.Completions

/-!
# Completions of a session

The user of the host is told that the operation has completed behind a status with that
code, or behind the list of an information operation. Along the session both lead back
to the application of the target: it has completed the operation, or has given the list
(`session_completed`).
-/

namespace Arinc615a.System

open Machines
open Files Information Tftp

variable {session : Session} {c c' : session.network.Snapshot}
  {es : List (Σ i : Party, i.Event)} {tr out : List (Σ i : Party, i.Output)}
  {e : Σ i : Party, i.Event}

open Session

/-! ## What the host is about to act on -/

/-- What comes from a run comes from every longer one. -/
theorem Origin.append {o : Σ i : Party, i.Output} (h : Origin es tr o)
    (es' : List (Σ i : Party, i.Event)) (tr' : List (Σ i : Party, i.Output)) :
    Origin (es ++ es') (tr ++ tr') o := by
  cases h with
  | initialisationResponse => exact .initialisationResponse
  | status h => exact .status (List.mem_append_left _ h)
  | targetInformation h => exact .targetInformation (List.mem_append_left _ h)
  | downloadingList h => exact .downloadingList (List.mem_append_left _ h)
  | received h hgiven => exact .received (List.mem_append_left _ h) hgiven

/-- The call that the host has made of the user's handler has its origin. -/
theorem origin_of_callback (hrun : session.system.exec session.start es = some (c, tr))
    {k : Host.Continuation} (hk : (c.party .host).callback = some k) :
    ∃ call : Host.Call, call.continuation = k ∧ Origin es tr ⟨.host, call.output⟩ := by
  refine Machine.exec_history (m := session.system)
    (fun es c tr => ∀ k, (c.party .host).callback = some k →
      ∃ call : Host.Call, call.continuation = k ∧ Origin es tr ⟨.host, call.output⟩)
    ?_ ?_ hrun k hk
  · intro k hk
    cases hk
  · intro es c tr e c' out hrun ih hstep k hk
    obtain ⟨i, f⟩ := e
    obtain ⟨hsupplied, s, os, hparty, rfl, rfl⟩ := Network.step_iff.mp hstep
    cases i with
    | host =>
      rw [Network.party_after_self] at hk
      have hs := Host.consistent_run (host_run hrun)
      rcases Host.callback_step hs hparty hk with ⟨call, hr, hcall, rfl⟩ | ⟨hbefore, -⟩
      · exact ⟨call, hcall,
          (origin_of_deliveredBy hrun hsupplied (Host.deliveredBy_of_reaction hr)).append _ _⟩
      · obtain ⟨call, hcall, horigin⟩ := ih k hbefore
        exact ⟨call, hcall, horigin.append _ _⟩
    | target =>
      have hne : Party.host ≠ .target := nofun
      rw [Network.party_after_of_ne hne] at hk
      obtain ⟨call, hcall, horigin⟩ := ih k hk
      exact ⟨call, hcall, horigin.append _ _⟩

/-! ## The completion of the target -/

/-- The application of the target has completed the operation, or has given the
information. -/
def CompletionGiven (session : Session) (es : List (Σ i : Party, i.Event)) : Prop :=
  (∃ description, ⟨.target, .application (.finished .completed description)⟩ ∈ es) ∨
    (session.target.operation = .information ∧ ∃ targetsHardware type,
      ⟨.target, .application (.targetInformation targetsHardware type)⟩ ∈ es)

/-- Only an information operation has the call that gives the information. -/
theorem information_of_mem (hrun : session.system.exec session.start es = some (c, tr))
    {targetsHardware : List TargetHardware} {type : CheckValueType}
    (h : ⟨.target, .application (.targetInformation targetsHardware type)⟩ ∈ es) :
    session.target.operation = .information := by
  obtain ⟨pre, post, hes⟩ := List.append_of_mem (mem_own.mpr h)
  obtain ⟨_, s, s', os, _, -, -, hstep⟩ := Machine.exists_hasStep (target_run hrun) hes
  obtain ⟨r, hr, -⟩ := Target.step_iff.mp hstep
  simpa [Target.offers] using Target.offers_of_reaction hr

/-- A status that was sent with the code of a completed operation. -/
theorem completionGiven_of_mem (hrun : session.system.exec session.start es = some (c, tr))
    {remote : Endpoint} {operation : Target.TransferId} {filename : Str}
    {status : OperationStatus} {file : RawData}
    (h : ⟨.target, .statusFile remote operation filename status file⟩ ∈ tr)
    (hcode : status.status.code = .operationCompleted) : CompletionGiven session es := by
  obtain ⟨es₁, f, s, tr₁, s', os, hes, hf, hexec, hstep, hos⟩ := target_output hrun h
  rw [Target.sent_code hstep hos] at hcode
  have hmem : ∀ g ∈ es₁ ++ [f], ⟨.target, g⟩ ∈ es := by
    intro g hg
    rcases List.mem_append.mp hg with hg | hg
    · exact hes g hg
    · rw [List.mem_singleton.mp hg]
      exact hf
  have hnext := Machine.exec_append_singleton.mpr ⟨s, tr₁, os, hexec, hstep, rfl⟩
  rcases Target.completionCalled_run hnext hcode with
    ⟨description, hcall⟩ | ⟨hop, targetsHardware, type, hcall⟩
  · exact .inl ⟨description, hmem _ hcall⟩
  · exact .inr ⟨hop, targetsHardware, type, hmem _ hcall⟩

/-- **Completions**: behind every run of a session, the user of the host is told that the
operation has completed only where the application of the target has completed it, or
has given the information. -/
theorem session_completed (hrun : session.system.exec session.start es = some (c, tr))
    (hstep : session.system.step c e = some (c', out)) {description : Str}
    (ho : ⟨.host, .finished .operationCompleted description⟩ ∈ out) :
    CompletionGiven session es := by
  obtain ⟨f, s, os, -, hsupplied, hhost, hos⟩ := host_step hstep ho
  obtain ⟨r, hr, -, rfl⟩ := (Host.step_iff (Host.consistent_run (host_run hrun))).mp hhost
  obtain rfl := Host.finish_of_mem hos
  obtain ⟨-, ⟨status, hcallback, hcode⟩ | ⟨hcallback, -⟩⟩ := Host.reaction_completed hr
  · obtain ⟨call, hcall, horigin⟩ := origin_of_callback hrun hcallback
    cases call with
    | status received =>
      cases hcall
      cases horigin with
      | @status _ _ _ status _ hmem =>
        rw [status_arrivedStatus] at hcode
        exact completionGiven_of_mem hrun hmem hcode
    | _ => cases hcall
  · obtain ⟨call, hcall, horigin⟩ := origin_of_callback hrun hcallback
    cases call with
    | targetInformation received integrityInformation =>
      cases horigin with
      | targetInformation hmem => exact .inr ⟨information_of_mem hrun hmem, _, _, hmem⟩
    | _ => cases hcall

/-- The application has completed an upload, and the host has received the status. -/
def exampleCompletion : List (Σ i : Party, i.Event) :=
  exampleStart ++
    [⟨.target, .application (.finished .completed [])⟩, ⟨.target, .timerExpired⟩,
      ⟨.target, .timerHandler .operationAborted⟩, ⟨.target, .timerHandler .success⟩,
      ⟨.host, .tftpRequest (Host.exampleRequest .write "HNPFMS_L.LUS")⟩,
      ⟨.host, .serverCompleted 1 .successful (insertHeader .arinc615a34
        [0, 3, 0, 0, 0, 0, 0, 0, 0, 32, 32, 48, 0, 0])⟩]

/-- The host is told so. -/
theorem session_completed_upload : CompletionGiven (exampleSession .upload) exampleCompletion :=
  @session_completed (exampleSession .upload) _ _ exampleCompletion _ _ ⟨.host, .callbackReturned⟩
    rfl rfl _ (.head _)

end Arinc615a.System
