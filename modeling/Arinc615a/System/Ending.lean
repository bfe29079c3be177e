import Arinc615a.System.Aborts
import Arinc615a.System.Requests
import Arinc615a.Target.Ending

/-!
# How a session ends

From every state that a run reaches with both parties idle, the user of the host can abort
the operation, and where its status operation can be replaced, the application of the
target can end it: with the timer of the target, the transfer of one status and the returns
of the handlers alone, the application is asked to abort (`session_aborts`), and the user
and the application are both told the end (`session_ends`).
-/

namespace Arinc615a.System

open Machines Readers
open Files Information Tftp

variable {session : Session} {c c' : session.network.Snapshot}
  {es : List (Σ i : Party, i.Event)} {tr : List (Σ i : Party, i.Output)}

open Session

/-- The events that neither the user of the host nor the application of the target causes. -/
def unattended : (Σ i : Party, i.Event) → Bool
  | ⟨.host, .abort _⟩ => false
  | ⟨.host, .terminate _⟩ => false
  | ⟨.host, f⟩ => !f.sends
  | ⟨.target, .application _⟩ => false
  | ⟨.target, _⟩ => true

/-- The host has not ended, and waits for requests. -/
structure Listens (s : Host.State) : Prop where
  callback : s.callback = none
  serverRunning : s.serverRunning = true
  abortReason : s.abortReason = .noAbort

theorem not_takes_ofTimer {e : Target.Event} (h : e.ofTimer = true) {s : Target.State}
    {p : (Message → Bool) → Bool} : (targetTakes s e).all p = true := by
  cases e <;> first | rfl | cases h

theorem unattended_ofTimer {e : Target.Event} (h : e.ofTimer = true) :
    unattended ⟨.target, e⟩ = true := by
  cases e <;> first | rfl | cases h

/-! ## The end in the host -/

theorem statusReaction_final {status : OperationStatus} {finalStatus : FinalStatus}
    (hcode : status.status.code = statusCodeOfFinalStatus finalStatus) :
    Host.statusReaction (arrivedStatus status).status =
      .finish status.status.code (cut status.status.description) := by
  rw [status_arrivedStatus, Host.statusReaction, cutStatus, hcode]
  cases finalStatus <;> rfl

/-- The status of the end arrives, and ends the operation of the host. -/
theorem host_ends (hvalid : session.target.targetId.isValid = true)
    (hversion : session.target.protocolVersion.Supported)
    (hrun : session.system.exec session.start es = some (c, tr)) {remote : Endpoint}
    {operation : Target.TransferId} {filename : Str} {status : OperationStatus} {file : RawData}
    {finalStatus : FinalStatus}
    (hsent : ⟨.target, .statusFile remote operation filename status file⟩ ∈ tr)
    (hcode : status.status.code = statusCodeOfFinalStatus finalStatus)
    (hhost : Listens (c.party .host)) :
    ∃ es' c' tr', (∀ e ∈ es', unattended e = true) ∧ session.system.exec c es' = some (c', tr') ∧
      c'.party .target = c.party .target ∧
      ⟨.host, .finished status.status.code (cut status.status.description)⟩ ∈ tr' := by
  obtain ⟨request, rfl, hwrite⟩ : ∃ request : Request,
      request.filename = filename ∧ request.requestType = .write :=
    ⟨⟨⟨0, 0⟩, .write, filename, [], {}⟩, rfl, rfl⟩
  obtain ⟨c₁, out, e, hserved, hawaits⟩ := serves_statusFile hvalid hrun hwrite hsent
    hhost.callback hhost.serverRunning hhost.abortReason
  have hrun₁ := Machine.exec_append_singleton.mpr ⟨_, _, _, hrun, hserved, rfl⟩
  cases hawaits with
  | @statusFile transfer t _ hidle ht hkind hkept =>
    have hm : .statusFile file ∈ c₁.sent :=
      Network.sent_of_step hserved (sent_of_mem hrun hsent rfl)
    have hdecode := decodeStatus_arrived hversion (sentStatus_of_mem hrun hsent)
    have hr : Host.reaction session.host (c₁.party .host)
        (.serverCompleted transfer .successful file) =
          some (.call (.status (arrivedStatus status))) := by
      simp [Host.reaction, hidle, ht, hkind, hkept, Host.statusFileReaction, session.operation_eq,
        hdecode]
    have hreceived := host_reacts hrun₁
      ((supplied_serverCompleted ht (by rw [hkind]; rfl)).mpr hm) hr
    have hrun₂ := Machine.exec_append_singleton.mpr ⟨_, _, _, hrun₁, hreceived, rfl⟩
    have hreturned := host_reacts hrun₂ rfl (f := .callbackReturned)
      (r := .finish status.status.code (cut status.status.description)) (by
        rw [Network.party_after_self]
        exact congrArg some (statusReaction_final hcode))
    have hexec := Machine.exec_cons.mpr ⟨_, _, _, hserved, Machine.exec_cons.mpr
      ⟨_, _, _, hreceived, Machine.exec_cons.mpr
        ⟨_, _, _, hreturned, Machine.exec_nil .., rfl⟩, rfl⟩, rfl⟩
    have htarget : some (c.party .target, []) = some (_, _) := Network.exec_own hexec .target
    refine ⟨_, _, _, ?_, hexec, (Prod.mk.inj (Option.some.inj htarget)).1.symm, ?_⟩
    · intro e he
      rcases List.mem_cons.mp he with rfl | he
      · rfl
      rcases List.mem_pair.mp he with rfl | rfl <;> rfl
    · exact List.mem_append_right _ (List.mem_append_right _ (.head _))

/-- **Endings**: from every state that a run of a session with a valid target ID reaches
with both parties idle and no abort pending, and with no status in flight or a library that
does not complete destroyed operations (`Target.Replaceable`), the application can end the
operation, if the status of the end can be encoded: without anything else that it or the
user does, the user can be told the code of the final status, and the application the final
status that this code stands for. That is the one it has called for, but for a load or file
that failed, whose code is that of an abort by the target. -/
theorem session_ends (hvalid : session.target.targetId.isValid = true)
    (hversion : session.target.protocolVersion.Supported)
    (hrun : session.system.exec session.start es = some (c, tr))
    (hhost : Listens (c.party .host)) (hidle : (c.party .target).callback = none)
    (hreplaceable : Target.Replaceable session.target (c.party .target).statusOperation)
    {finalStatus : FinalStatus} {description : Str}
    (hencode : ∃ file, Target.encodeStatus session.target.protocolVersion
      (Target.finalReport finalStatus description (c.party .target).status) = .ok file) :
    ∃ es' c' tr', (∀ e ∈ es', unattended e = true) ∧
      session.system.exec c
        (⟨.target, .application (.finished finalStatus description)⟩ :: es') = some (c', tr') ∧
      ⟨.host, .finished (statusCodeOfFinalStatus finalStatus) (cut description)⟩ ∈ tr' ∧
      ⟨.target, .finished (finalStatusOfStatusCode (statusCodeOfFinalStatus finalStatus))
        description⟩ ∈ tr' := by
  obtain ⟨file, hencode⟩ := hencode
  obtain ⟨timers, s₁, o₁, s₂, htimers, hreported, hsent, hconcluded⟩ :=
    Target.exists_ending hidle hreplaceable hencode
  -- The target sends the status.
  have hfirst := Network.exec_party (c := c) (i := .target) hreported
    (fun e he _ => by
      rcases List.mem_cons.mp he with rfl | he
      · rfl
      · exact not_takes_ofTimer (htimers e he))
  have hrun₁ := Machine.exec_append.mpr ⟨_, _, _, hrun, hfirst, rfl⟩
  -- It ends the host.
  have hne : Party.host ≠ .target := nofun
  have hlistens : Listens ((c.after .target s₁ o₁).party .host) := by
    rwa [Network.party_after_of_ne hne]
  obtain ⟨es₂, c₂, tr₂, hes₂, hexec₂, htarget, hfinished⟩ := host_ends hvalid hversion hrun₁
    (List.mem_append_right _ (List.mem_map_of_mem hsent)) (Target.code_finalReport ..) hlistens
  rw [Target.code_finalReport, Target.description_finalReport] at hfinished
  -- The transfer completes in the target.
  rw [Network.party_after_self] at htarget
  have hlast := Network.exec_party (c := c₂) (i := .target)
    (htarget ▸ hconcluded) (fun e he _ => by rcases List.mem_pair.mp he with rfl | rfl <;> rfl)
  have hexec := Machine.exec_append.mpr
    ⟨_, _, _, hfirst, Machine.exec_append.mpr ⟨_, _, _, hexec₂, hlast, rfl⟩, rfl⟩
  refine ⟨_, _, _, ?_, hexec, ?_, ?_⟩
  · intro e he
    rcases List.mem_append.mp he with he | he
    · obtain ⟨f, hf, rfl⟩ := List.mem_map.mp he
      exact unattended_ofTimer (htimers f hf)
    rcases List.mem_append.mp he with he | he
    · exact hes₂ e he
    · rcases List.mem_pair.mp he with rfl | rfl <;> rfl
  · exact List.mem_append_right _ (List.mem_append_left _ hfinished)
  · exact List.mem_append_right _ (List.mem_append_right _ (by simp))

/-- An upload that completes behind its start. -/
theorem session_ends_upload : ∃ c tr,
    (exampleSession .upload).system.exec (exampleSession .upload).start exampleStart =
        some (c, tr) ∧
      ∃ es' c' tr', (∀ e ∈ es', unattended e = true) ∧
        (exampleSession .upload).system.exec c
          (⟨.target, .application (.finished .completed (str "Done"))⟩ :: es') = some (c', tr') ∧
        ⟨.host, .finished .operationCompleted (str "Done")⟩ ∈ tr' ∧
        ⟨.target, .finished .completed (str "Done")⟩ ∈ tr' :=
  ⟨_, _, rfl, @session_ends (exampleSession .upload) _ exampleStart _ rfl (.inr rfl) rfl
    ⟨rfl, rfl, rfl⟩ rfl (fun _ => rfl) .completed (str "Done") ⟨_, rfl⟩⟩

/-! ## Aborts -/

/-- An ABORT of the operator is taken for one. -/
theorem aborts_operator : (Message.error .notDefined
    (abortErrorMessage .operationAbortedByOperator)).aborts .operationAbortedByOperator = true := by
  decide

/-- The user aborts. -/
theorem user_aborts (hrun : session.system.exec session.start es = some (c, tr))
    (hhost : Listens (c.party .host)) :
    ∃ c' out, session.system.step c ⟨.host, .abort .operator⟩ = some (c', out) ∧
      c'.party .target = c.party .target ∧ (c'.party .host).callback = none ∧
      (c'.party .host).serverRunning = true ∧ (c'.party .host).abortReason = .operator := by
  have hne : Party.target ≠ .host := nofun
  refine ⟨_, _, host_reacts hrun rfl rfl, Network.party_after_of_ne hne .., ?_⟩
  rw [Network.party_after_self]
  have hstate : (Host.Reaction.abort .operator).state session.host (c.party .host) =
      { c.party .host with abortReason := .operator } := if_pos hhost.abortReason
  change ((Host.Reaction.abort .operator).state session.host (c.party .host)).callback = none ∧
    ((Host.Reaction.abort .operator).state session.host (c.party .host)).serverRunning = true ∧
    ((Host.Reaction.abort .operator).state session.host (c.party .host)).abortReason = .operator
  rw [hstate]
  exact ⟨hhost.callback, hhost.serverRunning, rfl⟩

/-- With an abort of the operator pending, the host answers a status file with it. -/
theorem host_aborts (hvalid : session.target.targetId.isValid = true)
    (hrun : session.system.exec session.start es = some (c, tr)) {remote : Endpoint}
    {operation : Target.TransferId} {filename : Str} {status : OperationStatus} {file : RawData}
    (hsent : ⟨.target, .statusFile remote operation filename status file⟩ ∈ tr)
    (hidle : (c.party .host).callback = none) (hserver : (c.party .host).serverRunning = true)
    (hpending : (c.party .host).abortReason = .operator) :
    ∃ request c' out, session.system.step c ⟨.host, .tftpRequest request⟩ = some (c', out) ∧
      c'.party .target = c.party .target ∧
      .error .notDefined (abortErrorMessage .operationAbortedByOperator) ∈ c'.sent := by
  obtain ⟨request, rfl, hwrite⟩ : ∃ request : Request,
      request.filename = filename ∧ request.requestType = .write :=
    ⟨⟨⟨0, 0⟩, .write, filename, [], {}⟩, rfl, rfl⟩
  obtain ⟨hchecks, haction⟩ := writes_statusFile hvalid hrun hsent
  obtain ⟨out, hstep⟩ := host_serves hrun hidle hserver hwrite hchecks
  have hne : Party.target ≠ .host := by decide
  have habort : (c.party .host).abortReason ≠ .noAbort := by
    rw [hpending]
    decide
  refine ⟨request, _, out, hstep, Network.party_after_of_ne hne .., ?_⟩
  rw [Network.sent_after, haction, Host.actionOutputs, if_neg habort, hpending]
  exact List.mem_append_right _ (.head _)

/-- A status that was sent is answered with the ABORT of the user, and its transfer in the
target ends with it. -/
theorem abort_arrives (hvalid : session.target.targetId.isValid = true)
    (hrun : session.system.exec session.start es = some (c, tr)) {o : Target.Output}
    (ho : ⟨.target, o⟩ ∈ tr) (hstarts : Target.startsStatusFile o = true)
    (hidle : (c.party .host).callback = none) (hserver : (c.party .host).serverRunning = true)
    (hpending : (c.party .host).abortReason = .operator) {operation : Target.TransferId}
    {s : Target.State}
    (hpassed : (Target.machine session.target).step (c.party .target)
      (.clientCompleted operation .operationAbortedByOperator) =
        some (s, [.abortRequest .abortByOperator])) :
    ∃ es' c' tr', (∀ e ∈ es', unattended e = true) ∧ session.system.exec c es' = some (c', tr') ∧
      ⟨.target, .abortRequest .abortByOperator⟩ ∈ tr' := by
  cases o with
  | statusFile remote transfer filename status file =>
    obtain ⟨request, c₁, out, hserved, htarget, hm⟩ :=
      host_aborts hvalid hrun ho hidle hserver hpending
    have hsupplied : session.network.supplied c₁
        ⟨.target, .clientCompleted operation .operationAbortedByOperator⟩ = true :=
      List.any_eq_true.mpr ⟨_, hm, aborts_operator⟩
    have hlast := Network.step_iff.mpr ⟨hsupplied, _, _, htarget ▸ hpassed, rfl, rfl⟩
    have hexec := Machine.exec_cons.mpr
      ⟨_, _, _, hserved, Machine.exec_singleton.mpr hlast, rfl⟩
    refine ⟨_, _, _, ?_, hexec, by simp⟩
    intro e he
    rcases List.mem_pair.mp he with rfl | rfl <;> rfl
  | _ => cases hstarts

/-- **Aborts**: from every state that a run of a session with a valid target ID reaches
with both parties idle and no abort pending, the user can abort the operation, if a status
file is in flight, or the timer of the target waits and its status can be encoded: without
anything else that the user or the application does, the application can be asked to
abort. -/
theorem session_aborts (hvalid : session.target.targetId.isValid = true)
    (hrun : session.system.exec session.start es = some (c, tr))
    (hhost : Listens (c.party .host)) (hidle : (c.party .target).callback = none)
    (htimer : (c.party .target).statusOperation = none →
      (c.party .target).timer.deadline.isSome ∧
        ∃ file, Target.encodeStatus session.target.protocolVersion
          (Target.statusToSend (c.party .target).status) = .ok file) :
    ∃ es' c' tr', (∀ e ∈ es', unattended e = true) ∧
      session.system.exec c (⟨.host, .abort .operator⟩ :: es') = some (c', tr') ∧
      ⟨.target, .abortRequest .abortByOperator⟩ ∈ tr' := by
  obtain ⟨c₁, out, hcall, htarget₁, hidle₁, hserver₁, hpending₁⟩ := user_aborts hrun hhost
  have hrun₁ := Machine.exec_append_singleton.mpr ⟨_, _, _, hrun, hcall, rfl⟩
  cases hoperation : (c.party .target).statusOperation with
  | some operation =>
    -- The status in flight is answered with the ABORT.
    obtain ⟨o, ho, hstarts⟩ :=
      Target.started_of_inFlight (target_run hrun) (by rw [hoperation]; rfl)
    obtain ⟨t, sentStatus, ht, hkind⟩ :=
      (Target.members_run (target_run hrun)).exists_transfer hoperation
    obtain ⟨es₂, c₂, tr₂, hes₂, hexec₂, hrequest⟩ := abort_arrives hvalid hrun₁
      (List.mem_append_left _ (mem_own.mp ho)) hstarts hidle₁ hserver₁ hpending₁
      (htarget₁ ▸ Target.passes_abort ht hkind hidle)
    exact ⟨es₂, c₂, _, hes₂, Machine.exec_cons.mpr ⟨_, _, _, hcall, hexec₂, rfl⟩,
      List.mem_append_right _ hrequest⟩
  | none =>
    obtain ⟨hwaits, file, hencode⟩ := htimer hoperation
    obtain ⟨timers, s₁, o₁, s₂, htimers, hsends, hsent, hpassed⟩ :=
      Target.exists_sent hidle hwaits (by rw [hoperation]; exact fun h => by cases h) hencode
    -- The target sends its status, which is answered with the ABORT.
    have htimers' := Network.exec_party (c := c₁) (i := .target)
      (htarget₁ ▸ hsends) (fun e he _ => not_takes_ofTimer (htimers e he))
    have hrun₂ := Machine.exec_append.mpr ⟨_, _, _, hrun₁, htimers', rfl⟩
    have hne : Party.host ≠ .target := by decide
    have hhost₂ : (c₁.after .target s₁ o₁).party .host = c₁.party .host :=
      Network.party_after_of_ne hne ..
    obtain ⟨es₂, c₂, tr₂, hes₂, hexec₂, hrequest⟩ := abort_arrives hvalid hrun₂
      (List.mem_append_right _ (List.mem_map_of_mem hsent)) rfl (hhost₂ ▸ hidle₁)
      (hhost₂ ▸ hserver₁) (hhost₂ ▸ hpending₁) (by rw [Network.party_after_self]; exact hpassed)
    have hexec := Machine.exec_cons.mpr ⟨_, _, _, hcall, Machine.exec_append.mpr
      ⟨_, _, _, htimers', hexec₂, rfl⟩, rfl⟩
    refine ⟨_, _, _, ?_, hexec, ?_⟩
    · intro e he
      rcases List.mem_append.mp he with he | he
      · obtain ⟨f, hf, rfl⟩ := List.mem_map.mp he
        exact unattended_ofTimer (htimers f hf)
      · exact hes₂ e he
    · exact List.mem_append_right _ (List.mem_append_right _ hrequest)

/-- The operator aborts an upload behind its start. -/
theorem session_aborts_upload : ∃ c tr,
    (exampleSession .upload).system.exec (exampleSession .upload).start exampleStart =
        some (c, tr) ∧
      ∃ es' c' tr', (∀ e ∈ es', unattended e = true) ∧
        (exampleSession .upload).system.exec c (⟨.host, .abort .operator⟩ :: es') =
          some (c', tr') ∧
        ⟨.target, .abortRequest .abortByOperator⟩ ∈ tr' :=
  ⟨_, _, rfl, @session_aborts (exampleSession .upload) _ exampleStart _ rfl rfl
    ⟨rfl, rfl, rfl⟩ rfl fun _ => ⟨rfl, _, rfl⟩⟩

end Arinc615a.System
