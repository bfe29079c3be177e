import Arinc615a.Target.StatusSteps

/-!
# The final status of a target operation

`finished` stores the final status, and the status file that carries it is sent
later. Until then the operation goes on writing its status itself: behind the
first status of an information operation, when a list was sent or was not, and
when a request file could not be received. The final status is final exactly if
none of these comes behind it with another code (`target_finalStatus_iff`).
-/

namespace Arinc615a.Target

open Actions Machines Readers Timers
open Files Information Tftp

/-! ## The law -/

/-- The calls that report the status of the operation. -/
def ApplicationCall.isReport : ApplicationCall → Bool
  | accepted => true
  | inProgress _ _ _ => true
  | inProgressList _ _ _ _ => true
  | finished _ _ => true
  | _ => false

/-- The application called `finished`. -/
def FinishedCalled (es : List Event) : Prop :=
  ∃ finalStatus description, .application (.finished finalStatus description) ∈ es

/-- The last report of the application is this final status. -/
def LastReported (es : List Event) (finalStatus : FinalStatus) : Prop :=
  ∃ before description after,
    es = before ++ .application (.finished finalStatus description) :: after ∧
      ∀ call, .application call ∈ after → call.isReport = false

variable {cfg : Configuration} {s₀ s : State}

/-- The final status is final: behind `finished` no event but a call of the
application changes the status code, and until the application reports again,
every status file carries the code of the final status. -/
structure FinalStatusLaw (cfg : Configuration) (s₀ : State) (es : List Event) : Prop where
  unchanged : ∀ pre tr s e s' out, (machine cfg).HasStep s₀ es pre tr s e s' out →
    FinishedCalled pre → e.Internal → s'.code = s.code
  carried : ∀ pre tr s e s' out finalStatus, (machine cfg).HasStep s₀ es pre tr s e s' out →
    LastReported (pre ++ [e]) finalStatus →
      ∀ remote operation filename sentStatus file,
        .statusFile remote operation filename sentStatus file ∈ out →
          sentStatus.status.code = statusCodeOfFinalStatus finalStatus

/-- A transfer that completes keeps the code: a list of an information operation
that was sent completes it, and a failure is an abort by the target. -/
def KeepsCodeTransfer (cfg : Configuration) (s : State) (status : TransferStatus) :
    TransferKind → Prop
  | .listFile =>
    if status ≠ .successful then s.code = .operationAbortedByTargetHw
    else cfg.operation = .information → s.code = .operationCompleted
  | _ => True

/-- An event whose handler writes no other code than the one that is stored. -/
def KeepsCode (cfg : Configuration) (s : State) : Event → Prop
  | .clientCompleted operation status =>
    ∀ t, transfer? s operation = some t → KeepsCodeTransfer cfg s status t.kind
  | .serverCompleted operation status data =>
    ∀ t, transfer? s operation = some t → t.kind = .requestFile →
      Delivered cfg status data ∨ s.code = .operationAbortedByTargetHw
  | .callbackReturned =>
    ∀ sentStatus, s.callback = some (.status sentStatus) → cfg.operation = .information →
      sentStatus.status.code = .operationAccepted → s.code = .operationInProgress
  | .callbackThrew => s.callback = some .receivedFile → s.code = .operationAbortedByTargetHw
  | _ => True

/-! ## The code behind a reaction -/

/-- A report of the operation itself stores its code. -/
theorem code_report {code : StatusCode} {description : Str} {estimatedTime : Int16}
    (hcode : code ≠ .invalid) (status : OperationStatus) :
    ((Reaction.report (reported code description estimatedTime)).updated cfg status).status.code =
      code := by
  have hreported : (reported code description estimatedTime status).status.code = code := by
    rw [status_reported]
    rfl
  simp only [Reaction.updated]
  split
  · have hset : (reported code description estimatedTime status).status.code ≠ .invalid := by
      rw [hreported]
      exact hcode
    rw [statusToSend_eq hset, hreported]
  · exact hreported

theorem code_failed (description : Str) (status : OperationStatus) :
    ((Reaction.report (failed description)).updated cfg status).status.code =
      .operationAbortedByTargetHw := code_report (by decide) status

theorem keepsCode_listFile {status : TransferStatus} {r : Reaction}
    (h : listFileReaction cfg s status = some r) (hcode : s.code ≠ .invalid) :
    KeepsCodeTransfer cfg s status .listFile ↔ (r.updated cfg s.status).status.code = s.code := by
  simp only [KeepsCodeTransfer]
  cases hop : cfg.operation with
  | information =>
    simp only [listFileReaction, hop, Option.some.injEq, hcode, if_false] at h
    split at h
    · rename_i hstatus
      rw [if_pos hstatus, ← h, code_failed]
      exact eq_comm
    · rename_i hstatus
      -- The code is set, so the operation does not end without a status.
      rw [if_neg hstatus, ← h, code_report (by decide)]
      simp [eq_comm]
  | operatorDefinedDownload =>
    simp only [listFileReaction, hop, Option.some.injEq] at h
    split at h
    · rename_i hstatus
      rw [if_pos hstatus, ← h, code_failed]
      exact eq_comm
    · rename_i hstatus
      rw [if_neg hstatus, ← h]
      simp [Reaction.updated]
  | _ => simp [listFileReaction, hop] at h

theorem keepsCode_requestFile {status : LibraryTransferStatus} {data : RawData} {r : Reaction}
    (h : requestFileReaction cfg status data = some r) :
    (Delivered cfg status data ∨ s.code = .operationAbortedByTargetHw) ↔
      (r.updated cfg s.status).status.code = s.code := by
  have hfailed : ∀ description, ¬ Delivered cfg status data →
      Reaction.report (failed description) = r →
      ((Delivered cfg status data ∨ s.code = .operationAbortedByTargetHw) ↔
        (r.updated cfg s.status).status.code = s.code) := by
    intro description hnot hr
    subst hr
    rw [code_failed]
    simp [hnot, eq_comm]
  unfold requestFileReaction at h
  split at h
  · cases h
  split at h
  · rename_i hstatus
    exact hfailed _ (fun hd => hstatus hd.1) (Option.some.inj h)
  rename_i hstatus
  split at h
  · cases h
  · rename_i hdecode
    exact hfailed _ (by simp [Delivered, hdecode]) (Option.some.inj h)
  · rename_i protocolVersion received rest hdecode
    rw [Option.some.injEq] at h
    split at h
    · rename_i hversion
      exact hfailed _ (by simp [Delivered, hdecode, hversion]) h
    · rename_i hversion
      rw [not_not.mp hversion] at hdecode
      subst h
      exact iff_of_true (.inl ⟨not_not.mp hstatus, received, rest, hdecode⟩) rfl

theorem keepsCode_status {sentStatus : OperationStatus} :
    (cfg.operation = .information → sentStatus.status.code = .operationAccepted →
        s.code = .operationInProgress) ↔
      ((statusReaction cfg sentStatus).updated cfg s.status).status.code = s.code := by
  cases hcode : sentStatus.status.code with
  | operationAccepted =>
    simp only [statusReaction, hcode, forall_const]
    split
    · rename_i hop
      rw [code_report (by decide)]
      simp [hop, eq_comm]
    · rename_i hop
      simp [hop, Reaction.updated]
  | _ => simp [statusReaction, hcode, Reaction.updated]

/-- **The code behind a step**: without a call of the application, a code that was
set is kept exactly if the event keeps it. -/
theorem keepsCode_iff {e : Event} {r : Reaction} (he : e.Internal)
    (h : reaction cfg s e = some r) (hcode : s.code ≠ .invalid) :
    KeepsCode cfg s e ↔ (r.updated cfg s.status).status.code = s.code := by
  cases e with
  | application call => exact absurd rfl (he call)
  | tftpRequest request =>
    obtain ⟨errorCode, errorMessage, rfl⟩ | rfl := tftpRequest_eq_some h <;>
      simp [KeepsCode, Reaction.updated]
  | clientCompleted operation status =>
    obtain ⟨t, ht, ⟨sentStatus, hkind, rfl⟩ | ⟨hkind, hr⟩⟩ := clientCompleted_eq_some h
    · simp only [KeepsCode, ht, Option.some.injEq, forall_eq', hkind, KeepsCodeTransfer]
      obtain ⟨c, hc⟩ | ⟨request, hc⟩ := statusFileReaction_cases sentStatus status <;>
        simp [hc, Reaction.updated]
    · simp only [KeepsCode, ht, Option.some.injEq, forall_eq', hkind]
      exact keepsCode_listFile hr hcode
  | serverCompleted operation status data =>
    obtain ⟨t, ht, ⟨hkind, rfl⟩ | ⟨hkind, hr⟩⟩ := serverCompleted_eq_some h
    · simp only [KeepsCode, ht, Option.some.injEq, forall_eq', hkind, reduceCtorEq,
        false_imp_iff, true_iff]
      obtain ⟨c, hc⟩ | hc := initialisationReaction_cases status <;> rw [hc] <;> rfl
    · simp only [KeepsCode, ht, Option.some.injEq, forall_eq', hkind, true_imp_iff]
      exact keepsCode_requestFile hr
  | callbackReturned =>
    obtain ⟨continuation, hcallback, rfl⟩ := Option.map_eq_some_iff.mp h
    cases continuation with
    | status sentStatus =>
      simp only [KeepsCode, hcallback, Option.some.injEq, Continuation.status.injEq, forall_eq']
      exact keepsCode_status
    | _ => simp [KeepsCode, hcallback, returnReaction, Reaction.updated]
  | callbackThrew =>
    obtain ⟨continuation, hcallback, rfl⟩ := Option.map_eq_some_iff.mp h
    cases continuation with
    | receivedFile =>
      simp only [KeepsCode, hcallback, true_imp_iff, throwReaction]
      rw [code_failed]
      exact eq_comm
    | _ => simp [KeepsCode, hcallback, throwReaction, Reaction.updated]
  | timerHandler result =>
    obtain rfl := timerHandler_eq_some h
    simp only [KeepsCode, true_iff]
    cases result with
    | operationAborted => rfl
    -- The status was set, so it is sent as it is.
    | _ => rw [timerReaction, Reaction.updated, statusToSend_eq hcode]
  | timerExpired =>
    cases nothing_of_eq_some (.inl rfl) h
    simp [KeepsCode, Reaction.updated]
  | timerFailed =>
    cases nothing_of_eq_some (.inr (.inl rfl)) h
    simp [KeepsCode, Reaction.updated]
  | advance time =>
    cases nothing_of_eq_some (.inr (.inr ⟨time, rfl⟩)) h
    simp [KeepsCode, Reaction.updated]

/-! ## Calls of the application -/

theorem inProgressCode_ne (description : Str) : inProgressCode cfg description ≠ .invalid := by
  unfold inProgressCode
  split <;> decide

theorem statusCodeOfFinalStatus_ne (finalStatus : FinalStatus) :
    statusCodeOfFinalStatus finalStatus ≠ .invalid := by
  cases finalStatus <;> decide

/-- Only reports transmit. -/
theorem isReport_of_callTransmits {call : ApplicationCall} (h : callTransmits call = true) :
    call.isReport = true := by
  cases call <;> first | rfl | cases h

/-- Reports set a code. -/
theorem code_callUpdate_ne {call : ApplicationCall} (h : call.isReport = true)
    (status : OperationStatus) : (callUpdate cfg call status).status.code ≠ .invalid := by
  cases call with
  | accepted => simp [callUpdate, Status.set]
  | inProgress immediateTransmission estimatedTime description =>
    simpa [callUpdate, Status.set] using inProgressCode_ne description
  | inProgressList immediateTransmission estimatedTime description listRatio =>
    simpa [callUpdate, Status.set] using inProgressCode_ne description
  | finished finalStatus description =>
    simpa [callUpdate, Status.set] using statusCodeOfFinalStatus_ne finalStatus
  | _ => cases h

/-- The other calls leave the status of the operation alone. -/
theorem status_callUpdate {call : ApplicationCall} (h : call.isReport = false)
    (status : OperationStatus) : (callUpdate cfg call status).status = status.status := by
  cases call with
  | accepted => cases h
  | inProgress immediateTransmission estimatedTime description => cases h
  | inProgressList immediateTransmission estimatedTime description listRatio => cases h
  | finished finalStatus description => cases h
  | loadAccepted headerFilename partNumber =>
    apply status_onUpload
    exact fun _ => rfl
  | loadInProgress headerFilename ratio description =>
    exact status_onUpload (fun _ => UploadStatus.toStatus_setLoad ..) status
  | loadFinished headerFilename finalStatus description =>
    exact status_onUpload (fun _ => UploadStatus.toStatus_setLoad ..) status
  | loadsFinished finalStatus description =>
    apply status_onUpload
    exact fun _ => rfl
  | fileAccepted filename =>
    apply status_onDownload
    exact fun _ => rfl
  | fileInProgress filename description =>
    exact status_onDownload (fun _ => DownloadStatus.toStatus_setFile ..) status
  | fileFinished filename finalStatus description =>
    exact status_onDownload (fun _ => DownloadStatus.toStatus_setFile ..) status
  | filesFinished finalStatus description =>
    apply status_onDownload
    exact fun _ => rfl
  | targetInformation targetsHardware checkValueType => rfl
  | downloadingList files => rfl

/-- A call that leaves a code set leaves the status it sets. -/
theorem updated_application {call : ApplicationCall} {r : Reaction} {status : OperationStatus}
    (h : reaction cfg s (.application call) = some r)
    (hcode : (callUpdate cfg call status).status.code ≠ .invalid) :
    r.updated cfg status = callUpdate cfg call status := by
  cases callReaction_of_reaction h with
  | thrown hid => exact (congrFun hid status).symm
  | sendList hid => exact (congrFun hid status).symm
  | report htransmits =>
    simp only [Reaction.updated]
    split
    · exact statusToSend_eq hcode
    · rfl
  | update hkeeps => rfl

/-- The code behind a call of the application. -/
theorem code_application {call : ApplicationCall} {s' : State} {out : List Output}
    (hstep : (machine cfg).step s (.application call) = some (s', out))
    (hcode : (callUpdate cfg call s.status).status.code ≠ .invalid) :
    s'.code = (callUpdate cfg call s.status).status.code := by
  obtain ⟨r, hr, hresult⟩ := step_iff.mp hstep
  rw [code_result hresult, status_taken, updated_application hr hcode]

theorem code_internal {e : Event} (he : e.Internal) (hcode : s.code ≠ .invalid) {s' : State}
    {out : List Output} (hstep : (machine cfg).step s e = some (s', out)) :
    KeepsCode cfg s e ↔ s'.code = s.code := by
  obtain ⟨r, hr, hresult⟩ := step_iff.mp hstep
  rw [keepsCode_iff he hr hcode, code_result hresult, status_taken]

/-! ## Runs -/

/-- A code that was set stays set. -/
theorem code_ne_step {e : Event} {s' : State} {out : List Output} (hcode : s.code ≠ .invalid)
    (hstep : (machine cfg).step s e = some (s', out)) : s'.code ≠ .invalid := by
  by_cases he : e.Internal
  · obtain ⟨r, hr, hresult⟩ := step_iff.mp hstep
    rw [code_result hresult, status_taken]
    cases r with
    | report f =>
      obtain ⟨code, description, estimatedTime, rfl, hne, -⟩ := own_reaction he hr
      rw [code_report hne]
      exact hne
    | update f => exact (own_reaction he hr).elim
    | transmit => exact code_statusToSend_ne s.status
    | _ => exact hcode
  · obtain ⟨call, rfl⟩ := Event.exists_call he
    have hcall : (callUpdate cfg call s.status).status.code ≠ .invalid := by
      cases hreport : call.isReport with
      | true => exact code_callUpdate_ne hreport s.status
      | false =>
        rw [status_callUpdate hreport]
        exact hcode
    rw [code_application hstep hcall]
    exact hcall

/-- Behind `finished` a code is set. -/
theorem code_ne_of_finishedCalled {es : List Event} {tr : List Output}
    (h : (machine cfg).exec s₀ es = some (s, tr)) : FinishedCalled es → s.code ≠ .invalid := by
  refine Machine.exec_history (fun es s _ => FinishedCalled es → s.code ≠ .invalid) ?_ ?_ h
  · intro hfinished
    rcases hfinished with ⟨finalStatus, description, hmem⟩
    cases hmem
  · intro es s tr e s' out _ ih hstep hfinished
    rcases hfinished with ⟨finalStatus, description, hmem⟩
    rcases List.mem_append.mp hmem with hmem | hmem
    · exact code_ne_step (ih ⟨finalStatus, description, hmem⟩) hstep
    · obtain rfl := List.mem_singleton.mp hmem
      have hcall : (callUpdate cfg (.finished finalStatus description) s.status).status.code ≠
          .invalid := code_callUpdate_ne rfl s.status
      rw [code_application hstep hcall]
      exact hcall

theorem LastReported.finishedCalled {es : List Event} {finalStatus : FinalStatus}
    (h : LastReported es finalStatus) : FinishedCalled es := by
  obtain ⟨before, description, after, rfl, -⟩ := h
  exact ⟨finalStatus, description, by simp⟩

/-- The last report of a run is its last event, or stands before it. -/
theorem lastReported_append {es : List Event} {e : Event} {finalStatus : FinalStatus}
    (h : LastReported (es ++ [e]) finalStatus) :
    (∃ description, e = .application (.finished finalStatus description)) ∨
      (LastReported es finalStatus ∧ ∀ call, e = .application call → call.isReport = false) := by
  obtain ⟨before, description, after, heq, hafter⟩ := h
  induction after using List.reverseRecOn with
  | nil =>
    -- Nothing stands behind the report: it is the last event.
    obtain ⟨-, he⟩ := List.append_inj' heq rfl
    exact .inl ⟨description, List.singleton_inj.mp he⟩
  | append_singleton after last _ =>
    have hassoc : before ++ .application (.finished finalStatus description) :: (after ++ [last]) =
        (before ++ .application (.finished finalStatus description) :: after) ++ [last] := by simp
    rw [hassoc] at heq
    obtain ⟨hes, he⟩ := List.append_inj' heq rfl
    obtain rfl := List.singleton_inj.mp he
    refine .inr ⟨⟨before, description, after, hes, fun call hmem => ?_⟩, ?_⟩
    · exact hafter call (List.mem_append_left _ hmem)
    · intro call hcall
      subst hcall
      exact hafter call (by simp)

/-- Every step behind `finished` keeps the code. -/
def CodeKept (cfg : Configuration) (s₀ : State) (es : List Event) : Prop :=
  ∀ pre tr s e s' out, (machine cfg).HasStep s₀ es pre tr s e s' out →
    FinishedCalled pre → e.Internal → s'.code = s.code

/-- Where the code is kept, it is the one that was reported last. -/
theorem code_of_lastReported {es : List Event} {tr : List Output}
    (h : (machine cfg).exec s₀ es = some (s, tr)) {finalStatus : FinalStatus} :
    CodeKept cfg s₀ es → LastReported es finalStatus →
      s.code = statusCodeOfFinalStatus finalStatus := by
  refine Machine.exec_history (fun es s _ => CodeKept cfg s₀ es → LastReported es finalStatus →
    s.code = statusCodeOfFinalStatus finalStatus) ?_ ?_ h
  · rintro - ⟨before, description, after, heq, -⟩
    simp at heq
  · intro es s tr e s' out hrun ih hstep hkept hlast
    rcases lastReported_append hlast with ⟨description, rfl⟩ | ⟨hbefore, hcall⟩
    · have hcode : (callUpdate cfg (.finished finalStatus description) s.status).status.code =
          statusCodeOfFinalStatus finalStatus := by
        rw [callUpdate, status_reported]
        rfl
      rw [code_application hstep (hcode ▸ statusCodeOfFinalStatus_ne finalStatus), hcode]
    · have hcode := ih (fun pre tr s e s' out hs => hkept pre tr s e s' out (hs.append _)) hbefore
      -- A call that is no report leaves the code alone, and so does any other event.
      by_cases he : e.Internal
      · rw [hkept _ _ _ _ _ _ (Machine.hasStep_last hrun hstep) hbefore.finishedCalled he, hcode]
      · obtain ⟨call, rfl⟩ := Event.exists_call he
        have hstatus : (callUpdate cfg call s.status).status = s.status.status :=
          status_callUpdate (hcall call rfl) s.status
        have hne : (callUpdate cfg call s.status).status.code ≠ .invalid := by
          rw [hstatus]
          exact code_ne_of_finishedCalled hrun hbefore.finishedCalled
        rw [code_application hstep hne, hstatus]
        exact hcode

/-- What a step sends carries the code that it leaves. -/
theorem sent_code {e : Event} {s' : State} {out : List Output}
    (hstep : (machine cfg).step s e = some (s', out)) {remote : Endpoint}
    {operation : TransferId} {filename : Str} {sentStatus : OperationStatus} {file : RawData}
    (hsent : .statusFile remote operation filename sentStatus file ∈ out) :
    sentStatus.status.code = s'.code := by
  obtain ⟨r, -, hresult⟩ := step_iff.mp hstep
  rw [code_result hresult, sent_result hresult hsent]

/-- The law holds where the code is kept. -/
theorem finalStatusLaw_iff {es : List Event} :
    FinalStatusLaw cfg s₀ es ↔ CodeKept cfg s₀ es := by
  refine ⟨fun law => law.unchanged, fun hkept => ⟨hkept, ?_⟩⟩
  intro pre tr s e s' out finalStatus hs hlast remote operation filename sentStatus file hsent
  obtain ⟨post, rfl, hrun, hstep⟩ := hs
  have hkept' : CodeKept cfg s₀ (pre ++ [e]) := by
    intro pre' tr' s e' s' out hs
    have happend := hs.append post
    rw [List.append_assoc] at happend
    exact hkept _ _ _ _ _ _ happend
  have hrun' : (machine cfg).exec s₀ (pre ++ [e]) = some (s', tr ++ out) :=
    Machine.exec_append_singleton.mpr ⟨s, tr, out, hrun, hstep, rfl⟩
  rw [sent_code hstep hsent, code_of_lastReported hrun' hkept' hlast]

/-- **The final status is final**: in a run of an operation, the law holds exactly
if every event behind `finished` keeps the code. -/
theorem target_finalStatus_iff {es : List Event} :
    FinalStatusLaw cfg s₀ es ↔
      ∀ pre tr s e s' out, (machine cfg).HasStep s₀ es pre tr s e s' out →
        FinishedCalled pre → KeepsCode cfg s e := by
  rw [finalStatusLaw_iff]
  constructor
  · intro hkept pre tr s e s' out hs hcalled
    obtain ⟨post, hes, hrun, hstep⟩ := hs
    by_cases he : e.Internal
    · exact (code_internal he (code_ne_of_finishedCalled hrun hcalled) hstep).mpr
        (hkept _ _ _ _ _ _ ⟨post, hes, hrun, hstep⟩ hcalled he)
    · obtain ⟨call, rfl⟩ := Event.exists_call he
      trivial
  · intro hkeeps pre tr s e s' out hs hcalled he
    obtain ⟨post, hes, hrun, hstep⟩ := hs
    exact (code_internal he (code_ne_of_finishedCalled hrun hcalled) hstep).mp
      (hkeeps _ _ _ _ _ _ ⟨post, hes, hrun, hstep⟩ hcalled)

/-- The application reports an abort while the target information is in
transmission: when that is done, the operation sends that it is completed. -/
theorem target_completes_behind_abort :
    ∃ s' tr, (machine (exampleConfiguration .information)).exec
        (started (exampleConfiguration .information) exampleHost none)
        [.serverCompleted 0 .successful [], .application (.targetInformation [] .notUsed),
          .application (.finished .abortedByDlp []),
          .clientCompleted 2 .operationAbortedByDlp, .clientCompleted 1 .successful] =
        some (s', tr) ∧
      s'.code = .operationCompleted ∧
      ¬ FinalStatusLaw (exampleConfiguration .information)
        (started (exampleConfiguration .information) exampleHost none)
        [.serverCompleted 0 .successful [], .application (.targetInformation [] .notUsed),
          .application (.finished .abortedByDlp []),
          .clientCompleted 2 .operationAbortedByDlp, .clientCompleted 1 .successful] := by
  refine ⟨_, _, rfl, rfl, fun law => ?_⟩
  have hcarried := law.carried
    [.serverCompleted 0 .successful [], .application (.targetInformation [] .notUsed),
      .application (.finished .abortedByDlp []), .clientCompleted 2 .operationAbortedByDlp]
    _ _ (.clientCompleted 1 .successful) _ _ .abortedByDlp ⟨[], rfl, rfl, rfl⟩
    ⟨[.serverCompleted 0 .successful [], .application (.targetInformation [] .notUsed)], [],
      [.clientCompleted 2 .operationAbortedByDlp, .clientCompleted 1 .successful], rfl,
      by simp⟩ _ _ _ _ _ (.head _)
  exact absurd hcarried (by decide)

end Arinc615a.Target
