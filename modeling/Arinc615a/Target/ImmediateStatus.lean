import Arinc615a.Target.StatusTransfers

/-!
# Immediate transmissions of the status

Uploads and downloads send their status at once by letting the one timer of the
operation expire. What arms the timer again takes this back: the return from
the handler's status callback does, for every file that was sent with a status
of an operation in progress, and so does the initialisation file.
-/

namespace Arinc615a.Target

open Actions Machines Readers Timers
open Files Information Tftp

/-! ## The law -/

/-- The event requests an immediate transmission: `accepted`, `inProgress` with
`immediateTransmission` and `finished`, called by the application or by the
operation itself. -/
def RequestsTransmission (cfg : Configuration) (s : State) (e : Event) : Prop :=
  ∃ f, reaction cfg s e = some (.report f)

/-- A run leads to the state, in which a request for the immediate transmission of
`requested` is pending: no status file was started since. The application may
have changed the status that is to be sent. -/
inductive Pending (cfg : Configuration) (s₀ : State) :
    List Event → State → OperationStatus → Prop where
  | requested {es : List Event} {s s' : State} {tr out : List Output} {e : Event}
    (hexec : (machine cfg).exec s₀ es = some (s, tr))
    (hrequest : RequestsTransmission cfg s e)
    (hstep : (machine cfg).step s e = some (s', out)) :
    Pending cfg s₀ (es ++ [e]) s' s'.status
  | internal {es : List Event} {s s' : State} {requested : OperationStatus}
    {out : List Output} {e : Event} (h : Pending cfg s₀ es s requested) (he : e.Internal)
    (hrequest : ¬ RequestsTransmission cfg s e)
    (hstep : (machine cfg).step s e = some (s', out))
    (hquiet : ∀ o ∈ out, startsStatusFile o = false) :
    Pending cfg s₀ (es ++ [e]) s' requested
  | changed {es : List Event} {s s' : State} {requested : OperationStatus}
    {out : List Output} {call : ApplicationCall} (h : Pending cfg s₀ es s requested)
    (hstep : (machine cfg).step s (.application call) = some (s', out))
    (hquiet : ∀ o ∈ out, startsStatusFile o = false) :
    Pending cfg s₀ (es ++ [.application call]) s' s'.status

/-- What a run owes while a request is pending. -/
structure ImmediateLaw (cfg : Configuration) (s₀ : State) (es : List Event) : Prop where
  /-- Unless it is requested again, the timer is armed behind the start of a status
  file only. -/
  notPostponed : ∀ pre tr s e s' out requested, (machine cfg).HasStep s₀ es pre tr s e s' out →
    Pending cfg s₀ pre s requested → ¬ RequestsTransmission cfg s e →
      ∀ before deadline after, out = before ++ .timerArmed deadline :: after →
        ∃ o ∈ before, startsStatusFile o = true
  /-- The status file that is started carries what was requested. -/
  carried : ∀ pre tr s e s' out requested, (machine cfg).HasStep s₀ es pre tr s e s' out →
    Pending cfg s₀ pre s requested →
      ∀ remote operation filename sentStatus file,
        .statusFile remote operation filename sentStatus file ∈ out → sentStatus = requested

/-- The events that arm the timer with the periodic rate: the initialisation file
was sent, and the return from the status callback of an operation in progress. -/
def RearmsTimer (s : State) : Event → Prop
  | .serverCompleted operation status _ =>
    status = .successful ∧ ∃ t, transfer? s operation = some t ∧ t.kind = .initialisation
  | .callbackReturned =>
    ∃ sentStatus, s.callback = some (.status sentStatus) ∧
      sentStatus.status.code ∈ [StatusCode.operationAccepted, .operationInProgress,
        .operationInProgressAdditionalInfo]
  | _ => False

/-- None of them stands behind a pending request. -/
def NotRearmed (cfg : Configuration) (s₀ : State) (es : List Event) : Prop :=
  ∀ pre tr s e s' out requested, (machine cfg).HasStep s₀ es pre tr s e s' out →
    Pending cfg s₀ pre s requested → ¬ RearmsTimer s e

/-! ## What arms the timer -/

variable {cfg : Configuration} {s : State}

/-- The reactions that arm the timer with the periodic rate. -/
def Reaction.rearms : Reaction → Bool
  | initialised => true
  | arm _ => true
  | _ => false

/-- The return from the status callback arms the timer of these. -/
theorem rearms_statusReaction (hop : cfg.operation ≠ .information)
    (sentStatus : OperationStatus) :
    (statusReaction cfg sentStatus).rearms = true ↔
      sentStatus.status.code ∈ [StatusCode.operationAccepted, .operationInProgress,
        .operationInProgressAdditionalInfo] := by
  cases hcode : sentStatus.status.code <;>
    simp [statusReaction, hcode, hop, Reaction.rearms]

theorem rearms_initialisationReaction (status : LibraryTransferStatus) :
    (initialisationReaction status).rearms = true ↔ status = .successful := by
  unfold initialisationReaction
  split <;> simp_all [Reaction.rearms]

theorem rearms_requestFile {status : LibraryTransferStatus} {data : RawData} {r : Reaction}
    (h : requestFileReaction cfg status data = some r) : r.rearms = false := by
  unfold requestFileReaction at h
  split at h
  · cases h
  split at h
  · cases h
    rfl
  split at h
  · cases h
  · cases h
    rfl
  · rw [Option.some.injEq] at h
    subst h
    split <;> rfl

theorem rearms_listFile {status : TransferStatus} {r : Reaction}
    (h : listFileReaction cfg s status = some r) : r.rearms = false := by
  unfold listFileReaction at h
  split at h
  · rw [Option.some.injEq] at h
    subst h
    split
    · rfl
    · split <;> rfl
  · rw [Option.some.injEq] at h
    subst h
    split <;> rfl
  · cases h

/-- The events are those that arm the timer with the periodic rate. -/
theorem rearmsTimer_iff (hop : cfg.operation ≠ .information) {e : Event} {r : Reaction}
    (h : reaction cfg s e = some r) : RearmsTimer s e ↔ r.rearms = true := by
  cases e with
  | application call =>
    cases callReaction_of_reaction h <;> simp [RearmsTimer, Reaction.rearms]
  | tftpRequest request =>
    obtain ⟨errorCode, errorMessage, rfl⟩ | rfl := tftpRequest_eq_some h <;>
      simp [RearmsTimer, Reaction.rearms]
  | clientCompleted operation status =>
    obtain ⟨t, -, ⟨sentStatus, -, rfl⟩ | ⟨-, hr⟩⟩ := clientCompleted_eq_some h
    · obtain ⟨c, hc⟩ | ⟨request, hc⟩ := statusFileReaction_cases sentStatus status <;> rw [hc] <;>
        simp [RearmsTimer, Reaction.rearms]
    · simp [RearmsTimer, rearms_listFile hr]
  | serverCompleted operation status data =>
    obtain ⟨t, ht, ⟨hkind, rfl⟩ | ⟨hkind, hr⟩⟩ := serverCompleted_eq_some h
    · simp [RearmsTimer, ht, hkind, rearms_initialisationReaction]
    · simp [RearmsTimer, ht, hkind, rearms_requestFile hr]
  | callbackReturned =>
    obtain ⟨continuation, hcallback, rfl⟩ := Option.map_eq_some_iff.mp h
    simp only [RearmsTimer, hcallback]
    cases continuation with
    | status sentStatus =>
      rw [returnReaction, rearms_statusReaction hop]
      simp
    | _ => simp [returnReaction, Reaction.rearms]
  | callbackThrew =>
    obtain ⟨continuation, hcallback, rfl⟩ := Option.map_eq_some_iff.mp h
    cases continuation <;> simp [RearmsTimer, throwReaction, Reaction.rearms]
  | timerHandler result =>
    obtain rfl := timerHandler_eq_some h
    cases result <;> simp [RearmsTimer, timerReaction, Reaction.rearms]
  | timerExpired =>
    cases nothing_of_eq_some (.inl rfl) h
    simp [RearmsTimer, Reaction.rearms]
  | timerFailed =>
    cases nothing_of_eq_some (.inr (.inl rfl)) h
    simp [RearmsTimer, Reaction.rearms]
  | advance time =>
    cases nothing_of_eq_some (.inr (.inr ⟨time, rfl⟩)) h
    simp [RearmsTimer, Reaction.rearms]

/-- In the outputs of a reaction that is no request, the timer is armed behind the
start of a status file. -/
def ArmedBehindStart (out : List Output) : Prop :=
  ∀ before deadline after, out = before ++ .timerArmed deadline :: after →
    ∃ o ∈ before, startsStatusFile o = true

theorem armedBehindStart_nil : ArmedBehindStart [] := by
  intro before deadline after hout
  cases before <;> cases hout

theorem armedBehindStart_cons {o : Output} {out : List Output}
    (ho : ∀ deadline, o ≠ .timerArmed deadline) (h : ArmedBehindStart out) :
    ArmedBehindStart (o :: out) := by
  intro before deadline after hout
  cases before with
  | nil => exact absurd (List.cons_eq_cons.mp hout).1 (ho deadline)
  | cons b before =>
    obtain ⟨o', ho', hstarts⟩ := h before deadline after (List.cons_eq_cons.mp hout).2
    exact ⟨o', List.mem_cons_of_mem _ ho', hstarts⟩

/-- Behind the start the timer may be armed. -/
theorem armedBehindStart_start {o : Output} (out : List Output)
    (ho : startsStatusFile o = true) : ArmedBehindStart (o :: out) := by
  intro before deadline after hout
  cases before with
  | nil =>
    rw [(List.cons_eq_cons.mp hout).1] at ho
    cases ho
  | cons b before =>
    obtain ⟨rfl, -⟩ := List.cons_eq_cons.mp hout
    exact ⟨o, List.mem_cons_self, ho⟩

/-- The file in flight is aborted first, and the timer armed last. -/
theorem armedBehindStart_statusFile (file : RawData) :
    ArmedBehindStart (statusFileOutputs cfg s file) := by
  unfold statusFileOutputs
  cases s.statusOperation with
  | none => exact armedBehindStart_start _ rfl
  | some operation => exact armedBehindStart_cons nofun (armedBehindStart_start _ rfl)

/-- **Arming**: a reaction that is no request arms the timer behind the start of a
status file, unless it is one of those above. -/
theorem armedBehindStart_iff {r : Reaction} {s' : State} {out : List Output}
    (h : r.result cfg s = some (s', out)) (hr : ∀ f, r ≠ .report f) :
    ArmedBehindStart out ↔ r.rearms = false := by
  have hsingle : ∀ {o}, (∀ deadline, o ≠ .timerArmed deadline) → ArmedBehindStart [o] :=
    fun ho => armedBehindStart_cons ho armedBehindStart_nil
  cases r with
  | report f => exact absurd rfl (hr f)
  | transmit =>
    refine iff_of_true ?_ rfl
    obtain ⟨e, -, -, rfl⟩ | ⟨file, -, -, rfl⟩ := transmission_eq_some h
    · exact hsingle (by simp)
    · exact armedBehindStart_statusFile file
  | sendList filename file checkValue =>
    refine iff_of_true ?_ rfl
    simp only [Reaction.result] at h
    split at h
    · rw [Option.some.injEq, Prod.mk.injEq] at h
      obtain ⟨-, rfl⟩ := h
      cases s.listOperation with
      | none => exact hsingle (by simp)
      | some operation => exact armedBehindStart_cons (by simp) (hsingle (by simp))
    · cases h
  | initialised =>
    simp only [Reaction.result, Option.some.injEq, Prod.mk.injEq] at h
    obtain ⟨-, rfl⟩ := h
    refine iff_of_false (fun hout => ?_) (by simp [Reaction.rearms])
    obtain ⟨o, ho, -⟩ := hout [] _ _ rfl
    cases ho
  | arm seconds =>
    simp only [Reaction.result, Option.some.injEq, Prod.mk.injEq] at h
    obtain ⟨-, rfl⟩ := h
    refine iff_of_false (fun hout => ?_) (by simp [Reaction.rearms])
    obtain ⟨o, ho, -⟩ := hout [] _ _ rfl
    cases ho
  | call c =>
    simp only [Reaction.result, Option.some.injEq, Prod.mk.injEq] at h
    obtain ⟨-, rfl⟩ := h
    refine iff_of_true (hsingle ?_) rfl
    cases c <;> simp [Call.output]
  | nothing =>
    simp only [Reaction.result, Option.some.injEq, Prod.mk.injEq] at h
    obtain ⟨-, rfl⟩ := h
    exact iff_of_true armedBehindStart_nil rfl
  | cancel =>
    simp only [Reaction.result, Option.some.injEq, Prod.mk.injEq] at h
    obtain ⟨-, rfl⟩ := h
    exact iff_of_true armedBehindStart_nil rfl
  | update f =>
    simp only [Reaction.result, Option.some.injEq, Prod.mk.injEq] at h
    obtain ⟨-, rfl⟩ := h
    exact iff_of_true armedBehindStart_nil rfl
  | _ =>
    simp only [Reaction.result, Option.some.injEq, Prod.mk.injEq] at h
    obtain ⟨-, rfl⟩ := h
    exact iff_of_true (hsingle (by simp)) rfl

/-! ## The status that is requested -/

/-- A request sets a code. -/
theorem code_ne_of_requests {s' : State} {e : Event} {out : List Output}
    (hrequest : RequestsTransmission cfg s e)
    (hstep : (machine cfg).step s e = some (s', out)) : s'.code ≠ .invalid := by
  obtain ⟨f, hf⟩ := hrequest
  by_cases he : e.Internal
  · obtain ⟨r, hr, hresult⟩ := step_iff.mp hstep
    obtain rfl : r = .report f := Option.some.inj (hr.symm.trans hf)
    obtain ⟨code, description, estimatedTime, rfl, hne, -⟩ := own_reaction he hf
    rw [code_result hresult, code_report hne]
    exact hne
  · obtain ⟨call, rfl⟩ := Event.exists_call he
    have hreport : call.isReport = true := by
      cases callReaction_of_reaction hf with
      | report htransmits => exact isReport_of_callTransmits htransmits
    have hne : (callUpdate cfg call s.status).status.code ≠ .invalid :=
      code_callUpdate_ne hreport s.status
    rw [code_application hstep hne]
    exact hne

/-- While a request is pending, only the application changes the status. -/
theorem status_internal {s' : State} {e : Event} {out : List Output} (he : e.Internal)
    (hrequest : ¬ RequestsTransmission cfg s e) (hcode : s.code ≠ .invalid)
    (hstep : (machine cfg).step s e = some (s', out))
    (hquiet : ∀ o ∈ out, startsStatusFile o = false) : s'.status = s.status := by
  obtain ⟨r, hr, hresult⟩ := step_iff.mp hstep
  cases hsends : r.sends cfg with
  | false =>
    obtain ⟨hstatus, -⟩ := result_of_not_sends hresult hsends
    rw [hstatus, status_taken]
    cases r with
    | transmit => cases hsends
    | report f => exact absurd ⟨f, hr⟩ hrequest
    | update f => exact (own_reaction he hr).elim
    | _ => rfl
  | true =>
    cases r with
    | transmit =>
      -- It was not started, so its encoder threw.
      obtain ⟨error, -, rfl, -⟩ | ⟨file, -, -, rfl⟩ := transmission_eq_some hresult
      · show statusToSend (taken s e).status = s.status
        rw [status_taken, statusToSend_eq hcode]
      · have hstart := hquiet _ (List.mem_append_right _ List.mem_cons_self)
        cases hstart
    | report f => exact absurd ⟨f, hr⟩ hrequest
    | _ => cases hsends

/-- The operation keeps the status that is requested, and its code is set. -/
theorem pending_status {s₀ : State} {es : List Event} {requested : OperationStatus}
    (h : Pending cfg s₀ es s requested) : s.status = requested ∧ s.code ≠ .invalid := by
  induction h with
  | requested hexec hrequest hstep => exact ⟨rfl, code_ne_of_requests hrequest hstep⟩
  | internal h he hrequest hstep hquiet ih =>
    obtain ⟨hstatus, hcode⟩ := ih
    exact ⟨(status_internal he hrequest hcode hstep hquiet).trans hstatus,
      code_ne_step hcode hstep⟩
  | changed h hstep hquiet ih => exact ⟨rfl, code_ne_step ih.2 hstep⟩

/-! ## The law of a run -/

/-- **Immediate transmission**: a request is not postponed before a status file is
started, which carries what was requested, exactly if neither the initialisation
file nor the status callback of an operation in progress comes in between. -/
theorem target_immediateLaw_iff {hostAddress : Endpoint} {port : Option UInt16}
    {es : List Event} (hop : cfg.operation ≠ .information) :
    ImmediateLaw cfg (started cfg hostAddress port) es ↔
      NotRearmed cfg (started cfg hostAddress port) es := by
  constructor
  · intro hlaw pre tr s e s' out requested hhas hpending hrearms
    obtain ⟨post, hes, hpre, hstep⟩ := hhas
    obtain ⟨r, hr, hresult⟩ := step_iff.mp hstep
    have htrue := (rearmsTimer_iff hop hr).mp hrearms
    have hreport : ∀ f, r ≠ .report f := by
      rintro f rfl
      cases htrue
    have hrequest : ¬ RequestsTransmission cfg s e := by
      rintro ⟨f, hf⟩
      exact hreport f (Option.some.inj (hr.symm.trans hf))
    have harmed : ArmedBehindStart out :=
      hlaw.notPostponed pre tr s e s' out requested ⟨post, hes, hpre, hstep⟩ hpending hrequest
    rw [(armedBehindStart_iff hresult hreport).mp harmed] at htrue
    cases htrue
  · intro hnot
    constructor
    · intro pre tr s e s' out requested hhas hpending hrequest
      obtain ⟨post, hes, hpre, hstep⟩ := hhas
      obtain ⟨r, hr, hresult⟩ := step_iff.mp hstep
      have hreport : ∀ f, r ≠ .report f := by
        rintro f rfl
        exact hrequest ⟨f, hr⟩
      refine (armedBehindStart_iff hresult hreport).mpr ?_
      rw [Bool.eq_false_iff]
      intro htrue
      exact hnot pre tr s e s' out requested ⟨post, hes, hpre, hstep⟩ hpending
        ((rearmsTimer_iff hop hr).mpr htrue)
    · intro pre tr s e s' out requested hhas hpending remote operation filename sentStatus file
        hsent
      obtain ⟨post, -, -, hstep⟩ := hhas
      obtain ⟨r, hr, hresult⟩ := step_iff.mp hstep
      obtain ⟨hstatus, hcode⟩ := pending_status hpending
      rw [sent_result hresult hsent, status_taken, ← hstatus]
      cases r with
      | transmit => exact statusToSend_eq hcode
      | report f =>
        -- Outside information operations, a report only arms the timer.
        obtain ⟨heq, -⟩ | ⟨-, -, rfl⟩ := forced_eq_some hresult
        · exact absurd heq hop
        · simp at hsent
      | update f =>
        simp only [Reaction.result, Option.some.injEq, Prod.mk.injEq] at hresult
        obtain ⟨-, rfl⟩ := hresult
        cases hsent
      | _ => rfl

/-- A request stands before. -/
theorem Pending.ne_nil {s₀ : State} {es : List Event} {requested : OperationStatus}
    (h : Pending cfg s₀ es s requested) : es ≠ [] := by
  cases h <;> simp

/-- An upload is accepted, and sends this at once. -/
theorem target_immediateLaw_accepted :
    (∃ s tr, (machine (exampleConfiguration .upload)).exec
        (started (exampleConfiguration .upload) exampleHost none)
        [.serverCompleted 0 .successful [], .application .accepted,
          .timerHandler .operationAborted, .timerExpired, .timerHandler .success] =
            some (s, tr)) ∧
      ImmediateLaw (exampleConfiguration .upload)
        (started (exampleConfiguration .upload) exampleHost none)
        [.serverCompleted 0 .successful [], .application .accepted,
          .timerHandler .operationAborted, .timerExpired, .timerHandler .success] := by
  refine ⟨⟨_, _, rfl⟩, (target_immediateLaw_iff (by decide)).mpr ?_⟩
  intro pre tr s e s' out requested hhas hpending
  obtain ⟨post, hes, -, -⟩ := hhas
  cases pre with
  | nil => exact absurd rfl hpending.ne_nil
  | cons first pre =>
    -- The initialisation file is the first event.
    have hmem : e ∈ [.application .accepted, .timerHandler .operationAborted, .timerExpired,
        .timerHandler .success] := by
      rw [(List.cons_eq_cons.mp hes).2]
      simp
    rcases List.mem_cons.mp hmem with rfl | hmem
    · exact id
    rcases List.mem_cons.mp hmem with rfl | hmem
    · exact id
    rcases List.mem_pair.mp hmem with rfl | rfl
    · exact id
    · exact id

/-- A call that transmits is a request, which lets the timer expire at once. -/
theorem application_requests (hop : cfg.operation ≠ .information) {call : ApplicationCall}
    (hoffers : offers cfg.operation call = true) (htransmits : callTransmits call = true) :
    RequestsTransmission cfg s (.application call) ∧
      (machine cfg).step s (.application call) =
        some ((s.withStatus (callUpdate cfg call s.status)).armed 0,
          [.timerArmed (s.deadline 0)]) := by
  have hcall : applicationReaction cfg call = .report (callUpdate cfg call) := by
    cases call <;> first | rfl | (cases htransmits; rfl) | cases htransmits
  have hr : reaction cfg s (.application call) = some (.report (callUpdate cfg call)) := by
    simp only [reaction, hoffers, if_true, hcall]
  refine ⟨⟨_, hr⟩, step_iff.mpr ⟨_, hr, ?_⟩⟩
  simp only [Reaction.result, forced]
  cases h : cfg.operation <;> first | exact absurd h hop | rfl

/-- Every request in the callback for the status of an operation in progress is
postponed, when the callback returns. -/
theorem postponed_in_callback {s₀ : State} {es : List Event} {tr : List Output}
    (hop : cfg.operation ≠ .information) (hexec : (machine cfg).exec s₀ es = some (s, tr))
    {sentStatus : OperationStatus} (hcallback : s.callback = some (.status sentStatus))
    (hcode : sentStatus.status.code ∈ [StatusCode.operationAccepted, .operationInProgress,
      .operationInProgressAdditionalInfo]) (call : ApplicationCall)
    (hoffers : offers cfg.operation call = true) (htransmits : callTransmits call = true) :
    ¬ ImmediateLaw cfg s₀ (es ++ [.application call] ++ [.callbackReturned]) := by
  intro hlaw
  obtain ⟨hrequest, hstep⟩ := application_requests (s := s) hop hoffers htransmits
  obtain ⟨t, ht⟩ : ∃ t, t = (s.withStatus (callUpdate cfg call s.status)).armed 0 := ⟨_, rfl⟩
  rw [← ht] at hstep
  have hreturn : reaction cfg t .callbackReturned = some (statusReaction cfg sentStatus) := by
    have hsame : t.callback = s.callback := by
      rw [ht]
      rfl
    simp only [reaction, hsame, hcallback]
    rfl
  have hrearms := (rearms_statusReaction hop sentStatus).mpr hcode
  have hreport : ∀ f, statusReaction cfg sentStatus ≠ .report f := by
    intro f hf
    rw [hf] at hrearms
    cases hrearms
  obtain ⟨⟨t', out⟩, hresult⟩ : ∃ result,
      (statusReaction cfg sentStatus).result cfg (taken t .callbackReturned) = some result := by
    cases hr : statusReaction cfg sentStatus <;> simp_all [Reaction.rearms, Reaction.result]
  have hexec' : (machine cfg).exec s₀ (es ++ [.application call]) =
      some (t, tr ++ [.timerArmed (s.deadline 0)]) :=
    Machine.exec_append_singleton.mpr ⟨s, tr, _, hexec, hstep, rfl⟩
  have harmed : ArmedBehindStart out := by
    refine hlaw.notPostponed _ _ t .callbackReturned t' out _
      (Machine.hasStep_last hexec' (step_iff.mpr ⟨_, hreturn, hresult⟩))
      (.requested hexec hrequest hstep) ?_
    rintro ⟨f, hf⟩
    exact hreport f (Option.some.inj (hreturn.symm.trans hf))
  rw [(armedBehindStart_iff hresult hreport).mp harmed] at hrearms
  cases hrearms

/-- The application finishes an upload in the callback for its accepted status. -/
theorem target_immediate_postponed :
    ¬ ImmediateLaw (exampleConfiguration .upload)
      (started (exampleConfiguration .upload) exampleHost none)
      [.serverCompleted 0 .successful [], .application .accepted,
        .timerHandler .operationAborted, .timerExpired, .timerHandler .success,
        .clientCompleted 1 .successful, .application (.finished .completed []),
        .callbackReturned] := by
  have hexec : ∃ s tr, (machine (exampleConfiguration .upload)).exec
      (started (exampleConfiguration .upload) exampleHost none)
      [.serverCompleted 0 .successful [], .application .accepted,
        .timerHandler .operationAborted, .timerExpired, .timerHandler .success,
        .clientCompleted 1 .successful] = some (s, tr) ∧
      s.callback = some (.status (.upload { code := .operationAccepted })) := by
    refine ⟨_, _, rfl, ?_⟩
    rfl
  obtain ⟨s, tr, hexec, hcallback⟩ := hexec
  exact postponed_in_callback (by decide) hexec hcallback (by decide)
    (.finished .completed []) rfl rfl

end Arinc615a.Target
