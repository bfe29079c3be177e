import Arinc615a.Host.Finish
import Arinc615a.Host.StatusRequests

/-!
# The DLP watchdog of a host operation

From the accepted initialisation on, the timer waits for the deadline that the
last re-arming step has set, or its wait is over and the handler that ends the
operation is queued. One request is answered with an error and re-arms the timer
all the same: a read request for the status file that finds an abort pending.
-/

namespace Arinc615a.Host

open Actions Actions.Action Machines Timers
open Files Information Tftp

/-! ## The law -/

/-- The step processes an initialisation file with `OperationAccepted`. -/
def Accepts (s : State) (e : Event) : Prop :=
  e = .callbackReturned ∧ ∃ initFile, s.callback = some (.initialisationResponse initFile) ∧
    initFile.response.code = .operationAccepted

/-- The exception time with which the end of a call of the user's handler re-arms
the timer. Only a status in progress has one. -/
def rearmsReturned (s : State) : Continuation → Option Nat
  | .initialisationResponse initFile =>
    if initFile.response.code = .operationAccepted then some 0 else none
  | .status status =>
    match status.code with
    | .operationAccepted => some 0
    | .operationInProgress => some status.exceptionTimer.toNat
    | .operationInProgressAdditionalInfo => some status.exceptionTimer.toNat
    | _ => none
  | .targetInformation => if s.waitForFinalStatus then some 0 else none
  | .downloadingList => none

/-- The exception time with which a step re-arms the timer: the accepted
initialisation, a status or a list of an operation that goes on, and the ABORT
that answers a request for the status file. -/
def rearms (cfg : Configuration) (s : State) : Event → Option Nat
  | .tftpRequest request =>
    if RequestsStatus cfg request ∧ s.abortReason ≠ .noAbort then some 0 else none
  | .callbackReturned => s.callback.bind (rearmsReturned s)
  | _ => none

/-- The timer guards the deadline: it waits for it, or the wait is over, the
handler that ends the operation is queued, and the deadline has passed, unless
the timer failed. -/
def Guards (s : State) (deadline : Nat) : Prop :=
  s.timer.deadline = some deadline ∨
    (s.timer.deadline = none ∧
      ((.success ∈ s.timer.queue ∧ deadline ≤ s.now) ∨ .failure ∈ s.timer.queue))

/-- The timer guards the deadline that the last re-arming step of the run has set. -/
def Guarded (cfg : Configuration) (es : List Event) (s : State) : Prop :=
  ∃ pre tr s₀ e s₁ out exceptionTime,
    (machine cfg).HasStep started es pre tr s₀ e s₁ out ∧
    rearms cfg s₀ e = some exceptionTime ∧
    (∀ pre' tr' s' e' s'' out', (machine cfg).HasStep started es pre' tr' s' e' s'' out' →
      pre.length < pre'.length → rearms cfg s' e' = none) ∧
    Guards s (s₀.now + max exceptionTime cfg.dlpTimeout * second)

/-- An error packet. -/
def isError : Output → Bool
  | .errorOperation _ _ _ => true
  | _ => false

/-- What the timer owes in every state of a run. -/
structure WatchdogLaw (cfg : Configuration) (es : List Event) (s : State) (tr : List Output) :
    Prop where
  /-- Behind an accepted initialisation, the timer is armed until the end. -/
  guarded : (∃ pre tr s e s' out, (machine cfg).HasStep started es pre tr s e s' out ∧
      Accepts s e) → (∀ o ∈ tr, isFinished o = false) → Guarded cfg es s
  /-- A step that does not re-arm the timer never sets a deadline: a file that
  cannot be read or was not received, in particular. -/
  kept : ∀ pre tr s e s' out, (machine cfg).HasStep started es pre tr s e s' out →
    rearms cfg s e = none → s'.timer.deadline = s.timer.deadline ∨ s'.timer.deadline = none
  /-- A request that is answered with an error leaves the timer alone. -/
  rejected : ∀ pre tr s e s' out, (machine cfg).HasStep started es pre tr s e s' out →
    (∃ o ∈ out, isError o = true) → s'.timer = s.timer
  /-- The deadline is noticed, and its handler ends the operation. -/
  expires : s.timer.due s.now → ∃ s', (machine cfg).step s .timerExpired = some (s', []) ∧
    s'.timer.queue = s.timer.queue ++ [.success]
  ends : s.callback = none → s.timer.queue.head? = some .success →
    ∃ s', (machine cfg).step s (.timerHandler .success)
      = some (s', [.finished .operationAbortedByDlp (str "DLP Timeout")])

/-- The read request for the status file that is answered twice: with an error,
and with the pending abort. -/
def ReadsAborted (cfg : Configuration) (s : State) (e : Event) : Prop :=
  ∃ request, e = .tftpRequest request ∧ ReadsStatus cfg request ∧ s.abortReason ≠ .noAbort

/-! ## Reactions and the timer -/

variable {cfg : Configuration} {s : State}

/-- The exception time with which a reaction arms the timer. -/
def Reaction.arms (cfg : Configuration) (s : State) : Reaction → Option Nat
  | request r => if RequestsStatus cfg r ∧ s.abortReason ≠ .noAbort then some 0 else none
  | accept _ => some 0
  | goOn exceptionTime => some exceptionTime
  | rearm => some 0
  | _ => none

/-- **The timer behind a reaction.** -/
theorem timer_state (r : Reaction) :
    (r.state cfg s).timer =
      match r.arms cfg s with
      | some exceptionTime => s.timer.start (dlpDeadline cfg s exceptionTime)
      | none => if r.finishes then s.timer.cancel else s.timer := by
  cases r with
  | request request =>
    have heffect := request_effect cfg s request
    simp only [Reaction.arms, Reaction.finishes]
    generalize (Reaction.request request).state cfg s = t at heffect ⊢
    generalize (Reaction.request request).out cfg s = out at heffect
    cases heffect with
    | received hrequest hnone =>
      rw [if_neg fun h => h.2 hnone]
      rfl
    | aborted hrequest hpending =>
      rw [if_pos ⟨hrequest, hpending⟩]
      rfl
    | other hrequest ht hout =>
      rw [if_neg fun h => hrequest h.1]
      rcases ht with rfl | ⟨checkValue, rfl⟩
      · rfl
      · rw [withListFile_eq]
        rfl
  | abort reason =>
    simp only [Reaction.state, Reaction.arms, Reaction.finishes]
    split <;> rfl
  | send filename file =>
    show s.withoutSentFile.timer = s.timer
    rw [withoutSentFile_eq]
  | _ => rfl

/-- A reaction takes no time. -/
theorem now_state (r : Reaction) : (r.state cfg s).now = s.now := by
  cases r with
  | request request =>
    refine request_state (P := fun t => t.now = s.now) request rfl (fun _ => rfl)
      (fun _ => rfl) ?_
    intro checkValue
    rw [withListFile_eq]
  | abort reason =>
    simp only [Reaction.state]
    split <;> rfl
  | send filename file =>
    show s.withoutSentFile.now = s.now
    rw [withoutSentFile_eq]
  | _ => rfl

/-- The completion of a transfer leaves timer and clock alone. -/
theorem timer_afterCompletion (operation : TransferId) :
    (s.afterCompletion operation).timer = s.timer ∧
      (s.afterCompletion operation).now = s.now := by
  rw [afterCompletion_eq]
  exact ⟨rfl, rfl⟩

theorem arms_returnReaction (t : State) (c : Continuation) :
    (returnReaction s c).arms cfg t = rearmsReturned s c := by
  cases c with
  | initialisationResponse initFile =>
    cases hcode : initFile.response.code <;>
      simp [returnReaction, rearmsReturned, hcode, Reaction.arms]
  | status status =>
    cases hcode : status.code <;>
      simp [returnReaction, statusReaction, rearmsReturned, hcode, Reaction.arms]
  | targetInformation =>
    simp only [returnReaction, rearmsReturned]
    split <;> rfl
  | downloadingList => rfl

theorem arms_throwReaction (t : State) (c : Continuation) :
    (throwReaction s c).arms cfg t = none := by
  cases c with
  | targetInformation =>
    simp only [throwReaction]
    split <;> rfl
  | _ => rfl

theorem arms_initialisationReaction {status : TransferStatus} {data : RawData} {r : Reaction}
    (t : State) (h : initialisationReaction status data = some r) : r.arms cfg t = none := by
  simp only [initialisationReaction] at h
  split at h
  · cases h
    rfl
  · cases hdecode : InitializationFile.decode {} data with
    | overrun => simp [hdecode] at h
    | thrown e =>
      simp only [hdecode, Option.some.injEq] at h
      subst r
      rfl
    | done initFile =>
      simp only [hdecode, Option.some.injEq] at h
      subst r
      rfl

theorem arms_statusFileReaction {operation : OperationType} {status : LibraryTransferStatus}
    {data : RawData} {r : Reaction} (t : State)
    (h : statusFileReaction operation status data = some r) : r.arms cfg t = none := by
  simp only [statusFileReaction] at h
  split at h
  · cases h
    rfl
  · cases hdecode : decodeStatus operation data with
    | overrun => simp [hdecode] at h
    | thrown e =>
      simp only [hdecode, Option.some.injEq] at h
      subst r
      rfl
    | done statusFile =>
      simp only [hdecode, Option.some.injEq] at h
      subst r
      rfl

theorem arms_listFailure (t : State) : (listFailure cfg s).arms cfg t = none := by
  unfold listFailure
  split <;> rfl

/-- **Re-arming**: the steps that re-arm the timer are those whose reaction does. -/
theorem rearms_eq {e : Event} {r : Reaction} (h : reaction cfg s e = some r) :
    rearms cfg s e = r.arms cfg (taken s e) := by
  cases reacts_of_reaction h with
  | request hidle hrunning => rfl
  | returned hcallback =>
    rw [arms_returnReaction]
    simp [rearms, hcallback]
  | threw hcallback => exact (arms_throwReaction _ _).symm
  | initialisation hidle ht hkind hinit => exact (arms_initialisationReaction _ hinit).symm
  | sentFile hidle ht hkind => split <;> rfl
  | statusFile hidle ht hkind hstatus => exact (arms_statusFileReaction _ hstatus).symm
  | listFile hidle ht hkind hlist =>
    rcases listFileReaction_eq_some hlist with ⟨-, call, -, rfl⟩ | ⟨-, rfl⟩
    · rfl
    · exact (arms_listFailure _).symm
  | @timerHandler result hidle hhead => cases result <;> rfl
  | send he hsend =>
    have hnone : rearms cfg s e = none := by cases e <;> first | rfl | cases he
    rw [hnone]
    rcases sendReaction_eq_some hsend with rfl | ⟨exception, rfl⟩ | ⟨filename, file, rfl⟩ <;> rfl
  | _ => rfl

/-! ## Steps -/

/-- A step that re-arms the timer sets the deadline. -/
theorem rearms_step (hs : Consistent s) {s' : State} {e : Event} {out : List Output}
    {exceptionTime : Nat} (h : (machine cfg).step s e = some (s', out))
    (hrearms : rearms cfg s e = some exceptionTime) :
    s'.timer.deadline = some (s.now + max exceptionTime cfg.dlpTimeout * second) := by
  obtain ⟨r, hr, rfl, -⟩ := (step_iff hs).mp h
  have hnow : (taken s e).now = s.now := by
    cases e with
    | tftpRequest request => rfl
    | callbackReturned => rfl
    | _ => cases hrearms
  rw [rearms_eq hr] at hrearms
  rw [timer_state, hrearms]
  show some (dlpDeadline cfg (taken s e) exceptionTime) = _
  rw [dlpDeadline, hnow]

/-- Another step leaves the timer to the event, unless it ends the operation. -/
theorem timer_step (hs : Consistent s) {s' : State} {e : Event} {out : List Output}
    (h : (machine cfg).step s e = some (s', out)) (hrearms : rearms cfg s e = none) :
    s'.timer = if out.any isFinished then (taken s e).timer.cancel else (taken s e).timer := by
  obtain ⟨r, hr, rfl, rfl⟩ := (step_iff hs).mp h
  rw [rearms_eq hr] at hrearms
  rw [timer_state, hrearms, any_isFinished]

/-- What an event leaves of the deadline. -/
theorem deadline_taken (e : Event) :
    (taken s e).timer.deadline = s.timer.deadline ∨ (taken s e).timer.deadline = none := by
  cases e with
  | clientCompleted operation status data =>
    left
    show (s.afterCompletion operation).timer.deadline = _
    rw [(timer_afterCompletion operation).1]
  | serverCompleted operation status data =>
    left
    show (s.afterCompletion operation).timer.deadline = _
    rw [(timer_afterCompletion operation).1]
  | timerExpired => exact .inr rfl
  | timerFailed => exact .inr rfl
  | _ => exact .inl rfl

theorem kept_step (hs : Consistent s) {s' : State} {e : Event} {out : List Output}
    (h : (machine cfg).step s e = some (s', out)) (hrearms : rearms cfg s e = none) :
    s'.timer.deadline = s.timer.deadline ∨ s'.timer.deadline = none := by
  rw [timer_step hs h hrearms]
  split
  · exact .inr (Timer.deadline_cancel _)
  · exact deadline_taken e

theorem Guards.of_eq {t : State} {deadline : Nat} (h : Guards s deadline)
    (htimer : t.timer = s.timer) (hnow : t.now = s.now) : Guards t deadline := by
  unfold Guards
  rw [htimer, hnow]
  exact h

/-- An event leaves the deadline guarded, unless it is the handler that ends the
operation. -/
theorem Guards.taken {e : Event} {r : Reaction} {deadline : Nat} (hguards : Guards s deadline)
    (h : reaction cfg s e = some r) (hgoes : r.finishes = false) :
    Guards (taken s e) deadline := by
  cases reacts_of_reaction h with
  | initialisation hidle ht hkind hr =>
    exact hguards.of_eq (timer_afterCompletion _).1 (timer_afterCompletion _).2
  | sentFile hidle ht hkind =>
    exact hguards.of_eq (timer_afterCompletion _).1 (timer_afterCompletion _).2
  | statusFile hidle ht hkind hr =>
    exact hguards.of_eq (timer_afterCompletion _).1 (timer_afterCompletion _).2
  | listFile hidle ht hkind hr =>
    exact hguards.of_eq (timer_afterCompletion _).1 (timer_afterCompletion _).2
  | timerExpired hdue =>
    rcases hguards with hdeadline | ⟨hnone, -⟩
    · have hpassed : deadline ≤ s.now := by simpa [Timer.due, hdeadline] using hdue
      exact .inr ⟨rfl, .inl ⟨by simp [Host.taken, Timer.complete], hpassed⟩⟩
    · have harmed := Timer.due_isSome hdue
      rw [hnone] at harmed
      cases harmed
  | timerFailed harmed => exact .inr ⟨rfl, .inr (by simp [Host.taken, Timer.complete])⟩
  | @timerHandler result hidle hhead =>
    -- The handlers that run without ending the operation are those of cancelled waits.
    have haborted : result = .operationAborted := by
      cases result <;> first | rfl | cases hgoes
    have hqueue : s.timer.queue = .operationAborted :: s.timer.queue.tail := by
      rw [haborted] at hhead
      exact (List.cons_head?_tail hhead).symm
    rcases hguards with hdeadline | ⟨hnone, hended⟩
    · exact .inl hdeadline
    · refine .inr ⟨hnone, ?_⟩
      rw [hqueue] at hended
      simp only [List.mem_cons, reduceCtorEq, false_or] at hended
      exact hended
  | @advance time =>
    rcases hguards with hdeadline | ⟨hnone, ⟨hmem, hpassed⟩ | hfailed⟩
    · exact .inl hdeadline
    · exact .inr ⟨hnone, .inl ⟨hmem, Nat.le_add_right_of_le hpassed⟩⟩
    · exact .inr ⟨hnone, .inr hfailed⟩
  | send he hr =>
    have hsame : Host.taken s e = s := by cases e <;> first | rfl | cases he
    rw [hsame]
    exact hguards
  | _ => exact hguards

/-- A step that neither re-arms the timer nor ends the operation leaves the
deadline guarded. -/
theorem Guards.step (hs : Consistent s) {s' : State} {e : Event} {out : List Output}
    {deadline : Nat} (hguards : Guards s deadline)
    (h : (machine cfg).step s e = some (s', out)) (hrearms : rearms cfg s e = none)
    (hgoes : ∀ o ∈ out, isFinished o = false) : Guards s' deadline := by
  have hnot : out.any isFinished = false := by
    rw [List.any_eq_false]
    intro o ho
    simp [hgoes o ho]
  have htimer := timer_step hs h hrearms
  rw [hnot, if_neg (by simp)] at htimer
  obtain ⟨r, hr, rfl, rfl⟩ := (step_iff hs).mp h
  rw [any_isFinished] at hnot
  exact (hguards.taken hr hnot).of_eq htimer (now_state r)

/-! ## Runs -/

/-- An accepted initialisation re-arms the timer. -/
theorem rearms_of_accepts {e : Event} (h : Accepts s e) : rearms cfg s e = some 0 := by
  obtain ⟨rfl, initFile, hcallback, hcode⟩ := h
  simp [rearms, hcallback, rearmsReturned, hcode]

/-- A step that re-arms the timer is the last one to do so. -/
theorem guarded_of_rearms {es : List Event} {tr : List Output} {s' : State} {e : Event}
    {out : List Output} {exceptionTime : Nat}
    (hexec : (machine cfg).exec started es = some (s, tr))
    (h : (machine cfg).step s e = some (s', out))
    (hrearms : rearms cfg s e = some exceptionTime) : Guarded cfg (es ++ [e]) s' := by
  refine ⟨es, tr, s, e, s', out, exceptionTime, Machine.hasStep_last hexec h, hrearms, ?_,
    .inl (rearms_step (consistent_run hexec) h hrearms)⟩
  intro pre' tr' s₁ e' s₂ out' htaken hlater
  rcases htaken.of_append with ⟨post, hes, -⟩ | ⟨rfl, -⟩
  · rw [hes, List.length_append, List.length_cons] at hlater
    omega
  · exact absurd hlater (lt_irrefl _)

/-- Another step leaves the deadline of the last one guarded, until the end. -/
theorem Guarded.append {es : List Event} {tr : List Output} {s' : State} {e : Event}
    {out : List Output} (hguarded : Guarded cfg es s)
    (hexec : (machine cfg).exec started es = some (s, tr))
    (h : (machine cfg).step s e = some (s', out)) (hrearms : rearms cfg s e = none)
    (hgoes : ∀ o ∈ out, isFinished o = false) : Guarded cfg (es ++ [e]) s' := by
  obtain ⟨pre, tr₀, s₀, e₀, s₁, out₀, exceptionTime, htaken, hlast, hlater, hguards⟩ := hguarded
  refine ⟨pre, tr₀, s₀, e₀, s₁, out₀, exceptionTime, htaken.append [e], hlast, ?_,
    hguards.step (consistent_run hexec) h hrearms hgoes⟩
  intro pre' tr' s₂ e' s₃ out' hstep hlt
  rcases hstep.of_append with hbefore | ⟨rfl, rfl⟩
  · exact hlater pre' tr' s₂ e' s₃ out' hbefore hlt
  · obtain ⟨rfl, -⟩ := hstep.exec_eq hexec
    exact hrearms

/-- **The watchdog**: behind an accepted initialisation, every run keeps the deadline
of its last re-arming step guarded until the end. -/
theorem guarded_run {es : List Event} {tr : List Output}
    (h : (machine cfg).exec started es = some (s, tr))
    (haccepted : ∃ pre tr s e s' out, (machine cfg).HasStep started es pre tr s e s' out ∧
      Accepts s e)
    (hgoes : ∀ o ∈ tr, isFinished o = false) : Guarded cfg es s := by
  refine Machine.exec_history (fun es s tr =>
    (∃ pre tr s e s' out, (machine cfg).HasStep started es pre tr s e s' out ∧ Accepts s e) →
      (∀ o ∈ tr, isFinished o = false) → Guarded cfg es s) ?_ ?_ h haccepted hgoes
  · intro hnone
    obtain ⟨pre, tr, s, e, s', out, ⟨post, hnil, -⟩, -⟩ := hnone
    exact absurd hnil (by simp)
  · intro es s tr e s' out hexec ih hstep haccepted hgoes
    cases hrearms : rearms cfg s e with
    | some exceptionTime => exact guarded_of_rearms hexec hstep hrearms
    | none =>
      obtain ⟨pre, tr₁, s₁, e₁, s₂, out₁, htaken, haccepts⟩ := haccepted
      rcases htaken.of_append with hbefore | ⟨rfl, rfl⟩
      · have hguarded := ih ⟨pre, tr₁, s₁, e₁, s₂, out₁, hbefore, haccepts⟩
          fun o ho => hgoes o (List.mem_append_left _ ho)
        exact hguarded.append hexec hstep hrearms
          fun o ho => hgoes o (List.mem_append_right _ ho)
      · -- The accepted initialisation is the last step, and re-arms the timer.
        obtain ⟨rfl, -⟩ := htaken.exec_eq hexec
        rw [rearms_of_accepts haccepts] at hrearms
        cases hrearms

/-! ## Requests that are rejected -/

theorem error_of_onlyWrites {operation : OperationType} {request : Request}
    (hop : operation = .information) (hread : request.requestType ≠ .write) :
    ∃ o ∈ onlyWrites operation request, isError o = true := by
  rw [onlyWrites, if_pos ⟨hop, hread⟩]
  exact ⟨_, List.mem_singleton_self _, rfl⟩

/-- No reaction but the one to a request sends an error. -/
theorem not_error (cfg : Configuration) (s : State) {r : Reaction}
    (hr : ∀ request, r ≠ .request request) : ∀ o ∈ r.out cfg s, isError o = false := by
  intro o ho
  have hnot := not_answersRequest cfg s hr o ho
  cases o with
  | errorOperation remote errorCode errorMessage => cases hnot
  | _ => rfl

/-- **Rejections**: a request that is answered with an error leaves the timer alone,
exactly if it is none that is answered with a pending abort as well. -/
theorem rejected_step_iff (hs : Consistent s) {s' : State} {e : Event} {out : List Output}
    (h : (machine cfg).step s e = some (s', out)) :
    ((∃ o ∈ out, isError o = true) → s'.timer = s.timer) ↔ ¬ ReadsAborted cfg s e := by
  obtain ⟨r, hr, rfl, rfl⟩ := (step_iff hs).mp h
  by_cases hrequest : ∃ request, r = .request request
  · obtain ⟨request, rfl⟩ := hrequest
    obtain ⟨rfl, -⟩ := causedBy_of_reaction hr
    have heffect := request_effect cfg s request
    show ((∃ o ∈ (Reaction.request request).out cfg s, isError o = true) →
      ((Reaction.request request).state cfg s).timer = s.timer) ↔ _
    generalize (Reaction.request request).state cfg s = t at heffect ⊢
    generalize (Reaction.request request).out cfg s = out at heffect ⊢
    cases heffect with
    | received hrequest hnone =>
      refine ⟨?_, fun _ _ => rfl⟩
      intro _ hreads
      obtain ⟨_, -, -, hpending⟩ := hreads
      exact hpending hnone
    | aborted hrequest hpending =>
      rcases hrequest with hwrite | hread
      · -- A write request gets the ABORT only.
        have hnone : onlyWrites cfg.operation request = [] := by
          simp [onlyWrites, hwrite.2.2]
        constructor
        · intro _ hreads
          obtain ⟨_, hsame, hread, -⟩ := hreads
          cases hsame
          exact hread.2.2.2 hwrite.2.2
        · intro _ herror
          simp [hnone, isError] at herror
      · constructor
        · intro hkeeps
          obtain ⟨o, ho, herror⟩ := error_of_onlyWrites hread.2.2.1 hread.2.2.2
          have hsame := hkeeps ⟨o, List.mem_append_left _ ho, herror⟩
          exact absurd hsame (Timer.start_ne _ _)
        · intro hnot
          exact absurd ⟨request, rfl, hread, hpending⟩ hnot
    | other hrequest ht hout =>
      constructor
      · intro _ hreads
        obtain ⟨_, hsame, hread, -⟩ := hreads
        cases hsame
        exact hrequest (.inr hread)
      · intro _ _
        rcases ht with rfl | ⟨checkValue, rfl⟩
        · rfl
        · rw [withListFile_eq]
  · have hnone := not_error cfg (taken s e) fun request heq => hrequest ⟨request, heq⟩
    constructor
    · intro _ hreads
      obtain ⟨request, rfl, -⟩ := hreads
      simp only [reaction] at hr
      split at hr
      · exact hrequest ⟨request, (Option.some.inj hr).symm⟩
      · cases hr
    · intro _ herror
      obtain ⟨o, ho, herror⟩ := herror
      rw [hnone o ho] at herror
      cases herror

/-- The wait is over: its handler is queued. -/
theorem expires_step (hs : Consistent s) (hdue : s.timer.due s.now) :
    ∃ s', (machine cfg).step s .timerExpired = some (s', []) ∧
      s'.timer.queue = s.timer.queue ++ [.success] := by
  have hreaction : reaction cfg s .timerExpired = some .nothing := by
    simp only [reaction, hdue, if_true]
  exact ⟨_, (step_iff hs).mpr ⟨_, hreaction, rfl, rfl⟩, rfl⟩

/-- The handler ends the operation. -/
theorem ends_step (hs : Consistent s) (hidle : s.callback = none)
    (hhead : s.timer.queue.head? = some .success) :
    ∃ s', (machine cfg).step s (.timerHandler .success)
      = some (s', [.finished .operationAbortedByDlp (str "DLP Timeout")]) := by
  have hreaction : reaction cfg s (.timerHandler .success)
      = some (.finish .operationAbortedByDlp (str "DLP Timeout")) := by
    simp only [reaction, hidle, hhead, and_self, if_true, timerReaction]
  exact ⟨_, (step_iff hs).mpr ⟨_, hreaction, rfl, rfl⟩⟩

/-- **The watchdog law**: a run keeps it exactly if no read request for the status
file meets a pending abort. -/
theorem host_watchdog_iff {es : List Event} {tr : List Output}
    (h : (machine cfg).exec started es = some (s, tr)) :
    WatchdogLaw cfg es s tr ↔
      ∀ pre tr s e s' out, (machine cfg).HasStep started es pre tr s e s' out →
        ¬ ReadsAborted cfg s e := by
  have hrejected : ∀ pre tr s e s' out,
      (machine cfg).HasStep started es pre tr s e s' out →
        (((∃ o ∈ out, isError o = true) → s'.timer = s.timer) ↔ ¬ ReadsAborted cfg s e) := by
    intro pre tr s e s' out htaken
    obtain ⟨post, -, hpre, hstep⟩ := htaken
    exact rejected_step_iff (consistent_run hpre) hstep
  constructor
  · intro hlaw pre tr s e s' out htaken
    exact (hrejected pre tr s e s' out htaken).mp (hlaw.rejected pre tr s e s' out htaken)
  · intro hnone
    constructor
    · exact guarded_run h
    · intro pre tr s e s' out htaken hrearms
      obtain ⟨post, -, hpre, hstep⟩ := htaken
      exact kept_step (consistent_run hpre) hstep hrearms
    · intro pre tr s e s' out htaken
      exact (hrejected pre tr s e s' out htaken).mpr (hnone pre tr s e s' out htaken)
    · intro hdue
      exact expires_step (consistent_run h) hdue
    · intro hidle hhead
      exact ends_step (consistent_run h) hidle hhead

/-- An accepted upload is guarded. -/
theorem host_watchdog_accepted :
    ∃ s, WatchdogLaw (exampleConfiguration .upload)
      [.clientCompleted 0 .successful [0, 0, 0, 9, 0x41, 0x34, 0, 1, 0], .callbackReturned]
      s [.initialisationResponse ⟨.operationAccepted, []⟩, .timerArmed (13 * second)] := by
  have hrun : ∃ s, (machine (exampleConfiguration .upload)).exec started
      [.clientCompleted 0 .successful [0, 0, 0, 9, 0x41, 0x34, 0, 1, 0], .callbackReturned]
      = some (s, [.initialisationResponse ⟨.operationAccepted, []⟩,
        .timerArmed (13 * second)]) := ⟨_, rfl⟩
  obtain ⟨s, h⟩ := hrun
  refine ⟨s, (host_watchdog_iff h).mpr ?_⟩
  intro pre tr s e s' out htaken hreads
  obtain ⟨post, hes, -⟩ := htaken
  obtain ⟨request, rfl, -⟩ := hreads
  have hmem : Event.tftpRequest request ∈ [Event.clientCompleted 0 .successful
      [0, 0, 0, 9, 0x41, 0x34, 0, 1, 0], .callbackReturned] := by
    rw [hes]
    simp
  simp at hmem

/-- The request of an information operation for its status file is rejected, and the
deadline is set from 13 to 14 seconds: an abort was pending. -/
theorem host_watchdog_rejected :
    ∃ tr s s' out, (machine (exampleConfiguration .information)).HasStep started
        [.clientCompleted 0 .successful [0, 0, 0, 9, 0x41, 0x34, 0, 1, 0], .callbackReturned,
          .advance second, .abort .operator, .tftpRequest (exampleRequest .read "HNPFMS_L.LCS")]
        [.clientCompleted 0 .successful [0, 0, 0, 9, 0x41, 0x34, 0, 1, 0], .callbackReturned,
          .advance second, .abort .operator]
        tr s (.tftpRequest (exampleRequest .read "HNPFMS_L.LCS")) s' out ∧
      .errorOperation ⟨0, 59⟩ .illegalTftpOperation (str "Only WRQ allowed") ∈ out ∧
      s.timer.deadline = some (13 * second) ∧ s'.timer.deadline = some (14 * second) :=
  ⟨_, _, _, _, ⟨[], rfl, rfl, rfl⟩, List.mem_cons_self, rfl, rfl⟩

end Arinc615a.Host
