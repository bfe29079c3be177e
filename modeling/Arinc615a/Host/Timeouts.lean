import Arinc615a.Host.Callbacks
import Arinc615a.Host.Watchdog
import Arinc615a.Lib.Queue

/-!
# The DLP timeout of a host operation

The timer handler that calls `finished` with "DLP Timeout" runs for a wait that is over.
Re-arming the timer takes back the wait that is pending, and not a handler that is queued
already. So the timeout is in time as long as no step re-arms the timer while an expiry is
queued: the status file that is processed between the expiry and its handler does not keep
the operation alive.
-/

namespace Arinc615a.Host

open Actions Actions.Action Machines Timers
open Files Information Tftp

/-! ## The law -/

/-- The events that run a queued handler of the timer. -/
def runsHandler : Event → Bool
  | .timerHandler _ => true
  | _ => false

/-- The step behind `pre` ends the operation with the timeout. -/
def TimesOut (cfg : Configuration) (es pre : List Event) (s : State) : Prop :=
  ∃ tr s' out, (machine cfg).HasStep started es pre tr s (.timerHandler .success) s' out ∧
    .finished .operationAbortedByDlp (str "DLP Timeout") ∈ out

/-- The step behind `pre` re-arms the timer. -/
def Rearms (cfg : Configuration) (es pre : List Event) (s : State) : Prop :=
  ∃ tr e s' out exceptionTime, (machine cfg).HasStep started es pre tr s e s' out ∧
    rearms cfg s e = some exceptionTime

/-- The handler that runs behind `between` is the one that the expiry behind `before` has
queued: in between, those have run that were queued already. -/
def Causes (cfg : Configuration) (before between : List Event) : Prop :=
  ∃ s tr, (machine cfg).exec started before = some (s, tr) ∧
    served runsHandler between = s.timer.queue.length

/-- No timeout is premature. -/
structure TimeoutLaw (cfg : Configuration) (es : List Event) : Prop where
  /-- Between an expiry and the timeout that it causes, the timer is not re-armed. -/
  timely : ∀ pre s, TimesOut cfg es pre s →
    ∃ before between, pre = before ++ .timerExpired :: between ∧ Causes cfg before between ∧
      ∀ pre' s', Rearms cfg es pre' s' → before.length < pre'.length →
        pre.length ≤ pre'.length
  /-- A step that re-arms the timer keeps the operation alive for the DLP timeout. -/
  alive : ∀ pre s pre' s', TimesOut cfg es pre s → Rearms cfg es pre' s' →
    pre'.length < pre.length → s'.now + cfg.dlpTimeout * second ≤ s.now

/-- The timer is re-armed while no expiry is queued. -/
def InTime (cfg : Configuration) (es : List Event) : Prop :=
  ∀ pre s, Rearms cfg es pre s → .success ∉ s.timer.queue

/-! ## The queue of the timer -/

variable {cfg : Configuration} {s : State}

/-- The handler that an event queues. -/
def queued : Event → List WaitResult
  | .timerExpired => [.success]
  | .timerFailed => [.failure]
  | _ => []

theorem queue_taken (e : Event) :
    (taken s e).timer.queue = s.timer.queue.drop (served runsHandler [e]) ++ queued e := by
  have hcompleted : ∀ operation, (s.afterCompletion operation).timer.queue
      = s.timer.queue.drop 0 ++ [] := by
    intro operation
    rw [(timer_afterCompletion operation).1, List.append_nil]
    rfl
  cases e with
  | clientCompleted operation status data => exact hcompleted operation
  | serverCompleted operation status data => exact hcompleted operation
  | timerHandler result =>
    show s.timer.queue.tail = s.timer.queue.drop 1 ++ []
    rw [List.append_nil, List.drop_one]
  | timerExpired => rfl
  | timerFailed => rfl
  | _ =>
    show s.timer.queue = s.timer.queue.drop 0 ++ []
    rw [List.append_nil]
    rfl

/-- **One step** takes the first handler or none, and queues that of a wait that is over,
and behind it those of cancelled ones. -/
theorem exists_queue_step (hs : Consistent s) {s' : State} {e : Event} {out : List Output}
    (h : (machine cfg).step s e = some (s', out)) :
    ∃ n, s'.timer.queue = s.timer.queue.drop (served runsHandler [e]) ++ queued e ++
      List.replicate n .operationAborted := by
  obtain ⟨r, -, rfl, -⟩ := (step_iff hs).mp h
  rw [← queue_taken, timer_state]
  cases r.arms cfg (taken s e) with
  | some exceptionTime => exact (taken s e).timer.exists_queue_cancel
  | none =>
    show ∃ n, (if r.finishes then _ else _ : Timer).queue = _
    split
    · exact (taken s e).timer.exists_queue_cancel
    · exact ⟨0, (List.append_nil _).symm⟩

theorem fifo_timer (cfg : Configuration) :
    Fifo (machine cfg) Consistent (fun s => s.timer.queue) runsHandler where
  inv_step _ _ _ _ hs h := consistent_step hs h
  queue_step _ _ _ _ hs h := by
    obtain ⟨n, hqueue⟩ := exists_queue_step hs h
    rw [hqueue, List.append_assoc]
    exact List.prefix_append _ _

/-- A successful wait that a step has queued is the one whose expiry it is. -/
theorem expired_of_queued (hs : Consistent s) {s' : State} {e : Event} {out : List Output}
    {k : Nat} (h : (machine cfg).step s e = some (s', out))
    (hnew : s.timer.queue.length ≤ served runsHandler [e] + k)
    (hk : s'.timer.queue[k]? = some .success) :
    e = .timerExpired ∧ k = s.timer.queue.length := by
  obtain ⟨n, hqueue⟩ := exists_queue_step hs h
  have hlength : (s.timer.queue.drop (served runsHandler [e])).length ≤ k := by
    rw [List.length_drop]
    omega
  rw [hqueue, List.append_assoc, List.getElem?_append_right hlength] at hk
  have hnot : ∀ j : Nat, (List.replicate n WaitResult.operationAborted)[j]? ≠
      some WaitResult.success := by
    intro j hj
    obtain ⟨-, heq⟩ := List.mem_replicate.mp (List.mem_of_getElem? hj)
    cases heq
  cases e with
  | timerExpired =>
    have hzero : served runsHandler [Event.timerExpired] = 0 := rfl
    rw [hzero, List.drop_zero] at hk hlength
    refine ⟨rfl, ?_⟩
    by_cases hk0 : k - s.timer.queue.length = 0
    · omega
    · obtain ⟨j, hj⟩ := Nat.exists_eq_succ_of_ne_zero hk0
      rw [hj] at hk
      exact absurd hk (hnot j)
  | timerFailed =>
    cases hj : k - (s.timer.queue.drop (served runsHandler [Event.timerFailed])).length with
    | zero =>
      rw [hj] at hk
      cases hk
    | succ j =>
      rw [hj] at hk
      exact absurd hk (hnot j)
  | _ => exact absurd hk (hnot _)

/-- A successful wait in the queue was there before, or its expiry is the step. -/
theorem success_of_step (hs : Consistent s) {s' : State} {e : Event} {out : List Output}
    (h : (machine cfg).step s e = some (s', out)) (hmem : .success ∈ s'.timer.queue) :
    .success ∈ s.timer.queue ∨ e = .timerExpired := by
  obtain ⟨n, hqueue⟩ := exists_queue_step hs h
  rw [hqueue, List.append_assoc, List.mem_append, List.mem_append] at hmem
  rcases hmem with hbefore | hnew | haborted
  · exact .inl (List.mem_of_mem_drop hbefore)
  · right
    cases e with
    | timerExpired => rfl
    | timerFailed => simp [queued] at hnew
    | _ => cases hnew
  · obtain ⟨-, heq⟩ := List.mem_replicate.mp haborted
    cases heq

/-! ## The clock -/

/-- No step goes back in time. -/
theorem now_step (hs : Consistent s) {s' : State} {e : Event} {out : List Output}
    (h : (machine cfg).step s e = some (s', out)) : s.now ≤ s'.now := by
  obtain ⟨r, -, rfl, -⟩ := (step_iff hs).mp h
  rw [now_state]
  cases e with
  | clientCompleted operation status data => exact (timer_afterCompletion operation).2.ge
  | serverCompleted operation status data => exact (timer_afterCompletion operation).2.ge
  | advance time => exact Nat.le_add_right s.now time
  | _ => exact le_refl s.now

/-- A wait is over when its deadline has passed. -/
theorem passed_of_timerExpired (hs : Consistent s) {s' : State} {out : List Output}
    (h : (machine cfg).step s .timerExpired = some (s', out)) :
    ∃ deadline, s.timer.deadline = some deadline ∧ deadline ≤ s.now := by
  obtain ⟨r, hr, -, -⟩ := (step_iff hs).mp h
  cases reacts_of_reaction hr with
  | timerExpired hdue =>
    cases hdeadline : s.timer.deadline with
    | none => simp [Timer.due, hdeadline] at hdue
    | some deadline => exact ⟨deadline, rfl, by simpa [Timer.due, hdeadline] using hdue⟩
  | send he => cases he

/-- Since `time`, the operation is kept alive for the DLP timeout. -/
structure Since (cfg : Configuration) (time : Nat) (s : State) : Prop where
  passed : time ≤ s.now
  pending : ∀ deadline, s.timer.deadline = some deadline →
    time + cfg.dlpTimeout * second ≤ deadline
  expired : .success ∈ s.timer.queue → time + cfg.dlpTimeout * second ≤ s.now

/-- A step that re-arms the timer while no expiry is queued keeps the operation alive. -/
theorem since_of_rearms (hs : Consistent s) {s' : State} {e : Event} {out : List Output}
    {exceptionTime time : Nat} (h : (machine cfg).step s e = some (s', out))
    (hrearms : rearms cfg s e = some exceptionTime) (hqueue : .success ∉ s.timer.queue)
    (htime : time ≤ s.now) : Since cfg time s' := by
  have hnow := now_step hs h
  constructor
  · exact htime.trans hnow
  · intro deadline hdeadline
    rw [rearms_step hs h hrearms, Option.some.injEq] at hdeadline
    rw [← hdeadline]
    exact Nat.add_le_add htime (Nat.mul_le_mul_right second (le_max_right _ _))
  · intro hmem
    rcases success_of_step hs h hmem with hbefore | rfl
    · exact absurd hbefore hqueue
    · cases hrearms

/-- **One step** keeps the operation alive if it does not re-arm the timer too late. -/
theorem Since.step {time : Nat} (hsince : Since cfg time s) (hs : Consistent s) {s' : State}
    {e : Event} {out : List Output} (h : (machine cfg).step s e = some (s', out))
    (hqueue : (rearms cfg s e).isSome → .success ∉ s.timer.queue) : Since cfg time s' := by
  cases hrearms : rearms cfg s e with
  | some exceptionTime =>
    exact since_of_rearms hs h hrearms (hqueue (by simp [hrearms])) hsince.passed
  | none =>
    have hnow := now_step hs h
    constructor
    · exact hsince.passed.trans hnow
    · intro deadline hdeadline
      rcases kept_step hs h hrearms with hkept | hnone
      · exact hsince.pending deadline (hkept ▸ hdeadline)
      · rw [hnone] at hdeadline
        cases hdeadline
    · intro hmem
      rcases success_of_step hs h hmem with hbefore | rfl
      · exact (hsince.expired hbefore).trans hnow
      · obtain ⟨deadline, hdeadline, hpassed⟩ := passed_of_timerExpired hs h
        exact (hsince.pending deadline hdeadline).trans (hpassed.trans hnow)

/-! ## Runs in time -/

theorem Rearms.append {es pre : List Event} (h : Rearms cfg es pre s) (es' : List Event) :
    Rearms cfg (es ++ es') pre s := by
  obtain ⟨tr, e, s', out, exceptionTime, htaken, hrearms⟩ := h
  exact ⟨tr, e, s', out, exceptionTime, htaken.append es', hrearms⟩

theorem InTime.of_append {es es' : List Event} (h : InTime cfg (es ++ es')) : InTime cfg es :=
  fun pre s hrearms => h pre s (hrearms.append es')

/-- **A run in time** keeps the operation alive since each step that re-arms the timer. -/
theorem since_run {es : List Event} {tr : List Output}
    (h : (machine cfg).exec started es = some (s, tr)) (hin : InTime cfg es)
    {pre : List Event} {s₁ : State} (hrearms : Rearms cfg es pre s₁) : Since cfg s₁.now s := by
  refine Machine.exec_history (fun es s _ => InTime cfg es →
    ∀ pre s₁, Rearms cfg es pre s₁ → Since cfg s₁.now s) ?_ ?_ h hin pre s₁ hrearms
  · intro _ pre s₁ hnone
    obtain ⟨tr, e, s', out, exceptionTime, ⟨post, hnil, -⟩, -⟩ := hnone
    exact absurd hnil (by simp)
  · intro es s tr e s' out hexec ih hstep hin pre s₁ hrearms
    have hs := consistent_run hexec
    obtain ⟨tr₁, e₁, s₂, out₁, exceptionTime, htaken, harms⟩ := hrearms
    rcases htaken.of_append with hbefore | ⟨rfl, rfl⟩
    · have hsince := ih hin.of_append pre s₁ ⟨tr₁, e₁, s₂, out₁, exceptionTime, hbefore, harms⟩
      refine hsince.step hs hstep ?_
      intro hsome
      obtain ⟨exceptionTime', hlast⟩ := Option.isSome_iff_exists.mp hsome
      exact hin es s ⟨tr, e, s', out, exceptionTime', Machine.hasStep_last hexec hstep, hlast⟩
    · obtain ⟨rfl, -⟩ := htaken.exec_eq hexec
      have hqueue := hin pre s₁ ⟨tr₁, e₁, s₂, out₁, exceptionTime, htaken, harms⟩
      exact since_of_rearms hs hstep harms hqueue (le_refl _)

/-- The handler of a step stands at the head of the queue. -/
theorem head_of_timerHandler {s' : State} {result : WaitResult} {out : List Output}
    (hs : Consistent s) (h : (machine cfg).step s (.timerHandler result) = some (s', out)) :
    s.timer.queue[0]? = some result := by
  obtain ⟨r, hr, -, -⟩ := (step_iff hs).mp h
  cases reacts_of_reaction hr with
  | timerHandler hidle hhead => rwa [← List.head?_eq_getElem?]
  | send he => cases he

/-- **Causes**: a timeout has an expiry that has queued its handler, and until the
timeout the handler stays in the queue. -/
theorem exists_cause_timeout {es pre : List Event} (h : TimesOut cfg es pre s) :
    ∃ before between, pre = before ++ .timerExpired :: between ∧ Causes cfg before between ∧
      ∀ pre' s', Rearms cfg es pre' s' → before.length < pre'.length →
        pre'.length < pre.length → .success ∈ s'.timer.queue := by
  obtain ⟨tr, s', out, htaken, -⟩ := h
  obtain ⟨post, hes, hpre, hstep⟩ := id htaken
  have hhead := head_of_timerHandler (consistent_run hpre) hstep
  obtain ⟨before, e, between, tr₁, s₁, s₂, o, rfl, hbefore, hcause, hnew, hplace⟩ :=
    (fifo_timer cfg).exists_cause consistent_started hpre hhead (Nat.zero_le _)
  have hs₁ := consistent_run hbefore
  obtain ⟨rfl, hlength⟩ := expired_of_queued hs₁ hcause hnew hplace
  refine ⟨before, between, rfl, ⟨s₁, tr₁, hbefore, hlength⟩, ?_⟩
  intro pre' s₃ hrearms hafter hlt
  obtain ⟨tr₃, e₃, s₄, out₃, exceptionTime, htaken₃, harms⟩ := hrearms
  have hexpiry : (machine cfg).HasStep started es before tr₁ s₁ .timerExpired s₂ o := by
    refine ⟨between ++ .timerHandler .success :: post, ?_, hbefore, hcause⟩
    rw [hes, List.append_assoc, List.cons_append]
  obtain ⟨first, os, rfl, hfirst⟩ := htaken₃.exists_between hexpiry hafter
  obtain ⟨last, os', heq, -⟩ := htaken.exists_between htaken₃ hlt
  -- The handler has moved up with those that ran in between, and not out of the queue.
  rw [List.append_assoc, List.cons_append, List.append_cancel_left_eq, List.cons.injEq] at heq
  obtain ⟨-, rfl⟩ := heq
  rw [served_append, Nat.add_assoc] at hplace
  exact List.mem_of_getElem? ((fifo_timer cfg).getElem?_exec (consistent_step hs₁ hcause)
    hfirst hplace)

/-- **A run in time** keeps the law. -/
theorem timeoutLaw_of_inTime {es : List Event} (hin : InTime cfg es) : TimeoutLaw cfg es where
  timely pre s htimeout := by
    obtain ⟨before, between, hpre, hcauses, hqueued⟩ := exists_cause_timeout htimeout
    refine ⟨before, between, hpre, hcauses, ?_⟩
    intro pre' s' hrearms hafter
    by_contra hlt
    exact hin pre' s' hrearms (hqueued pre' s' hrearms hafter (by omega))
  alive pre s pre' s' htimeout hrearms hlt := by
    obtain ⟨tr, s₁, out, htaken, -⟩ := htimeout
    obtain ⟨tr', e, s₂, out', exceptionTime, htaken', harms⟩ := hrearms
    obtain ⟨mid, -, rfl, -⟩ := htaken.exists_between htaken' hlt
    obtain ⟨post, rfl, hpre, hstep⟩ := htaken
    obtain ⟨post', -, hpre', hstep'⟩ := htaken'
    have hbefore : Rearms cfg (pre' ++ e :: mid) pre' s' :=
      ⟨tr', e, s₂, out', exceptionTime, ⟨mid, rfl, hpre', hstep'⟩, harms⟩
    have hsince := since_run hpre hin.of_append hbefore
    have hhead := head_of_timerHandler (consistent_run hpre) hstep
    exact hsince.expired (List.mem_of_getElem? hhead)

/-! ## Handlers that run -/

/-- A reaction that does not arm the timer takes no wait away and adds none. -/
theorem waits_state {r : Reaction} (h : r.arms cfg s = none) :
    (r.state cfg s).timer.waits = s.timer.waits := by
  rw [timer_state, h]
  show (if r.finishes then _ else _ : Timer).waits = _
  split
  · exact Timer.waits_cancel _
  · rfl

/-- The handlers that are queued can run, one after the other. -/
theorem exists_flush_idle (hs : Consistent s) (hidle : s.callback = none) :
    ∃ es s' tr, (machine cfg).exec s es = some (s', tr) ∧ s'.timer.queue = [] ∧
      ∀ e ∈ es, ∀ t, rearms cfg t e = none := by
  induction hn : s.timer.waits generalizing s with
  | zero => exact ⟨[], s, [], rfl, (Timer.waits_eq_zero.mp hn).2, by simp⟩
  | succ n ih =>
    cases hqueue : s.timer.queue with
    | nil => exact ⟨[], s, [], rfl, hqueue, by simp⟩
    | cons result rest =>
      have hhead : s.timer.queue.head? = some result := by rw [hqueue, List.head?_cons]
      have hreaction : reaction cfg s (.timerHandler result) = some (timerReaction result) := by
        simp only [reaction, hidle, hhead, and_self, if_true]
      have hstep := (step_iff hs).mpr ⟨_, hreaction, rfl, rfl⟩
      have hwaits : ((timerReaction result).state cfg
          (taken s (.timerHandler result))).timer.waits = n := by
        have harms : (timerReaction result).arms cfg (taken s (.timerHandler result)) = none := by
          cases result <;> rfl
        have htail : (taken s (.timerHandler result)).timer.waits + 1 = s.timer.waits :=
          Timer.waits_tail hhead
        rw [waits_state harms]
        omega
      have hcallback : ((timerReaction result).state cfg
          (taken s (.timerHandler result))).callback = none := by
        rw [callback_state]
        cases result <;> exact hidle
      obtain ⟨es, s', tr, hrest, hempty, hquiet⟩ :=
        ih (consistent_step hs hstep) hcallback hwaits
      refine ⟨.timerHandler result :: es, s', _, Machine.exec_cons.mpr
        ⟨_, _, tr, hstep, hrest, rfl⟩, hempty, ?_⟩
      intro e he t
      rcases List.mem_cons.mp he with rfl | hlater
      · rfl
      · exact hquiet e hlater t

/-- And if the user's handler is called, it can throw first. -/
theorem exists_flush (hs : Consistent s) :
    ∃ es s' tr, (machine cfg).exec s es = some (s', tr) ∧ s'.timer.queue = [] ∧
      ∀ e ∈ es, ∀ t, rearms cfg t e = none := by
  cases hcallback : s.callback with
  | none => exact exists_flush_idle hs hcallback
  | some continuation =>
    have hreaction : reaction cfg s .callbackThrew = some (throwReaction s continuation) := by
      simp only [reaction, hcallback, Option.map_some]
    have hstep := (step_iff hs).mpr ⟨_, hreaction, rfl, rfl⟩
    have hidle : ((throwReaction s continuation).state cfg
        (taken s .callbackThrew)).callback = none := by
      rw [callback_state]
      split
      · rename_i call heq
        exact absurd heq (throwReaction_not_call continuation call)
      · rfl
    obtain ⟨es, s', tr, hrest, hempty, hquiet⟩ :=
      exists_flush_idle (consistent_step hs hstep) hidle
    refine ⟨.callbackThrew :: es, s', _, Machine.exec_cons.mpr ⟨_, _, tr, hstep, hrest, rfl⟩,
      hempty, ?_⟩
    intro e he t
    rcases List.mem_cons.mp he with rfl | hlater
    · rfl
    · exact hquiet e hlater t

/-! ## The timeout -/

theorem out_timerHandler (hs : Consistent s) {s' : State} {out : List Output}
    (h : (machine cfg).step s (.timerHandler .success) = some (s', out)) :
    .finished .operationAbortedByDlp (str "DLP Timeout") ∈ out := by
  obtain ⟨r, hr, -, rfl⟩ := (step_iff hs).mp h
  cases reacts_of_reaction hr with
  | timerHandler hidle hhead => exact List.mem_singleton_self _
  | send he => cases he

/-- A handler that is queued has its turn in a run that leaves no handler queued. -/
theorem exists_timesOut {es pre : List Event} {tr : List Output} {s₁ : State} {k : Nat}
    (h : (machine cfg).exec started es = some (s, tr)) (hempty : s.timer.queue = [])
    (hrearms : Rearms cfg es pre s₁) (hk : s₁.timer.queue[k]? = some .success) :
    ∃ e mid s₂, TimesOut cfg es (pre ++ e :: mid) s₂ ∧
      served runsHandler (e :: mid) = k := by
  obtain ⟨tr₁, e, s₂, out, exceptionTime, ⟨post, rfl, hpre, -⟩, harms⟩ := hrearms
  have hs₁ := consistent_run hpre
  obtain ⟨os, hrest, -⟩ := Machine.exec_rest h hpre
  have hserved : k < served runsHandler (e :: post) := by
    have hleft := ((fifo_timer cfg).queue_exec hs₁ hrest).length_le
    obtain ⟨hlt, -⟩ := List.getElem?_eq_some_iff.mp hk
    rw [hempty, List.length_drop, List.length_nil] at hleft
    omega
  obtain ⟨before, f, behind, hsplit, hserves, hcount⟩ := exists_serving hserved
  cases before with
  | nil =>
    -- The step that re-arms the timer runs no handler itself.
    obtain ⟨rfl, -⟩ := List.cons.inj hsplit
    cases e with
    | timerHandler result => cases harms
    | _ => cases hserves
  | cons e' mid =>
    rw [List.cons_append, List.cons.injEq] at hsplit
    obtain ⟨rfl, rfl⟩ := hsplit
    rw [← List.cons_append] at hrest
    obtain ⟨s₃, o₃, os₃, hmid, hlast, -⟩ := Machine.exec_append.mp hrest
    obtain ⟨s₄, o₄, os₄, hstep, -, -⟩ := Machine.exec_cons.mp hlast
    have hexec := Machine.exec_append.mpr ⟨_, _, _, hpre, hmid, rfl⟩
    have hs₃ := consistent_run hexec
    cases f with
    | timerHandler result =>
      have hhead : s₃.timer.queue[0]? = some WaitResult.success :=
        (fifo_timer cfg).getElem?_exec hs₁ hmid (by rw [hcount]; exact hk)
      rw [head_of_timerHandler hs₃ hstep, Option.some.injEq] at hhead
      subst hhead
      refine ⟨e, mid, s₃, ⟨_, s₄, o₄, ⟨behind, by simp, hexec, hstep⟩,
        out_timerHandler hs₃ hstep⟩, hcount⟩
    | _ => cases hserves

/-- A run that leaves no handler queued is in time if it keeps the law. -/
theorem inTime_of_timeoutLaw {es : List Event} {tr : List Output}
    (h : (machine cfg).exec started es = some (s, tr)) (hempty : s.timer.queue = [])
    (hlaw : TimeoutLaw cfg es) : InTime cfg es := by
  intro pre s₁ hrearms hmem
  obtain ⟨k, hk⟩ := List.getElem?_of_mem hmem
  obtain ⟨e, mid, s₂, htimeout, hcount⟩ := exists_timesOut h hempty hrearms hk
  obtain ⟨before, between, hes, ⟨s₃, tr₃, hbefore, hcauses⟩, hquiet⟩ :=
    hlaw.timely _ s₂ htimeout
  have hlate := hquiet pre s₁ hrearms
  rw [List.length_append, List.length_cons] at hlate
  -- The expiry was not queued before the timer was re-armed, so it stands behind.
  have hprefix : pre <+: before := by
    refine List.prefix_of_prefix_length_le ⟨e :: mid, hes⟩ (List.prefix_append _ _) ?_
    omega
  obtain ⟨first, rfl⟩ := hprefix
  rw [List.append_assoc, List.append_cancel_left_eq] at hes
  obtain ⟨tr₁, e₁, s₄, out, exceptionTime, ⟨post, -, hpre, -⟩, -⟩ := hrearms
  obtain ⟨os, hfirst, -⟩ := Machine.exec_rest hbefore hpre
  -- But then the handler at its place was that of an earlier expiry.
  have hplace : k = served runsHandler first + s₃.timer.queue.length := by
    have hexpiry : served runsHandler [Event.timerExpired] = 0 := rfl
    rw [← hcount, hes, served_append, served_cons, hexpiry, hcauses, Nat.zero_add]
  rw [hplace] at hk
  have hthere := (fifo_timer cfg).getElem?_exec (consistent_run hpre) hfirst hk
  obtain ⟨hlt, -⟩ := List.getElem?_eq_some_iff.mp hthere
  exact lt_irrefl _ hlt

/-- **No premature timeout**: a run keeps the law, and with it whatever follows without
re-arming the timer, exactly if the timer is re-armed while no expiry is queued. -/
theorem host_timeout_iff {es : List Event} {tr : List Output}
    (h : (machine cfg).exec started es = some (s, tr)) :
    (∀ es', (∀ pre s', Rearms cfg (es ++ es') pre s' → pre.length < es.length) →
        TimeoutLaw cfg (es ++ es')) ↔
      InTime cfg es := by
  constructor
  · intro hlaw
    obtain ⟨es', s', tr', hflush, hempty, hquiet⟩ := exists_flush (consistent_run h)
    have hexec := Machine.exec_append.mpr ⟨s, tr, tr', h, hflush, rfl⟩
    refine (inTime_of_timeoutLaw hexec hempty (hlaw es' ?_)).of_append
    intro pre s₁ hrearms
    obtain ⟨tr₁, e, s₂, out, exceptionTime, ⟨post, hes, -, -⟩, harms⟩ := hrearms
    by_contra hlater
    have hprefix : es <+: pre :=
      List.prefix_of_prefix_length_le (List.prefix_append es es') ⟨e :: post, hes.symm⟩
        (by omega)
    obtain ⟨mid, rfl⟩ := hprefix
    rw [List.append_assoc, List.append_cancel_left_eq] at hes
    have hmem : e ∈ es' := by simp [hes]
    rw [hquiet e hmem] at harms
    cases harms
  · intro hin es' hquiet
    apply timeoutLaw_of_inTime
    intro pre s₁ hrearms
    have hlt := hquiet pre s₁ hrearms
    obtain ⟨tr₁, e, s₂, out, exceptionTime, ⟨post, hes, hpre, hstep⟩, harms⟩ := hrearms
    have hprefix : pre ++ [e] <+: es := by
      refine List.prefix_of_prefix_length_le ⟨post, ?_⟩ (List.prefix_append es es') ?_
      · rw [hes, List.append_assoc, List.singleton_append]
      · rw [List.length_append, List.length_singleton]
        exact hlt
    obtain ⟨mid, rfl⟩ := hprefix
    exact hin pre s₁ ⟨tr₁, e, s₂, out, exceptionTime, ⟨mid, by simp, hpre, hstep⟩, harms⟩

/-- An accepted upload that hears nothing more times out behind 13 seconds, in time. -/
theorem host_timeout_silent :
    ∃ s tr, (machine (exampleConfiguration .upload)).exec started
        [.clientCompleted 0 .successful [0, 0, 0, 9, 0x41, 0x34, 0, 1, 0], .callbackReturned,
          .advance (13 * second), .timerExpired, .timerHandler .success] = some (s, tr) ∧
      .finished .operationAbortedByDlp (str "DLP Timeout") ∈ tr ∧
      ∀ es', (∀ pre s', Rearms (exampleConfiguration .upload)
          ([.clientCompleted 0 .successful [0, 0, 0, 9, 0x41, 0x34, 0, 1, 0], .callbackReturned,
            .advance (13 * second), .timerExpired, .timerHandler .success] ++ es') pre s' →
          pre.length < 5) →
        TimeoutLaw (exampleConfiguration .upload)
          ([.clientCompleted 0 .successful [0, 0, 0, 9, 0x41, 0x34, 0, 1, 0], .callbackReturned,
            .advance (13 * second), .timerExpired, .timerHandler .success] ++ es') := by
  have hrun : ∃ s tr, (machine (exampleConfiguration .upload)).exec started
      [.clientCompleted 0 .successful [0, 0, 0, 9, 0x41, 0x34, 0, 1, 0], .callbackReturned,
        .advance (13 * second), .timerExpired, .timerHandler .success] = some (s, tr) ∧
      .finished .operationAbortedByDlp (str "DLP Timeout") ∈ tr :=
    ⟨_, _, rfl, by simp⟩
  obtain ⟨s, tr, hrun, hmem⟩ := hrun
  refine ⟨s, tr, hrun, hmem, (host_timeout_iff hrun).mpr ?_⟩
  intro pre s₁ hrearms
  obtain ⟨tr₁, e, s₂, out, exceptionTime, ⟨post, hes, hpre, -⟩, harms⟩ := hrearms
  -- Only the return of the handler that was told the response re-arms the timer.
  rcases pre with _ | ⟨e₀, _ | ⟨e₁, pre⟩⟩
  · rw [List.nil_append, List.cons.injEq] at hes
    obtain ⟨rfl, -⟩ := hes
    cases harms
  · rw [List.singleton_append, List.cons.injEq] at hes
    obtain ⟨rfl, -⟩ := hes
    have hqueue : ((machine (exampleConfiguration .upload)).exec started
        [.clientCompleted 0 .successful [0, 0, 0, 9, 0x41, 0x34, 0, 1, 0]]).map
          (fun r => r.1.timer.queue) = some [] := rfl
    rw [hpre, Option.map_some, Option.some.injEq] at hqueue
    rw [hqueue]
    exact List.not_mem_nil
  · rw [List.cons_append, List.cons_append, List.cons.injEq, List.cons.injEq] at hes
    have hrest : e ∈ [.advance (13 * second), .timerExpired, .timerHandler .success] := by
      rw [hes.2.2]
      exact List.mem_append_right _ List.mem_cons_self
    simp only [List.mem_cons, List.not_mem_nil, or_false] at hrest
    rcases hrest with rfl | rfl | rfl <;> cases harms

/-- A status file of an upload with `OperationInProgress`. -/
def inProgressStatus : RawData :=
  [0, 0, 0, 20, 0x41, 0x34, 0, 2, 0, 0, 0, 0, 0, 0, 0, 0x30, 0x35, 0x30, 0, 0]

/-- The timer expires, a status file in progress is processed and sets the deadline from
13 to 26 seconds, and the handler that was queued ends the operation. -/
theorem host_timeout_premature :
    ¬ ∀ (cfg : Configuration) (es : List Event) (s : State) (tr : List Output),
      (machine cfg).exec started es = some (s, tr) → TimeoutLaw cfg es := by
  intro h
  have hlaw := h (exampleConfiguration .upload)
    [.clientCompleted 0 .successful [0, 0, 0, 9, 0x41, 0x34, 0, 1, 0], .callbackReturned,
      .tftpRequest (exampleRequest .write "HNPFMS_L.LUS"), .advance (13 * second),
      .timerExpired, .serverCompleted 1 .successful inProgressStatus, .callbackReturned,
      .timerHandler .success] _ _ rfl
  have hshort := hlaw.alive
    [.clientCompleted 0 .successful [0, 0, 0, 9, 0x41, 0x34, 0, 1, 0], .callbackReturned,
      .tftpRequest (exampleRequest .write "HNPFMS_L.LUS"), .advance (13 * second),
      .timerExpired, .serverCompleted 1 .successful inProgressStatus, .callbackReturned] _
    [.clientCompleted 0 .successful [0, 0, 0, 9, 0x41, 0x34, 0, 1, 0], .callbackReturned,
      .tftpRequest (exampleRequest .write "HNPFMS_L.LUS"), .advance (13 * second),
      .timerExpired, .serverCompleted 1 .successful inProgressStatus] _
    ⟨_, _, _, ⟨[], rfl, rfl, rfl⟩, List.mem_singleton_self _⟩
    ⟨_, .callbackReturned, _, _, 0, ⟨[.timerHandler .success], rfl, rfl, rfl⟩, rfl⟩
    (by simp)
  -- Both steps are taken 13 seconds behind the start.
  change 13 * second + 13 * second ≤ 13 * second at hshort
  have hpositive : 0 < second := Nat.succ_pos _
  omega

end Arinc615a.Host
