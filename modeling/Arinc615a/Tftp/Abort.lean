import Arinc615a.Tftp.Library

/-!
# Aborting the client

An abort acts on the transfer in flight and on the wait that is pending, and
leaves no trace of its own. It takes back neither a wait that is over already:
where the handler of an expired wait is queued, `handleWaitTimeout` finds no
error and requests again.
-/

namespace Arinc615a.Tftp.Client

open Actions Actions.Action Machines Timers

variable {cfg : Configuration}

/-- The calls that abort the operation. -/
def isAbort : Event → Bool
  | .abort => true
  | .gracefulAbort .. => true
  | _ => false

/-- What every abort does. -/
theorem abort_step {s s' : State} {e : Event} {out : List (Event × Output)}
    (he : isAbort e = true) :
    (machine cfg).step s e = some (s', out) → s' = { s with
        waitTimer := s.waitTimer.cancel
        operation := s.operation.map fun _ => true } ∧ requests out = 0 := by
  intro h
  obtain ⟨os, hreact, rfl⟩ := step_eq_some.mp h
  cases e with
  | abort =>
    obtain ⟨rfl, rfl⟩ := abortWith_effect hreact
    cases hop : s.operation <;> exact ⟨rfl, rfl⟩
  | gracefulAbort errorCode errorMessage =>
    obtain ⟨rfl, rfl⟩ := abortWith_effect hreact
    cases hop : s.operation <;> exact ⟨rfl, rfl⟩
  | _ => cases he

/-- An abort is always possible. -/
theorem exists_abort_step (cfg : Configuration) (s : State) {e : Event}
    (he : isAbort e = true) :
    ∃ s' out, (machine cfg).step s e = some (s', out) := by
  have hcase : ∀ o, ∃ s' os, abortWith o s [] = some ((), s', os) := by
    intro o
    simp only [abortWith, modify_bind, get_bind, if_apply]
    split
    · exact ⟨_, _, rfl⟩
    · exact ⟨_, _, rfl⟩
  cases e with
  | abort =>
    obtain ⟨s', os, h⟩ := hcase .abortTransfer
    exact ⟨s', _, step_eq_some.mpr ⟨os, h, rfl⟩⟩
  | gracefulAbort errorCode errorMessage =>
    obtain ⟨s', os, h⟩ := hcase (.gracefulAbortTransfer errorCode errorMessage)
    exact ⟨s', _, step_eq_some.mpr ⟨os, h, rfl⟩⟩
  | _ => cases he

/-! ## States that request no more -/

/-- Nothing leads to a request: the transfer in flight was told to abort, and
no wait can end well. -/
structure Aborted (s : State) : Prop where
  operation : s.operation ≠ some false
  deadline : s.waitTimer.deadline = none
  queue : .success ∉ s.waitTimer.queue

/-- An abort leaves such a state, unless the handler of an expired wait is queued. -/
theorem aborted_of_abort {s s' : State} {e : Event} {out : List (Event × Output)}
    (he : isAbort e = true) (hqueue : .success ∉ s.waitTimer.queue)
    (h : (machine cfg).step s e = some (s', out)) : Aborted s' := by
  obtain ⟨rfl, -⟩ := abort_step he h
  constructor
  · show s.operation.map _ ≠ some false
    cases s.operation <;> simp
  · exact Timer.deadline_cancel _
  · show .success ∉ s.waitTimer.cancel.queue
    cases hd : s.waitTimer.deadline with
    | none => simpa [Timer.cancel, hd] using hqueue
    | some d => simpa [Timer.cancel, hd, Timer.complete] using hqueue

/-- **Aborted states** stay so, and request nothing. -/
theorem Aborted.step {s s' : State} {e : Event} {out : List (Event × Output)}
    (ha : Aborted s) (h : (machine cfg).step s e = some (s', out)) :
    Aborted s' ∧ requests out = 0 := by
  cases e with
  | transferCompleted status info =>
    -- The transfer in flight was told to abort, so it completes as aborted.
    obtain ⟨⟨hop, haborted⟩, os, hcompletion, rfl⟩ := transferCompleted_step.mp h
    have htrue : s.operation = some true := by
      cases hs : s.operation with
      | none => simp [hs] at hop
      | some aborted =>
        cases aborted with
        | false => exact absurd hs ha.operation
        | true => rfl
    have heffect := handleCompletion_effect hcompletion
    rw [haborted htrue] at heffect
    have hanswer : answer cfg .aborted info = .final .aborted := by simp [answer]
    rw [hanswer] at heffect
    obtain ⟨rfl, rfl⟩ := heffect
    exact ⟨⟨by simp [completedState], ha.deadline, ha.queue⟩, rfl⟩
  | timerExpired =>
    obtain ⟨os, hreact, rfl⟩ := step_eq_some.mp h
    simp only [react, get_bind, require_bind_eq_some] at hreact
    obtain ⟨hdue, hreact⟩ := hreact
    have harmed := Timer.due_isSome hdue
    rw [ha.deadline] at harmed
    cases harmed
  | timerFailed =>
    obtain ⟨os, hreact, rfl⟩ := step_eq_some.mp h
    simp only [react, get_bind, require_bind, ha.deadline, Option.isSome_none,
      Bool.false_eq_true, if_false, reduceCtorEq] at hreact
  | waitHandler result =>
    obtain ⟨os, hreact, rfl⟩ := step_eq_some.mp h
    simp only [react, get_bind, require_bind_eq_some, modify_bind] at hreact
    obtain ⟨hhead, hreact⟩ := hreact
    have htail : .success ∉ s.waitTimer.queue.tail :=
      fun hmem => ha.queue (List.mem_of_mem_tail hmem)
    cases result with
    | success => exact absurd (List.mem_of_mem_head? hhead) ha.queue
    | operationAborted =>
      simp only [handleWaitTimeout, emit_apply, Option.some.injEq, Prod.mk.injEq,
        true_and] at hreact
      obtain ⟨rfl, rfl⟩ := hreact
      exact ⟨⟨ha.operation, ha.deadline, htail⟩, rfl⟩
    | failure =>
      simp only [handleWaitTimeout, emit_apply, Option.some.injEq, Prod.mk.injEq,
        true_and] at hreact
      obtain ⟨rfl, rfl⟩ := hreact
      exact ⟨⟨ha.operation, ha.deadline, htail⟩, rfl⟩
  | abort => exact ⟨aborted_of_abort rfl ha.queue h, (abort_step rfl h).2⟩
  | gracefulAbort errorCode errorMessage =>
    exact ⟨aborted_of_abort rfl ha.queue h, (abort_step rfl h).2⟩
  | advance time =>
    obtain ⟨os, hreact, rfl⟩ := step_eq_some.mp h
    simp only [react, modify_apply, Option.some.injEq, Prod.mk.injEq, true_and] at hreact
    obtain ⟨rfl, rfl⟩ := hreact
    exact ⟨⟨ha.operation, ha.deadline, ha.queue⟩, rfl⟩

/-- So no run from one requests anything. -/
theorem Aborted.run {s s' : State} {es : List Event} {tr : List (Event × Output)}
    (ha : Aborted s) (h : (machine cfg).exec s es = some (s', tr)) : requests tr = 0 := by
  induction es generalizing s tr with
  | nil =>
    simp only [Machine.exec_nil, Option.some.injEq, Prod.mk.injEq] at h
    obtain ⟨-, rfl⟩ := h
    rfl
  | cons e es ih =>
    obtain ⟨s₁, out, rest, hstep, hrest, rfl⟩ := Machine.exec_cons.mp h
    obtain ⟨ha₁, hout⟩ := ha.step hstep
    rw [requests_append, hout, ih ha₁ hrest]

/-! ## An expired wait -/

/-- The handler of an expired wait requests. -/
theorem expired_step (cfg : Configuration) {s : State}
    (hhead : s.waitTimer.queue.head? = some .success) :
    (machine cfg).step s (.waitHandler .success) =
      some ({ s with
        waitTimer := { s.waitTimer with queue := s.waitTimer.queue.tail }
        operation := some false }, [(.waitHandler .success, .request)]) := by
  refine step_eq_some.mpr ⟨[.request], ?_, rfl⟩
  simp only [react, get_bind, require_bind, hhead, if_true, modify_bind, handleWaitTimeout,
    requestOperation, emit_apply, List.nil_append]

/-- Where the handler of an expired wait is queued, an abort leaves it there, and
its run requests. -/
theorem exists_request {s : State} {e : Event} (he : isAbort e = true)
    (hsingle : pending s ≤ 1) (hqueue : .success ∈ s.waitTimer.queue) :
    ∃ s' tr, (machine cfg).exec s [e, .waitHandler .success] = some (s', tr) ∧
      requests tr = 1 := by
  have hlength : 0 < s.waitTimer.queue.length := List.length_pos_of_mem hqueue
  have hdeadline : s.waitTimer.deadline = none := by
    cases hd : s.waitTimer.deadline with
    | none => rfl
    | some d =>
      simp only [pending, Timer.waits, hd, Option.isSome_some, if_true] at hsingle
      omega
  have hhead : s.waitTimer.queue.head? = some .success := by
    have hone : s.waitTimer.queue.length = 1 := by
      simp only [pending, Timer.waits] at hsingle
      omega
    obtain ⟨result, hresult⟩ := List.length_eq_one_iff.mp hone
    rw [hresult, List.mem_singleton] at hqueue
    rw [hresult, hqueue]
    rfl
  obtain ⟨s₁, out, hstep⟩ := exists_abort_step cfg s he
  obtain ⟨hs₁, hout⟩ := abort_step he hstep
  have hkept : s₁.waitTimer.queue.head? = some .success := by
    rw [hs₁]
    show s.waitTimer.cancel.queue.head? = some .success
    rw [show s.waitTimer.cancel = s.waitTimer by simp [Timer.cancel, hdeadline], hhead]
  have hrun := Machine.exec_cons.mpr ⟨_, out, _, hstep,
    Machine.exec_singleton.mpr (expired_step cfg hkept), rfl⟩
  refine ⟨_, _, hrun, ?_⟩
  rw [requests_append, hout]
  rfl

/-- **Aborts are kept**: behind an abort nothing is requested, whatever happens
later, exactly if no handler of an expired wait was queued. -/
theorem client_abort_kept_iff (es : List Event) {s : State} {tr : List (Event × Output)}
    {e : Event} (h : (machine cfg).exec started es = some (s, tr)) (he : isAbort e = true) :
    (∀ fs s' out, (machine cfg).exec s (e :: fs) = some (s', out) → requests out = 0) ↔
      .success ∉ s.waitTimer.queue := by
  constructor
  · intro hkept hqueue
    obtain ⟨s', out, hrun, hrequest⟩ := exists_request he (pending_le_one h) hqueue
    have hnone := hkept _ s' out hrun
    omega
  · intro hqueue fs s' out hrun
    obtain ⟨s₁, o, rest, hstep, hrest, rfl⟩ := Machine.exec_cons.mp hrun
    have ha := aborted_of_abort he hqueue hstep
    rw [requests_append, (abort_step he hstep).2, ha.run hrest]

/-- While the WAIT timer runs, an abort is kept. -/
theorem client_abort_kept_waiting :
    ∃ s tr, (machine ⟨1, true⟩).exec started
        [.transferCompleted .requestError (some (.notDefined, str "WAIT:2"))] = some (s, tr) ∧
      s.waitTimer.deadline = some (2 * second) ∧
      ∀ fs s' out, (machine ⟨1, true⟩).exec s (.abort :: fs) = some (s', out) →
        requests out = 0 := by
  refine ⟨_, _, rfl, rfl, ?_⟩
  exact (client_abort_kept_iff [.transferCompleted .requestError
    (some (.notDefined, str "WAIT:2"))] rfl rfl).mpr (by decide)

/-- The timer expires, and the operation is aborted before its handler runs: the
handler requests the file again. -/
theorem client_abort_lost :
    ∃ s tr s' out, (machine ⟨1, true⟩).exec started
        [.transferCompleted .requestError (some (.notDefined, str "WAIT:2")),
          .advance (2 * second), .timerExpired] = some (s, tr) ∧
      completions tr = 0 ∧
      (machine ⟨1, true⟩).exec s [.abort, .waitHandler .success] = some (s', out) ∧
      requests out = 1 :=
  ⟨_, _, _, _, rfl, rfl, rfl, rfl⟩

end Arinc615a.Tftp.Client
