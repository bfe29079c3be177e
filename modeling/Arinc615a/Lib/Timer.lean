/-!
# One-shot timers

A timer with one asynchronous wait at a time, as event libraries have them.
The wait is pending until its deadline; then its handler is queued and runs
later, in order. Re-arming or cancelling the timer takes back a wait that is
pending (its handler is queued with `operationAborted`), and has no effect on
handlers that are queued already.
-/

namespace Timers

/-- Nanoseconds of a second: the unit of the deadlines. -/
def second : Nat := 1000000000

/-- What a wait handler is called with. -/
inductive WaitResult where
  | success
  | operationAborted
  | failure
  deriving DecidableEq

/-- A timer: the deadline of the pending wait, and the handlers queued. -/
structure Timer where
  deadline : Option Nat := none
  queue : List WaitResult := []
  deriving DecidableEq

namespace Timer

/-- Queue the handler of the pending wait. -/
def complete (timer : Timer) (result : WaitResult) : Timer :=
  { deadline := none, queue := timer.queue ++ [result] }

/-- Cancel the pending wait, if there is one. -/
def cancel (timer : Timer) : Timer :=
  match timer.deadline with
  | none => timer
  | some _ => timer.complete .operationAborted

/-- Set a new expiry and wait for it. -/
def start (timer : Timer) (deadline : Nat) : Timer :=
  { timer.cancel with deadline := some deadline }

/-- The wait is over: it is pending and its deadline has passed. -/
def due (timer : Timer) (now : Nat) : Bool :=
  match timer.deadline with
  | none => false
  | some deadline => deadline ≤ now

@[simp] theorem deadline_complete (timer : Timer) (result : WaitResult) :
    (timer.complete result).deadline = none := rfl

@[simp] theorem deadline_cancel (timer : Timer) : timer.cancel.deadline = none := by
  cases h : timer.deadline <;> simp [cancel, h]

/-- Cancelling leaves the handlers that are queued, and may queue one more. -/
theorem exists_queue_cancel (timer : Timer) :
    ∃ n, timer.cancel.queue = timer.queue ++ List.replicate n .operationAborted := by
  cases h : timer.deadline with
  | none => exact ⟨0, by simp [cancel, h]⟩
  | some d => exact ⟨1, by simp [cancel, h, complete]⟩

@[simp] theorem deadline_start (timer : Timer) (deadline : Nat) :
    (timer.start deadline).deadline = some deadline := rfl

@[simp] theorem queue_start (timer : Timer) (deadline : Nat) :
    (timer.start deadline).queue = timer.cancel.queue := rfl

/-! ## Waits whose handler has not run -/

/-- The pending wait and the handlers queued, counted together. -/
def waits (timer : Timer) : Nat :=
  (if timer.deadline.isSome then 1 else 0) + timer.queue.length

theorem waits_complete {timer : Timer} (result : WaitResult)
    (h : timer.deadline.isSome) : (timer.complete result).waits = timer.waits := by
  simp [waits, complete, h, Nat.add_comm]

@[simp] theorem waits_cancel (timer : Timer) : timer.cancel.waits = timer.waits := by
  cases h : timer.deadline with
  | none => simp [cancel, h]
  | some d =>
    have hcancel : timer.cancel = timer.complete .operationAborted := by
      simp [cancel, h]
    rw [hcancel, waits_complete _ (by simp [h])]

@[simp] theorem waits_start (timer : Timer) (deadline : Nat) :
    (timer.start deadline).waits = timer.waits + 1 := by
  rw [← waits_cancel timer]
  simp [waits, Nat.add_comm]

/-- Without waits, no deadline is set and no handler is queued. -/
theorem waits_eq_zero {timer : Timer} :
    timer.waits = 0 ↔ timer.deadline = none ∧ timer.queue = [] := by
  simp [waits]

theorem deadline_le_waits (timer : Timer) :
    (if timer.deadline.isSome then 1 else 0) ≤ timer.waits :=
  Nat.le_add_right ..

/-- Starting a wait is noticed. -/
theorem start_ne (timer : Timer) (deadline : Nat) : timer.start deadline ≠ timer := by
  intro heq
  have hwaits := waits_start timer deadline
  rw [heq] at hwaits
  omega

/-- Running the first handler takes one wait away. -/
theorem waits_tail {timer : Timer} {result : WaitResult}
    (h : timer.queue.head? = some result) :
    ({ timer with queue := timer.queue.tail } : Timer).waits + 1 = timer.waits := by
  cases hq : timer.queue with
  | nil => simp [hq] at h
  | cons r rs => simp [waits, hq, Nat.add_assoc]

theorem due_isSome {timer : Timer} {now : Nat} (h : timer.due now = true) :
    timer.deadline.isSome := by
  cases hd : timer.deadline with
  | none => simp [due, hd] at h
  | some d => rfl

end Timer

end Timers
