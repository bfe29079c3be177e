import Arinc615a.Find.PacketHandler
import Arinc615a.Lib.Action
import Arinc615a.Lib.Machine
import Arinc615a.Lib.Timer

/-!
# The FIND query

`find/clients/implementation/QueryImpl.cpp`: a socket with a loop of receives
and a timer, each with one handler that waits or is queued. The timer handler
and `abort()` close the socket and complete the query; neither takes back a
handler that is queued, and `abort()` can be called at any time, from the
response handler too.

`query_lifecycle_iff` says which runs keep the life cycle: what matters is only
what is queued when the socket is closed.
-/

namespace Arinc615a.Find.Query

open Actions Actions.Action Machines Timers
open Tftp

/-! ## The object -/

/-- An asynchronous operation, one at a time: waiting, or with its handler
queued. -/
inductive Asynchronous (ρ : Type) where
  | idle
  | waiting
  | queued (result : ρ)
  deriving DecidableEq

/-- Cancelling takes effect on an operation that waits. -/
def Asynchronous.cancel {ρ : Type} (aborted : ρ) : Asynchronous ρ → Asynchronous ρ
  | waiting => queued aborted
  | idle => idle
  | queued result => queued result

/-- A handler is queued, and not for an operation that was cancelled. -/
def Asynchronous.Due {ρ : Type} (aborted : ρ) (operation : Asynchronous ρ) : Prop :=
  ∃ result, operation = queued result ∧ result ≠ aborted

@[simp] theorem Asynchronous.due_queued {ρ : Type} {aborted result : ρ} :
    (queued result).Due aborted ↔ result ≠ aborted := by
  simp [Due]

@[simp] theorem Asynchronous.not_due_idle {ρ : Type} {aborted : ρ} :
    ¬ (idle : Asynchronous ρ).Due aborted := by
  simp [Due]

@[simp] theorem Asynchronous.not_due_waiting {ρ : Type} {aborted : ρ} :
    ¬ (waiting : Asynchronous ρ).Due aborted := by
  simp [Due]

/-- Cancelling takes back no handler, and leaves none but its own. -/
@[simp] theorem Asynchronous.due_cancel {ρ : Type} {aborted : ρ} {operation : Asynchronous ρ} :
    (operation.cancel aborted).Due aborted ↔ operation.Due aborted := by
  cases operation <;> simp [cancel]

@[simp] theorem Asynchronous.cancel_ne_waiting {ρ : Type} {aborted : ρ}
    {operation : Asynchronous ρ} : operation.cancel aborted ≠ waiting := by
  cases operation <;> simp [cancel]

/-- What the handler of a receive is called with. -/
inductive ReceiveResult where
  | received (remote : Endpoint) (rawPacket : RawData)
  | operationAborted
  | failure
  deriving DecidableEq

/-- Which handlers are set, and where the request goes. -/
structure Configuration where
  responseHandler : Bool
  completionHandler : Bool
  remote : Endpoint
  deriving DecidableEq

structure State where
  socketOpen : Bool := false
  receive : Asynchronous ReceiveResult := .idle
  timer : Asynchronous WaitResult := .idle
  /-- The response handler is being called. -/
  responding : Bool := false
  deriving DecidableEq

inductive Output where
  | send (datagram : Datagram)
  | receivePosted
  | response (address : Nat) (targetInformation : TargetInformation)
  | completion
  /-- A `FindClientException` leaves a handler, or the call of `abort()`. -/
  | handlerThrew
  | abortThrew
  deriving DecidableEq

abbrev Handler := Action State Output Unit

/-! ## The functions -/

/-- The call of the completion handler. -/
def complete (cfg : Configuration) : Handler :=
  if cfg.completionHandler then emit .completion else pure ()

/-- `QueryImpl::receive`. On a closed socket the operation fails at once. -/
def receive : Handler := do
  modify fun s =>
    { s with receive := if s.socketOpen then .waiting else .queued .failure }
  emit .receivePosted

/-- `QueryImpl::start`, every system call succeeding. -/
def start (cfg : Configuration) : Handler := do
  modify fun s => { s with socketOpen := true }
  emit (.send ⟨cfg.remote, Packet.encode ⟨.informationRequest, [[]]⟩⟩)
  receive
  modify fun s => { s with timer := .waiting }

/-- `QueryImpl::abort`. On a closed socket its `cancel` throws. -/
def abort (cfg : Configuration) : Handler := do
  let s ← get
  if s.socketOpen then do
    modify fun s =>
      { s with
        receive := s.receive.cancel .operationAborted
        timer := s.timer.cancel .operationAborted
        socketOpen := false }
    complete cfg
  else do
    complete cfg
    emit .abortThrew

/-- `QueryImpl::timerHandler`. An error of the timer is logged only. -/
def timerHandler (cfg : Configuration) (error : WaitResult) : Handler := do
  if error = .operationAborted then pure ()
  else do
    let s ← get
    if s.socketOpen then do
      modify fun s =>
        { s with
          receive := s.receive.cancel .operationAborted
          socketOpen := false }
      complete cfg
    else do
      complete cfg
      emit .handlerThrew

/-- `QueryImpl::receiveHandler`, up to the return of the response handler where
it is called. -/
def receiveHandler (cfg : Configuration) : ReceiveResult → Handler
  | .operationAborted => pure ()
  | .failure => receive
  | .received remote rawPacket =>
    match packetResponse remote rawPacket with
    | some (address, targetInformation) =>
      if cfg.responseHandler then do
        emit (.response address targetInformation)
        modify fun s => { s with responding := true }
      else receive
    | none => receive

/-! ## Events -/

inductive Event where
  /-- The receive completes, with a datagram or with an error. -/
  | datagramReceived (remote : Endpoint) (datagram : RawData)
  | receiveFailed
  /-- The wait of the timer completes. -/
  | timerExpired
  | timerFailed
  /-- The queued handlers run. -/
  | receiveHandler
  | timerHandler
  /-- The response handler returns. -/
  | responseHandlerReturned
  | abort
  deriving DecidableEq

/-- The reaction to an event, where it can happen. While the response handler
is called, no other handler runs. -/
def react (cfg : Configuration) : Event → Handler
  | .datagramReceived remote datagram => do
    let s ← get
    require (s.receive = .waiting)
    -- The socket cuts off what the buffer does not hold.
    modify fun s =>
      { s with receive := .queued (.received remote (datagram.take maxPacketSize)) }
  | .receiveFailed => do
    let s ← get
    require (s.receive = .waiting)
    modify fun s => { s with receive := .queued .failure }
  | .timerExpired => do
    let s ← get
    require (s.timer = .waiting)
    modify fun s => { s with timer := .queued .success }
  | .timerFailed => do
    let s ← get
    require (s.timer = .waiting)
    modify fun s => { s with timer := .queued .failure }
  | .receiveHandler => do
    let s ← get
    require (s.responding = false)
    match s.receive with
    | .queued result => do
      modify fun s => { s with receive := .idle }
      receiveHandler cfg result
    | .idle => undefined
    | .waiting => undefined
  | .timerHandler => do
    let s ← get
    require (s.responding = false)
    match s.timer with
    | .queued error => do
      modify fun s => { s with timer := .idle }
      timerHandler cfg error
    | .idle => undefined
    | .waiting => undefined
  | .responseHandlerReturned => do
    let s ← get
    require (s.responding = true)
    modify fun s => { s with responding := false }
    receive
  | .abort => abort cfg

/-- The query as a machine. -/
def machine (cfg : Configuration) : Machine State Event Output where
  step s e := (react cfg e).run s

/-- The state that a successful `start()` leaves. -/
def started : State := { socketOpen := true, receive := .waiting, timer := .waiting }

theorem start_run (cfg : Configuration) :
    (start cfg).run {} = some (started,
      [.send ⟨cfg.remote, Packet.encode ⟨.informationRequest, [[]]⟩⟩, .receivePosted]) := rfl

theorem step_eq_some {cfg : Configuration} {s s' : State} {e : Event} {out : List Output} :
    (machine cfg).step s e = some (s', out) ↔ react cfg e s [] = some ((), s', out) :=
  run_eq_some

/-! ## What a step does -/

/-- The outputs of a call of the completion handler. -/
def completion (cfg : Configuration) : List Output :=
  if cfg.completionHandler then [.completion] else []

/-- The receive that is posted in a state. -/
def posted (s : State) : Asynchronous ReceiveResult :=
  if s.socketOpen then .waiting else .queued .failure

/-- The queued handler of the receive is not for an aborted one. -/
def receiveDue (s : State) : Prop := s.receive.Due .operationAborted

/-- The queued handler of the timer is not for an aborted wait. -/
def timerDue (s : State) : Prop := s.timer.Due .operationAborted

/-- The steps: what each needs of the state, and what it makes of it. -/
inductive Taken (cfg : Configuration) : State → Event → State → List Output → Prop where
  | received {s : State} {remote : Endpoint} {datagram : RawData} (h : s.receive = .waiting) :
    Taken cfg s (.datagramReceived remote datagram)
      { s with receive := .queued (.received remote (datagram.take maxPacketSize)) } []
  | receiveFailed {s : State} (h : s.receive = .waiting) :
    Taken cfg s .receiveFailed { s with receive := .queued .failure } []
  | timerExpired {s : State} (h : s.timer = .waiting) :
    Taken cfg s .timerExpired { s with timer := .queued .success } []
  | timerFailed {s : State} (h : s.timer = .waiting) :
    Taken cfg s .timerFailed { s with timer := .queued .failure } []
  | receiveAborted {s : State} (hidle : s.responding = false)
      (h : s.receive = .queued .operationAborted) :
    Taken cfg s .receiveHandler { s with receive := .idle } []
  | receiveAgain {s : State} (hidle : s.responding = false) (h : receiveDue s) :
    Taken cfg s .receiveHandler { s with receive := posted s } [.receivePosted]
  | response {s : State} {address : Nat} {t : TargetInformation} (hidle : s.responding = false)
      (h : receiveDue s) :
    Taken cfg s .receiveHandler { s with receive := .idle, responding := true }
      [.response address t]
  | timerAborted {s : State} (hidle : s.responding = false)
      (h : s.timer = .queued .operationAborted) :
    Taken cfg s .timerHandler { s with timer := .idle } []
  | timerCompletes {s : State} (hidle : s.responding = false) (h : timerDue s)
      (hopen : s.socketOpen = true) :
    Taken cfg s .timerHandler
      { s with
        timer := .idle
        receive := s.receive.cancel .operationAborted
        socketOpen := false } (completion cfg)
  | timerThrows {s : State} (hidle : s.responding = false) (h : timerDue s)
      (hclosed : s.socketOpen = false) :
    Taken cfg s .timerHandler { s with timer := .idle } (completion cfg ++ [.handlerThrew])
  | returned {s : State} (h : s.responding = true) :
    Taken cfg s .responseHandlerReturned { s with responding := false, receive := posted s }
      [.receivePosted]
  | aborts {s : State} (hopen : s.socketOpen = true) :
    Taken cfg s .abort
      { s with
        receive := s.receive.cancel .operationAborted
        timer := s.timer.cancel .operationAborted
        socketOpen := false } (completion cfg)
  | abortThrows {s : State} (hclosed : s.socketOpen = false) :
    Taken cfg s .abort s (completion cfg ++ [.abortThrew])

private theorem complete_apply (cfg : Configuration) (s : State) (out : List Output) :
    complete cfg s out = some ((), s, out ++ completion cfg) := by
  unfold complete completion
  split <;> simp

private theorem complete_bind (cfg : Configuration) (f : Unit → Handler) (s : State)
    (out : List Output) :
    (complete cfg >>= f) s out = f () s (out ++ completion cfg) :=
  bind_of_eq_some (complete_apply cfg s out)

private theorem receive_apply (s : State) (out : List Output) :
    receive s out = some ((), { s with receive := posted s }, out ++ [.receivePosted]) := by
  simp [receive, posted]

/-- Every step is one of these. -/
theorem taken_of_step {cfg : Configuration} {s s' : State} {e : Event} {out : List Output}
    (h : (machine cfg).step s e = some (s', out)) : Taken cfg s e s' out := by
  rw [step_eq_some] at h
  cases e with
  | datagramReceived remote datagram =>
    simp only [react, get_bind, require_bind_eq_some, modify_apply] at h
    obtain ⟨hwaiting, h⟩ := h
    cases h
    exact .received hwaiting
  | receiveFailed =>
    simp only [react, get_bind, require_bind_eq_some, modify_apply] at h
    obtain ⟨hwaiting, h⟩ := h
    cases h
    exact .receiveFailed hwaiting
  | timerExpired =>
    simp only [react, get_bind, require_bind_eq_some, modify_apply] at h
    obtain ⟨hwaiting, h⟩ := h
    cases h
    exact .timerExpired hwaiting
  | timerFailed =>
    simp only [react, get_bind, require_bind_eq_some, modify_apply] at h
    obtain ⟨hwaiting, h⟩ := h
    cases h
    exact .timerFailed hwaiting
  | receiveHandler =>
    simp only [react, get_bind, require_bind_eq_some] at h
    obtain ⟨hidle, h⟩ := h
    cases hreceive : s.receive with
    | idle => simp [hreceive] at h
    | waiting => simp [hreceive] at h
    | queued result =>
      simp only [hreceive, modify_bind] at h
      cases result with
      | operationAborted =>
        cases h
        exact .receiveAborted hidle hreceive
      | failure =>
        rw [receiveHandler, receive_apply] at h
        cases h
        exact .receiveAgain hidle ⟨_, hreceive, by simp⟩
      | received remote rawPacket =>
        have hdue : receiveDue s := ⟨_, hreceive, by simp⟩
        have hagain : ∀ {s₁ out₁}, receive { s with receive := .idle } [] =
            some ((), s₁, out₁) → Taken cfg s .receiveHandler s₁ out₁ := by
          intro s₁ out₁ hs₁
          rw [receive_apply] at hs₁
          cases hs₁
          exact .receiveAgain hidle hdue
        rw [receiveHandler] at h
        cases hresponse : packetResponse remote rawPacket with
        | none =>
          rw [hresponse] at h
          exact hagain h
        | some response =>
          obtain ⟨address, t⟩ := response
          simp only [hresponse, if_apply] at h
          split at h
          · cases h
            exact .response hidle hdue
          · exact hagain h
  | timerHandler =>
    simp only [react, get_bind, require_bind_eq_some] at h
    obtain ⟨hidle, h⟩ := h
    cases htimer : s.timer with
    | idle => simp [htimer] at h
    | waiting => simp [htimer] at h
    | queued error =>
      simp only [htimer, modify_bind, timerHandler, if_apply, get_bind] at h
      split at h
      · rename_i haborted
        subst haborted
        cases h
        exact .timerAborted hidle htimer
      · rename_i herror
        have hdue : timerDue s := ⟨error, htimer, herror⟩
        split at h
        · rename_i hopen
          simp only [complete_apply] at h
          cases h
          exact .timerCompletes hidle hdue hopen
        · rename_i hclosed
          simp only [complete_bind, emit_apply] at h
          cases h
          exact .timerThrows hidle hdue (Bool.eq_false_iff.mpr hclosed)
  | responseHandlerReturned =>
    simp only [react, get_bind, require_bind_eq_some, modify_bind, receive_apply] at h
    obtain ⟨hresponding, h⟩ := h
    cases h
    exact .returned hresponding
  | abort =>
    simp only [react, abort, get_bind, if_apply, modify_bind, complete_apply, complete_bind,
      emit_apply] at h
    split at h
    · rename_i hopen
      cases h
      exact .aborts hopen
    · rename_i hclosed
      cases h
      exact .abortThrows (Bool.eq_false_iff.mpr hclosed)

/-! ## The life cycle -/

def isCompletion : Output → Bool
  | .completion => true
  | _ => false

/-- What must not happen behind the completion. -/
def isActivity : Output → Bool
  | .completion => true
  | .receivePosted => true
  | .response .. => true
  | _ => false

/-- The completion handler is called once, nothing is received behind it, and
no handler lets an exception escape. -/
def KeepsLifeCycle (tr : List Output) : Prop :=
  SilentAfter isCompletion isActivity tr ∧ .handlerThrew ∉ tr

/-- The events that run a handler. -/
def isHandler : Event → Bool
  | .receiveHandler => true
  | .timerHandler => true
  | .responseHandlerReturned => true
  | _ => false

/-- The outputs of a step, behind a completion or not. -/
def StepKeeps (completed : Bool) (out : List Output) : Prop :=
  SilentFrom isCompletion isActivity completed out ∧ .handlerThrew ∉ out

theorem stepKeeps_append {completed : Bool} {out out' : List Output} :
    StepKeeps completed (out ++ out') ↔
      StepKeeps completed out ∧ StepKeeps (completed || out.any isCompletion) out' := by
  unfold StepKeeps
  rw [silentFrom_append, List.mem_append, not_or]
  exact and_and_and_comm

theorem keepsLifeCycle_append {tr out : List Output} :
    KeepsLifeCycle (tr ++ out) ↔ KeepsLifeCycle tr ∧ StepKeeps (tr.any isCompletion) out := by
  have hkeeps : ∀ os, KeepsLifeCycle os ↔ StepKeeps false os :=
    fun os => and_congr_left' silentAfter_iff
  rw [hkeeps, hkeeps, stepKeeps_append, Bool.false_or]

/-- The query has completed, as far as its handler is told. -/
def completed (cfg : Configuration) (s : State) : Bool :=
  !s.socketOpen && cfg.completionHandler

/-- The completion handler is called when the socket is closed, or was. -/
theorem completed_step {cfg : Configuration} {s s' : State} {e : Event} {out : List Output}
    (h : (machine cfg).step s e = some (s', out)) :
    completed cfg s' = (completed cfg s || out.any isCompletion) := by
  have hcompletion : (completion cfg).any isCompletion = cfg.completionHandler := by
    unfold completion
    split
    · rename_i hset
      simp [isCompletion, hset]
    · rename_i hset
      simp [hset]
  cases taken_of_step h with
  | timerCompletes hidle hdue hopen => simp [completed, hopen, hcompletion]
  | timerThrows hidle hdue hclosed => simp [completed, hclosed, hcompletion, isCompletion]
  | aborts hopen => simp [completed, hopen, hcompletion]
  | abortThrows hclosed => simp [completed, hclosed, hcompletion, isCompletion]
  | _ => simp [completed, isCompletion]

/-- The completion handler was called exactly if the socket is closed. -/
theorem any_isCompletion {cfg : Configuration} {es : List Event} {s : State}
    {tr : List Output} (h : (machine cfg).exec started es = some (s, tr)) :
    tr.any isCompletion = completed cfg s := by
  refine Machine.exec_history (fun _ s tr => tr.any isCompletion = completed cfg s) rfl ?_ h
  intro es s tr e s' out _ ih hstep
  rw [List.any_append, ih, completed_step hstep]

/-! ## Ending cleanly -/

/-- Where a step may close the socket, it leaves no handler queued that goes on:
`abort()` is called once, not from the response handler, and neither the timer
nor a receive is over already; and no receive is when the timer's handler runs. -/
def EndsCleanly (cfg : Configuration) (s : State) : Event → Prop
  | .abort => ¬ timerDue s ∧ (cfg.completionHandler = true →
      s.socketOpen = true ∧ s.responding = false ∧ ¬ receiveDue s)
  | .timerHandler => timerDue s → cfg.completionHandler = true → ¬ receiveDue s
  | _ => True

/-- Behind the end, no handler is left that goes on. -/
structure Settled (cfg : Configuration) (s : State) : Prop where
  timer : s.timer ≠ .waiting ∧ ¬ timerDue s
  receive : cfg.completionHandler = true →
    s.receive ≠ .waiting ∧ ¬ receiveDue s ∧ s.responding = false

/-- Behind the end, a handler is left that goes on. -/
def Owed (cfg : Configuration) (s : State) : Prop :=
  s.socketOpen = false ∧
    (timerDue s ∨ cfg.completionHandler = true ∧ (receiveDue s ∨ s.responding = true))

/-- The outputs of a call of the completion handler, the first time. -/
theorem stepKeeps_completion (cfg : Configuration) : StepKeeps false (completion cfg) := by
  unfold StepKeeps completion
  split
  · exact ⟨by decide, by simp⟩
  · exact ⟨by decide, by simp⟩

theorem stepKeeps_nil (completed : Bool) : StepKeeps completed [] := by
  simp [StepKeeps, SilentFrom]

/-- Before the completion, what is done last is as it should be. -/
theorem stepKeeps_singleton {o : Output} (h : o ≠ .handlerThrew) : StepKeeps false [o] := by
  simpa [StepKeeps, SilentFrom] using h.symm

theorem not_completed {cfg : Configuration} {s : State}
    (h : s.socketOpen = false → cfg.completionHandler = true → False) :
    completed cfg s = false := by
  by_contra hne
  rw [Bool.not_eq_false, completed, Bool.and_eq_true, Bool.not_eq_true'] at hne
  exact h hne.1 hne.2

/-- **Clean steps** keep the life cycle, and what is left settled. -/
theorem settled_step {cfg : Configuration} {s s' : State} {e : Event} {out : List Output}
    (hs : s.socketOpen = false → Settled cfg s) (he : EndsCleanly cfg s e)
    (h : (machine cfg).step s e = some (s', out)) :
    (s'.socketOpen = false → Settled cfg s') ∧ StepKeeps (completed cfg s) out := by
  -- Behind the completion, no receive completes and none goes on.
  have hgoes : (s.receive = .waiting ∨ receiveDue s ∨ s.responding = true) →
      s.socketOpen = false → cfg.completionHandler = true → False := by
    intro hreceive hclosed hset
    obtain ⟨hwaiting, hdue, hidle⟩ := (hs hclosed).receive hset
    rcases hreceive with h | h | h
    · exact hwaiting h
    · exact hdue h
    · simp [hidle] at h
  cases taken_of_step h with
  | received hwaiting =>
    exact ⟨fun hclosed => ⟨(hs hclosed).timer, fun hset =>
      (hgoes (.inl hwaiting) hclosed hset).elim⟩, stepKeeps_nil _⟩
  | receiveFailed hwaiting =>
    exact ⟨fun hclosed => ⟨(hs hclosed).timer, fun hset =>
      (hgoes (.inl hwaiting) hclosed hset).elim⟩, stepKeeps_nil _⟩
  | timerExpired hwaiting =>
    exact ⟨fun hclosed => absurd hwaiting (hs hclosed).timer.1, stepKeeps_nil _⟩
  | timerFailed hwaiting =>
    exact ⟨fun hclosed => absurd hwaiting (hs hclosed).timer.1, stepKeeps_nil _⟩
  | receiveAborted hidle haborted =>
    exact ⟨fun hclosed => ⟨(hs hclosed).timer, fun _ => ⟨by simp, by simp [receiveDue], hidle⟩⟩,
      stepKeeps_nil _⟩
  | receiveAgain hidle hdue =>
    rw [not_completed (hgoes (.inr (.inl hdue)))]
    exact ⟨fun hclosed => ⟨(hs hclosed).timer, fun hset =>
      (hgoes (.inr (.inl hdue)) hclosed hset).elim⟩, stepKeeps_singleton (by simp)⟩
  | response hidle hdue =>
    rw [not_completed (hgoes (.inr (.inl hdue)))]
    exact ⟨fun hclosed => ⟨(hs hclosed).timer, fun hset =>
      (hgoes (.inr (.inl hdue)) hclosed hset).elim⟩, stepKeeps_singleton (by simp)⟩
  | timerAborted hidle haborted =>
    exact ⟨fun hclosed => ⟨⟨by simp, by simp [timerDue]⟩, (hs hclosed).receive⟩,
      stepKeeps_nil _⟩
  | timerCompletes hidle hdue hopen =>
    rw [not_completed fun hclosed => by simp [hopen] at hclosed]
    refine ⟨fun _ => ⟨⟨by simp, by simp [timerDue]⟩, fun hset => ?_⟩, stepKeeps_completion cfg⟩
    exact ⟨by simp, by simpa [receiveDue] using he hdue hset, hidle⟩
  | timerThrows hidle hdue hclosed => exact absurd hdue (hs hclosed).timer.2
  | returned hresponding =>
    rw [not_completed (hgoes (.inr (.inr hresponding)))]
    exact ⟨fun hclosed => ⟨(hs hclosed).timer, fun hset =>
      (hgoes (.inr (.inr hresponding)) hclosed hset).elim⟩, stepKeeps_singleton (by simp)⟩
  | aborts hopen =>
    obtain ⟨htimer, hreceive⟩ := he
    rw [not_completed fun hclosed => by simp [hopen] at hclosed]
    refine ⟨fun _ => ⟨⟨by simp, by simpa [timerDue] using htimer⟩, fun hset => ?_⟩,
      stepKeeps_completion cfg⟩
    obtain ⟨-, hidle, hdue⟩ := hreceive hset
    exact ⟨by simp, by simpa [receiveDue] using hdue, hidle⟩
  | abortThrows hclosed =>
    refine ⟨hs, ?_⟩
    by_cases hset : cfg.completionHandler = true
    · exact absurd (he.2 hset).1 (by simp [hclosed])
    · rw [not_completed fun _ hcompletion => hset hcompletion, completion, if_neg hset]
      exact stepKeeps_singleton (by simp)

theorem completed_of_closed {cfg : Configuration} {s : State} (hclosed : s.socketOpen = false)
    (hset : cfg.completionHandler = true) : completed cfg s = true := by
  simp [completed, hclosed, hset]

/-- Activity behind the completion. -/
theorem not_stepKeeps_activity {o : Output} {out : List Output} (ho : o ∈ out)
    (hactivity : isActivity o = true) : ¬ StepKeeps true out := by
  intro h
  have hsilent := silentFrom_true.mp h.1 o ho
  rw [hactivity] at hsilent
  cases hsilent

/-- A handler that goes on is left until it does. -/
theorem owed_step {cfg : Configuration} {s s' : State} {e : Event} {out : List Output}
    (hs : Owed cfg s) (h : (machine cfg).step s e = some (s', out)) :
    Owed cfg s' ∨ ¬ StepKeeps (completed cfg s) out := by
  obtain ⟨hclosed, howed⟩ := hs
  -- Without the completion handler, it is the timer's handler that is left.
  have htimer : ¬ cfg.completionHandler = true → timerDue s := by
    intro hset
    exact howed.resolve_right fun hreceive => hset hreceive.1
  cases taken_of_step h with
  | received hwaiting =>
    have hdue : ¬ receiveDue s := by simp [receiveDue, hwaiting]
    exact .inl ⟨hclosed, howed.imp_right fun hreceive =>
      ⟨hreceive.1, .inr (hreceive.2.resolve_left hdue)⟩⟩
  | receiveFailed hwaiting =>
    have hdue : ¬ receiveDue s := by simp [receiveDue, hwaiting]
    exact .inl ⟨hclosed, howed.imp_right fun hreceive =>
      ⟨hreceive.1, .inr (hreceive.2.resolve_left hdue)⟩⟩
  | timerExpired hwaiting =>
    have hdue : ¬ timerDue s := by simp [timerDue, hwaiting]
    exact .inl ⟨hclosed, .inr (howed.resolve_left hdue)⟩
  | timerFailed hwaiting =>
    have hdue : ¬ timerDue s := by simp [timerDue, hwaiting]
    exact .inl ⟨hclosed, .inr (howed.resolve_left hdue)⟩
  | receiveAborted hidle haborted =>
    have hdue : ¬ receiveDue s := by simp [receiveDue, haborted]
    exact .inl ⟨hclosed, howed.imp_right fun hreceive =>
      ⟨hreceive.1, .inr (hreceive.2.resolve_left hdue)⟩⟩
  | receiveAgain hidle hdue =>
    by_cases hset : cfg.completionHandler = true
    · right
      rw [completed_of_closed hclosed hset]
      exact not_stepKeeps_activity List.mem_cons_self rfl
    · exact .inl ⟨hclosed, .inl (htimer hset)⟩
  | response hidle hdue =>
    by_cases hset : cfg.completionHandler = true
    · right
      rw [completed_of_closed hclosed hset]
      exact not_stepKeeps_activity List.mem_cons_self rfl
    · exact .inl ⟨hclosed, .inl (htimer hset)⟩
  | timerAborted hidle haborted =>
    have hdue : ¬ timerDue s := by simp [timerDue, haborted]
    exact .inl ⟨hclosed, .inr (howed.resolve_left hdue)⟩
  | timerCompletes hidle hdue hopen => simp [hopen] at hclosed
  | timerThrows hidle hdue _ => exact .inr fun hkeeps => hkeeps.2 (by simp)
  | returned hresponding =>
    by_cases hset : cfg.completionHandler = true
    · right
      rw [completed_of_closed hclosed hset]
      exact not_stepKeeps_activity List.mem_cons_self rfl
    · exact .inl ⟨hclosed, .inl (htimer hset)⟩
  | aborts hopen => simp [hopen] at hclosed
  | abortThrows _ => exact .inl ⟨hclosed, howed⟩

/-- A step that does not end cleanly goes wrong, or leaves a handler that goes
on. -/
theorem owed_of_not_endsCleanly {cfg : Configuration} {s s' : State} {e : Event}
    {out : List Output} (he : ¬ EndsCleanly cfg s e)
    (h : (machine cfg).step s e = some (s', out)) :
    Owed cfg s' ∨ ¬ StepKeeps (completed cfg s) out := by
  cases taken_of_step h with
  | timerAborted hidle haborted =>
    exact absurd (fun hdue => by simp [timerDue, haborted] at hdue) he
  | timerCompletes hidle hdue hopen =>
    simp only [EndsCleanly, not_forall, not_not] at he
    obtain ⟨-, hset, hreceive⟩ := he
    exact .inl ⟨rfl, .inr ⟨hset, .inl (by simpa [receiveDue] using hreceive)⟩⟩
  | timerThrows hidle hdue _ => exact .inr fun hkeeps => hkeeps.2 (by simp)
  | aborts hopen =>
    left
    refine ⟨rfl, ?_⟩
    by_cases htimer : timerDue s
    · exact .inl (by simpa [timerDue] using htimer)
    · right
      simp only [EndsCleanly, htimer, not_false_eq_true, true_and, not_forall] at he
      obtain ⟨hset, hopens⟩ := he
      refine ⟨hset, ?_⟩
      by_cases hdue : receiveDue s
      · exact .inl (by simpa [receiveDue] using hdue)
      · right
        by_contra hidle
        exact hopens ⟨hopen, Bool.eq_false_iff.mpr hidle, hdue⟩
  | abortThrows hclosed =>
    by_cases hset : cfg.completionHandler = true
    · right
      rw [completed_of_closed hclosed hset, completion, if_pos hset]
      exact not_stepKeeps_activity List.mem_cons_self rfl
    · left
      refine ⟨hclosed, .inl ?_⟩
      by_contra htimer
      exact he ⟨htimer, fun hcompletion => absurd hcompletion hset⟩
  | _ => exact absurd trivial he

/-! ## Runs -/

/-! The handlers that go on can run. -/

theorem returned_step (cfg : Configuration) {s : State} (h : s.responding = true) :
    (machine cfg).step s .responseHandlerReturned =
      some ({ s with responding := false, receive := posted s }, [.receivePosted]) := by
  rw [step_eq_some]
  simp only [react, get_bind, require_bind, h, if_true, modify_bind, receive_apply]
  rfl

theorem timerThrows_step (cfg : Configuration) {s : State} (hidle : s.responding = false)
    (hdue : timerDue s) (hclosed : s.socketOpen = false) :
    ∃ s', (machine cfg).step s .timerHandler = some (s', completion cfg ++ [.handlerThrew]) := by
  obtain ⟨error, htimer, herror⟩ := hdue
  refine ⟨{ s with timer := .idle }, step_eq_some.mpr ?_⟩
  simp [react, hidle, htimer, timerHandler, herror, hclosed, complete_bind]

theorem receive_step (cfg : Configuration) {s : State} (hidle : s.responding = false)
    (hdue : receiveDue s) :
    ∃ s' o, (machine cfg).step s .receiveHandler = some (s', [o]) ∧ isActivity o = true := by
  obtain ⟨result, hreceive, hresult⟩ := hdue
  have hagain : ∃ s' o, receive { s with receive := .idle } [] = some ((), s', [o]) ∧
      isActivity o = true := ⟨_, _, receive_apply _ _, rfl⟩
  have hruns : ∃ s' o, receiveHandler cfg result { s with receive := .idle } [] =
      some ((), s', [o]) ∧ isActivity o = true := by
    cases result with
    | operationAborted => exact absurd rfl hresult
    | failure => exact hagain
    | received remote rawPacket =>
      rw [receiveHandler]
      cases packetResponse remote rawPacket with
      | none => exact hagain
      | some response =>
        simp only [if_apply]
        split
        · exact ⟨_, _, rfl, rfl⟩
        · exact hagain
  obtain ⟨s', o, hrun, ho⟩ := hruns
  refine ⟨s', o, step_eq_some.mpr ?_, ho⟩
  simp only [react, get_bind, require_bind, hreceive, modify_bind]
  rw [if_pos hidle]
  exact hrun

/-- Behind the end, a handler that is left goes on. -/
theorem exists_handler_run {cfg : Configuration} {s : State} (hs : Owed cfg s) :
    ∃ fs s' out, (∀ f ∈ fs, isHandler f = true) ∧ (machine cfg).exec s fs = some (s', out) ∧
      ¬ StepKeeps (completed cfg s) out := by
  obtain ⟨hclosed, howed⟩ := hs
  cases hidle : s.responding with
  | true =>
    have hreturned := returned_step cfg hidle
    by_cases hset : cfg.completionHandler = true
    · refine ⟨[.responseHandlerReturned], _, _, by simp [isHandler],
        Machine.exec_singleton.mpr hreturned, ?_⟩
      rw [completed_of_closed hclosed hset]
      exact not_stepKeeps_activity List.mem_cons_self rfl
    · -- The timer's handler runs when the response handler has returned.
      have hdue : timerDue s := howed.resolve_right fun hreceive => hset hreceive.1
      obtain ⟨s', hthrows⟩ := timerThrows_step cfg
        (s := { s with responding := false, receive := posted s }) rfl hdue hclosed
      refine ⟨[.responseHandlerReturned, .timerHandler], _, _, by simp [isHandler],
        Machine.exec_cons.mpr ⟨_, _, _, hreturned, Machine.exec_singleton.mpr hthrows, rfl⟩, ?_⟩
      exact fun hkeeps => hkeeps.2 (by simp)
  | false =>
    by_cases hdue : timerDue s
    · obtain ⟨s', hthrows⟩ := timerThrows_step cfg hidle hdue hclosed
      refine ⟨[.timerHandler], _, _, by simp [isHandler],
        Machine.exec_singleton.mpr hthrows, ?_⟩
      exact fun hkeeps => hkeeps.2 (by simp)
    · obtain ⟨hset, hreceive⟩ := howed.resolve_left hdue
      have hreceiveDue : receiveDue s := hreceive.resolve_right (by simp [hidle])
      obtain ⟨s', o, hstep, ho⟩ := receive_step cfg hidle hreceiveDue
      refine ⟨[.receiveHandler], _, _, by simp [isHandler],
        Machine.exec_singleton.mpr hstep, ?_⟩
      rw [completed_of_closed hclosed hset]
      exact not_stepKeeps_activity List.mem_cons_self ho

/-- A settled end stays closed and settled, and its handlers do nothing. -/
theorem settled_handler_step {cfg : Configuration} {s s' : State} {f : Event}
    {out : List Output} (hclosed : s.socketOpen = false) (hs : Settled cfg s)
    (hf : isHandler f = true) (h : (machine cfg).step s f = some (s', out)) :
    s'.socketOpen = false ∧ Settled cfg s' ∧ StepKeeps (completed cfg s) out := by
  have hclean : EndsCleanly cfg s f := by
    cases f with
    | timerHandler => exact fun hdue => absurd hdue hs.timer.2
    | abort => cases hf
    | _ => trivial
  have hstays : s'.socketOpen = false := by
    cases taken_of_step h with
    | timerCompletes hidle hdue hopen => rfl
    | aborts hopen => rfl
    | _ => exact hclosed
  obtain ⟨hsettled, hkeeps⟩ := settled_step (fun _ => hs) hclean h
  exact ⟨hstays, hsettled hstays, hkeeps⟩

theorem settled_handler_run {cfg : Configuration} {s s' : State} {fs : List Event}
    {out : List Output} (hclosed : s.socketOpen = false) (hs : Settled cfg s)
    (hfs : ∀ f ∈ fs, isHandler f = true) (h : (machine cfg).exec s fs = some (s', out)) :
    StepKeeps (completed cfg s) out := by
  induction fs generalizing s out with
  | nil =>
    simp only [Machine.exec_nil, Option.some.injEq, Prod.mk.injEq] at h
    rw [← h.2]
    exact stepKeeps_nil _
  | cons f fs ih =>
    obtain ⟨s₁, o, os, hstep, hrest, rfl⟩ := Machine.exec_cons.mp h
    obtain ⟨hclosed₁, hs₁, hkeeps⟩ :=
      settled_handler_step hclosed hs (hfs f List.mem_cons_self) hstep
    have hrun := ih hclosed₁ hs₁ (fun g hg => hfs g (List.mem_cons_of_mem _ hg)) hrest
    have hsame : completed cfg s₁ = completed cfg s := by
      rw [completed, completed, hclosed₁, hclosed]
    have hcompletion := completed_step hstep
    rw [hsame] at hrun hcompletion
    exact stepKeeps_append.mpr ⟨hkeeps, hcompletion ▸ hrun⟩

/-- The steps of a run all end cleanly, or it went wrong or will. -/
theorem run_cases {cfg : Configuration} {es : List Event} {s : State} {tr : List Output}
    (h : (machine cfg).exec started es = some (s, tr)) :
    (∀ x ∈ (machine cfg).steps started es, EndsCleanly cfg x.1 x.2) ∧
        (s.socketOpen = false → Settled cfg s) ∧ KeepsLifeCycle tr ∨
      (¬ ∀ x ∈ (machine cfg).steps started es, EndsCleanly cfg x.1 x.2) ∧
        (Owed cfg s ∨ ¬ KeepsLifeCycle tr) := by
  refine Machine.exec_history (fun es s tr =>
    (∀ x ∈ (machine cfg).steps started es, EndsCleanly cfg x.1 x.2) ∧
        (s.socketOpen = false → Settled cfg s) ∧ KeepsLifeCycle tr ∨
      (¬ ∀ x ∈ (machine cfg).steps started es, EndsCleanly cfg x.1 x.2) ∧
        (Owed cfg s ∨ ¬ KeepsLifeCycle tr)) ?_ ?_ h
  · left
    refine ⟨by simp [Machine.steps], fun hclosed => by simp [started] at hclosed, ?_⟩
    exact ⟨silentAfter_iff.mpr trivial, by simp⟩
  · intro es s tr e s' out hexec ih hstep
    rw [Machine.steps_append_singleton hexec, keepsLifeCycle_append, any_isCompletion hexec]
    simp only [List.mem_append, List.mem_singleton, or_imp, forall_and, forall_eq]
    rcases ih with ⟨hclean, hsettled, hkeeps⟩ | ⟨hdirty, howed⟩
    · by_cases he : EndsCleanly cfg s e
      · obtain ⟨hsettled', hkeeps'⟩ := settled_step hsettled he hstep
        exact .inl ⟨⟨hclean, he⟩, hsettled', hkeeps, hkeeps'⟩
      · right
        refine ⟨fun hall => he hall.2, ?_⟩
        exact (owed_of_not_endsCleanly he hstep).imp_right fun hbad hgood => hbad hgood.2
    · right
      refine ⟨fun hall => hdirty hall.1, ?_⟩
      rcases howed with howed | hbad
      · exact (owed_step howed hstep).imp_right fun hbad hgood => hbad hgood.2
      · exact .inr fun hgood => hbad hgood.1

/-- **The life cycle**: a run keeps it, and keeps it in its queued handlers
where it has ended, exactly if all its steps end cleanly. -/
theorem query_lifecycle_iff (cfg : Configuration) {es : List Event} {s : State}
    {tr : List Output} (h : (machine cfg).exec started es = some (s, tr)) :
    (KeepsLifeCycle tr ∧ (s.socketOpen = false → ∀ fs s' out,
      (∀ f ∈ fs, isHandler f = true) → (machine cfg).exec s fs = some (s', out) →
      KeepsLifeCycle (tr ++ out))) ↔
    ∀ x ∈ (machine cfg).steps started es, EndsCleanly cfg x.1 x.2 := by
  rcases run_cases h with ⟨hclean, hsettled, hkeeps⟩ | ⟨hdirty, howed⟩
  · refine iff_of_true ⟨hkeeps, ?_⟩ hclean
    intro hclosed fs s' out hfs hrun
    rw [keepsLifeCycle_append, any_isCompletion h]
    exact ⟨hkeeps, settled_handler_run hclosed (hsettled hclosed) hfs hrun⟩
  · refine iff_of_false ?_ hdirty
    intro hgood
    obtain ⟨hkeeps, hhandlers⟩ := hgood
    rcases howed with howed | hbad
    · obtain ⟨fs, s', out, hfs, hrun, hgoes⟩ := exists_handler_run howed
      have hall := hhandlers howed.1 fs s' out hfs hrun
      rw [keepsLifeCycle_append, any_isCompletion h] at hall
      exact hgoes hall.2
    · exact hbad hkeeps

/-- The timer's handler completes the query, and the handler of the receive that
it cancelled ends it. -/
theorem query_lifecycle_timeout :
    ∃ s tr, (machine ⟨true, true, ⟨0, 1001⟩⟩).exec started
        [.timerExpired, .timerHandler, .receiveHandler] = some (s, tr) ∧
      tr = [.completion] ∧ KeepsLifeCycle tr := by
  have hsteps : (machine ⟨true, true, ⟨0, 1001⟩⟩).steps started
      [.timerExpired, .timerHandler, .receiveHandler] =
    [(started, .timerExpired), ({ started with timer := .queued .success }, .timerHandler),
      (⟨false, .queued .operationAborted, .idle, false⟩, .receiveHandler)] := rfl
  have hrun : ∃ s tr, (machine ⟨true, true, ⟨0, 1001⟩⟩).exec started
      [.timerExpired, .timerHandler, .receiveHandler] = some (s, tr) ∧ tr = [.completion] :=
    ⟨_, _, rfl, rfl⟩
  obtain ⟨s, tr, hrun, rfl⟩ := hrun
  refine ⟨s, _, hrun, rfl, ((query_lifecycle_iff ⟨true, true, ⟨0, 1001⟩⟩ hrun).mpr ?_).1⟩
  rw [hsteps]
  simp [EndsCleanly, receiveDue, started]

/-- The timer expires, and `abort()` is called before its handler runs: the query
completes twice, and the handler throws. -/
theorem query_lifecycle_broken :
    ¬ ∀ (cfg : Configuration) (es : List Event) (s : State) (tr : List Output),
      (machine cfg).exec started es = some (s, tr) → KeepsLifeCycle tr := by
  intro h
  have hbroken := h ⟨true, true, ⟨0, 1001⟩⟩ [.timerExpired, .abort, .timerHandler] _ _ rfl
  exact hbroken.2 (by decide)

end Arinc615a.Find.Query
