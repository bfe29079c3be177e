import Arinc615a.Tftp.Client

/-!
# The retry bound of the client

How often a client operation requests. Along a run, the retry counter is the
number of failures so far (`Counted`), as long as that number fits the
counter: the bound holds for every configured number of retries but the
greatest one, for which the counter wraps around before it exceeds the bound.
-/

namespace Arinc615a.Tftp.Client

open Actions Actions.Action Machines Timers

/-! ## The law -/

/-- A completion that may be retried: no success, no abort, no WAIT. -/
def retryable (cfg : Configuration) : Event → Bool
  | .transferCompleted status errorInformation =>
    answer cfg status errorInformation = .failure
  | _ => false

/-- A completion with a WAIT of the given time. -/
def isWait (cfg : Configuration) (waitTime : Nat) : Event → Bool
  | .transferCompleted status errorInformation =>
    answer cfg status errorInformation = .wait waitTime
  | _ => false

def isCompletion : Event → Bool
  | .transferCompleted .. => true
  | _ => false

/-- The retryable failures of a run. -/
def failures (cfg : Configuration) (es : List Event) : Nat := es.countP (retryable cfg)

/-- The expiries of the WAIT timer in a run. -/
def waitExpiries (es : List Event) : Nat := es.count (.waitHandler .success)

/-- The requests among the outputs. -/
def requests (tr : List (Event × Output)) : Nat := tr.countP fun (_, o) => o = .request

/-- The retries among the outputs: the requests that answer a completion. -/
def retries (tr : List (Event × Output)) : Nat :=
  tr.countP fun (e, o) => o = .request && isCompletion e

/-- The completion handler is called. -/
def isCompleted : Output → Bool
  | .completed _ => true
  | _ => false

/-- The calls of the completion handler among the outputs. -/
def completions (tr : List (Event × Output)) : Nat := tr.countP fun (_, o) => isCompleted o

/-- What a run behind `request()` owes: each request but the first answers an
expiry of the WAIT timer or is a retry, there are at most `dlpRetries` retries,
a WAIT neither requests nor counts as a retry, and a failure is retried when
there were fewer than `dlpRetries` of them before, and else ends the operation. -/
structure RetryLaw (cfg : Configuration) (es : List Event) (tr : List (Event × Output)) :
    Prop where
  requests_eq : 1 + requests tr = 1 + waitExpiries es + retries tr
  retries_le : retries tr ≤ cfg.dlpRetries.toNat
  wait : ∀ pre trPre s e s' out, (machine cfg).HasStep started es pre trPre s e s' out →
    ∀ waitTime, isWait cfg waitTime e → out = [(e, .deferred waitTime)] ∧ s'.retries = s.retries
  failure : ∀ pre trPre s e s' out, (machine cfg).HasStep started es pre trPre s e s' out →
    retryable cfg e →
      if failures cfg pre < cfg.dlpRetries.toNat then out = [(e, .request)]
      else out = [(e, .completed .communicationError)]

/-! ## Steps -/

variable {cfg : Configuration}

theorem step_eq_some {s s' : State} {e : Event} {out : List (Event × Output)} :
    (machine cfg).step s e = some (s', out) ↔
      ∃ os, react cfg e s [] = some ((), s', os) ∧ out = os.map fun o => (e, o) := by
  simp only [machine, Option.map_eq_some_iff, Prod.exists, run_eq_some, Prod.mk.injEq]
  constructor
  · intro htaken
    rcases htaken with ⟨t, os, h, rfl, rfl⟩
    exact ⟨os, h, rfl⟩
  · intro htaken
    rcases htaken with ⟨os, h, rfl⟩
    exact ⟨s', os, h, rfl, rfl⟩

/-- The state in which a completion is answered. -/
def completedState (s : State) (status : LibraryTransferStatus)
    (errorInformation : ErrorInformation) : State :=
  { s with operation := none, errorInformation := errorInformationAfter status errorInformation }

/-- The answer decides what a completion does. -/
theorem handleCompletion_effect {s s' : State} {status : LibraryTransferStatus}
    {errorInformation : ErrorInformation} {os : List Output}
    (h : handleCompletion cfg status errorInformation s [] = some ((), s', os)) :
    match answer cfg status errorInformation with
    | .final result =>
      s' = completedState s status errorInformation ∧ os = [.completed result]
    | .wait waitTime =>
      s' = { completedState s status errorInformation with
        waitTimer := s.waitTimer.start (s.now + waitTime * second) } ∧
        os = [.deferred waitTime]
    | .failure =>
      if cfg.dlpRetries < s.retries + 1 then
        s' = { completedState s status errorInformation with retries := s.retries + 1 } ∧
          os = [.completed .communicationError]
      else
        s' = { completedState s status errorInformation with
          retries := s.retries + 1, operation := some false } ∧
          os = [.request] := by
  rw [handleCompletion_eq] at h
  cases hans : answer cfg status errorInformation with
  | final result =>
    simp only [hans, emit_apply, Option.some.injEq, Prod.mk.injEq, true_and] at h
    obtain ⟨rfl, rfl⟩ := h
    exact ⟨rfl, rfl⟩
  | wait waitTime =>
    simp only [hans, modify_bind, emit_apply, Option.some.injEq, Prod.mk.injEq,
      true_and] at h
    obtain ⟨rfl, rfl⟩ := h
    exact ⟨rfl, rfl⟩
  | failure =>
    simp only [hans, retry, requestOperation, modify_bind, get_bind, if_apply] at h
    show if cfg.dlpRetries < s.retries + 1 then _ else _
    split at h
    · rename_i hlt
      simp only [emit_apply, Option.some.injEq, Prod.mk.injEq, true_and] at h
      obtain ⟨rfl, rfl⟩ := h
      rw [if_pos hlt]
      exact ⟨rfl, rfl⟩
    · rename_i hge
      simp only [emit_apply, Option.some.injEq, Prod.mk.injEq, true_and] at h
      obtain ⟨rfl, rfl⟩ := h
      rw [if_neg hge]
      exact ⟨rfl, rfl⟩

/-- A completion is one of the operation in flight, and of an aborted one as
aborted. -/
theorem transferCompleted_step {s s' : State} {status : LibraryTransferStatus}
    {errorInformation : ErrorInformation} {out : List (Event × Output)} :
    (machine cfg).step s (.transferCompleted status errorInformation) = some (s', out) ↔
      (s.operation.isSome ∧ (s.operation = some true → status = .aborted)) ∧
        ∃ os, handleCompletion cfg status errorInformation s [] = some ((), s', os) ∧
          out = os.map fun o => (.transferCompleted status errorInformation, o) := by
  rw [step_eq_some]
  simp only [react, get_bind, require_bind]
  by_cases hop : s.operation.isSome ∧ (s.operation = some true → status = .aborted)
  · simp only [if_pos hop]
    constructor
    · intro hos
      exact ⟨hop, hos⟩
    · intro htaken
      exact htaken.2
  · simp only [if_neg hop]
    constructor
    · intro hos
      obtain ⟨os, hnone, -⟩ := hos
      cases hnone
    · intro htaken
      exact absurd htaken.1 hop

/-- **Completions**: the operation was in flight, and the answer decides. -/
theorem completion_step {s s' : State} {status : LibraryTransferStatus}
    {errorInformation : ErrorInformation} {out : List (Event × Output)}
    (h : (machine cfg).step s (.transferCompleted status errorInformation) = some (s', out)) :
    s.operation.isSome ∧
      match answer cfg status errorInformation with
      | .final result =>
        s' = completedState s status errorInformation ∧
          out = [(.transferCompleted status errorInformation, .completed result)]
      | .wait waitTime =>
        s' = { completedState s status errorInformation with
          waitTimer := s.waitTimer.start (s.now + waitTime * second) } ∧
          out = [(.transferCompleted status errorInformation, .deferred waitTime)]
      | .failure =>
        if cfg.dlpRetries < s.retries + 1 then
          s' = { completedState s status errorInformation with retries := s.retries + 1 } ∧
            out = [(.transferCompleted status errorInformation, .completed .communicationError)]
        else
          s' = { completedState s status errorInformation with
            retries := s.retries + 1, operation := some false } ∧
            out = [(.transferCompleted status errorInformation, .request)] := by
  obtain ⟨hop, os, hcompletion, rfl⟩ := transferCompleted_step.mp h
  have heffect := handleCompletion_effect hcompletion
  refine ⟨hop.1, ?_⟩
  cases hans : answer cfg status errorInformation with
  | final result =>
    rw [hans] at heffect
    obtain ⟨rfl, rfl⟩ := heffect
    exact ⟨rfl, rfl⟩
  | wait waitTime =>
    rw [hans] at heffect
    obtain ⟨rfl, rfl⟩ := heffect
    exact ⟨rfl, rfl⟩
  | failure =>
    simp only [hans] at heffect
    show if cfg.dlpRetries < s.retries + 1 then _ else _
    split at heffect
    · rename_i hlt
      obtain ⟨rfl, rfl⟩ := heffect
      rw [if_pos hlt]
      exact ⟨rfl, rfl⟩
    · rename_i hge
      obtain ⟨rfl, rfl⟩ := heffect
      rw [if_neg hge]
      exact ⟨rfl, rfl⟩

/-- What an operation waits for: the TFTP operation in flight and the waits of
the timer. -/
def pending (s : State) : Nat :=
  (if s.operation.isSome then 1 else 0) + s.waitTimer.waits

/-- Aborting takes back the wait of the timer and marks the operation in
flight; neither is gone before its handler runs. -/
theorem abortWith_effect {s s' : State} {os : List Output} {o : Output}
    (h : abortWith o s [] = some ((), s', os)) :
    s' = { s with
        waitTimer := s.waitTimer.cancel
        operation := s.operation.map fun _ => true } ∧
      os = if s.operation.isSome then [o] else [] := by
  simp only [abortWith, modify_bind, get_bind, if_apply] at h
  cases hop : s.operation with
  | none =>
    simp only [hop, Option.isSome_none, Bool.false_eq_true, if_false, pure_apply,
      Option.some.injEq, Prod.mk.injEq, true_and] at h
    obtain ⟨rfl, rfl⟩ := h
    exact ⟨rfl, rfl⟩
  | some aborted =>
    simp only [hop, Option.isSome_some, if_true, emit_apply, Option.some.injEq,
      Prod.mk.injEq, true_and] at h
    obtain ⟨rfl, rfl⟩ := h
    exact ⟨rfl, rfl⟩

/-- What an event other than a completion changes: nothing is requested but
behind a wait that is over, and what the operation waited for is either still
waited for, or its handler has called the completion handler. -/
structure OtherStep (s : State) (e : Event) (s' : State) (out : List (Event × Output)) :
    Prop where
  retries_eq : s'.retries = s.retries
  operation : s'.operation.isSome = (s.operation.isSome || e = .waitHandler .success)
  pending_eq : s.operation.isNone ∨ e ≠ .waitHandler .success →
    pending s' + completions out = pending s
  pending_le : pending s' ≤ pending s
  requests_eq : requests out = waitExpiries [e]
  retries_out : retries out = 0
  length_le : out.length ≤ 1

/-- An abort, in particular. -/
theorem abortWith_step {s s' : State} {e : Event} {os : List Output} {o : Output}
    (ho : isCompleted o = false) (hrequest : o ≠ .request) (he : e ≠ .waitHandler .success)
    (h : abortWith o s [] = some ((), s', os)) : OtherStep s e s' (os.map fun o => (e, o)) := by
  obtain ⟨rfl, rfl⟩ := abortWith_effect h
  have hwaits : waitExpiries [e] = 0 := by simp [waitExpiries, he]
  constructor
  · rfl
  · simp [he]
  · intro _
    cases hop : s.operation with
    | none => simp [pending, completions, hop]
    | some aborted => simp [pending, completions, hop, ho]
  · cases hop : s.operation <;> simp [pending, hop]
  · rw [hwaits]
    cases hop : s.operation <;> simp [requests, hrequest]
  · cases hop : s.operation <;> simp [retries, hrequest]
  · cases hop : s.operation <;> simp

/-- **The other events** keep the retry counter and start nothing but the
request of a wait that is over. -/
theorem other_step {s s' : State} {e : Event} {out : List (Event × Output)}
    (hne : isCompletion e = false) (h : (machine cfg).step s e = some (s', out)) :
    OtherStep s e s' out := by
  obtain ⟨os, hreact, rfl⟩ := step_eq_some.mp h
  cases e with
  | transferCompleted status info => cases hne
  | timerExpired =>
    simp only [react, get_bind, require_bind_eq_some] at hreact
    obtain ⟨hdue, hreact⟩ := hreact
    simp only [modify_apply, Option.some.injEq, Prod.mk.injEq, true_and] at hreact
    obtain ⟨rfl, rfl⟩ := hreact
    have hpending : pending { s with waitTimer := s.waitTimer.complete .success }
        = pending s := by
      simp only [pending, Timer.waits_complete _ (Timer.due_isSome hdue)]
    exact ⟨rfl, by simp, fun _ => hpending, hpending.le, rfl, rfl, by simp⟩
  | timerFailed =>
    simp only [react, get_bind, require_bind_eq_some] at hreact
    obtain ⟨harmed, hreact⟩ := hreact
    simp only [modify_apply, Option.some.injEq, Prod.mk.injEq, true_and] at hreact
    obtain ⟨rfl, rfl⟩ := hreact
    have hpending : pending { s with waitTimer := s.waitTimer.complete .failure }
        = pending s := by
      simp only [pending, Timer.waits_complete _ harmed]
    exact ⟨rfl, by simp, fun _ => hpending, hpending.le, rfl, rfl, by simp⟩
  | waitHandler result =>
    simp only [react, get_bind, require_bind_eq_some, modify_bind] at hreact
    obtain ⟨hhead, hreact⟩ := hreact
    have hwaits := Timer.waits_tail hhead
    cases result with
    | success =>
      simp only [handleWaitTimeout, requestOperation, modify_bind, emit_apply,
        Option.some.injEq, Prod.mk.injEq, true_and] at hreact
      obtain ⟨rfl, rfl⟩ := hreact
      refine ⟨rfl, by simp, ?_, ?_, rfl, rfl, by simp⟩
      · intro hidle
        have hnone : s.operation = none := by simpa using hidle
        show 1 + _ + 0 = pending s
        simp only [pending, hnone, Option.isSome_none, Bool.false_eq_true, if_false]
        omega
      · simp only [pending, Option.isSome_some, if_true]
        omega
    | operationAborted =>
      simp only [handleWaitTimeout, emit_apply, Option.some.injEq, Prod.mk.injEq,
        true_and] at hreact
      obtain ⟨rfl, rfl⟩ := hreact
      have hpending : pending { s with waitTimer :=
          { s.waitTimer with queue := s.waitTimer.queue.tail } } + 1 = pending s := by
        simp only [pending]
        omega
      exact ⟨rfl, by simp, fun _ => hpending, Nat.le_of_succ_le hpending.le, rfl, rfl, by simp⟩
    | failure =>
      simp only [handleWaitTimeout, emit_apply, Option.some.injEq, Prod.mk.injEq,
        true_and] at hreact
      obtain ⟨rfl, rfl⟩ := hreact
      have hpending : pending { s with waitTimer :=
          { s.waitTimer with queue := s.waitTimer.queue.tail } } + 1 = pending s := by
        simp only [pending]
        omega
      exact ⟨rfl, by simp, fun _ => hpending, Nat.le_of_succ_le hpending.le, rfl, rfl, by simp⟩
  | abort => exact abortWith_step rfl (by simp) (by simp) hreact
  | gracefulAbort errorCode errorMessage => exact abortWith_step rfl (by simp) (by simp) hreact
  | advance time =>
    simp only [react, modify_apply, Option.some.injEq, Prod.mk.injEq, true_and] at hreact
    obtain ⟨rfl, rfl⟩ := hreact
    exact ⟨rfl, by simp, fun _ => rfl, le_rfl, rfl, rfl, by simp⟩

/-! ## The invariant -/

/-- The retry counter is the number of failures, and as long as the operation
waits for something, there were no more than `dlpRetries` of them. -/
structure Counted (cfg : Configuration) (es : List Event) (s : State)
    (tr : List (Event × Output)) : Prop where
  counter : s.retries.toNat = failures cfg es
  single : pending s ≤ 1
  failures_le : failures cfg es + pending s ≤ cfg.dlpRetries.toNat + 1
  requests_eq : requests tr = waitExpiries es + retries tr
  retries_eq : retries tr = min (failures cfg es) cfg.dlpRetries.toNat

theorem counted_start : Counted cfg [] started [] where
  counter := rfl
  single := by decide
  failures_le := by
    show 0 + 1 ≤ _
    omega
  requests_eq := rfl
  retries_eq := by simp [failures, retries]

theorem failures_append (es fs : List Event) :
    failures cfg (es ++ fs) = failures cfg es + failures cfg fs := List.countP_append

theorem requests_append (tr out : List (Event × Output)) :
    requests (tr ++ out) = requests tr + requests out := List.countP_append

theorem retries_append (tr out : List (Event × Output)) :
    retries (tr ++ out) = retries tr + retries out := List.countP_append

theorem waitExpiries_append (es fs : List Event) :
    waitExpiries (es ++ fs) = waitExpiries es + waitExpiries fs := List.count_append

/-- A step that is no failure starts nothing but the request of a wait that is over. -/
theorem Counted.unretried {es : List Event} {s s' : State} {tr out : List (Event × Output)}
    {e : Event} (hi : Counted cfg es s tr) (hretryable : retryable cfg e = false)
    (hcounter : s'.retries = s.retries) (hpending : pending s' ≤ pending s)
    (hrequests : requests out = waitExpiries [e]) (hretries : retries out = 0) :
    Counted cfg (es ++ [e]) s' (tr ++ out) := by
  have hnone : failures cfg [e] = 0 := List.countP_eq_zero.mpr (by simp [hretryable])
  have hfailures : failures cfg (es ++ [e]) = failures cfg es := by
    rw [failures_append, hnone, Nat.add_zero]
  constructor
  · rw [hcounter, hi.counter, hfailures]
  · exact le_trans hpending hi.single
  · have hle := hi.failures_le
    omega
  · rw [requests_append, waitExpiries_append, retries_append, hrequests, hretries, hi.requests_eq]
    omega
  · rw [retries_append, hretries, hi.retries_eq, hfailures, Nat.add_zero]

/-- A failure is retried where there were fewer than `dlpRetries` before it, and
ends the operation behind them. -/
theorem Counted.retried {es : List Event} {s s' : State} {tr out : List (Event × Output)}
    {e : Event} (hi : Counted cfg es s tr) (hretryable : retryable cfg e = true)
    (hcounter : s'.retries.toNat = failures cfg es + 1) (hexpiry : waitExpiries [e] = 0)
    (hrequests : requests out = retries out)
    (hout : (failures cfg es = cfg.dlpRetries.toNat ∧ pending s' = 0 ∧ retries out = 0) ∨
      (failures cfg es < cfg.dlpRetries.toNat ∧ pending s' = 1 ∧ retries out = 1)) :
    Counted cfg (es ++ [e]) s' (tr ++ out) := by
  have hone : failures cfg [e] = 1 := by simp [failures, hretryable]
  have hfailures : failures cfg (es ++ [e]) = failures cfg es + 1 := by
    rw [failures_append, hone]
  constructor
  · rw [hcounter, hfailures]
  · omega
  · omega
  · rw [requests_append, waitExpiries_append, retries_append, hrequests, hexpiry, hi.requests_eq]
    omega
  · rw [retries_append, hi.retries_eq, hfailures]
    omega

/-- Every step counts, as long as the counter has room for the failures. -/
theorem counted_step {es : List Event} {s s' : State} {tr out : List (Event × Output)}
    {e : Event} (hroom : failures cfg (es ++ [e]) < UInt16.size) (hi : Counted cfg es s tr)
    (h : (machine cfg).step s e = some (s', out)) :
    Counted cfg (es ++ [e]) s' (tr ++ out) := by
  cases hcompletion : isCompletion e with
  | false =>
    have hother := other_step hcompletion h
    have hretryable : retryable cfg e = false := by
      cases e <;> first | rfl | cases hcompletion
    exact hi.unretried hretryable hother.retries_eq hother.pending_le hother.requests_eq
      hother.retries_out
  | true =>
    cases e with
    | transferCompleted status info =>
      obtain ⟨hop, hanswer⟩ := completion_step h
      -- The operation was in flight, so the timer does not wait.
      have hinflight : pending s = 1 + s.waitTimer.waits := by simp [pending, hop]
      have hwaits : s.waitTimer.waits = 0 := by
        have hsingle := hi.single
        omega
      cases hans : answer cfg status info with
      | final result =>
        rw [hans] at hanswer
        obtain ⟨rfl, rfl⟩ := hanswer
        refine hi.unretried (by simp [retryable, hans]) rfl ?_ rfl rfl
        simp [pending, completedState, hwaits]
      | wait waitTime =>
        rw [hans] at hanswer
        obtain ⟨rfl, rfl⟩ := hanswer
        refine hi.unretried (by simp [retryable, hans]) rfl ?_ rfl rfl
        simp [pending, completedState, hwaits, hop]
      | failure =>
        rw [hans] at hanswer
        have hretryable : retryable cfg (.transferCompleted status info) = true := by
          simp [retryable, hans]
        have hone : failures cfg [.transferCompleted status info] = 1 := by
          simp [failures, hretryable]
        rw [failures_append, hone] at hroom
        have hcounter : (s.retries + 1).toNat = failures cfg es + 1 := by
          rw [UInt16.toNat_add, hi.counter]
          exact Nat.mod_eq_of_lt hroom
        have hle := hi.failures_le
        simp only [UInt16.lt_iff_toNat_lt, hcounter] at hanswer
        split at hanswer
        · rename_i hlast
          obtain ⟨rfl, rfl⟩ := hanswer
          refine hi.retried hretryable hcounter rfl rfl (.inl ⟨by omega, ?_, rfl⟩)
          simp [pending, completedState, hwaits]
        · rename_i hmore
          obtain ⟨rfl, rfl⟩ := hanswer
          refine hi.retried hretryable hcounter rfl rfl (.inr ⟨by omega, ?_, rfl⟩)
          simp [pending, completedState, hwaits]
    | _ => cases hcompletion

/-- **Counting**: every run counts whose failures fit the counter. -/
theorem counted_run {es : List Event} {s : State} {tr : List (Event × Output)}
    (hroom : failures cfg es < UInt16.size)
    (h : (machine cfg).exec started es = some (s, tr)) : Counted cfg es s tr := by
  revert hroom
  refine Machine.exec_history
    (fun es s tr => failures cfg es < UInt16.size → Counted cfg es s tr)
    (fun _ => counted_start) ?_ h
  intro es s tr e s' o _ hi hs hroom
  have hle : failures cfg es ≤ failures cfg (es ++ [e]) := by
    rw [failures_append]
    exact Nat.le_add_right ..
  exact counted_step hroom (hi (lt_of_le_of_lt hle hroom)) hs

/-- A failure is one of an operation in flight. -/
theorem failures_step (es : List Event) {s s' : State} {e : Event}
    {out : List (Event × Output)} (h : (machine cfg).step s e = some (s', out)) :
    failures cfg (es ++ [e]) ≤ failures cfg es + pending s := by
  rw [failures_append]
  cases e with
  | transferCompleted status info =>
    have hop := (completion_step h).1
    have hone : failures cfg [.transferCompleted status info] ≤ 1 := List.countP_le_length
    simp only [pending, hop, if_true]
    omega
  | _ => exact Nat.le_add_right ..

/-- Where the counter exceeds the configured retries, it never runs out of room. -/
theorem failures_lt (hcfg : cfg.dlpRetries ≠ 65535) {es : List Event} {s : State}
    {tr : List (Event × Output)} (h : (machine cfg).exec started es = some (s, tr)) :
    failures cfg es < UInt16.size := by
  have hmax : cfg.dlpRetries.toNat + 1 < UInt16.size := by
    have hlt := UInt16.toNat_lt cfg.dlpRetries
    have hne : cfg.dlpRetries.toNat ≠ 65535 := fun heq => hcfg (UInt16.toNat_inj.mp heq)
    show _ < 65536
    omega
  -- The bound on the failures makes room for the next one, step by step.
  have hcounted : Counted cfg es s tr := by
    refine Machine.exec_history (Counted cfg) counted_start (fun es s tr e s' o _ hi hs => ?_) h
    have hstep := failures_step es hs
    exact counted_step (lt_of_le_of_lt (hstep.trans hi.failures_le) hmax) hi hs
  exact lt_of_le_of_lt (le_trans (Nat.le_add_right ..) hcounted.failures_le) hmax

/-! ## The law along a run -/

/-- The law holds as long as the failures fit the counter. -/
private theorem retryLaw_of_lt {es : List Event} {s : State} {tr : List (Event × Output)}
    (hroom : failures cfg es < UInt16.size)
    (h : (machine cfg).exec started es = some (s, tr)) : RetryLaw cfg es tr := by
  have hcounted := counted_run hroom h
  refine ⟨by rw [hcounted.requests_eq, Nat.add_assoc],
    hcounted.retries_eq ▸ Nat.min_le_right .., ?_, ?_⟩
  · intro pre tr₁ s₁ e s₂ out htaken waitTime hwait
    rcases htaken with ⟨post, -, -, hs⟩
    cases e with
    | transferCompleted status info =>
      have hanswer : answer cfg status info = .wait waitTime := of_decide_eq_true hwait
      obtain ⟨-, hstep⟩ := completion_step hs
      rw [hanswer] at hstep
      obtain ⟨rfl, rfl⟩ := hstep
      exact ⟨rfl, rfl⟩
    | _ => cases hwait
  · intro pre tr₁ s₁ e s₂ out htaken hfailure
    rcases htaken with ⟨post, rfl, hpre, hs⟩
    have hle : failures cfg pre + 1 ≤ failures cfg (pre ++ e :: post) := by
      rw [failures_append, failures, failures, List.countP_cons_of_pos hfailure]
      omega
    have hat := counted_run (lt_of_le_of_lt (Nat.le_of_succ_le hle) hroom) hpre
    cases e with
    | transferCompleted status info =>
      have hanswer : answer cfg status info = .failure := of_decide_eq_true hfailure
      obtain ⟨hop, hstep⟩ := completion_step hs
      have hbound : failures cfg pre ≤ cfg.dlpRetries.toNat := by
        have hpending := hat.failures_le
        simp only [pending, hop, if_true] at hpending
        omega
      have hcounter : (s₁.retries + 1).toNat = failures cfg pre + 1 := by
        rw [UInt16.toNat_add, hat.counter]
        exact Nat.mod_eq_of_lt (lt_of_le_of_lt hle hroom)
      rw [hanswer] at hstep
      simp only [UInt16.lt_iff_toNat_lt, hcounter] at hstep
      split at hstep
      · rename_i hlt
        rw [if_neg (by omega)]
        exact hstep.2
      · rename_i hge
        rw [if_pos (by omega)]
        exact hstep.2
    | _ => cases hfailure

/-- A run with more than `n` failures takes one behind exactly `n` of them. -/
private theorem exists_failure {n : Nat} {es : List Event} (h : n < failures cfg es) :
    ∃ pre e post, es = pre ++ e :: post ∧ retryable cfg e ∧ failures cfg pre = n := by
  induction es using List.reverseRecOn with
  | nil => cases h
  | append_singleton es e ih =>
    rw [failures_append] at h
    by_cases hlt : n < failures cfg es
    · obtain ⟨pre, e', post, rfl, he, hpre⟩ := ih hlt
      exact ⟨pre, e', post ++ [e], by simp, he, hpre⟩
    · cases he : retryable cfg e with
      | false =>
        have hnone : failures cfg [e] = 0 := List.countP_eq_zero.mpr (by simp [he])
        omega
      | true =>
        have hone : failures cfg [e] = 1 := by simp [failures, he]
        exact ⟨es, e, [], rfl, he, by omega⟩

/-- The counter wraps around: after the greatest number of retries there is, the
next failure is retried too, and the law is broken. -/
private theorem not_retryLaw_of_le (hcfg : cfg.dlpRetries = 65535) {es : List Event} {s : State}
    {tr : List (Event × Output)} (hmany : UInt16.size ≤ failures cfg es)
    (h : (machine cfg).exec started es = some (s, tr)) : ¬ RetryLaw cfg es tr := by
  intro hlaw
  have hmax : cfg.dlpRetries.toNat = 65535 := by rw [hcfg]; rfl
  have hlast : 65535 < failures cfg es := hmany
  obtain ⟨pre, e, post, rfl, hfailure, hpre⟩ := exists_failure hlast
  obtain ⟨tr₁, s₁, s₂, out, hstep⟩ := Machine.exists_hasStep h rfl
  have hends := hlaw.failure pre tr₁ s₁ e s₂ out hstep hfailure
  obtain ⟨-, -, hexec, hs⟩ := hstep
  have hat := counted_run (by rw [hpre]; decide) hexec
  rw [hpre, hmax, if_neg (lt_irrefl _)] at hends
  cases e with
  | transferCompleted status info =>
    have hanswer : answer cfg status info = .failure := of_decide_eq_true hfailure
    -- The failure behind 65535 others brings the counter back to zero.
    have hwraps : s₁.retries + 1 = 0 := by
      apply UInt16.toNat_inj.mp
      rw [UInt16.toNat_add, hat.counter, hpre]
      rfl
    obtain ⟨-, hstep⟩ := completion_step hs
    rw [hanswer, hwraps] at hstep
    simp only [show ¬ cfg.dlpRetries < 0 from UInt16.not_lt_zero, if_false] at hstep
    rw [hends] at hstep
    cases hstep.2
  | _ => cases hfailure

/-- **The retry bound**: a run keeps the law exactly if the configured number of
retries is not the greatest one, or the failures of the run fit the counter. -/
theorem client_retryLaw_iff {es : List Event} {s : State} {tr : List (Event × Output)}
    (h : (machine cfg).exec started es = some (s, tr)) :
    RetryLaw cfg es tr ↔ cfg.dlpRetries ≠ 65535 ∨ failures cfg es < UInt16.size := by
  constructor
  · intro hlaw
    by_contra hnot
    obtain ⟨hcfg, hmany⟩ := not_or.mp hnot
    exact not_retryLaw_of_le (not_not.mp hcfg) (not_lt.mp hmany) h hlaw
  · intro hholds
    rcases hholds with hcfg | hroom
    · exact retryLaw_of_lt (failures_lt hcfg h) h
    · exact retryLaw_of_lt hroom h

/-- The last failure of a client with one retry ends the operation. -/
theorem client_retryLaw_oneRetry :
    RetryLaw ⟨1, true⟩ [.transferCompleted .communicationError none,
        .transferCompleted .communicationError none]
      [(.transferCompleted .communicationError none, .request),
        (.transferCompleted .communicationError none, .completed .communicationError)] :=
  (client_retryLaw_iff rfl).mpr (.inl (by decide))

/-- With the greatest number of retries, any number of failures is retried. -/
private theorem exec_failures (retries : UInt16) (n : Nat) :
    ∃ s tr, (machine ⟨65535, true⟩).exec { started with retries := retries }
      (List.replicate n (.transferCompleted .communicationError none)) = some (s, tr) := by
  induction n generalizing retries with
  | zero => exact ⟨_, _, rfl⟩
  | succ n ih =>
    obtain ⟨s, tr, hrest⟩ := ih (retries + 1)
    have hnever : ¬ (65535 : UInt16) < retries + 1 := by
      rw [UInt16.lt_iff_toNat_lt, not_lt]
      exact Nat.le_of_lt_succ (UInt16.toNat_lt _)
    have hstep : (machine ⟨65535, true⟩).step { started with retries := retries }
        (.transferCompleted .communicationError none)
        = some ({ started with retries := retries + 1 },
          [(.transferCompleted .communicationError none, .request)]) :=
      step_eq_some.mpr ⟨[.request], by
        simp [react, started, handleCompletion, retry, requestOperation, hnever], rfl⟩
    exact ⟨s, _, Machine.exec_cons.mpr ⟨_, _, _, hstep, hrest, rfl⟩⟩

/-- A server that never answers is asked for ever by a client that is configured
with 65535 retries. -/
theorem client_not_retryLaw_maximum :
    ∃ s tr, (machine ⟨65535, true⟩).exec started
        (List.replicate 65536 (.transferCompleted .communicationError none)) = some (s, tr) ∧
      ¬ RetryLaw ⟨65535, true⟩
        (List.replicate 65536 (.transferCompleted .communicationError none)) tr := by
  obtain ⟨s, tr, h⟩ := exec_failures 0 65536
  refine ⟨s, tr, h, not_retryLaw_of_le rfl ?_ h⟩
  rw [failures, List.countP_replicate]
  rfl

end Arinc615a.Tftp.Client
