import Arinc615a.Lib.Machine
import Mathlib.Logic.Function.Basic

/-!
# Machines that leave jobs to workers

A machine, the master, has jobs done: its outputs start a job with a worker, or drop it. A
worker is a machine of its own, and calls the master with events. One that is dropped is
destroyed, which may be undefined while it still waits for something.

The master alone is the abstract view: the events of the workers may happen whenever it
awaits them. `Contract` says what both have to keep to, so that along every run of the
master with its workers (`coherent_run`)

- the master runs as it does alone, on its own events and the calls of the workers,
- each worker runs as it does alone, on the events of its job,
- the master awaits the jobs whose workers are at work, and no others.

No worker calls the master in vain then, unless the master drops one that must not be
destroyed (`exists_work_step`).
-/

namespace Machines

/-- What an output of the master does to the workers. -/
inductive Assignment (κ : Type) where
  | start (job : Nat) (order : κ)
  | drop (job : Nat)

/-- A master, and the workers that it can have. -/
structure Delegation where
  State : Type
  Event : Type
  Output : Type
  master : Machine State Event Output
  /-- What a worker is started with. -/
  Order : Type
  WorkerState : Type
  WorkerEvent : Type
  WorkerOutput : Type
  worker : Order → Machine WorkerState WorkerEvent WorkerOutput
  fresh : WorkerState
  /-- What can happen to a worker, while the master is ready. -/
  happens : WorkerEvent → Bool
  ready : State → Bool
  /-- Where a worker can be destroyed. -/
  destroyable : WorkerState → Bool
  assigns : Output → Option (Assignment Order)
  /-- What comes with an event of a worker from outside. -/
  Data : Type
  /-- The call of the master that the outputs of one step of a worker make. -/
  calls : Order → Nat → Data → List WorkerOutput → Option Event
  /-- The events that only workers cause. -/
  called : Event → Bool
  /-- The job that ends with an event. -/
  endOf : Event → Option Nat

namespace Delegation

/-- The workers by their jobs. -/
abbrev Workers (d : Delegation) := Nat → Option (d.Order × d.WorkerState)

structure Snapshot (d : Delegation) where
  master : d.State
  workers : d.Workers

inductive SystemEvent (d : Delegation) where
  | master (e : d.Event)
  | work (job : Nat) (f : d.WorkerEvent) (data : d.Data)

inductive SystemOutput (d : Delegation) where
  | master (o : d.Output)
  | worker (job : Nat) (p : d.WorkerOutput)

variable {d : Delegation}

/-- The workers behind an output of the master, where this is defined. -/
def Workers.serve (workers : d.Workers) (o : d.Output) : Option d.Workers :=
  match d.assigns o with
  | none => some workers
  | some (.start job order) => some (Function.update workers job (some (order, d.fresh)))
  | some (.drop job) =>
    match workers job with
    | none => some workers
    | some (_, t) => if d.destroyable t then some (Function.update workers job none) else none

/-- Behind several of them. -/
def Workers.serveAll (workers : d.Workers) : List d.Output → Option d.Workers
  | [] => some workers
  | o :: out => (workers.serve o).bind fun workers' => workers'.serveAll out

/-- A step of the master, and what it makes of the workers. -/
def masterStep (d : Delegation) (c : d.Snapshot) (e : d.Event) :
    Option (d.Snapshot × List d.SystemOutput) :=
  (d.master.step c.master e).bind fun (s, out) =>
    (c.workers.serveAll out).map fun workers => (⟨s, workers⟩, out.map .master)

/-- The worker of a job has taken a step. -/
def Snapshot.worked (c : d.Snapshot) (job : Nat) (order : d.Order) (t : d.WorkerState) :
    d.Snapshot :=
  { c with workers := Function.update c.workers job (some (order, t)) }

/-- A step of a worker, with the call that it makes. -/
def workStep (d : Delegation) (c : d.Snapshot) (job : Nat) (f : d.WorkerEvent) (data : d.Data) :
    Option (d.Snapshot × List d.SystemOutput) :=
  match c.workers job with
  | none => none
  | some (order, t) =>
    match (d.worker order).step t f with
    | none => none
    | some (t', p) =>
      match d.calls order job data p with
      | none => some (c.worked job order t', p.map (.worker job))
      | some e =>
        (d.masterStep (c.worked job order t') e).map fun (c', out) =>
          (c', p.map (.worker job) ++ out)

/-- The master and its workers as one machine. -/
def system (d : Delegation) : Machine d.Snapshot d.SystemEvent d.SystemOutput where
  step c
    | .master e => if d.called e then none else d.masterStep c e
    | .work job f data =>
      if d.ready c.master ∧ d.happens f then d.workStep c job f data else none

/-- The master without workers. -/
def beginning (d : Delegation) (start : d.State) : d.Snapshot := ⟨start, fun _ => none⟩

/-! ## What a run consists of -/

/-- The event that an event of the system is for the master: its own, or the call that a
worker makes. -/
def eventOf? (c : d.Snapshot) : d.SystemEvent → Option d.Event
  | .master e => some e
  | .work job f data =>
    (c.workers job).bind fun (order, t) =>
      ((d.worker order).step t f).bind fun (_, p) => d.calls order job data p

/-- The events of the master in a run. -/
def masterEvents (d : Delegation) (start : d.State) (es : List d.SystemEvent) : List d.Event :=
  (d.system.steps (d.beginning start) es).filterMap fun (c, e) => eventOf? c e

def masterOutputs (out : List d.SystemOutput) : List d.Output :=
  out.filterMap fun
    | .master o => some o
    | .worker _ _ => none

/-- The events and the outputs of the worker of a job. -/
def workOf (job : Nat) (es : List d.SystemEvent) : List d.WorkerEvent :=
  es.filterMap fun
    | .work j f _ => if j = job then some f else none
    | .master _ => none

def outputsOf (job : Nat) (out : List d.SystemOutput) : List d.WorkerOutput :=
  out.filterMap fun
    | .worker j p => if j = job then some p else none
    | .master _ => none

@[simp] theorem masterOutputs_append (out out' : List d.SystemOutput) :
    masterOutputs (out ++ out') = masterOutputs out ++ masterOutputs out' :=
  List.filterMap_append ..

@[simp] theorem masterOutputs_map_master (out : List d.Output) :
    masterOutputs (out.map .master : List d.SystemOutput) = out := by
  simp [masterOutputs, List.filterMap_map]

@[simp] theorem masterOutputs_map_worker (job : Nat) (p : List d.WorkerOutput) :
    masterOutputs (p.map (.worker job) : List d.SystemOutput) = [] := by
  simp [masterOutputs, List.filterMap_map]

@[simp] theorem outputsOf_append (job : Nat) (out out' : List d.SystemOutput) :
    outputsOf job (out ++ out') = outputsOf job out ++ outputsOf job out' :=
  List.filterMap_append ..

@[simp] theorem outputsOf_map_master (job : Nat) (out : List d.Output) :
    outputsOf job (out.map .master : List d.SystemOutput) = [] := by
  simp [outputsOf, List.filterMap_map]

@[simp] theorem outputsOf_map_self (job : Nat) (p : List d.WorkerOutput) :
    outputsOf job (p.map (.worker job) : List d.SystemOutput) = p := by
  simp [outputsOf, List.filterMap_map]

theorem outputsOf_map_of_ne {job j : Nat} (h : j ≠ job) (p : List d.WorkerOutput) :
    outputsOf job (p.map (.worker j) : List d.SystemOutput) = [] := by
  simp [outputsOf, List.filterMap_map, h]

@[simp] theorem workOf_append (job : Nat) (es es' : List d.SystemEvent) :
    workOf job (es ++ es') = workOf job es ++ workOf job es' :=
  List.filterMap_append ..

/-! ## Steps -/

variable {c c' : d.Snapshot}

theorem masterStep_iff {e : d.Event} {out : List d.SystemOutput} :
    d.masterStep c e = some (c', out) ↔
      ∃ s os workers, d.master.step c.master e = some (s, os) ∧
        c.workers.serveAll os = some workers ∧ c' = ⟨s, workers⟩ ∧ out = os.map .master := by
  rw [masterStep, Option.bind_eq_some_iff]
  constructor
  · intro h
    obtain ⟨⟨s, os⟩, hstep, h⟩ := h
    obtain ⟨workers, hserved, heq⟩ := Option.map_eq_some_iff.mp h
    obtain ⟨rfl, rfl⟩ := Prod.mk.inj heq
    exact ⟨s, os, workers, hstep, hserved, rfl, rfl⟩
  · intro h
    obtain ⟨s, os, workers, hstep, hserved, rfl, rfl⟩ := h
    exact ⟨(s, os), hstep, Option.map_eq_some_iff.mpr ⟨workers, hserved, rfl⟩⟩

/-- A worker takes a step, and calls the master or not. -/
theorem workStep_iff {job : Nat} {f : d.WorkerEvent} {data : d.Data}
    {out : List d.SystemOutput} :
    d.workStep c job f data = some (c', out) ↔
      ∃ order t t' p, c.workers job = some (order, t) ∧
        (d.worker order).step t f = some (t', p) ∧
        ((d.calls order job data p = none ∧ c' = c.worked job order t' ∧
            out = p.map (.worker job)) ∨
          ∃ e os, d.calls order job data p = some e ∧
            d.masterStep (c.worked job order t') e = some (c', os) ∧
            out = p.map (.worker job) ++ os) := by
  constructor
  · intro h
    unfold workStep at h
    split at h
    · cases h
    rename_i order t hworker
    split at h
    · cases h
    rename_i t' p hstep
    refine ⟨order, t, t', p, hworker, hstep, ?_⟩
    split at h
    · rename_i hcalls
      obtain ⟨rfl, rfl⟩ := Prod.mk.inj (Option.some.inj h)
      exact .inl ⟨hcalls, rfl, rfl⟩
    · rename_i e hcalls
      obtain ⟨⟨c'', os⟩, hmaster, heq⟩ := Option.map_eq_some_iff.mp h
      obtain ⟨rfl, rfl⟩ := Prod.mk.inj heq
      exact .inr ⟨e, os, hcalls, hmaster, rfl⟩
  · intro h
    obtain ⟨order, t, t', p, hworker, hstep, hcall⟩ := h
    simp only [workStep, hworker, hstep]
    rcases hcall with ⟨hcalls, rfl, rfl⟩ | ⟨e, os, hcalls, hmaster, rfl⟩
    · simp only [hcalls]
    · simp only [hcalls, hmaster, Option.map_some]

/-- The event that a step of a worker is for the master. -/
theorem eventOf?_work {job : Nat} {f : d.WorkerEvent} {data : d.Data} {order : d.Order}
    {t t' : d.WorkerState} {p : List d.WorkerOutput} (hworker : c.workers job = some (order, t))
    (hstep : (d.worker order).step t f = some (t', p)) :
    eventOf? c (.work job f data) = d.calls order job data p := by
  simp only [eventOf?, hworker, hstep, Option.bind_some]

/-- An output of the master in a step of the system: the event is its own, or a worker calls
it. -/
theorem step_of_output {e : d.SystemEvent} {out : List d.SystemOutput}
    (h : d.system.step c e = some (c', out)) {o : d.Output} (ho : .master o ∈ out) :
    (∃ e' s os, e = .master e' ∧ ¬d.called e' = true ∧
        d.master.step c.master e' = some (s, os) ∧ o ∈ os) ∨
      ∃ job f data order t t' p e' s os, e = .work job f data ∧
        c.workers job = some (order, t) ∧ (d.worker order).step t f = some (t', p) ∧
        d.calls order job data p = some e' ∧ d.master.step c.master e' = some (s, os) ∧
        o ∈ os := by
  cases e with
  | master e' =>
    obtain ⟨hcalled, hmaster⟩ := Option.ite_none_left_eq_some.mp h
    obtain ⟨s, os, workers, hstep, -, -, rfl⟩ := masterStep_iff.mp hmaster
    obtain ⟨o', hos, heq⟩ := List.mem_map.mp ho
    cases heq
    exact .inl ⟨e', s, os, rfl, hcalled, hstep, hos⟩
  | work job f data =>
    obtain ⟨-, hwork⟩ := Option.ite_none_right_eq_some.mp h
    obtain ⟨order, t, t', p, hworker, hstep, hcall⟩ := workStep_iff.mp hwork
    have hworkers : SystemOutput.master o ∉ p.map (.worker job) := by simp
    rcases hcall with ⟨-, -, rfl⟩ | ⟨e', mos, hcalls, hmaster, rfl⟩
    · exact absurd ho hworkers
    · obtain ⟨s, os, workers, htold, -, -, rfl⟩ := masterStep_iff.mp hmaster
      obtain ⟨o', hos, heq⟩ := List.mem_map.mp ((List.mem_append.mp ho).resolve_left hworkers)
      cases heq
      exact .inr ⟨job, f, data, order, t, t', p, e', s, os, rfl, hworker, hstep, hcalls, htold,
        hos⟩

/-! ## What master and workers keep to -/

/-- The job that an output starts. -/
def startOf (d : Delegation) (o : d.Output) : Option Nat :=
  match d.assigns o with
  | some (.start job _) => some job
  | _ => none

/-- The order of a job that the master awaits behind an output. -/
def awaitsBehind (d : Delegation) (job : Nat) (awaited : Option d.Order) (o : d.Output) :
    Option d.Order :=
  match d.assigns o with
  | some (.start j order) => if j = job then some order else awaited
  | some (.drop j) => if j = job then none else awaited
  | none => awaited

/-- What the master awaits, and when a worker is at work: the master keeps its account and
gives each number once, and a worker calls while it is at work and ends with the call of its
end. -/
structure Contract (d : Delegation) (start : d.State) where
  awaits : d.State → Nat → Option d.Order
  atWork : d.WorkerState → Bool
  /-- The first number that was not given yet. -/
  next : d.State → Nat
  awaits_start : ∀ job, awaits start job = none
  awaits_step : ∀ {es s tr e s' out}, d.master.exec start es = some (s, tr) →
    d.master.step s e = some (s', out) → ∀ job, awaits s' job =
      out.foldl (d.awaitsBehind job) (if d.endOf e = some job then none else awaits s job)
  next_step : ∀ {s e s' out}, d.master.step s e = some (s', out) →
    next s ≤ next s' ∧ (out.filterMap d.startOf).Nodup ∧
      ∀ job ∈ out.filterMap d.startOf, next s ≤ job ∧ job < next s'
  called_of_endOf : ∀ {e job}, d.endOf e = some job → d.called e = true
  atWork_fresh : atWork d.fresh = true
  works : ∀ {order fs t tr f t' p}, (d.worker order).exec d.fresh fs = some (t, tr) →
    (d.worker order).step t f = some (t', p) →
    ∀ job data, (d.calls order job data p = none ∧ atWork t' = atWork t) ∨
      ∃ e, d.calls order job data p = some e ∧ atWork t = true ∧
        d.endOf e = if atWork t' then none else some job

namespace Contract

variable {start : d.State} (contract : d.Contract start)

/-- The order of the worker that is at work on a job. -/
def doing (workers : d.Workers) (job : Nat) : Option d.Order :=
  (workers job).bind fun worker => if contract.atWork worker.2 then some worker.1 else none

/-- Each worker has run on the events of its job, and nothing was done on the jobs that are
free. -/
structure OwnRuns (workers : d.Workers) (free : Nat → Prop) (es : List d.SystemEvent)
    (tr : List d.SystemOutput) : Prop where
  own : ∀ job order t, workers job = some (order, t) →
    (d.worker order).exec d.fresh (workOf job es) = some (t, outputsOf job tr)
  unused : ∀ job, free job → workers job = none ∧ workOf job es = [] ∧ outputsOf job tr = []

/-- The master runs as alone, so do the workers, and the master awaits the jobs that they
are at. -/
structure Coherent (es : List d.SystemEvent) (c : d.Snapshot) (tr : List d.SystemOutput) :
    Prop where
  master : d.master.exec start (d.masterEvents start es) = some (c.master, masterOutputs tr)
  workers : OwnRuns c.workers (contract.next c.master ≤ ·) es tr
  awaits : ∀ job, contract.awaits c.master job = contract.doing c.workers job

variable {contract}

theorem doing_update_self {workers : d.Workers} {job : Nat} {order : d.Order}
    {t : d.WorkerState} :
    contract.doing (Function.update workers job (some (order, t))) job =
      if contract.atWork t then some order else none := by
  simp [doing]

theorem doing_update_of_ne {workers : d.Workers} {job j : Nat} (h : job ≠ j)
    {worker : Option (d.Order × d.WorkerState)} :
    contract.doing (Function.update workers j worker) job = contract.doing workers job := by
  simp [doing, Function.update_of_ne h]

/-- The master awaits the jobs with a worker at work. -/
theorem Coherent.awaits_iff {es : List d.SystemEvent} {c : d.Snapshot}
    {tr : List d.SystemOutput} (h : contract.Coherent es c tr) {job : Nat} {order : d.Order} :
    contract.awaits c.master job = some order ↔
      ∃ t, c.workers job = some (order, t) ∧ contract.atWork t = true := by
  rw [h.awaits, doing, Option.bind_eq_some_iff]
  constructor
  · intro hdoing
    obtain ⟨⟨order', t⟩, hworker, hat⟩ := hdoing
    obtain ⟨hwork, horder⟩ := Option.ite_none_right_eq_some.mp hat
    cases horder
    exact ⟨t, hworker, hwork⟩
  · intro hworking
    obtain ⟨t, hworker, hwork⟩ := hworking
    exact ⟨(order, t), hworker, if_pos hwork⟩

/-- The master awaits the job of a worker that calls. -/
theorem Coherent.awaits_of_calls {es : List d.SystemEvent} {c : d.Snapshot}
    {tr : List d.SystemOutput} (h : contract.Coherent es c tr) {job : Nat} {order : d.Order}
    {t t' : d.WorkerState} {f : d.WorkerEvent} {p : List d.WorkerOutput} {data : d.Data}
    {e : d.Event} (hworker : c.workers job = some (order, t))
    (hstep : (d.worker order).step t f = some (t', p))
    (hcalls : d.calls order job data p = some e) :
    contract.awaits c.master job = some order := by
  rcases contract.works (h.workers.own _ _ _ hworker) hstep job data with
    ⟨hnone, -⟩ | ⟨-, -, hat, -⟩
  · rw [hnone] at hcalls
    cases hcalls
  · exact h.awaits_iff.mpr ⟨t, hworker, hat⟩

/-! ## Workers behind the outputs of the master -/

/-- The account of the workers behind an output is the one of the master. -/
theorem doing_serve (contract : d.Contract start) {workers workers' : d.Workers} {o : d.Output}
    (h : workers.serve o = some workers') (job : Nat) :
    contract.doing workers' job = d.awaitsBehind job (contract.doing workers job) o := by
  unfold Workers.serve at h
  unfold awaitsBehind
  split at h
  · rename_i hassigns
    rw [hassigns, Option.some.inj h]
  · rename_i j order hassigns
    obtain rfl := Option.some.inj h
    simp only [hassigns]
    by_cases hjob : j = job
    · subst hjob
      rw [doing_update_self, if_pos contract.atWork_fresh, if_pos rfl]
    · rw [doing_update_of_ne (Ne.symm hjob), if_neg hjob]
  · rename_i j hassigns
    simp only [hassigns]
    split at h
    · rename_i hnone
      obtain rfl := Option.some.inj h
      by_cases hjob : j = job
      · subst hjob
        simp [doing, hnone]
      · rw [if_neg hjob]
    · obtain rfl := Option.some.inj (Option.ite_none_right_eq_some.mp h).2
      by_cases hjob : j = job
      · subst hjob
        simp [doing]
      · rw [doing_update_of_ne (Ne.symm hjob), if_neg hjob]

theorem doing_serveAll (contract : d.Contract start) {workers workers' : d.Workers}
    {out : List d.Output} (h : workers.serveAll out = some workers') (job : Nat) :
    contract.doing workers' job =
      out.foldl (d.awaitsBehind job) (contract.doing workers job) := by
  induction out generalizing workers with
  | nil => rw [← Option.some.inj h, List.foldl_nil]
  | cons o out ih =>
    obtain ⟨between, hserve, hrest⟩ := Option.bind_eq_some_iff.mp h
    rw [ih hrest, contract.doing_serve hserve, List.foldl_cons]

/-- A job that is started was free, and is no more. -/
theorem OwnRuns.serve {workers workers' : d.Workers} {free : Nat → Prop}
    {es : List d.SystemEvent} {tr : List d.SystemOutput} {o : d.Output}
    (h : OwnRuns workers free es tr) (hserve : workers.serve o = some workers')
    (hfree : ∀ job, d.startOf o = some job → free job) :
    OwnRuns workers' (fun job => free job ∧ d.startOf o ≠ some job) es tr := by
  unfold Workers.serve at hserve
  unfold startOf at hfree ⊢
  split at hserve
  · rename_i hassigns
    obtain rfl := Option.some.inj hserve
    exact ⟨h.own, fun job hjob => h.unused job hjob.1⟩
  · rename_i j order hassigns
    obtain rfl := Option.some.inj hserve
    simp only [hassigns] at hfree ⊢
    constructor
    · intro job order' t hworker
      by_cases hjob : job = j
      · subst hjob
        rw [Function.update_self, Option.some.injEq, Prod.mk.injEq] at hworker
        obtain ⟨rfl, rfl⟩ := hworker
        obtain ⟨-, hwork, houtputs⟩ := h.unused job (hfree job rfl)
        rw [hwork, houtputs, Machine.exec_nil]
      · rw [Function.update_of_ne hjob] at hworker
        exact h.own job order' t hworker
    · intro job hjob
      rw [Function.update_of_ne fun heq => hjob.2 (congrArg some heq.symm)]
      exact h.unused job hjob.1
  · rename_i j hassigns
    split at hserve
    · obtain rfl := Option.some.inj hserve
      exact ⟨h.own, fun job hjob => h.unused job hjob.1⟩
    · obtain rfl := Option.some.inj (Option.ite_none_right_eq_some.mp hserve).2
      constructor
      · intro job order' t hworker
        by_cases hjob : job = j
        · subst hjob
          rw [Function.update_self] at hworker
          cases hworker
        · rw [Function.update_of_ne hjob] at hworker
          exact h.own job order' t hworker
      · intro job hjob
        obtain ⟨hnone, hrest⟩ := h.unused job hjob.1
        refine ⟨?_, hrest⟩
        by_cases hsame : job = j
        · rw [hsame, Function.update_self]
        · rw [Function.update_of_ne hsame, hnone]

theorem OwnRuns.serveAll {workers workers' : d.Workers} {free : Nat → Prop}
    {es : List d.SystemEvent} {tr : List d.SystemOutput} {out : List d.Output}
    (h : OwnRuns workers free es tr) (hserved : workers.serveAll out = some workers')
    (hnodup : (out.filterMap d.startOf).Nodup) (hfree : ∀ job ∈ out.filterMap d.startOf, free job) :
    OwnRuns workers' (fun job => free job ∧ job ∉ out.filterMap d.startOf) es tr := by
  induction out generalizing workers free with
  | nil =>
    obtain rfl := Option.some.inj hserved
    exact ⟨h.own, fun job hjob => h.unused job hjob.1⟩
  | cons o out ih =>
    obtain ⟨between, hserve, hrest⟩ := Option.bind_eq_some_iff.mp hserved
    have hbetween := h.serve hserve fun job hjob =>
      hfree job (List.mem_filterMap.mpr ⟨o, List.mem_cons_self, hjob⟩)
    cases hstart : d.startOf o with
    | none =>
      rw [List.filterMap_cons_none hstart] at hnodup hfree ⊢
      have hlast := ih hbetween hrest hnodup fun job hjob => ⟨hfree job hjob, by simp [hstart]⟩
      exact ⟨hlast.own, fun job hjob => hlast.unused job ⟨⟨hjob.1, by simp [hstart]⟩, hjob.2⟩⟩
    | some j =>
      rw [List.filterMap_cons_some hstart] at hnodup hfree ⊢
      obtain ⟨hnew, hnodup⟩ := List.nodup_cons.mp hnodup
      have hlast := ih hbetween hrest hnodup fun job hjob =>
        ⟨hfree job (List.mem_cons_of_mem _ hjob), fun heq => hnew (by
          rw [hstart, Option.some.injEq] at heq
          exact heq ▸ hjob)⟩
      refine ⟨hlast.own, fun job hjob => hlast.unused job ⟨⟨hjob.1, fun heq => hjob.2 ?_⟩, ?_⟩⟩
      · rw [hstart, Option.some.injEq] at heq
        exact heq ▸ List.mem_cons_self
      · exact fun hmem => hjob.2 (List.mem_cons_of_mem _ hmem)

/-- An output for no worker adds nothing to their runs. -/
theorem OwnRuns.append {workers : d.Workers} {free : Nat → Prop} {es es' : List d.SystemEvent}
    {tr out : List d.SystemOutput} (h : OwnRuns workers free es tr)
    (hes : ∀ job, workOf job es' = []) (hout : ∀ job, outputsOf job out = []) :
    OwnRuns workers free (es ++ es') (tr ++ out) where
  own := by
    intro job order t hworker
    rw [workOf_append, outputsOf_append, hes, hout, List.append_nil, List.append_nil]
    exact h.own job order t hworker
  unused := by
    intro job hjob
    rw [workOf_append, outputsOf_append, hes, hout, List.append_nil, List.append_nil]
    exact h.unused job hjob

/-- A step of a worker is one of its run. -/
theorem OwnRuns.work {workers : d.Workers} {free : Nat → Prop} {es : List d.SystemEvent}
    {tr : List d.SystemOutput} (h : OwnRuns workers free es tr) {job : Nat} {order : d.Order}
    {t t' : d.WorkerState} {f : d.WorkerEvent} {p : List d.WorkerOutput}
    (hworker : workers job = some (order, t))
    (hstep : (d.worker order).step t f = some (t', p)) (data : d.Data) :
    OwnRuns (Function.update workers job (some (order, t'))) free
      (es ++ [.work job f data]) (tr ++ p.map (.worker job)) := by
  constructor
  · intro j order' t'' hj
    rw [workOf_append, outputsOf_append]
    by_cases hjob : j = job
    · subst hjob
      rw [Function.update_self, Option.some.injEq, Prod.mk.injEq] at hj
      obtain ⟨rfl, rfl⟩ := hj
      have hwork : workOf j [.work j f data] = [f] := by simp [workOf]
      rw [hwork, outputsOf_map_self]
      exact Machine.exec_append_singleton.mpr ⟨t, _, p, h.own j order t hworker, hstep, rfl⟩
    · rw [Function.update_of_ne hjob] at hj
      have hwork : workOf j [.work job f data] = [] := by simp [workOf, Ne.symm hjob]
      rw [hwork, outputsOf_map_of_ne (Ne.symm hjob), List.append_nil, List.append_nil]
      exact h.own j order' t'' hj
  · intro j hj
    obtain ⟨hnone, hwork, houtputs⟩ := h.unused j hj
    have hjob : j ≠ job := by
      rintro rfl
      rw [hworker] at hnone
      cases hnone
    have hother : workOf j [.work job f data] = [] := by simp [workOf, Ne.symm hjob]
    rw [Function.update_of_ne hjob, workOf_append, outputsOf_append, hother,
      outputsOf_map_of_ne (Ne.symm hjob), List.append_nil, List.append_nil]
    exact ⟨hnone, hwork, houtputs⟩

/-! ## Runs -/

/-- A step of the master keeps the runs of the workers, and its account. -/
theorem exec_masterStep (contract : d.Contract start) {c c' : d.Snapshot} {e : d.Event}
    {es : List d.SystemEvent} {tr out : List d.SystemOutput} {es₀ : List d.Event}
    {tr₀ : List d.Output} (hmaster : d.master.exec start es₀ = some (c.master, tr₀))
    (hworkers : OwnRuns c.workers (contract.next c.master ≤ ·) es tr)
    (hawaits : ∀ job, contract.doing c.workers job =
      if d.endOf e = some job then none else contract.awaits c.master job)
    (h : d.masterStep c e = some (c', out)) :
    d.master.exec start (es₀ ++ [e]) = some (c'.master, tr₀ ++ masterOutputs out) ∧
      OwnRuns c'.workers (contract.next c'.master ≤ ·) es (tr ++ out) ∧
      ∀ job, contract.awaits c'.master job = contract.doing c'.workers job := by
  obtain ⟨s, os, workers, hstep, hserved, rfl, rfl⟩ := masterStep_iff.mp h
  obtain ⟨hnext, hnodup, hstarts⟩ := contract.next_step hstep
  have hserve := hworkers.serveAll hserved hnodup fun job hjob => (hstarts job hjob).1
  rw [masterOutputs_map_master]
  refine ⟨Machine.exec_append_singleton.mpr ⟨_, _, os, hmaster, hstep, rfl⟩, ?_, fun job => ?_⟩
  · have hlast : OwnRuns workers (contract.next s ≤ ·) es tr :=
      ⟨hserve.own, fun job hjob => hserve.unused job ⟨Nat.le_trans hnext hjob, fun hmem =>
        absurd (hstarts job hmem).2 (Nat.not_lt.mpr hjob)⟩⟩
    have happend : OwnRuns workers (contract.next s ≤ ·) (es ++ []) (tr ++ os.map .master) :=
      hlast.append (fun _ => rfl) fun job => outputsOf_map_master job os
    rwa [List.append_nil] at happend
  · rw [contract.doing_serveAll hserved, hawaits, contract.awaits_step hmaster hstep]

/-- A step of the system adds its event to those of the master, if it is one. -/
theorem masterEvents_append {start : d.State} {es : List d.SystemEvent} {c : d.Snapshot}
    {tr : List d.SystemOutput} (h : d.system.exec (d.beginning start) es = some (c, tr))
    (e : d.SystemEvent) :
    d.masterEvents start (es ++ [e]) = d.masterEvents start es ++ (eventOf? c e).toList := by
  rw [masterEvents, Machine.steps_append_singleton h, filterMap_concat]
  rfl

/-- Nothing has happened yet. -/
theorem coherent_start (contract : d.Contract start) :
    contract.Coherent [] (d.beginning start) [] where
  master := rfl
  workers :=
    { own := fun _ _ _ hworker => by cases hworker
      unused := fun _ _ => ⟨rfl, rfl, rfl⟩ }
  awaits := contract.awaits_start

/-- The account behind a step of a worker: it is done with its job where its call ends it. -/
theorem Coherent.doing_worked {es : List d.SystemEvent} {tr : List d.SystemOutput}
    (hc : contract.Coherent es c tr) {job : Nat} {order : d.Order} {t t' : d.WorkerState}
    {f : d.WorkerEvent} {p : List d.WorkerOutput} (hworker : c.workers job = some (order, t))
    (hstep : (d.worker order).step t f = some (t', p)) (data : d.Data) (j : Nat) :
    contract.doing (c.worked job order t').workers j =
      if (d.calls order job data p).bind d.endOf = some j then none
      else contract.awaits c.master j := by
  rw [Snapshot.worked, hc.awaits]
  rcases contract.works (hc.workers.own _ _ _ hworker) hstep job data with
    ⟨hnone, hkept⟩ | ⟨e, hsome, hat, hend⟩
  · rw [hnone, Option.bind_none, if_neg (by simp)]
    by_cases hjob : j = job
    · subst hjob
      rw [doing_update_self, hkept, doing, hworker]
      rfl
    · rw [doing_update_of_ne hjob]
  · rw [hsome, Option.bind_some, hend]
    by_cases hjob : j = job
    · subst hjob
      rw [doing_update_self, doing, hworker]
      cases contract.atWork t' <;> simp [hat]
    · rw [doing_update_of_ne hjob, if_neg]
      split
      · simp
      · simpa using Ne.symm hjob

/-- An event of the master keeps it and its workers coherent. -/
theorem coherent_masterStep (contract : d.Contract start) {es : List d.SystemEvent}
    {tr out : List d.SystemOutput} {e : d.Event}
    (hexec : d.system.exec (d.beginning start) es = some (c, tr))
    (hc : contract.Coherent es c tr) (hcalled : ¬d.called e = true)
    (h : d.masterStep c e = some (c', out)) :
    contract.Coherent (es ++ [.master e]) c' (tr ++ out) := by
  have hworkers : OwnRuns c.workers (contract.next c.master ≤ ·) (es ++ [.master e]) tr := by
    rw [← List.append_nil tr]
    exact hc.workers.append (fun _ => rfl) fun _ => rfl
  have hawaits : ∀ job, contract.doing c.workers job =
      if d.endOf e = some job then none else contract.awaits c.master job := by
    intro job
    rw [if_neg fun hend => hcalled (contract.called_of_endOf hend), hc.awaits]
  obtain ⟨hmaster, hown, hawaits⟩ := contract.exec_masterStep hc.master hworkers hawaits h
  refine ⟨?_, hown, hawaits⟩
  rw [masterEvents_append hexec, masterOutputs_append]
  exact hmaster

/-- So does an event of a worker, with the call that this makes. -/
theorem coherent_workStep (contract : d.Contract start) {es : List d.SystemEvent}
    {tr out : List d.SystemOutput} {job : Nat} {f : d.WorkerEvent} {data : d.Data}
    (hexec : d.system.exec (d.beginning start) es = some (c, tr))
    (hc : contract.Coherent es c tr) (h : d.workStep c job f data = some (c', out)) :
    contract.Coherent (es ++ [.work job f data]) c' (tr ++ out) := by
  obtain ⟨order, t, t', p, hworker, hstep, hcall⟩ := workStep_iff.mp h
  have hworkers := hc.workers.work hworker hstep data
  have hdoing := hc.doing_worked hworker hstep data
  have hevents := masterEvents_append hexec (.work job f data)
  rw [eventOf?_work hworker hstep] at hevents
  rcases hcall with ⟨hcalls, rfl, rfl⟩ | ⟨e, os, hcalls, hmaster, rfl⟩
  · refine ⟨?_, hworkers, fun j => ?_⟩
    · rw [hevents, hcalls, Option.toList_none, List.append_nil, masterOutputs_append,
        masterOutputs_map_worker, List.append_nil]
      exact hc.master
    · rw [hdoing, hcalls, Option.bind_none, if_neg (by simp)]
      rfl
  · simp only [hcalls, Option.bind_some] at hdoing
    obtain ⟨hexec', hown, hawaits⟩ := contract.exec_masterStep
      (c := c.worked job order t') hc.master hworkers hdoing hmaster
    refine ⟨?_, by rwa [← List.append_assoc], hawaits⟩
    rw [hevents, hcalls, masterOutputs_append, masterOutputs_append,
      masterOutputs_map_worker, List.nil_append]
    exact hexec'

/-- Every step keeps master and workers coherent. -/
theorem coherent_step (contract : d.Contract start) {es : List d.SystemEvent}
    {c c' : d.Snapshot} {tr out : List d.SystemOutput} {e : d.SystemEvent}
    (hexec : d.system.exec (d.beginning start) es = some (c, tr))
    (hc : contract.Coherent es c tr) (h : d.system.step c e = some (c', out)) :
    contract.Coherent (es ++ [e]) c' (tr ++ out) := by
  cases e with
  | master e =>
    obtain ⟨hcalled, hmaster⟩ := Option.ite_none_left_eq_some.mp h
    exact contract.coherent_masterStep hexec hc hcalled hmaster
  | work job f data =>
    obtain ⟨-, hwork⟩ := Option.ite_none_right_eq_some.mp h
    exact contract.coherent_workStep hexec hc hwork

/-- **Coherence**: along every run, master and workers run as they do alone, and the master
awaits the jobs that its workers are at. -/
theorem coherent_run (contract : d.Contract start) {es : List d.SystemEvent} {c : d.Snapshot}
    {tr : List d.SystemOutput} (h : d.system.exec (d.beginning start) es = some (c, tr)) :
    contract.Coherent es c tr :=
  Machine.exec_history contract.Coherent contract.coherent_start
    (fun _ _ _ _ _ _ hexec hc hstep => contract.coherent_step hexec hc hstep) h

/-! ## Calls -/

/-- The worker of a job can be destroyed, if there is one. -/
def Destroyable (workers : d.Workers) (job : Nat) : Prop :=
  ∀ order t, workers job = some (order, t) → d.destroyable t = true

/-- Outputs that drop only workers that can be destroyed are served. -/
theorem exists_serveAll (hfresh : d.destroyable d.fresh = true) {workers : d.Workers}
    {out : List d.Output} (hdrops : ∀ o ∈ out, ∀ job, d.assigns o = some (.drop job) →
      Destroyable workers job) :
    ∃ workers', workers.serveAll out = some workers' := by
  induction out generalizing workers with
  | nil => exact ⟨workers, rfl⟩
  | cons o out ih =>
    have hserve : ∃ between, workers.serve o = some between ∧
        ∀ job, Destroyable workers job → Destroyable between job := by
      unfold Workers.serve
      cases hassigns : d.assigns o with
      | none => exact ⟨workers, rfl, fun _ hjob => hjob⟩
      | some assignment =>
        cases assignment with
        | start j order =>
          refine ⟨_, rfl, fun job hjob order' t hworker => ?_⟩
          by_cases hsame : job = j
          · subst hsame
            rw [Function.update_self, Option.some.injEq, Prod.mk.injEq] at hworker
            rw [← hworker.2, hfresh]
          · rw [Function.update_of_ne hsame] at hworker
            exact hjob order' t hworker
        | drop j =>
          cases hworker : workers j with
          | none => exact ⟨workers, by simp only [hworker], fun _ hjob => hjob⟩
          | some worker =>
            obtain ⟨order, t⟩ := worker
            have ht := hdrops o List.mem_cons_self j hassigns order t hworker
            refine ⟨Function.update workers j none, by simp only [hworker, ht, if_true],
              fun job hjob order' t' hother => ?_⟩
            by_cases hsame : job = j
            · subst hsame
              rw [Function.update_self] at hother
              cases hother
            · rw [Function.update_of_ne hsame] at hother
              exact hjob order' t' hother
    obtain ⟨between, hserve, hkept⟩ := hserve
    obtain ⟨workers', hrest⟩ := @ih between fun o' ho' job hassigns =>
      hkept job (hdrops o' (List.mem_cons_of_mem _ ho') job hassigns)
    exact ⟨workers', Option.bind_eq_some_iff.mpr ⟨between, hserve, hrest⟩⟩

/-- **Calls**: a worker that can take a step takes it in the system too, where the master can
take the call that this makes of a job that it awaits, and then drops only workers that can be
destroyed. -/
theorem exists_work_step (contract : d.Contract start)
    (hfresh : d.destroyable d.fresh = true) {es : List d.SystemEvent} {c : d.Snapshot}
    {tr : List d.SystemOutput} (hc : contract.Coherent es c tr)
    (hready : d.ready c.master = true) {job : Nat} {order : d.Order} {t t' : d.WorkerState}
    {f : d.WorkerEvent} {p : List d.WorkerOutput} (hhappens : d.happens f = true)
    (hworker : c.workers job = some (order, t))
    (hstep : (d.worker order).step t f = some (t', p)) {data : d.Data}
    (htakes : ∀ e, contract.awaits c.master job = some order →
      d.calls order job data p = some e → ∃ s os, d.master.step c.master e = some (s, os) ∧
        ∀ o ∈ os, ∀ j, d.assigns o = some (.drop j) →
          Destroyable (c.worked job order t').workers j) :
    ∃ c' out, d.system.step c (.work job f data) = some (c', out) := by
  have hwork : ∃ c' out, d.workStep c job f data = some (c', out) := by
    cases hcalls : d.calls order job data p with
    | none =>
      exact ⟨_, _, workStep_iff.mpr ⟨order, t, t', p, hworker, hstep, .inl ⟨hcalls, rfl, rfl⟩⟩⟩
    | some e =>
      have hawaits := hc.awaits_of_calls hworker hstep hcalls
      obtain ⟨s, os, hmaster, hdrops⟩ := htakes e hawaits hcalls
      obtain ⟨workers, hserved⟩ := exists_serveAll hfresh hdrops
      exact ⟨_, _, workStep_iff.mpr ⟨order, t, t', p, hworker, hstep, .inr ⟨e, _, hcalls,
        masterStep_iff.mpr ⟨s, os, workers, hmaster, hserved, rfl, rfl⟩, rfl⟩⟩⟩
  obtain ⟨c', out, hwork⟩ := hwork
  exact ⟨c', out, by simp only [system, hready, hhappens, and_self, if_true, hwork]⟩

end Contract

end Delegation

end Machines
