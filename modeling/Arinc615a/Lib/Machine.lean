import Mathlib.Data.List.Basic
import Mathlib.Data.List.Induction

/-!
# Event machines with outputs

A machine takes one event at a time. A step that is not possible in a state
(the event is not pending there, or its outcome is not determined) is `none`;
a possible one gives the next state and the outputs in the order in which
they were made. A run is a list of events, `exec` executes it.

Two kinds of law about runs are packaged here:

- `exec_invariant`: what every step preserves holds after every run.
- `silentFrom_iff_along`: a law of the outputs ("after a `stop` output no
  `loud` one is made") holds of a run exactly when a condition on the steps
  holds along it, once that is known of each single step.
-/

namespace Machines

/-- A deterministic event machine: the event resolves every choice. -/
structure Machine (σ ε ο : Type) where
  step : σ → ε → Option (σ × List ο)

namespace Machine

variable {σ ε ο : Type}

/-- Execute a run, collecting the outputs of its steps. -/
def exec (m : Machine σ ε ο) : σ → List ε → Option (σ × List ο)
  | s, [] => some (s, [])
  | s, e :: es =>
    match m.step s e with
    | none => none
    | some (s₁, o) =>
      match exec m s₁ es with
      | none => none
      | some (s₂, os) => some (s₂, o ++ os)

@[simp] theorem exec_nil (m : Machine σ ε ο) (s : σ) :
    m.exec s [] = some (s, []) := rfl

/-- A run of at least one event is a step and the rest of the run. -/
theorem exec_cons {m : Machine σ ε ο} {s s' : σ} {e : ε} {es : List ε}
    {tr : List ο} :
    m.exec s (e :: es) = some (s', tr) ↔
      ∃ s₁ o os, m.step s e = some (s₁, o) ∧
        m.exec s₁ es = some (s', os) ∧ tr = o ++ os := by
  constructor
  · intro h
    simp only [exec] at h
    cases hs : m.step s e with
    | none => simp [hs] at h
    | some r =>
      obtain ⟨s₁, o⟩ := r
      simp only [hs] at h
      cases hr : m.exec s₁ es with
      | none => simp [hr] at h
      | some r =>
        obtain ⟨s₂, os⟩ := r
        simp only [hr, Option.some.injEq, Prod.mk.injEq] at h
        obtain ⟨rfl, rfl⟩ := h
        exact ⟨s₁, o, os, rfl, hr, rfl⟩
  · intro hrun
    rcases hrun with ⟨s₁, o, os, hs, hr, rfl⟩
    simp [exec, hs, hr]

/-- Two runs, one after the other. -/
theorem exec_append {m : Machine σ ε ο} {s s' : σ} {es es' : List ε}
    {tr : List ο} :
    m.exec s (es ++ es') = some (s', tr) ↔
      ∃ s₁ o os, m.exec s es = some (s₁, o) ∧
        m.exec s₁ es' = some (s', os) ∧ tr = o ++ os := by
  induction es generalizing s tr with
  | nil => simp
  | cons e es ih =>
    simp only [List.cons_append, exec_cons, ih]
    constructor
    · intro h
      rcases h with ⟨s₁, o, _, hs, ⟨s₂, o₂, os, h₂, h₃, rfl⟩, rfl⟩
      exact ⟨s₂, o ++ o₂, os, ⟨s₁, o, o₂, hs, h₂, rfl⟩, h₃,
        (List.append_assoc ..).symm⟩
    · intro h
      rcases h with ⟨s₂, _, os, ⟨s₁, o, o₂, hs, h₂, rfl⟩, h₃, rfl⟩
      exact ⟨s₁, o, o₂ ++ os, hs, ⟨s₂, o₂, os, h₂, h₃, rfl⟩,
        List.append_assoc ..⟩

/-- Behind the beginning of a run, the rest of it goes on. -/
theorem exec_rest {m : Machine σ ε ο} {s s₁ s' : σ} {es es' : List ε} {tr o : List ο}
    (h : m.exec s (es ++ es') = some (s', tr)) (hes : m.exec s es = some (s₁, o)) :
    ∃ os, m.exec s₁ es' = some (s', os) ∧ tr = o ++ os := by
  obtain ⟨s₂, o₂, os, hfirst, hrest, rfl⟩ := exec_append.mp h
  rw [hes, Option.some.injEq, Prod.mk.injEq] at hfirst
  obtain ⟨rfl, rfl⟩ := hfirst
  exact ⟨os, hrest, rfl⟩

/-- A run of one event is a step. -/
theorem exec_singleton {m : Machine σ ε ο} {s s' : σ} {e : ε} {tr : List ο} :
    m.exec s [e] = some (s', tr) ↔ m.step s e = some (s', tr) := by
  rw [exec_cons]
  constructor
  · intro h
    obtain ⟨s₁, o, os, hs, hr, rfl⟩ := h
    simp only [exec_nil, Option.some.injEq, Prod.mk.injEq] at hr
    obtain ⟨rfl, rfl⟩ := hr
    rw [hs, List.append_nil]
  · intro hs
    exact ⟨s', tr, [], hs, exec_nil m s', (List.append_nil tr).symm⟩

/-- A run, and one more step. -/
theorem exec_append_singleton {m : Machine σ ε ο} {s s' : σ} {es : List ε} {e : ε}
    {tr : List ο} :
    m.exec s (es ++ [e]) = some (s', tr) ↔
      ∃ s₁ o os, m.exec s es = some (s₁, o) ∧
        m.step s₁ e = some (s', os) ∧ tr = o ++ os := by
  simp only [exec_append, exec_singleton]

/-- **Invariants**: what every step preserves holds after every run. -/
theorem exec_invariant {m : Machine σ ε ο} {inv : σ → Prop}
    (hstep : ∀ s e s' o, inv s → m.step s e = some (s', o) → inv s')
    {s s' : σ} {es : List ε} {tr : List ο} (hs : inv s)
    (h : m.exec s es = some (s', tr)) : inv s' := by
  induction es generalizing s tr with
  | nil =>
    simp only [exec_nil, Option.some.injEq, Prod.mk.injEq] at h
    exact h.1 ▸ hs
  | cons e es ih =>
    obtain ⟨s₁, o, os, h₁, h₂, rfl⟩ := exec_cons.mp h
    exact ih (hstep s e s₁ o hs h₁) h₂

/-- **Histories**: what holds of the empty run, and is kept when a step is
appended, holds of every run, its last state and its outputs. -/
theorem exec_history {m : Machine σ ε ο} {s₀ : σ} (inv : List ε → σ → List ο → Prop)
    (hstart : inv [] s₀ [])
    (hstep : ∀ es s tr e s' o, m.exec s₀ es = some (s, tr) → inv es s tr →
      m.step s e = some (s', o) → inv (es ++ [e]) s' (tr ++ o))
    {es : List ε} {s : σ} {tr : List ο} (h : m.exec s₀ es = some (s, tr)) :
    inv es s tr := by
  -- The induction takes steps off at the end, where the outputs are appended.
  induction es using List.reverseRecOn generalizing s tr with
  | nil =>
    simp only [exec_nil, Option.some.injEq, Prod.mk.injEq] at h
    obtain ⟨rfl, rfl⟩ := h
    exact hstart
  | append_singleton es e ih =>
    obtain ⟨s₁, o, o', h₁, hs, rfl⟩ := exec_append_singleton.mp h
    exact hstep es s₁ o e s o' h₁ (ih h₁) hs

/-- `m.HasStep s₀ es pre tr s e s' o`: the run `es` from `s₀` takes the step `e`
from `s` to `s'`, with outputs `o`, after the events `pre` with outputs `tr`. -/
def HasStep (m : Machine σ ε ο) (s₀ : σ) (es pre : List ε) (tr : List ο) (s : σ) (e : ε)
    (s' : σ) (o : List ο) : Prop :=
  ∃ post, es = pre ++ e :: post ∧ m.exec s₀ pre = some (s, tr) ∧ m.step s e = some (s', o)

/-- The steps of a run are steps of every longer one. -/
theorem HasStep.append {m : Machine σ ε ο} {s₀ s s' : σ} {es pre : List ε} {e : ε}
    {tr o : List ο} (h : m.HasStep s₀ es pre tr s e s' o) (es' : List ε) :
    m.HasStep s₀ (es ++ es') pre tr s e s' o := by
  obtain ⟨post, rfl, hpre, hs⟩ := h
  exact ⟨post ++ es', by simp, hpre, hs⟩

/-- A step of a run is its last one, or one of the run before. -/
theorem HasStep.of_append {m : Machine σ ε ο} {s₀ s s' : σ} {es pre : List ε} {e f : ε}
    {tr o : List ο} (h : m.HasStep s₀ (es ++ [e]) pre tr s f s' o) :
    m.HasStep s₀ es pre tr s f s' o ∨ (pre = es ∧ f = e) := by
  obtain ⟨post, hes, hpre, hs⟩ := h
  rcases List.eq_nil_or_concat' post with rfl | ⟨post, e', rfl⟩
  · obtain ⟨hpre', he⟩ := List.append_inj' hes rfl
    obtain rfl := List.singleton_inj.mp he
    exact .inr ⟨hpre'.symm, rfl⟩
  · left
    rw [← List.cons_append, ← List.append_assoc] at hes
    exact ⟨post, (List.append_inj' hes rfl).1, hpre, hs⟩

/-- Its state and outputs are those of the run before it. -/
theorem HasStep.exec_eq {m : Machine σ ε ο} {s₀ s s' t : σ} {es pre : List ε} {e : ε}
    {tr o out : List ο} (h : m.HasStep s₀ es pre tr s e s' o)
    (hexec : m.exec s₀ pre = some (t, out)) : s = t ∧ tr = out := by
  obtain ⟨post, -, hpre, -⟩ := h
  rw [hexec, Option.some.injEq, Prod.mk.injEq] at hpre
  exact ⟨hpre.1.symm, hpre.2.symm⟩

/-- Behind as many events, a run takes one step. -/
theorem HasStep.unique {m : Machine σ ε ο} {s₀ s s' t t' : σ} {es pre pre' : List ε}
    {e f : ε} {tr tr' o o' : List ο} (h : m.HasStep s₀ es pre tr s e s' o)
    (h' : m.HasStep s₀ es pre' tr' t f t' o') (hlength : pre.length = pre'.length) :
    s' = t' ∧ o = o' := by
  obtain ⟨post, rfl, hpre, hs⟩ := h
  obtain ⟨post', hes, hpre', hs'⟩ := h'
  obtain ⟨rfl, hrest⟩ := List.append_inj hes hlength
  obtain rfl : e = f := (List.cons.inj hrest).1
  rw [hpre', Option.some.injEq, Prod.mk.injEq] at hpre
  obtain ⟨rfl, -⟩ := hpre
  rw [hs', Option.some.injEq, Prod.mk.injEq] at hs
  exact ⟨hs.1.symm, hs.2.symm⟩

/-- Of two steps of a run, the earlier one leads to the later one. -/
theorem HasStep.exists_between {m : Machine σ ε ο} {s₀ s s' t t' : σ} {es pre pre' : List ε}
    {e f : ε} {tr tr' o o' : List ο} (h : m.HasStep s₀ es pre tr s e s' o)
    (h' : m.HasStep s₀ es pre' tr' t f t' o') (hlt : pre'.length < pre.length) :
    ∃ mid os, pre = pre' ++ f :: mid ∧ m.exec t' mid = some (s, os) := by
  obtain ⟨post, hes, hpre, -⟩ := h
  obtain ⟨post', rfl, hpre', hs'⟩ := h'
  have hlater : pre <+: pre' ++ f :: post' := ⟨e :: post, hes.symm⟩
  have hearlier : pre' ++ [f] <+: pre' ++ f :: post' := ⟨post', by simp⟩
  have hlength : (pre' ++ [f]).length ≤ pre.length := by
    rw [List.length_append, List.length_singleton]
    exact hlt
  obtain ⟨mid, hmid⟩ := List.prefix_of_prefix_length_le hearlier hlater hlength
  rw [List.append_assoc, List.singleton_append] at hmid
  subst hmid
  obtain ⟨os₁, hrest, -⟩ := exec_rest hpre hpre'
  obtain ⟨t₂, o₂, os₂, hstep, hmid, -⟩ := exec_cons.mp hrest
  rw [hs', Option.some.injEq, Prod.mk.injEq] at hstep
  obtain ⟨rfl, rfl⟩ := hstep
  exact ⟨mid, os₂, rfl, hmid⟩

/-- The last step of a run. -/
theorem hasStep_last {m : Machine σ ε ο} {s₀ s s' : σ} {es : List ε} {e : ε} {tr o : List ο}
    (h : m.exec s₀ es = some (s, tr)) (hs : m.step s e = some (s', o)) :
    m.HasStep s₀ (es ++ [e]) es tr s e s' o :=
  ⟨[], rfl, h, hs⟩

/-- Where a run that executes stands behind some of its events, it takes the
next one. -/
theorem exists_hasStep {m : Machine σ ε ο} {s₀ sₑ : σ} {es pre post : List ε} {e : ε}
    {trₑ : List ο} (h : m.exec s₀ es = some (sₑ, trₑ)) (hes : es = pre ++ e :: post) :
    ∃ tr s s' o, m.HasStep s₀ es pre tr s e s' o := by
  subst hes
  obtain ⟨s, tr, os, hpre, hrest, -⟩ := exec_append.mp h
  obtain ⟨s', o, os', hs, -, -⟩ := exec_cons.mp hrest
  exact ⟨tr, s, s', o, post, rfl, hpre, hs⟩

/-- An output of a run was made in one of its steps, behind the outputs of the steps before. -/
theorem exists_step_of_output {m : Machine σ ε ο} {s s' : σ} {es : List ε} {tr pre post : List ο}
    {o : ο} (h : m.exec s es = some (s', tr)) (htr : tr = pre ++ o :: post) :
    ∃ es₁ e es₂ s₁ tr₁ s₂ out, es = es₁ ++ e :: es₂ ∧ m.exec s es₁ = some (s₁, tr₁) ∧
      m.step s₁ e = some (s₂, out) ∧ o ∈ out ∧ tr₁ <+: pre := by
  induction es generalizing s tr pre with
  | nil =>
    simp only [exec_nil, Option.some.injEq, Prod.mk.injEq] at h
    rw [← h.2] at htr
    exact absurd htr.symm (by simp)
  | cons e es ih =>
    obtain ⟨s₁, out, os, hs, hr, rfl⟩ := exec_cons.mp h
    rcases List.append_eq_append_iff.mp htr with ⟨mid, rfl, hrest⟩ | ⟨mid, rfl, hrest⟩
    · -- The output is one of the rest of the run.
      obtain ⟨es₁, e', es₂, s₂, tr₁, s₃, out', rfl, hpre, hstep, ho, hprefix⟩ := ih hr hrest
      exact ⟨e :: es₁, e', es₂, s₂, out ++ tr₁, s₃, out', rfl,
        exec_cons.mpr ⟨s₁, out, tr₁, hs, hpre, rfl⟩, hstep, ho,
        List.prefix_append_right_inj out |>.mpr hprefix⟩
    · cases mid with
      | nil =>
        -- The step makes the outputs in front of it, and the next one makes it.
        obtain ⟨es₁, e', es₂, s₂, tr₁, s₃, out', rfl, hpre, hstep, ho, hprefix⟩ :=
          @ih _ _ [] hr hrest.symm
        obtain rfl := List.prefix_nil.mp hprefix
        exact ⟨e :: es₁, e', es₂, s₂, _, s₃, out', rfl,
          exec_cons.mpr ⟨s₁, _, [], hs, hpre, rfl⟩, hstep, ho, by simp⟩
      | cons o' mid =>
        obtain ⟨rfl, -⟩ := List.cons.inj hrest
        exact ⟨[], e, es, s, [], s₁, _, rfl, rfl, hs, by simp, List.nil_prefix⟩

/-! ## The steps of a run -/

/-- The steps of a run: the states it goes through, each with the event it takes. -/
def steps (m : Machine σ ε ο) : σ → List ε → List (σ × ε)
  | _, [] => []
  | s, e :: es =>
    (s, e) ::
      match m.step s e with
      | none => []
      | some (s₁, _) => steps m s₁ es

/-- Where a run goes on behind another one, so do its steps. -/
theorem steps_append {m : Machine σ ε ο} {s s' : σ} {es : List ε} {tr : List ο}
    (h : m.exec s es = some (s', tr)) (es' : List ε) :
    m.steps s (es ++ es') = m.steps s es ++ m.steps s' es' := by
  induction es generalizing s tr with
  | nil =>
    simp only [exec_nil, Option.some.injEq, Prod.mk.injEq] at h
    rw [h.1]
    rfl
  | cons e es ih =>
    obtain ⟨s₁, o, os, hs, hr, -⟩ := exec_cons.mp h
    simp only [List.cons_append, steps, hs, ih hr]

/-- A last step is the last one. -/
theorem steps_append_singleton {m : Machine σ ε ο} {s s' : σ} {es : List ε} {tr : List ο}
    (h : m.exec s es = some (s', tr)) (e : ε) :
    m.steps s (es ++ [e]) = m.steps s es ++ [(s', e)] := by
  rw [steps_append h]
  simp only [steps]
  cases m.step s' e <;> rfl

/-- The steps that a run takes are among them. -/
theorem HasStep.mem_steps {m : Machine σ ε ο} {s₀ s s' : σ} {es pre : List ε} {e : ε}
    {tr o : List ο} (h : m.HasStep s₀ es pre tr s e s' o) : (s, e) ∈ m.steps s₀ es := by
  obtain ⟨post, rfl, hpre, -⟩ := h
  rw [steps_append hpre]
  exact List.mem_append_right _ List.mem_cons_self

/-- And the steps of a run are those that it stands before. -/
theorem exists_of_mem_steps {m : Machine σ ε ο} {s₀ s : σ} {es : List ε} {e : ε}
    (h : (s, e) ∈ m.steps s₀ es) :
    ∃ pre post tr, es = pre ++ e :: post ∧ m.exec s₀ pre = some (s, tr) := by
  induction es generalizing s₀ with
  | nil => cases h
  | cons e₀ es ih =>
    rcases List.mem_cons.mp h with heq | hmem
    · cases heq
      exact ⟨[], es, [], rfl, rfl⟩
    · cases hs : m.step s₀ e₀ with
      | none => simp [hs] at hmem
      | some r =>
        obtain ⟨s₁, o⟩ := r
        simp only [hs] at hmem
        obtain ⟨pre, post, tr, rfl, hpre⟩ := ih hmem
        exact ⟨e₀ :: pre, post, o ++ tr, rfl, exec_cons.mpr ⟨s₁, o, tr, hs, hpre, rfl⟩⟩

/-! ## Laws along a run -/

/-- `P` holds of every step of the run `es` from `s`; its first argument says
whether a `stop` output was made before the step. -/
def Along (m : Machine σ ε ο) (stop : ο → Bool)
    (P : Bool → σ → ε → Prop) : Bool → σ → List ε → Prop
  | _, _, [] => True
  | b, s, e :: es =>
    P b s e ∧ ∀ s' o, m.step s e = some (s', o) →
      Along m stop P (b || o.any stop) s' es

/-- Along a run that executes, the step is the one it takes. -/
theorem along_cons {m : Machine σ ε ο} {stop : ο → Bool}
    {P : Bool → σ → ε → Prop} {b : Bool} {s s₁ : σ} {e : ε} {es : List ε}
    {o : List ο} (h : m.step s e = some (s₁, o)) :
    Along m stop P b s (e :: es) ↔
      P b s e ∧ Along m stop P (b || o.any stop) s₁ es := by
  constructor
  · intro halong
    rcases halong with ⟨hp, hr⟩
    exact ⟨hp, hr s₁ o h⟩
  · intro halong
    rcases halong with ⟨hp, hr⟩
    refine ⟨hp, fun s' o' h' => ?_⟩
    rw [h, Option.some.injEq, Prod.mk.injEq] at h'
    obtain ⟨rfl, rfl⟩ := h'
    exact hr

/-- What holds of every step holds along every run. -/
theorem along_true {m : Machine σ ε ο} {stop : ο → Bool} (b : Bool) (s : σ) (es : List ε) :
    Along m stop (fun _ _ _ => True) b s es := by
  induction es generalizing b s with
  | nil => trivial
  | cons e es ih => exact ⟨trivial, fun s' o _ => ih _ s'⟩

end Machine

/-! ## Silence after an output -/

section Silence

variable {ο : Type} (stop loud : ο → Bool)

/-- After an output with `stop`, no output with `loud` is made. -/
def SilentAfter (tr : List ο) : Prop :=
  ∀ pre x post, tr = pre ++ x :: post → stop x = true →
    ∀ y ∈ post, loud y = false

/-- The same law read from left to right, with the flag that says whether a
`stop` output was made already. -/
def SilentFrom : Bool → List ο → Prop
  | _, [] => True
  | b, x :: xs => (b = true → loud x = false) ∧ SilentFrom (b || stop x) xs

variable {stop loud}

theorem silentFrom_true {xs : List ο} :
    SilentFrom stop loud true xs ↔ ∀ x ∈ xs, loud x = false := by
  induction xs with
  | nil => simp [SilentFrom]
  | cons x xs ih => simp [SilentFrom, ih]

theorem silentFrom_append {b : Bool} {xs ys : List ο} :
    SilentFrom stop loud b (xs ++ ys) ↔
      SilentFrom stop loud b xs ∧ SilentFrom stop loud (b || xs.any stop) ys := by
  induction xs generalizing b with
  | nil => simp [SilentFrom]
  | cons x xs ih =>
    simp only [List.cons_append, SilentFrom, ih, List.any_cons, and_assoc,
      Bool.or_assoc]

/-- Before the end, what does not stop is silent. -/
theorem silentFrom_false {xs : List ο} (h : ∀ x ∈ xs, stop x = false) :
    SilentFrom stop loud false xs := by
  induction xs with
  | nil => trivial
  | cons x xs ih =>
    refine ⟨by simp, ?_⟩
    rw [h x (by simp), Bool.or_self]
    exact ih fun y hy => h y (by simp [hy])

/-- The left-to-right form is the law itself. -/
theorem silentAfter_iff {tr : List ο} :
    SilentAfter stop loud tr ↔ SilentFrom stop loud false tr := by
  induction tr with
  | nil => simp [SilentAfter, SilentFrom]
  | cons x xs ih =>
    cases hx : stop x with
    | false =>
      -- The output that stops stands in the rest.
      simp only [SilentFrom, hx, Bool.or_false, ← ih]
      constructor
      · intro h
        exact ⟨by simp, fun pre y post hxs =>
          h (x :: pre) y post (by rw [hxs, List.cons_append])⟩
      · intro hsilent pre y post hxs hy
        rcases hsilent with ⟨-, h⟩
        cases pre with
        | nil =>
          rw [List.nil_append, List.cons.injEq] at hxs
          rw [← hxs.1, hx] at hy
          cases hy
        | cons z pre =>
          rw [List.cons_append, List.cons.injEq] at hxs
          exact h pre y post hxs.2 hy
    | true =>
      simp only [SilentFrom, hx, Bool.or_true, silentFrom_true]
      constructor
      · intro h
        exact ⟨by simp, h [] x xs rfl hx⟩
      · intro hsilent pre y post hxs _ z hz
        rcases hsilent with ⟨-, h⟩
        apply h z
        cases pre with
        | nil =>
          rw [List.nil_append, List.cons.injEq] at hxs
          rw [hxs.2]
          exact hz
        | cons w pre =>
          rw [List.cons_append, List.cons.injEq] at hxs
          rw [hxs.2]
          exact List.mem_append_right _ (List.mem_cons_of_mem _ hz)

/-- The left-to-right form is decided output by output. -/
def decidableSilentFrom : (b : Bool) → (xs : List ο) → Decidable (SilentFrom stop loud b xs)
  | _, [] => .isTrue trivial
  | b, x :: xs =>
    have := decidableSilentFrom (b || stop x) xs
    inferInstanceAs (Decidable (_ ∧ _))

instance (b : Bool) (xs : List ο) : Decidable (SilentFrom stop loud b xs) :=
  decidableSilentFrom b xs

instance (tr : List ο) : Decidable (SilentAfter stop loud tr) :=
  decidable_of_iff _ silentAfter_iff.symm

/-- **Silence, step by step**: along a run that keeps to `R`, when each single
step keeps silent exactly if `P` holds of it, the run is silent after `stop`
exactly if `P` holds along it. -/
theorem silentFrom_iff_along_of {σ ε : Type} {m : Machine σ ε ο}
    {R P : Bool → σ → ε → Prop} {inv : Bool → σ → Prop}
    (hinv : ∀ b s e s' o, inv b s → m.step s e = some (s', o) →
      inv (b || o.any stop) s')
    (hstep : ∀ b s e s' o, inv b s → R b s e → m.step s e = some (s', o) →
      (SilentFrom stop loud b o ↔ P b s e))
    {b : Bool} {s s' : σ} {es : List ε} {tr : List ο} (hs : inv b s)
    (hR : m.Along stop R b s es) (h : m.exec s es = some (s', tr)) :
    SilentFrom stop loud b tr ↔ m.Along stop P b s es := by
  induction es generalizing b s tr with
  | nil =>
    simp only [Machine.exec_nil, Option.some.injEq, Prod.mk.injEq] at h
    obtain ⟨-, rfl⟩ := h
    exact Iff.rfl
  | cons e es ih =>
    obtain ⟨s₁, o, os, h₁, h₂, rfl⟩ := Machine.exec_cons.mp h
    obtain ⟨hr, hrest⟩ := (Machine.along_cons h₁).mp hR
    rw [silentFrom_append, Machine.along_cons h₁, hstep b s e s₁ o hs hr h₁,
      ih (hinv b s e s₁ o hs h₁) hrest h₂]

/-- The same, of any run. -/
theorem silentFrom_iff_along {σ ε : Type} {m : Machine σ ε ο}
    {P : Bool → σ → ε → Prop} {inv : Bool → σ → Prop}
    (hinv : ∀ b s e s' o, inv b s → m.step s e = some (s', o) →
      inv (b || o.any stop) s')
    (hstep : ∀ b s e s' o, inv b s → m.step s e = some (s', o) →
      (SilentFrom stop loud b o ↔ P b s e))
    {b : Bool} {s s' : σ} {es : List ε} {tr : List ο} (hs : inv b s)
    (h : m.exec s es = some (s', tr)) :
    SilentFrom stop loud b tr ↔ m.Along stop P b s es :=
  silentFrom_iff_along_of hinv (fun b s e s' o hi _ => hstep b s e s' o hi) hs
    (Machine.along_true b s es) h

end Silence

/-! ## Histories -/

section Histories

variable {α β : Type}

/-- What is read off a row, with one more element behind it. -/
theorem filterMap_concat (f : α → Option β) (l : List α) (a : α) :
    (l ++ [a]).filterMap f = l.filterMap f ++ (f a).toList := by
  rw [List.filterMap_append, List.filterMap_cons]
  cases f a <;> rfl

/-- The last of it. -/
theorem getLast?_filterMap_concat (f : α → Option β) (l : List α) (a : α) :
    ((l ++ [a]).filterMap f).getLast? = (f a).or (l.filterMap f).getLast? := by
  rw [filterMap_concat, List.getLast?_append]
  cases f a <;> rfl

/-- The last element with a property. -/
theorem getLast?_filter_concat (p : α → Bool) (l : List α) (a : α) :
    ((l ++ [a]).filter p).getLast? = if p a then some a else (l.filter p).getLast? := by
  rw [List.filter_append]
  by_cases h : p a = true
  · rw [if_pos h, List.filter_cons_of_pos h, List.filter_nil, List.getLast?_concat]
  · rw [if_neg h, List.filter_cons_of_neg h, List.filter_nil, List.append_nil]

end Histories

end Machines
