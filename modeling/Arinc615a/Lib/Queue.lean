import Arinc615a.Lib.Machine
import Mathlib.Data.List.Infix

/-!
# Machines that serve a queue in order

Some events of a machine take the entry at the head of a queue, the others leave
what waits where it is, and every step may append entries. The entry with `k` others
ahead of it is taken by the event that serves behind `k` others; and the entry that an
event takes was appended by one step of the run, which is found by counting back.
-/

namespace Machines

/-- How many events serve the queue. -/
def served {ε : Type} (serves : ε → Bool) (es : List ε) : Nat := es.countP serves

section Served

variable {ε : Type} {serves : ε → Bool}

@[simp] theorem served_nil : served serves [] = 0 := rfl

@[simp] theorem served_append (es es' : List ε) :
    served serves (es ++ es') = served serves es + served serves es' :=
  List.countP_append

theorem served_cons (e : ε) (es : List ε) :
    served serves (e :: es) = served serves [e] + served serves es :=
  served_append [e] es

theorem served_of_serves {e : ε} (h : serves e = true) : served serves [e] = 1 := by
  simp [served, h]

theorem served_of_not {e : ε} (h : serves e = false) : served serves [e] = 0 := by
  simp [served, h]

/-- Where more than `k` events serve, one serves behind `k` others. -/
theorem exists_serving {k : Nat} {es : List ε} (h : k < served serves es) :
    ∃ before e behind, es = before ++ e :: behind ∧ serves e = true ∧
      served serves before = k := by
  induction es generalizing k with
  | nil => exact absurd h (Nat.not_lt_zero k)
  | cons e es ih =>
    rw [served_cons] at h
    cases hserves : serves e with
    | false =>
      rw [served_of_not hserves, Nat.zero_add] at h
      obtain ⟨before, e', behind, rfl, he', hbefore⟩ := ih h
      refine ⟨e :: before, e', behind, rfl, he', ?_⟩
      rw [served_cons, served_of_not hserves, hbefore, Nat.zero_add]
    | true =>
      rw [served_of_serves hserves] at h
      cases k with
      | zero => exact ⟨[], e, es, rfl, hserves, rfl⟩
      | succ k =>
        obtain ⟨before, e', behind, rfl, he', hbefore⟩ := ih (k := k) (by omega)
        refine ⟨e :: before, e', behind, rfl, he', ?_⟩
        rw [served_cons, served_of_serves hserves, hbefore]
        omega

end Served

variable {σ ε ο α : Type}

/-- In the states with `inv`, the machine serves the queue in order. -/
structure Fifo (m : Machine σ ε ο) (inv : σ → Prop) (queue : σ → List α)
    (serves : ε → Bool) : Prop where
  inv_step : ∀ s e s' o, inv s → m.step s e = some (s', o) → inv s'
  queue_step : ∀ s e s' o, inv s → m.step s e = some (s', o) →
    (queue s).drop (served serves [e]) <+: queue s'

namespace Fifo

variable {m : Machine σ ε ο} {inv : σ → Prop} {queue : σ → List α} {serves : ε → Bool}

/-- What is left of a queue behind a run stands at its head. -/
theorem queue_exec (hfifo : Fifo m inv queue serves) {s s' : σ} {es : List ε} {tr : List ο}
    (hs : inv s) (h : m.exec s es = some (s', tr)) :
    (queue s).drop (served serves es) <+: queue s' := by
  induction es generalizing s tr with
  | nil =>
    simp only [Machine.exec_nil, Option.some.injEq, Prod.mk.injEq] at h
    rw [h.1]
    exact List.prefix_rfl
  | cons e es ih =>
    obtain ⟨s₁, o, os, hstep, hrest, -⟩ := Machine.exec_cons.mp h
    have hhead := (hfifo.queue_step s e s₁ o hs hstep).drop (served serves es)
    rw [List.drop_drop, ← served_cons] at hhead
    exact hhead.trans (ih (hfifo.inv_step s e s₁ o hs hstep) hrest)

/-- An entry moves up by one with each event that serves. -/
theorem getElem?_exec (hfifo : Fifo m inv queue serves) {s s' : σ} {es : List ε}
    {tr : List ο} {k : Nat} {a : α} (hs : inv s) (h : m.exec s es = some (s', tr))
    (hk : (queue s)[served serves es + k]? = some a) : (queue s')[k]? = some a := by
  have hprefix := List.prefix_iff_getElem?.mp (hfifo.queue_exec hs h)
  rw [← List.getElem?_drop, List.getElem?_eq_some_iff] at hk
  obtain ⟨hlt, rfl⟩ := hk
  exact hprefix k hlt

/-- **Causes**: an entry that was not in the queue at the start was appended by a
step of the run, and has moved up since with each event that serves. -/
theorem exists_cause (hfifo : Fifo m inv queue serves) {s₀ s : σ} {es : List ε}
    {tr : List ο} {k : Nat} {a : α} (hs₀ : inv s₀) (h : m.exec s₀ es = some (s, tr))
    (hk : (queue s)[k]? = some a) (hnew : (queue s₀).length ≤ served serves es + k) :
    ∃ before e between tr₁ s₁ s₂ o, es = before ++ e :: between ∧
      m.exec s₀ before = some (s₁, tr₁) ∧ m.step s₁ e = some (s₂, o) ∧
      (queue s₁).length ≤ served serves [e] + (served serves between + k) ∧
      (queue s₂)[served serves between + k]? = some a := by
  -- The last step has appended it, or it stood further back before that step.
  induction es using List.reverseRecOn generalizing s tr k with
  | nil =>
    simp only [Machine.exec_nil, Option.some.injEq, Prod.mk.injEq] at h
    obtain ⟨hlt, -⟩ := List.getElem?_eq_some_iff.mp hk
    rw [← h.1] at hlt
    rw [served_nil] at hnew
    omega
  | append_singleton es e ih =>
    obtain ⟨s₁, tr₁, o, hbefore, hstep, -⟩ := Machine.exec_append_singleton.mp h
    by_cases hthere : (queue s₁).length ≤ served serves [e] + k
    · exact ⟨es, e, [], tr₁, s₁, s, o, rfl, hbefore, hstep, by simpa using hthere,
        by simpa using hk⟩
    · have hs₁ : inv s₁ := Machine.exec_invariant hfifo.inv_step hs₀ hbefore
      obtain ⟨b, hb⟩ : ∃ b, (queue s₁)[served serves [e] + k]? = some b :=
        ⟨_, List.getElem?_eq_getElem (by omega)⟩
      have hsame : some b = some a := by
        rw [← hk]
        exact (hfifo.getElem?_exec hs₁ (Machine.exec_singleton.mpr hstep) hb).symm
      rw [served_append, Nat.add_assoc] at hnew
      obtain ⟨before, e', between, tr₂, s₃, s₄, o', rfl, hexec, hcause, hlength, hplace⟩ :=
        ih hbefore (hb.trans hsame) hnew
      refine ⟨before, e', between ++ [e], tr₂, s₃, s₄, o', by simp, hexec, hcause, ?_, ?_⟩
      · rw [served_append, Nat.add_assoc]
        exact hlength
      · rw [served_append, Nat.add_assoc]
        exact hplace

end Fifo

end Machines
