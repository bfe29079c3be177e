import Mathlib.Order.Basic

/-!
# Loops with a measure

A loop goes from state to state until a round leaves it with a result. `run`
counts the rounds; a loop whose measure goes down in every round that stays in
it is left after as many rounds as its measure says. `result` is what it is
left with, and `result_induction` the rule for what holds of it.
-/

namespace Loops

/-- What a round of a loop does. -/
inductive Round (σ β : Type) where
  | next (state : σ)
  | leave (result : β)

/-- The rounds of a loop, at most so many of them. -/
def run {σ β : Type} (round : σ → Round σ β) : Nat → σ → Option β
  | 0, _ => none
  | n + 1, s =>
    match round s with
    | .next s' => run round n s'
    | .leave b => some b

/-- A loop with its measure. -/
structure Loop (σ β : Type) where
  round : σ → Round σ β
  measure : σ → Nat
  decreases : ∀ s s', round s = .next s' → measure s' < measure s

namespace Loop

variable {σ β : Type} (loop : Loop σ β)

/-- The loop is left. -/
theorem run_isSome (n : Nat) (s : σ) (h : loop.measure s < n) :
    (run loop.round n s).isSome := by
  induction n generalizing s with
  | zero => omega
  | succ n ih =>
    rw [run]
    cases hround : loop.round s with
    | leave b => rfl
    | next s' =>
      have hlt := loop.decreases s s' hround
      exact ih s' (by omega)

/-- What the loop is left with. -/
def result (s : σ) : β :=
  (run loop.round (loop.measure s + 1) s).get (loop.run_isSome _ s (Nat.lt_succ_self _))

theorem run_eq_result {n : Nat} {s : σ} (h : loop.measure s < n) :
    run loop.round n s = some (loop.result s) := by
  suffices hsame : ∀ m n s, loop.measure s < m → loop.measure s < n →
      run loop.round n s = run loop.round m s by
    rw [hsame (loop.measure s + 1) n s (Nat.lt_succ_self _) h, result, Option.some_get]
  intro m
  induction m with
  | zero =>
    intro n s hm
    omega
  | succ m ih =>
    intro n s hm hn
    cases n with
    | zero => omega
    | succ n =>
      rw [run, run]
      cases hround : loop.round s with
      | leave b => rfl
      | next s' =>
        have hlt := loop.decreases s s' hround
        exact ih n s' (by omega) (by omega)

theorem result_of_leave {s : σ} {b : β} (h : loop.round s = .leave b) :
    loop.result s = b := by
  have hrun := loop.run_eq_result (Nat.lt_succ_self (loop.measure s))
  rw [run, h] at hrun
  exact (Option.some_inj.mp hrun).symm

theorem result_of_next {s s' : σ} (h : loop.round s = .next s') :
    loop.result s = loop.result s' := by
  have hrun := loop.run_eq_result (Nat.lt_succ_self (loop.measure s))
  rw [run, h] at hrun
  have hrun' := loop.run_eq_result (loop.decreases s s' h)
  exact Option.some_inj.mp (hrun.symm.trans hrun')

/-- What holds when the loop is left, and holds before a round if it holds
behind it, holds of every state and its result. -/
theorem result_induction {P : σ → β → Prop}
    (leave : ∀ s b, loop.round s = .leave b → P s b)
    (next : ∀ s s' b, loop.round s = .next s' → P s' b → P s b) (s : σ) :
    P s (loop.result s) := by
  induction hm : loop.measure s using Nat.strongRecOn generalizing s with
  | ind m ih =>
    cases hround : loop.round s with
    | leave b =>
      rw [loop.result_of_leave hround]
      exact leave s b hround
    | next s' =>
      have hlt := loop.decreases s s' hround
      rw [loop.result_of_next hround]
      exact next s s' _ hround (ih _ (by omega) s' rfl)

end Loop

end Loops
