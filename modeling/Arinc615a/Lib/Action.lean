/-!
# Actions on a state, with outputs

A handler of an event-driven object reads and changes its state and makes
outputs in order. An action is a function of the state and of the outputs made
so far; `none` means that it does not happen, because it is not possible in
the state (`require`) or its effect is not determined.

Each primitive in front of an action is a rewrite rule (`get_bind`, ...), so
that a handler in `do` notation is executed symbolically by `simp`.
-/

namespace Actions

/-- An action on states `σ` with outputs `ο` and a result in `α`. -/
def Action (σ ο α : Type) : Type := σ → List ο → Option (α × σ × List ο)

namespace Action

variable {σ ο α β : Type}

instance : Monad (Action σ ο) where
  pure a := fun s out => some (a, s, out)
  bind m f := fun s out => (m s out).bind fun (a, s', out') => f a s' out'

/-- The state. -/
def get : Action σ ο σ := fun s out => some (s, s, out)

/-- Change the state. -/
def modify (f : σ → σ) : Action σ ο Unit := fun s out => some ((), f s, out)

/-- Make an output. -/
def emit (o : ο) : Action σ ο Unit := fun s out => some ((), s, out ++ [o])

/-- Make several outputs. -/
def emitAll (os : List ο) : Action σ ο Unit := fun s out => some ((), s, out ++ os)

/-- Continue only where the condition holds. -/
def require (p : Prop) [Decidable p] : Action σ ο Unit := fun s out =>
  if p then some ((), s, out) else none

/-- Does not happen. -/
def undefined : Action σ ο α := fun _ _ => none

/-- Run an action from a state: the state and the outputs it leaves. -/
def run (m : Action σ ο Unit) (s : σ) : Option (σ × List ο) := (m s []).map Prod.snd

@[simp] theorem pure_apply (a : α) (s : σ) (out : List ο) :
    (pure a : Action σ ο α) s out = some (a, s, out) := rfl

@[simp] theorem get_bind (f : σ → Action σ ο β) (s : σ) (out : List ο) :
    (get >>= f) s out = f s s out := rfl

@[simp] theorem modify_bind (g : σ → σ) (f : Unit → Action σ ο β) (s : σ)
    (out : List ο) : (modify g >>= f) s out = f () (g s) out := rfl

@[simp] theorem modify_apply (g : σ → σ) (s : σ) (out : List ο) :
    (modify g : Action σ ο Unit) s out = some ((), g s, out) := rfl

@[simp] theorem emit_bind (o : ο) (f : Unit → Action σ ο β) (s : σ) (out : List ο) :
    (emit o >>= f) s out = f () s (out ++ [o]) := rfl

@[simp] theorem emit_apply (o : ο) (s : σ) (out : List ο) :
    (emit o : Action σ ο Unit) s out = some ((), s, out ++ [o]) := rfl

@[simp] theorem undefined_apply (s : σ) (out : List ο) :
    (undefined : Action σ ο α) s out = none := rfl

@[simp] theorem require_bind (p : Prop) [Decidable p] (f : Unit → Action σ ο β) (s : σ)
    (out : List ο) : (require p >>= f) s out = if p then f () s out else none := by
  show (require p s out).bind _ = _
  by_cases h : p <;> simp [require, h]

/-- An action behind a condition happens if the condition holds. -/
theorem require_bind_eq_some {p : Prop} [Decidable p] {f : Unit → Action σ ο β} {s : σ}
    {out : List ο} {r : β × σ × List ο} :
    (require p >>= f) s out = some r ↔ p ∧ f () s out = some r := by
  rw [require_bind]
  by_cases h : p <;> simp [h]

/-- An action behind one whose effect is known. -/
theorem bind_of_eq_some {m : Action σ ο α} {f : α → Action σ ο β} {s s' : σ}
    {out out' : List ο} {a : α} (h : m s out = some (a, s', out')) :
    (m >>= f) s out = f a s' out' := by
  show (m s out).bind _ = _
  rw [h]
  rfl

/-- Two actions happen if the first one does, and then the second. -/
theorem bind_eq_some {m : Action σ ο α} {f : α → Action σ ο β} {s s' : σ}
    {out out' : List ο} {b : β} :
    (m >>= f) s out = some (b, s', out') ↔
      ∃ a s₁ out₁, m s out = some (a, s₁, out₁) ∧ f a s₁ out₁ = some (b, s', out') := by
  show (m s out).bind _ = _ ↔ _
  rw [Option.bind_eq_some_iff]
  constructor
  · intro h
    obtain ⟨⟨a, s₁, out₁⟩, hm, hf⟩ := h
    exact ⟨a, s₁, out₁, hm, hf⟩
  · intro h
    obtain ⟨a, s₁, out₁, hm, hf⟩ := h
    exact ⟨(a, s₁, out₁), hm, hf⟩

@[simp] theorem if_apply (p : Prop) [Decidable p] (m n : Action σ ο α) (s : σ)
    (out : List ο) :
    (if p then m else n) s out = if p then m s out else n s out := by
  by_cases h : p <;> simp [h]

@[simp] theorem pure_bind_apply (a : α) (f : α → Action σ ο β) (s : σ) (out : List ο) :
    ((pure a : Action σ ο α) >>= f) s out = f a s out := rfl

@[simp] theorem if_bind (p : Prop) [Decidable p] (m n : Action σ ο α)
    (f : α → Action σ ο β) (s : σ) (out : List ο) :
    ((if p then m else n) >>= f) s out =
      if p then (m >>= f) s out else (n >>= f) s out := by
  by_cases h : p <;> simp [h]

/-- Two actions in front of a third run one after the other. -/
@[simp] theorem bind_bind {γ : Type} (m : Action σ ο α) (g : α → Action σ ο β)
    (f : β → Action σ ο γ) (s : σ) (out : List ο) :
    ((m >>= g) >>= f) s out = (m >>= fun a => g a >>= f) s out := by
  show Option.bind (Option.bind (m s out) _) _ = Option.bind (m s out) _
  cases m s out <;> rfl

theorem run_eq_some {m : Action σ ο Unit} {s s' : σ} {out : List ο} :
    m.run s = some (s', out) ↔ m s [] = some ((), s', out) := by
  simp only [run, Option.map_eq_some_iff]
  constructor
  · intro hrun
    rcases hrun with ⟨⟨⟨⟩, r⟩, h, rfl⟩
    exact h
  · intro h
    exact ⟨_, h, rfl⟩

end Action

end Actions
