import Arinc615a.Lib.Reader

/-!
# Postconditions of readers

`Yields r P` says that what the reader `r` yields has the property `P`, whatever
bytes it was read from. One rule for each way to build a reader: a decoder is
taken apart along its `do` block.
-/

namespace Readers.Reader

variable {ε α β : Type}

/-- Whenever the reader is done, its value has the property. -/
def Yields (r : Reader ε α) (P : α → Prop) : Prop :=
  ∀ bs a rest, r bs = .done (a, rest) → P a

theorem Yields.mono {r : Reader ε α} {P Q : α → Prop} (h : Yields r P)
    (himp : ∀ a, P a → Q a) : Yields r Q :=
  fun bs a rest hdone => himp a (h bs a rest hdone)

theorem Yields.and {r : Reader ε α} {P Q : α → Prop} (h : Yields r P) (h' : Yields r Q) :
    Yields r fun a => P a ∧ Q a :=
  fun bs a rest hdone => ⟨h bs a rest hdone, h' bs a rest hdone⟩

theorem yields_true (r : Reader ε α) : Yields r fun _ => True := fun _ _ _ _ => trivial

theorem yields_pure {P : α → Prop} {a : α} (h : P a) : Yields (pure a : Reader ε α) P := by
  intro bs b rest hdone
  cases hdone
  exact h

theorem yields_throw (e : ε) (P : α → Prop) : Yields (throw e : Reader ε α) P := by
  intro bs b rest hdone
  cases hdone

theorem yields_bind {r : Reader ε α} {f : α → Reader ε β} {P : α → Prop} {Q : β → Prop}
    (hr : Yields r P) (hf : ∀ a, P a → Yields (f a) Q) : Yields (r >>= f) Q := by
  intro bs b rest hdone
  obtain ⟨a, mid, h₁, h₂⟩ := bind_eq_done.mp hdone
  exact hf a (hr bs a mid h₁) mid b rest h₂

/-- The value of the first reader does not matter. -/
theorem yields_seq {r : Reader ε α} {f : α → Reader ε β} {Q : β → Prop}
    (hf : ∀ a, Yields (f a) Q) : Yields (r >>= f) Q :=
  yields_bind (yields_true r) fun a _ => hf a

theorem yields_ite {p : Prop} [Decidable p] {r r' : Reader ε α} {P : α → Prop}
    (h : p → Yields r P) (h' : ¬ p → Yields r' P) : Yields (if p then r else r') P := by
  split
  · exact h ‹_›
  · exact h' ‹_›

theorem yields_ofExcept {x : Except ε α} {P : α → Prop} (h : ∀ a, x = .ok a → P a) :
    Yields (ofExcept x) P := by
  cases x with
  | ok a => exact yields_pure (h a rfl)
  | error e => exact yields_throw e P

/-- A counted loop yields as many values, each with the property. -/
theorem yields_times {r : Reader ε α} {P : α → Prop} (h : Yields r P) (n : Nat) :
    Yields (times n r) fun as => as.length = n ∧ ∀ a ∈ as, P a := by
  induction n with
  | zero => exact yields_pure ⟨rfl, by simp⟩
  | succ n ih =>
    refine yields_bind h fun a ha => ?_
    refine yields_bind ih fun as has => yields_pure ?_
    exact ⟨by simp [has.1], List.forall_mem_cons.mpr ⟨ha, has.2⟩⟩

end Readers.Reader
