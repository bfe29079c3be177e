import Mathlib.Computability.Language

/-!
# Terminated strings

Strings without a terminator symbol, each followed by it. The terminator found
first cuts off the first of them, so that a row of them is read back from its
concatenation; the rows are the Kleene star of one such string.
-/

namespace Terminated

variable {α : Type} (z : α)

/-- Each string followed by the terminator. -/
def joined (ss : List (List α)) : List α := ss.flatMap (· ++ [z])

/-- None of the strings has the terminator in it. -/
def Free (ss : List (List α)) : Prop := ∀ s ∈ ss, z ∉ s

/-- The strings that end with their only terminator. -/
def string : Language α := {bs | ∃ s, z ∉ s ∧ bs = s ++ [z]}

variable {z}

@[simp] theorem joined_nil : joined z [] = [] := rfl

@[simp] theorem joined_cons (s : List α) (ss : List (List α)) :
    joined z (s :: ss) = s ++ z :: joined z ss := by
  simp [joined]

@[simp] theorem free_nil : Free z [] := by simp [Free]

@[simp] theorem free_cons {s : List α} {ss : List (List α)} :
    Free z (s :: ss) ↔ z ∉ s ∧ Free z ss := by
  simp [Free]

/-! ## The first terminator -/

section Find

variable [DecidableEq α]

/-- The first terminator is behind the first string. -/
theorem idxOf?_append {s bs : List α} (h : z ∉ s) :
    (s ++ z :: bs).idxOf? z = some s.length := by
  induction s with
  | nil => simp [List.idxOf?_cons]
  | cons a s ih =>
    rw [List.mem_cons, not_or] at h
    obtain ⟨hne, hs⟩ := h
    rw [List.cons_append, List.idxOf?_cons, ih hs, if_neg (by simpa using Ne.symm hne)]
    rfl

/-- The first terminator ends a string without one. -/
theorem eq_of_idxOf? {bs : List α} {n : Nat} (h : bs.idxOf? z = some n) :
    bs = bs.take n ++ z :: bs.drop (n + 1) ∧ z ∉ bs.take n := by
  induction bs generalizing n with
  | nil => simp at h
  | cons a bs ih =>
    rw [List.idxOf?_cons] at h
    split at h
    · rename_i heq
      cases h
      simpa using beq_iff_eq.mp heq
    · rename_i hne
      obtain ⟨m, hm, rfl⟩ := Option.map_eq_some_iff.mp h
      obtain ⟨hsplit, hfree⟩ := ih hm
      refine ⟨congrArg (a :: ·) hsplit, ?_⟩
      rw [List.take_succ_cons, List.mem_cons, not_or]
      exact ⟨fun heq => hne (beq_iff_eq.mpr heq.symm), hfree⟩

/-- Rows of as many strings are told apart, whatever stands behind them. -/
theorem joined_append_inj {ss ss' : List (List α)} {bs bs' : List α} (hfree : Free z ss)
    (hfree' : Free z ss') (hlen : ss.length = ss'.length)
    (h : joined z ss ++ bs = joined z ss' ++ bs') : ss = ss' ∧ bs = bs' := by
  induction ss generalizing ss' with
  | nil =>
    obtain rfl := List.length_eq_zero_iff.mp hlen.symm
    exact ⟨rfl, h⟩
  | cons s ss ih =>
    obtain ⟨s', ss', rfl⟩ := List.exists_cons_of_length_eq_add_one hlen.symm
    simp only [joined_cons, List.append_assoc, List.cons_append] at h
    obtain ⟨hs, hss⟩ := free_cons.mp hfree
    obtain ⟨hs', hss'⟩ := free_cons.mp hfree'
    -- The first terminator stands behind the first string of both rows.
    have hfirst := congrArg (List.idxOf? z) h
    rw [idxOf?_append hs, idxOf?_append hs', Option.some.injEq] at hfirst
    obtain ⟨rfl, hrest⟩ := List.append_inj h hfirst
    obtain ⟨rfl, rfl⟩ := ih hss hss' (by simpa using hlen) (List.cons.inj hrest).2
    exact ⟨rfl, rfl⟩

end Find

/-! ## The language of a row -/

/-- A row is any number of terminated strings. -/
theorem mem_kstar_string {bs : List α} :
    bs ∈ KStar.kstar (string z) ↔ ∃ ss, Free z ss ∧ bs = joined z ss := by
  rw [Language.mem_kstar]
  constructor
  · intro h
    rcases h with ⟨parts, rfl, hparts⟩
    induction parts with
    | nil => exact ⟨[], free_nil, rfl⟩
    | cons part parts ih =>
      obtain ⟨s, hs, rfl⟩ := hparts _ List.mem_cons_self
      obtain ⟨ss, hss, heq⟩ := ih fun p hp => hparts p (List.mem_cons_of_mem _ hp)
      exact ⟨s :: ss, free_cons.mpr ⟨hs, hss⟩, by simp [heq]⟩
  · intro h
    rcases h with ⟨ss, hss, rfl⟩
    refine ⟨ss.map (· ++ [z]), List.flatMap_def .., ?_⟩
    intro part hpart
    obtain ⟨s, hs, rfl⟩ := List.mem_map.mp hpart
    exact ⟨s, hss s hs, rfl⟩

/-- A row that is not empty. -/
theorem mem_string_mul_kstar {bs : List α} :
    bs ∈ string z * KStar.kstar (string z) ↔
      ∃ ss, Free z ss ∧ ss ≠ [] ∧ bs = joined z ss := by
  rw [Language.mem_mul]
  constructor
  · intro h
    rcases h with ⟨_, ⟨s, hs, rfl⟩, rest, hrest, rfl⟩
    obtain ⟨ss, hss, rfl⟩ := mem_kstar_string.mp hrest
    exact ⟨s :: ss, free_cons.mpr ⟨hs, hss⟩, List.cons_ne_nil _ _, by simp⟩
  · intro h
    rcases h with ⟨ss, hss, hne, rfl⟩
    cases ss with
    | nil => exact absurd rfl hne
    | cons s ss =>
      rw [free_cons] at hss
      exact ⟨s ++ [z], ⟨s, hss.1, rfl⟩, joined z ss, mem_kstar_string.mpr ⟨ss, hss.2, rfl⟩,
        by simp⟩

end Terminated
