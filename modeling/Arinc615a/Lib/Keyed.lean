import Mathlib.Data.List.Nodup

/-!
# Lists with keys

A list of records in which each key occurs once, as a table of what is active.
Records are removed by their key, and looked at through a predicate.
-/

namespace Keyed

variable {α κ : Type} {key : α → κ} {p : α → Bool} {l : List α}

/-- Removing records keeps the keys unique. -/
theorem nodup_filter (h : (l.map key).Nodup) (q : α → Bool) :
    ((l.filter q).map key).Nodup :=
  h.sublist (List.filter_sublist.map key)

/-- A new key keeps them unique. -/
theorem nodup_cons {a : α} (h : (l.map key).Nodup) (hnew : ∀ b ∈ l, key b ≠ key a) :
    ((a :: l).map key).Nodup := by
  rw [List.map_cons, List.nodup_cons]
  refine ⟨?_, h⟩
  intro hmem
  obtain ⟨b, hb, heq⟩ := List.mem_map.mp hmem
  exact hnew b hb heq

/-- A record is found by its key. -/
theorem find?_of_mem [DecidableEq κ] {a : α} (h : (l.map key).Nodup) (ha : a ∈ l) :
    l.find? (fun b => key b = key a) = some a := by
  induction l with
  | nil => cases ha
  | cons b l ih =>
    obtain ⟨hnew, hrest⟩ := List.nodup_cons.mp h
    rcases List.mem_cons.mp ha with rfl | ha
    · simp
    · have hne : key b ≠ key a := fun heq => hnew (heq ▸ List.mem_map_of_mem ha)
      rw [List.find?_cons_of_neg (by simpa using hne)]
      exact ih hrest ha

/-- Removing a record that is not looked at makes no difference. -/
theorem filter_remove_of_not [DecidableEq κ] {a : α} (h : (l.map key).Nodup) (ha : a ∈ l)
    (hp : p a = false) :
    (l.filter fun b => key b ≠ key a).filter p = l.filter p := by
  rw [List.filter_filter]
  apply List.filter_congr
  intro b hb
  by_cases hkey : key b = key a
  · -- The keys are unique, so it is the record itself.
    rw [List.inj_on_of_nodup_map h hb ha hkey, hp]
    rfl
  · simp [hkey]

/-- Removing the only record that is looked at leaves none. -/
theorem filter_remove_of_single [DecidableEq κ] {k : κ} (h : (l.filter p).map key = [k]) :
    (l.filter fun b => key b ≠ k).filter p = [] := by
  rw [List.filter_eq_nil_iff]
  intro b hb hpb
  obtain ⟨hmem, hne⟩ := List.mem_filter.mp hb
  have hkey : key b ∈ (l.filter p).map key :=
    List.mem_map_of_mem (List.mem_filter.mpr ⟨hmem, hpb⟩)
  rw [h, List.mem_singleton] at hkey
  exact absurd hkey (of_decide_eq_true hne)

/-- What is found behind the removal of a key: the same, if it is another key. -/
theorem find?_remove [DecidableEq κ] (l : List α) (k j : κ) :
    (l.filter fun b => key b ≠ k).find? (fun b => key b = j) =
      if k = j then none else l.find? fun b => key b = j := by
  induction l with
  | nil => simp
  | cons b l ih =>
    by_cases hremoved : key b = k
    · -- The record is gone, and it is found where its key is looked for.
      rw [List.filter_cons_of_neg (by simpa using hremoved), ih]
      split
      · rfl
      · rename_i hne
        rw [List.find?_cons_of_neg (by simpa [hremoved] using hne)]
    · rw [List.filter_cons_of_pos (by simpa using hremoved), List.find?_cons, List.find?_cons, ih]
      by_cases hfound : key b = j
      · have hne : k ≠ j := fun heq => hremoved (hfound.trans heq.symm)
        simp [hfound, hne]
      · simp [hfound]

end Keyed
