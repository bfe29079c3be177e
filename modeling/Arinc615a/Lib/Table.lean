import Mathlib.Data.List.Basic

/-!
# Tables with a key

Lists of entries that are found by a key, of which the first one counts. An entry
that is set is the first one with its key, or a new one at the end.
-/

namespace Tables

variable {α κ : Type} [DecidableEq κ] {key : α → κ} {set : α → α}

/-- The first entry with the key. -/
def lookup (key : α → κ) (k : κ) (l : List α) : Option α := l.find? fun a => key a = k

/-- Set the first entry with the key, or a new one. -/
def upsert (key : α → κ) (k : κ) (fresh : α) (set : α → α) : List α → List α
  | [] => [set fresh]
  | a :: l => if key a = k then set a :: l else a :: upsert key k fresh set l

/-- The same, by the position of the entry. -/
theorem upsert_eq (key : α → κ) (k : κ) (fresh : α) (set : α → α) (l : List α) :
    upsert key k fresh set l =
      match l.findIdx? fun a => key a = k with
      | none => l ++ [set fresh]
      | some i => l.modify i set := by
  induction l with
  | nil => rfl
  | cons a l ih =>
    by_cases h : key a = k
    · simp [upsert, List.findIdx?_cons, h]
    · simp only [upsert, if_neg h, ih, List.findIdx?_cons, decide_eq_false h, Bool.false_eq_true,
        if_false]
      cases l.findIdx? fun a => key a = k with
      | none => rfl
      | some i => rfl

theorem lookup_cons (k : κ) (a : α) (l : List α) :
    lookup key k (a :: l) = if key a = k then some a else lookup key k l := by
  by_cases h : key a = k <;> simp [lookup, h]

/-- It has the key. -/
theorem key_of_lookup {k : κ} {a : α} {l : List α} (h : lookup key k l = some a) : key a = k := by
  simpa using List.find?_some h

/-- The entry that is set. -/
theorem lookup_upsert_self (hset : ∀ a, key (set a) = key a) {k : κ} {fresh : α}
    (hfresh : key fresh = k) (l : List α) :
    lookup key k (upsert key k fresh set l) = some (set ((lookup key k l).getD fresh)) := by
  induction l with
  | nil =>
    rw [upsert, lookup_cons, hset, if_pos hfresh]
    rfl
  | cons a l ih =>
    by_cases h : key a = k
    · rw [upsert, if_pos h, lookup_cons, hset, if_pos h, lookup_cons, if_pos h]
      rfl
    · rw [upsert, if_neg h, lookup_cons, if_neg h, ih, lookup_cons, if_neg h]

/-- The entries with another key are kept. -/
theorem lookup_upsert_ne (hset : ∀ a, key (set a) = key a) {k k' : κ} {fresh : α}
    (hfresh : key fresh = k') (hne : k' ≠ k) (l : List α) :
    lookup key k (upsert key k' fresh set l) = lookup key k l := by
  induction l with
  | nil =>
    rw [upsert, lookup_cons, hset, hfresh, if_neg hne]
  | cons a l ih =>
    by_cases h : key a = k'
    · rw [upsert, if_pos h, lookup_cons, hset, h, if_neg hne, lookup_cons, h, if_neg hne]
    · rw [upsert, if_neg h, lookup_cons, ih, lookup_cons]

/-- A new entry at the end hides none. -/
theorem lookup_append {k : κ} {a : α} {l : List α} (h : lookup key k l = some a) (l' : List α) :
    lookup key k (l ++ l') = some a := by
  have hfind : l.find? (fun a => key a = k) = some a := h
  rw [lookup, List.find?_append, hfind]
  rfl

/-- A change of all entries that keeps their keys. -/
theorem lookup_map (hset : ∀ a, key (set a) = key a) (k : κ) (l : List α) :
    lookup key k (l.map set) = (lookup key k l).map set := by
  rw [lookup, List.find?_map, Function.comp_def]
  simp only [hset]
  rfl

/-- What holds of all entries, and of the one that is set, holds behind it. -/
theorem forall_upsert {p : α → Prop} {k : κ} {fresh : α} {l : List α} (h : ∀ a ∈ l, p a)
    (hset : ∀ a, p a → p (set a)) (hfresh : p (set fresh)) :
    ∀ a ∈ upsert key k fresh set l, p a := by
  induction l with
  | nil => exact List.forall_mem_singleton.mpr hfresh
  | cons a l ih =>
    obtain ⟨ha, hl⟩ := List.forall_mem_cons.mp h
    rw [upsert]
    split
    · exact List.forall_mem_cons.mpr ⟨hset a ha, hl⟩
    · exact List.forall_mem_cons.mpr ⟨ha, ih hl⟩

/-- Setting entries, seen through a projection that keeps the key. -/
theorem map_upsert {β : Type} {key' : β → κ} {g : α → β} {set' : β → β}
    (hkey : ∀ a, key' (g a) = key a) (hset : ∀ a, g (set a) = set' (g a)) (k : κ) (fresh : α)
    (l : List α) :
    (upsert key k fresh set l).map g = upsert key' k (g fresh) set' (l.map g) := by
  induction l with
  | nil => rw [upsert, List.map_singleton, hset, List.map_nil, upsert]
  | cons a l ih =>
    rw [List.map_cons, upsert, upsert, hkey]
    split
    · rw [List.map_cons, hset]
    · rw [List.map_cons, ih]

/-- The entry with the key stands at its position. -/
theorem exists_position {k : κ} {a : α} {l : List α} (h : lookup key k l = some a) :
    ∃ i, (l.findIdx? fun a => key a = k) = some i ∧ l[i]? = some a := by
  induction l with
  | nil => cases h
  | cons b l ih =>
    rw [lookup_cons] at h
    by_cases hb : key b = k
    · rw [if_pos hb] at h
      exact ⟨0, by rw [List.findIdx?_cons, decide_eq_true hb]; rfl, h⟩
    · rw [if_neg hb] at h
      obtain ⟨i, hi, ha⟩ := ih h
      refine ⟨i + 1, ?_, ha⟩
      rw [List.findIdx?_cons, decide_eq_false hb, hi]
      rfl

/-- There is at most one entry more. -/
theorem length_upsert_le (k : κ) (fresh : α) (l : List α) :
    (upsert key k fresh set l).length ≤ l.length + 1 := by
  induction l with
  | nil => exact Nat.le_refl _
  | cons a l ih =>
    rw [upsert]
    split
    · exact Nat.le_succ _
    · exact Nat.succ_le_succ ih

end Tables
