import Mathlib.Data.List.Nodup
import Mathlib.Data.List.Pairwise

/-!
# Maps over an order

Entries in ascending order of their keys. Two keys that the order does not tell
apart are one key of the map; emplacing keeps the entry that is there, updating
changes its value.
-/

namespace OrderedMaps

open Std

variable {α β : Type}

/-- The entries of an ordered map. -/
structure OrderedMap (cmp : α → α → Ordering) (β : Type) where
  entries : List (α × β)
  sorted : entries.Pairwise fun a b => cmp a.1 b.1 = .lt

/-- Insert an entry at its place, unless there is one for its key. -/
def emplaceEntry (cmp : α → α → Ordering) (key : α) (value : β) :
    List (α × β) → List (α × β)
  | [] => [(key, value)]
  | entry :: rest =>
    match cmp key entry.1 with
    | .lt => (key, value) :: entry :: rest
    | .eq => entry :: rest
    | .gt => entry :: emplaceEntry cmp key value rest

/-- Change the value of a key, or insert an entry at its place. -/
def updateEntry (cmp : α → α → Ordering) (key : α) (f : Option β → β) :
    List (α × β) → List (α × β)
  | [] => [(key, f none)]
  | entry :: rest =>
    match cmp key entry.1 with
    | .lt => (key, f none) :: entry :: rest
    | .eq => (entry.1, f (some entry.2)) :: rest
    | .gt => entry :: updateEntry cmp key f rest

/-- The value of a key. -/
def lookupEntry (cmp : α → α → Ordering) (key : α) (entries : List (α × β)) : Option β :=
  (entries.find? fun entry => cmp key entry.1 = .eq).map Prod.snd

variable {cmp : α → α → Ordering} {key : α} {value : β}

theorem lookupEntry_cons (entry : α × β) (rest : List (α × β)) :
    lookupEntry cmp key (entry :: rest) =
      if cmp key entry.1 = .eq then some entry.2 else lookupEntry cmp key rest := by
  by_cases h : cmp key entry.1 = .eq
  · simp [lookupEntry, h]
  · simp [lookupEntry, h]

/-- A key in front of all entries is none of theirs. -/
theorem lookupEntry_eq_none_of_lt {entries : List (α × β)}
    (h : ∀ entry ∈ entries, cmp key entry.1 = .lt) : lookupEntry cmp key entries = none := by
  rw [lookupEntry, Option.map_eq_none_iff, List.find?_eq_none]
  intro entry hmem
  rw [h entry hmem]
  decide

/-- The keys behind an update. -/
theorem keys_updateEntry {f : Option β → β} {entries : List (α × β)} {k : α}
    (h : k ∈ (updateEntry cmp key f entries).map Prod.fst) :
    k = key ∨ k ∈ entries.map Prod.fst := by
  induction entries with
  | nil => exact .inl (List.mem_singleton.mp h)
  | cons entry rest ih =>
    rw [updateEntry] at h
    cases hcmp : cmp key entry.1 with
    | lt =>
      rw [hcmp] at h
      exact List.mem_cons.mp h
    | eq =>
      rw [hcmp] at h
      exact .inr h
    | gt =>
      rw [hcmp] at h
      rcases List.mem_cons.mp h with rfl | hmem
      · exact .inr List.mem_cons_self
      · exact (ih hmem).imp_right (List.mem_cons_of_mem _)

/-- To emplace is to update with the value that is there. -/
theorem emplaceEntry_eq (entries : List (α × β)) :
    emplaceEntry cmp key value entries = updateEntry cmp key (·.getD value) entries := by
  induction entries with
  | nil => rfl
  | cons entry rest ih =>
    rw [emplaceEntry, updateEntry]
    cases cmp key entry.1 with
    | lt => rfl
    | eq => rfl
    | gt =>
      rw [ih]

variable [TransCmp cmp]

theorem sorted_updateEntry {f : Option β → β} {entries : List (α × β)}
    (h : entries.Pairwise fun a b => cmp a.1 b.1 = .lt) :
    (updateEntry cmp key f entries).Pairwise fun a b => cmp a.1 b.1 = .lt := by
  induction entries with
  | nil => simp [updateEntry]
  | cons entry rest ih =>
    obtain ⟨hfront, hrest⟩ := List.pairwise_cons.mp h
    rw [updateEntry]
    cases hcmp : cmp key entry.1 with
    | lt =>
      refine List.pairwise_cons.mpr ⟨?_, h⟩
      intro other hother
      rcases List.mem_cons.mp hother with rfl | hother
      · exact hcmp
      · exact TransCmp.lt_trans hcmp (hfront other hother)
    | eq => exact List.pairwise_cons.mpr ⟨hfront, hrest⟩
    | gt =>
      refine List.pairwise_cons.mpr ⟨?_, ih hrest⟩
      intro other hother
      rcases keys_updateEntry (List.mem_map_of_mem hother) with hkey | hmem
      · rw [hkey]
        exact OrientedCmp.gt_iff_lt.mp hcmp
      · obtain ⟨old, hold, heq⟩ := List.mem_map.mp hmem
        rw [← heq]
        exact hfront old hold

/-- The value that is updated. -/
theorem lookupEntry_update_self {f : Option β → β} {entries : List (α × β)}
    (h : entries.Pairwise fun a b => cmp a.1 b.1 = .lt) :
    lookupEntry cmp key (updateEntry cmp key f entries) =
      some (f (lookupEntry cmp key entries)) := by
  have hself : cmp key key = .eq := ReflCmp.compare_self
  induction entries with
  | nil =>
    rw [updateEntry, lookupEntry_cons, if_pos hself]
    rfl
  | cons entry rest ih =>
    obtain ⟨hfront, hrest⟩ := List.pairwise_cons.mp h
    rw [updateEntry]
    cases hcmp : cmp key entry.1 with
    | lt =>
      have hnone : lookupEntry cmp key (entry :: rest) = none := by
        apply lookupEntry_eq_none_of_lt
        intro other hother
        rcases List.mem_cons.mp hother with rfl | hother
        · exact hcmp
        · exact TransCmp.lt_trans hcmp (hfront other hother)
      rw [hnone, lookupEntry_cons, if_pos hself]
    | eq => rw [lookupEntry_cons, if_pos hcmp, lookupEntry_cons, if_pos hcmp]
    | gt =>
      have hne : ¬ cmp key entry.1 = .eq := by
        rw [hcmp]
        decide
      rw [lookupEntry_cons, if_neg hne, ih hrest, lookupEntry_cons, if_neg hne]

/-- The values of the other keys. -/
theorem lookupEntry_update_ne {f : Option β → β} {k : α} (hne : cmp k key ≠ .eq)
    (entries : List (α × β)) :
    lookupEntry cmp k (updateEntry cmp key f entries) = lookupEntry cmp k entries := by
  induction entries with
  | nil => rw [updateEntry, lookupEntry_cons, if_neg hne]
  | cons entry rest ih =>
    rw [updateEntry]
    cases hcmp : cmp key entry.1 with
    | lt => rw [lookupEntry_cons, if_neg hne]
    | eq =>
      have hother : ¬ cmp k entry.1 = .eq := fun heq =>
        hne (TransCmp.eq_trans heq (OrientedCmp.eq_symm hcmp))
      rw [lookupEntry_cons, if_neg hother, lookupEntry_cons, if_neg hother]
    | gt => rw [lookupEntry_cons, ih, lookupEntry_cons]

theorem mem_emplaceEntry {entries : List (α × β)}
    (h : entries.Pairwise fun a b => cmp a.1 b.1 = .lt) {e : α × β} :
    e ∈ emplaceEntry cmp key value entries ↔
      e ∈ entries ∨ (e = (key, value) ∧ ∀ entry ∈ entries, cmp key entry.1 ≠ .eq) := by
  induction entries with
  | nil => simp [emplaceEntry]
  | cons entry rest ih =>
    obtain ⟨hfront, hrest⟩ := List.pairwise_cons.mp h
    rw [emplaceEntry]
    cases hcmp : cmp key entry.1 with
    | lt =>
      -- The key is in front of all entries.
      have hnew : ∀ other ∈ entry :: rest, cmp key other.1 ≠ .eq := by
        intro other hother
        rcases List.mem_cons.mp hother with rfl | hother
        · rw [hcmp]
          decide
        · rw [TransCmp.lt_trans hcmp (hfront other hother)]
          decide
      simp only [List.mem_cons (a := e) (b := (key, value))]
      constructor
      · rintro (heq | hmem)
        · exact .inr ⟨heq, hnew⟩
        · exact .inl hmem
      · rintro (hmem | ⟨heq, -⟩)
        · exact .inr hmem
        · exact .inl heq
    | eq =>
      constructor
      · exact .inl
      · rintro (hmem | ⟨-, hnew⟩)
        · exact hmem
        · exact absurd hcmp (hnew entry List.mem_cons_self)
    | gt =>
      rw [List.mem_cons, ih hrest, List.mem_cons, or_assoc]
      simp only [List.forall_mem_cons, hcmp, ne_eq, reduceCtorEq, not_false_eq_true, true_and]

theorem sorted_emplaceEntry {entries : List (α × β)}
    (h : entries.Pairwise fun a b => cmp a.1 b.1 = .lt) :
    (emplaceEntry cmp key value entries).Pairwise fun a b => cmp a.1 b.1 = .lt := by
  rw [emplaceEntry_eq]
  exact sorted_updateEntry h

namespace OrderedMap

/-- The empty map. -/
def empty (cmp : α → α → Ordering) (β : Type) : OrderedMap cmp β := ⟨[], .nil⟩

/-- `std::map::emplace`. -/
def emplace (m : OrderedMap cmp β) (key : α) (value : β) : OrderedMap cmp β :=
  ⟨emplaceEntry cmp key value m.entries, sorted_emplaceEntry m.sorted⟩

/-- The value of a key of the map, or of a new one, is set: `insert_or_assign`,
and assignments to `operator[]`. -/
def update (m : OrderedMap cmp β) (key : α) (f : Option β → β) : OrderedMap cmp β :=
  ⟨updateEntry cmp key f m.entries, sorted_updateEntry m.sorted⟩

/-- `std::map::find`. -/
def lookup (m : OrderedMap cmp β) (key : α) : Option β := lookupEntry cmp key m.entries

/-- One entry after the other. -/
def ofEntries (cmp : α → α → Ordering) [TransCmp cmp] (entries : List (α × β)) :
    OrderedMap cmp β :=
  entries.foldl (fun m entry => m.emplace entry.1 entry.2) (empty cmp β)

theorem mem_emplace {m : OrderedMap cmp β} {e : α × β} :
    e ∈ (m.emplace key value).entries ↔
      e ∈ m.entries ∨ (e = (key, value) ∧ ∀ entry ∈ m.entries, cmp key entry.1 ≠ .eq) :=
  mem_emplaceEntry m.sorted

theorem lookup_update_self (m : OrderedMap cmp β) (f : Option β → β) :
    (m.update key f).lookup key = some (f (m.lookup key)) := lookupEntry_update_self m.sorted

theorem lookup_update_ne {m : OrderedMap cmp β} {f : Option β → β} {k : α}
    (h : cmp k key ≠ .eq) : (m.update key f).lookup k = m.lookup k :=
  lookupEntry_update_ne h m.entries

omit [TransCmp cmp] in
@[simp] theorem lookup_empty (k : α) : (empty cmp β).lookup k = none := rfl

/-- There is one entry for a key. -/
theorem eq_of_mem {m : OrderedMap cmp β} {e e' : α × β} (he : e ∈ m.entries)
    (he' : e' ∈ m.entries) (h : cmp e.1 e'.1 = .eq) : e = e' := by
  have hsymm : Std.Symm fun a b : α × β => cmp a.1 b.1 ≠ .eq :=
    ⟨fun _ _ hne heq => hne (OrientedCmp.eq_symm heq)⟩
  have hdiffer : m.entries.Pairwise fun a b => cmp a.1 b.1 ≠ .eq := m.sorted.imp fun hlt heq => by
    rw [hlt] at heq
    cases heq
  by_contra hne
  exact hdiffer.forall he he' hne h

theorem nodup_keys (m : OrderedMap cmp β) : (m.entries.map Prod.fst).Nodup := by
  rw [List.Nodup, List.pairwise_map]
  refine m.sorted.imp fun {a b} hlt heq => ?_
  have hself : cmp b.1 b.1 = .eq := ReflCmp.compare_self
  rw [heq, hself] at hlt
  cases hlt

/-- The entries are the keys with their values. -/
theorem mem_entries_iff [LawfulEqCmp cmp] {m : OrderedMap cmp β} :
    (key, value) ∈ m.entries ↔ m.lookup key = some value := by
  have hself : cmp key key = .eq := ReflCmp.compare_self
  constructor
  · intro hmem
    have hfound : (m.entries.find? fun entry => cmp key entry.1 = .eq).isSome := by
      rw [List.find?_isSome]
      exact ⟨_, hmem, by simp [hself]⟩
    obtain ⟨entry, hentry⟩ := Option.isSome_iff_exists.mp hfound
    have heq : cmp key entry.1 = .eq := by simpa using List.find?_some hentry
    have hsame : (key, value) = entry := eq_of_mem hmem (List.mem_of_find?_eq_some hentry) heq
    rw [lookup, lookupEntry, hentry, ← hsame]
    rfl
  · intro hlookup
    obtain ⟨entry, hentry, rfl⟩ := Option.map_eq_some_iff.mp hlookup
    have heq : cmp key entry.1 = .eq := by simpa using List.find?_some hentry
    rw [LawfulEqCmp.eq_of_compare heq]
    exact List.mem_of_find?_eq_some hentry

/-- Emplacing a row of entries: what was there stays, and of the row the first
of each new key comes in. -/
private theorem mem_foldl_emplace (entries : List (α × β)) (m : OrderedMap cmp β) {e : α × β} :
    e ∈ (entries.foldl (fun m entry => m.emplace entry.1 entry.2) m).entries ↔
      e ∈ m.entries ∨ ((∀ entry ∈ m.entries, cmp e.1 entry.1 ≠ .eq) ∧
        entries.find? (fun entry => cmp e.1 entry.1 = .eq) = some e) := by
  induction entries generalizing m with
  | nil => simp
  | cons first rest ih =>
    rw [List.foldl_cons, ih, mem_emplace, or_assoc]
    by_cases hsame : cmp e.1 first.1 = .eq
    · rw [List.find?_cons_of_pos (by simpa using hsame)]
      constructor
      · rintro (hmem | ⟨heq, hnew⟩ | ⟨hnew, -⟩)
        · exact .inl hmem
        · exact .inr ⟨heq ▸ hnew, by rw [heq]⟩
        · -- The first entry is in the map, or another one for its key.
          exfalso
          by_cases hin : ∃ entry ∈ m.entries, cmp first.1 entry.1 = .eq
          · obtain ⟨entry, hentry, heq⟩ := hin
            exact hnew entry (mem_emplace.mpr (.inl hentry)) (TransCmp.eq_trans hsame heq)
          · simp only [not_exists, not_and] at hin
            exact hnew first (mem_emplace.mpr (.inr ⟨rfl, hin⟩)) hsame
      · rintro (hmem | ⟨hnew, heq⟩)
        · exact .inl hmem
        · cases heq
          exact .inr (.inl ⟨rfl, hnew⟩)
    · have hother : e ≠ (first.1, first.2) := by
        rintro rfl
        exact hsame ReflCmp.compare_self
      rw [List.find?_cons_of_neg (by simpa using hsame)]
      constructor
      · rintro (hmem | ⟨heq, -⟩ | ⟨hnew, hfind⟩)
        · exact .inl hmem
        · exact absurd heq hother
        · exact .inr ⟨fun entry hentry => hnew entry (mem_emplace.mpr (.inl hentry)), hfind⟩
      · rintro (hmem | ⟨hnew, hfind⟩)
        · exact .inl hmem
        · refine .inr (.inr ⟨?_, hfind⟩)
          intro entry hentry
          rcases mem_emplace.mp hentry with hmem | ⟨rfl, -⟩
          · exact hnew entry hmem
          · exact hsame

/-- The map of a row: of the entries whose keys the order does not tell apart,
the first one. -/
theorem mem_ofEntries {entries : List (α × β)} {e : α × β} :
    e ∈ (ofEntries cmp entries).entries ↔
      entries.find? (fun entry => cmp e.1 entry.1 = .eq) = some e := by
  rw [ofEntries, mem_foldl_emplace]
  simp [empty]

/-- A key behind all entries comes last. -/
theorem emplaceEntry_of_lt {entries : List (α × β)}
    (h : ∀ entry ∈ entries, cmp entry.1 key = .lt) :
    emplaceEntry cmp key value entries = entries ++ [(key, value)] := by
  induction entries with
  | nil => rfl
  | cons entry rest ih =>
    have hgt : cmp key entry.1 = .gt := OrientedCmp.gt_iff_lt.mpr (h entry List.mem_cons_self)
    rw [emplaceEntry, hgt]
    exact congrArg (entry :: ·) (ih fun other hother => h other (List.mem_cons_of_mem _ hother))

private theorem entries_foldl_emplace {entries : List (α × β)} {m : OrderedMap cmp β}
    (h : (m.entries ++ entries).Pairwise fun a b => cmp a.1 b.1 = .lt) :
    (entries.foldl (fun m entry => m.emplace entry.1 entry.2) m).entries =
      m.entries ++ entries := by
  induction entries generalizing m with
  | nil => simp
  | cons entry rest ih =>
    have hlast : (m.emplace entry.1 entry.2).entries = m.entries ++ [entry] :=
      emplaceEntry_of_lt fun other hother =>
        (List.pairwise_append.mp h).2.2 other hother entry List.mem_cons_self
    have hrest : (m.emplace entry.1 entry.2).entries ++ rest = m.entries ++ entry :: rest := by
      rw [hlast, List.append_assoc, List.singleton_append]
    rw [List.foldl_cons, ih (hrest ▸ h), hrest]

/-- The entries of a map make the map. -/
theorem ofEntries_entries (m : OrderedMap cmp β) : ofEntries cmp m.entries = m := by
  obtain ⟨entries, sorted⟩ := m
  have hentries : (ofEntries cmp entries).entries = entries :=
    entries_foldl_emplace (m := empty cmp β) sorted
  cases hmap : ofEntries cmp entries with
  | mk entries' sorted' =>
    rw [hmap] at hentries
    subst hentries
    rfl

end OrderedMap

end OrderedMaps
