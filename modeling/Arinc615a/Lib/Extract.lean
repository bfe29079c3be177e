import Mathlib.Data.Finmap

/-!
# Extracting from a finite map

A reader that takes the keys it knows out of a map and leaves the others: the
map it leaves is the map it got, less some of its keys.
-/

namespace FiniteMaps

variable {α : Type} {β : α → Type} [DecidableEq α]

theorem lookup_erase_eq (a b : α) (m : Finmap β) :
    (m.erase b).lookup a = if a = b then none else m.lookup a := by
  by_cases h : a = b
  · subst h
    rw [if_pos rfl, Finmap.lookup_erase]
  · rw [if_neg h, Finmap.lookup_erase_ne h]

/-- Erasing a key that is not there changes nothing. -/
theorem erase_eq_self {a : α} {m : Finmap β} (h : a ∉ m) : m.erase a = m := by
  apply Finmap.ext_lookup
  intro b
  rw [lookup_erase_eq]
  by_cases hb : b = a
  · rw [if_pos hb, hb, Finmap.lookup_eq_none.mpr h]
  · rw [if_neg hb]

/-- The second map is the first one, less some of the keys. -/
def Less (keys : List α) (m m' : Finmap β) : Prop :=
  ∀ a, m'.lookup a = m.lookup a ∨ (a ∈ keys ∧ a ∉ m')

variable {keys : List α} {m m' m'' : Finmap β} {a : α}

theorem Less.refl (keys : List α) (m : Finmap β) : Less keys m m := fun _ => .inl rfl

theorem Less.trans (h : Less keys m m') (h' : Less keys m' m'') : Less keys m m'' := by
  intro a
  rcases h' a with heq | hkey
  · rcases h a with heq' | ⟨hmem, hout⟩
    · exact .inl (heq.trans heq')
    · right
      refine ⟨hmem, ?_⟩
      rw [← Finmap.lookup_eq_none, heq]
      exact Finmap.lookup_eq_none.mpr hout
  · exact .inr hkey

theorem Less.erase (h : a ∈ keys) (m : Finmap β) : Less keys m (m.erase a) := by
  intro b
  by_cases hb : b = a
  · subst hb
    exact .inr ⟨h, Finmap.notMem_erase_self⟩
  · exact .inl (Finmap.lookup_erase_ne hb)

theorem Less.mono {keys' : List α} (hkeys : ∀ a ∈ keys, a ∈ keys') (h : Less keys m m') :
    Less keys' m m' :=
  fun a => (h a).imp_right fun ⟨hmem, hout⟩ => ⟨hkeys a hmem, hout⟩

/-- The other keys keep their values. -/
theorem Less.lookup (h : Less keys m m') (ha : a ∉ keys) : m'.lookup a = m.lookup a :=
  (h a).resolve_right fun hkey => ha hkey.1

/-- No key comes in. -/
theorem Less.notMem (h : Less keys m m') (ha : a ∉ m) : a ∉ m' := by
  rcases h a with heq | hkey
  · rw [← Finmap.lookup_eq_none, heq]
    exact Finmap.lookup_eq_none.mpr ha
  · exact hkey.2

/-- A union that was cleared of the keys of its second part, where the first
part has none of them. -/
theorem Less.eq_of_union {m₁ m₂ : Finmap β} (h : Less keys (m₁ ∪ m₂) m')
    (hleft : ∀ a ∈ keys, a ∉ m₁) (hright : ∀ a ∈ m₂, a ∈ keys)
    (hcleared : ∀ a ∈ keys, a ∉ m') : m' = m₁ := by
  apply Finmap.ext_lookup
  intro a
  by_cases ha : a ∈ keys
  · rw [Finmap.lookup_eq_none.mpr (hcleared a ha), Finmap.lookup_eq_none.mpr (hleft a ha)]
  · rw [h.lookup ha, Finmap.lookup_union_left_of_not_in fun hmem => ha (hright a hmem)]

end FiniteMaps
