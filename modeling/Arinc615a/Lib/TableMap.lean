import Arinc615a.Lib.Table
import Mathlib.Data.List.Induction
import Mathlib.Data.List.Nodup
import Mathlib.Logic.Function.Basic

/-!
# Tables as maps

A table that is written to by operations: entries are added at the end, set by
their key, or changed all at once. As long as an entry is added only under a new
key, the table represents the map that the operations write, and has one entry
for each key that was mentioned, in the order in which that was done first.
-/

namespace Tables

/-- What is done to a table. -/
inductive Operation (κ α : Type) where
  /-- A new entry at the end. -/
  | add (a : α)
  /-- Set the first entry with the key, or a new one. -/
  | set (k : κ) (f : α → α)
  /-- Change all entries. -/
  | all (f : α → α)

variable {α κ : Type} {key : α → κ} {fresh : κ → α}

namespace Operation

/-- The key that an operation mentions. -/
def mentioned (key : α → κ) : Operation κ α → Option κ
  | add a => some (key a)
  | set k _ => some k
  | all _ => none

/-- An operation changes no key. -/
def KeepsKeys (key : α → κ) : Operation κ α → Prop
  | add _ => True
  | set _ f => ∀ a, key (f a) = key a
  | all f => ∀ a, key (f a) = key a

variable [DecidableEq κ]

/-- The table behind an operation. -/
def apply (key : α → κ) (fresh : κ → α) : Operation κ α → List α → List α
  | add a, l => l ++ [a]
  | set k f, l => upsert key k (fresh k) f l
  | all f, l => l.map f

/-- The map behind an operation. -/
def write (key : α → κ) (fresh : κ → α) : Operation κ α → (κ → Option α) → κ → Option α
  | add a, m => Function.update m (key a) (some a)
  | set k f, m => Function.update m k (some (f ((m k).getD (fresh k))))
  | all f, m => fun k => (m k).map f

end Operation

/-- Entries are added under new keys. -/
def AddsFirst (key : α → κ) (ops : List (Operation κ α)) : Prop :=
  ∀ before a after, ops = before ++ .add a :: after →
    ∀ op ∈ before, op.mentioned key ≠ some (key a)

theorem AddsFirst.init {ops : List (Operation κ α)} {op : Operation κ α}
    (h : AddsFirst key (ops ++ [op])) : AddsFirst key ops := by
  intro before a after hops
  apply h before a (after ++ [op])
  rw [hops, List.append_assoc, List.cons_append]

/-- The key of an entry that is added is not mentioned before. -/
theorem AddsFirst.last {ops : List (Operation κ α)} {a : α}
    (h : AddsFirst key (ops ++ [.add a])) : key a ∉ ops.filterMap (·.mentioned key) := by
  intro hmem
  obtain ⟨op, hop, hmentioned⟩ := List.mem_filterMap.mp hmem
  exact h ops a [] rfl op hop hmentioned

/-- In the order of first mention, a new key comes last. -/
theorem eraseDups_concat [BEq κ] [LawfulBEq κ] (ks : List κ) (k : κ) :
    (ks ++ [k]).eraseDups = if k ∈ ks then ks.eraseDups else ks.eraseDups ++ [k] := by
  rw [List.eraseDups_append]
  by_cases h : k ∈ ks
  · simp [List.removeAll, h]
  · simp [List.removeAll, h, List.eraseDups_cons]

theorem nodup_eraseDups [BEq κ] [LawfulBEq κ] (ks : List κ) : ks.eraseDups.Nodup := by
  -- The induction takes keys off at the end, where a new one comes in.
  induction ks using List.reverseRecOn with
  | nil => simp
  | append_singleton ks k ih =>
    rw [eraseDups_concat]
    by_cases h : k ∈ ks
    · rwa [if_pos h]
    · rw [if_neg h, List.nodup_append]
      refine ⟨ih, List.nodup_singleton k, ?_⟩
      intro a ha b hb heq
      rw [heq, List.mem_singleton.mp hb] at ha
      exact h (List.mem_eraseDups.mp ha)

variable [DecidableEq κ]

/-- The table that operations make. -/
def run (key : α → κ) (fresh : κ → α) (ops : List (Operation κ α)) : List α :=
  ops.foldl (fun l op => op.apply key fresh l) []

/-- The map that operations write. -/
def writes (key : α → κ) (fresh : κ → α) (ops : List (Operation κ α)) : κ → Option α :=
  ops.foldl (fun m op => op.write key fresh m) fun _ => none

/-! ## Keys -/

theorem keys_upsert {set : α → α} (hset : ∀ a, key (set a) = key a) {k : κ} {new : α}
    (hnew : key new = k) (l : List α) :
    (upsert key k new set l).map key =
      if k ∈ l.map key then l.map key else l.map key ++ [k] := by
  induction l with
  | nil => simp [upsert, hset, hnew]
  | cons a l ih =>
    rw [upsert]
    by_cases h : key a = k
    · rw [if_pos h, List.map_cons, hset, List.map_cons, if_pos (by simp [h])]
    · rw [if_neg h, List.map_cons, ih, List.map_cons]
      have hmem : k ∈ key a :: l.map key ↔ k ∈ l.map key := by
        rw [List.mem_cons, or_iff_right fun heq => h heq.symm]
      by_cases hk : k ∈ l.map key
      · rw [if_pos hk, if_pos (hmem.mpr hk)]
      · rw [if_neg hk, if_neg fun hin => hk (hmem.mp hin), List.cons_append]

theorem lookup_eq_none_iff {k : κ} {l : List α} : lookup key k l = none ↔ k ∉ l.map key := by
  rw [lookup, List.find?_eq_none, List.mem_map, not_exists]
  simp only [decide_eq_true_eq, not_and]

/-- In a table of unique keys, an entry is found by its key. -/
theorem lookup_of_mem {a : α} {l : List α} (hnodup : (l.map key).Nodup) (ha : a ∈ l) :
    lookup key (key a) l = some a := by
  cases hlookup : lookup key (key a) l with
  | none => exact absurd (List.mem_map_of_mem ha) (lookup_eq_none_iff.mp hlookup)
  | some b =>
    have hb : b ∈ l := List.mem_of_find?_eq_some hlookup
    rw [List.inj_on_of_nodup_map hnodup hb ha (key_of_lookup hlookup)]

/-- A new entry is found behind all others. -/
theorem lookup_concat (k : κ) (l : List α) (a : α) :
    lookup key k (l ++ [a]) = (lookup key k l).or (if key a = k then some a else none) := by
  rw [lookup, List.find?_append, lookup]
  by_cases h : key a = k
  · simp [h]
  · simp [h]

/-! ## Runs -/

theorem run_append (ops : List (Operation κ α)) (op : Operation κ α) :
    run key fresh (ops ++ [op]) = op.apply key fresh (run key fresh ops) := by
  rw [run, List.foldl_append, List.foldl_cons, List.foldl_nil, run]

theorem writes_append (ops : List (Operation κ α)) (op : Operation κ α) :
    writes key fresh (ops ++ [op]) = op.write key fresh (writes key fresh ops) := by
  rw [writes, List.foldl_append, List.foldl_cons, List.foldl_nil, writes]

/-- **The order of the table** is that of first mention. -/
theorem keys_run [BEq κ] [LawfulBEq κ] (hfresh : ∀ k, key (fresh k) = k)
    {ops : List (Operation κ α)} (hkeeps : ∀ op ∈ ops, op.KeepsKeys key)
    (hadds : AddsFirst key ops) :
    (run key fresh ops).map key = (ops.filterMap (·.mentioned key)).eraseDups := by
  induction ops using List.reverseRecOn with
  | nil => rfl
  | append_singleton ops op ih =>
    have hinit := ih (fun op hop => hkeeps op (List.mem_append_left _ hop)) hadds.init
    have hop : op.KeepsKeys key := hkeeps op (by simp)
    rw [run_append, List.filterMap_append]
    cases op with
    | add a =>
      have hnew := hadds.last
      show (run key fresh ops ++ [a]).map key = (_ ++ [key a]).eraseDups
      rw [eraseDups_concat, if_neg hnew, List.map_append, hinit]
      rfl
    | set k f =>
      show (upsert key k (fresh k) f (run key fresh ops)).map key = (_ ++ [k]).eraseDups
      rw [keys_upsert hop (hfresh k), hinit, eraseDups_concat]
      simp only [List.mem_eraseDups]
    | all f =>
      show ((run key fresh ops).map f).map key = (_ ++ []).eraseDups
      have hkey : key ∘ f = key := funext hop
      rw [List.map_map, hkey, hinit, List.append_nil]

theorem nodup_run (hfresh : ∀ k, key (fresh k) = k) {ops : List (Operation κ α)}
    (hkeeps : ∀ op ∈ ops, op.KeepsKeys key) (hadds : AddsFirst key ops) :
    ((run key fresh ops).map key).Nodup := by
  rw [keys_run hfresh hkeeps hadds]
  exact nodup_eraseDups _

/-- **The table is the map** that the operations write. -/
theorem lookup_run (hfresh : ∀ k, key (fresh k) = k) {ops : List (Operation κ α)}
    (hkeeps : ∀ op ∈ ops, op.KeepsKeys key) (hadds : AddsFirst key ops) (k : κ) :
    lookup key k (run key fresh ops) = writes key fresh ops k := by
  induction ops using List.reverseRecOn generalizing k with
  | nil => rfl
  | append_singleton ops op ih =>
    have hinit := ih (fun op hop => hkeeps op (List.mem_append_left _ hop)) hadds.init
    have hop : op.KeepsKeys key := hkeeps op (by simp)
    rw [run_append, writes_append]
    cases op with
    | add a =>
      show lookup key k (run key fresh ops ++ [a]) =
        Function.update (writes key fresh ops) (key a) (some a) k
      rw [lookup_concat]
      by_cases hk : k = key a
      · subst hk
        have hkeys := keys_run hfresh (fun op hop => hkeeps op (List.mem_append_left _ hop))
          hadds.init
        have hnone : lookup key (key a) (run key fresh ops) = none := by
          rw [lookup_eq_none_iff, hkeys, List.mem_eraseDups]
          exact hadds.last
        rw [hnone, Function.update_self, if_pos rfl]
        rfl
      · rw [Function.update_of_ne hk, if_neg fun heq => hk heq.symm, Option.or_none, hinit]
    | set k' f =>
      show lookup key k (upsert key k' (fresh k') f (run key fresh ops)) =
        Function.update (writes key fresh ops) k'
          (some (f ((writes key fresh ops k').getD (fresh k')))) k
      by_cases hk : k = k'
      · subst hk
        rw [lookup_upsert_self hop (hfresh k), Function.update_self, hinit]
      · rw [lookup_upsert_ne hop (hfresh k') fun heq => hk heq.symm, Function.update_of_ne hk,
          hinit]
    | all f =>
      show lookup key k ((run key fresh ops).map f) = Option.map f _
      rw [lookup_map hop, hinit]

/-- Each entry is the value of its key. -/
theorem writes_of_mem (hfresh : ∀ k, key (fresh k) = k) {ops : List (Operation κ α)}
    (hkeeps : ∀ op ∈ ops, op.KeepsKeys key) (hadds : AddsFirst key ops) {a : α}
    (ha : a ∈ run key fresh ops) : writes key fresh ops (key a) = some a := by
  rw [← lookup_run hfresh hkeeps hadds]
  exact lookup_of_mem (nodup_run hfresh hkeeps hadds) ha

end Tables
