import Arinc615a.Lib.Table

/-!
# Property trees

A tree with data at each node and children by keys, of which several may be equal: a path
leads to the first child with each of its keys, and children are added at the end. Values
are written as data and read by a translator. A value may be left out where it is the
default that the reader falls back on, and a section is the subtree of an object of its own.
-/

namespace PropertyTrees

open Tables

inductive PropertyTree (κ α : Type) where
  | node (data : α) (children : List (κ × PropertyTree κ α))

/-- Between values and the data of a node. -/
structure Translator (α β : Type) where
  put : β → α
  get : α → Option β

/-- What is written is read. -/
def Translator.Inverse {α β : Type} (tr : Translator α β) : Prop :=
  ∀ value, tr.get (tr.put value) = some value

/-- The data itself. -/
def Translator.data {α : Type} : Translator α α := ⟨id, some⟩

theorem Translator.data_inverse {α : Type} : (@data α).Inverse := fun _ => rfl

namespace PropertyTree

variable {κ α β : Type}

def data : PropertyTree κ α → α
  | node data _ => data

def children : PropertyTree κ α → List (κ × PropertyTree κ α)
  | node _ children => children

/-- No children. -/
def isEmpty (t : PropertyTree κ α) : Bool := t.children.isEmpty

def empty [Inhabited α] : PropertyTree κ α := node default []

variable [DecidableEq κ]

/-- The first child with the key. -/
def child? (key : κ) (t : PropertyTree κ α) : Option (PropertyTree κ α) :=
  (lookup Prod.fst key t.children).map Prod.snd

/-- The node that a path leads to. -/
def getChild? : List κ → PropertyTree κ α → Option (PropertyTree κ α)
  | [], t => some t
  | key :: path, t => (t.child? key).bind (getChild? path)

/-- The value at a path, if there is one. -/
def get? (tr : Translator α β) (path : List κ) (t : PropertyTree κ α) : Option β :=
  (t.getChild? path).bind fun child => tr.get child.data

/-- The value at a path, or a default one. -/
def get (tr : Translator α β) (path : List κ) (fallback : β) (t : PropertyTree κ α) : β :=
  (t.get? tr path).getD fallback

/-- The value at a path, or a default one. Data that is no value fails. -/
def getOrFail (tr : Translator α β) (path : List κ) (fallback : β) (t : PropertyTree κ α) :
    Option β :=
  match t.getChild? path with
  | none => some fallback
  | some child => tr.get child.data

section Children

variable {key : κ} {t t' : PropertyTree κ α} {tr : Translator α β}

theorem child?_of_isEmpty (h : t.isEmpty = true) : t.child? key = none := by
  have hnil : t.children = [] := List.isEmpty_iff.mp h
  rw [child?, hnil]
  rfl

theorem get?_single : t.get? tr [key] = (t.child? key).bind fun child => tr.get child.data := by
  rw [get?, getChild?]
  cases t.child? key <;> rfl

theorem get_congr {fallback : β} (h : t.child? key = t'.child? key) :
    t.get tr [key] fallback = t'.get tr [key] fallback := by
  rw [get, get?_single, h, get, get?_single]

theorem getOrFail_congr {fallback : β} (h : t.child? key = t'.child? key) :
    t.getOrFail tr [key] fallback = t'.getOrFail tr [key] fallback := by
  rw [getOrFail, getChild?, h, getOrFail, getChild?]

end Children

/-! ## Writing -/

section Writing

variable [Inhabited α]

/-- The first child with the key, as if there were one. -/
def subtree (key : κ) (t : PropertyTree κ α) : PropertyTree κ α := (t.child? key).getD empty

/-- Add a node at the end of a path. The nodes on the way are those that the path leads
to, or new ones. -/
def addChild : PropertyTree κ α → List κ → PropertyTree κ α → PropertyTree κ α
  | t, [], _ => t
  | t, [key], new => node t.data (t.children ++ [(key, new)])
  | t, key :: path, new =>
    node t.data (upsert Prod.fst key (key, empty)
      (fun child => (child.1, addChild child.2 path new)) t.children)
termination_by structural _ path => path

/-- Add a value. -/
def add (tr : Translator α β) (path : List κ) (value : β) (t : PropertyTree κ α) :
    PropertyTree κ α :=
  t.addChild path (node (tr.put value) [])

/-- Add a value, if it is not the default one or everything is to be written. -/
def addUnless [DecidableEq β] (tr : Translator α β) (path : List κ) (full : Bool)
    (fallback value : β) (t : PropertyTree κ α) : PropertyTree κ α :=
  if full = true ∨ value ≠ fallback then t.add tr path value else t

variable {key key' : κ} {path : List κ} {new t : PropertyTree κ α} {tr : Translator α β}

@[simp] theorem child?_empty : (empty : PropertyTree κ α).child? key = none := rfl

/-- A child at the end is the first one, if there was none. -/
theorem child?_addChild_self (h : t.child? key = none) :
    (t.addChild [key] new).child? key = some new := by
  have hnone : lookup Prod.fst key t.children = none := Option.map_eq_none_iff.mp h
  have hfind : t.children.find? (fun child => child.1 = key) = none := hnone
  have hlookup : lookup Prod.fst key (t.children ++ [(key, new)]) = some (key, new) := by
    rw [lookup, List.find?_append, hfind]
    simp
  exact congrArg (Option.map Prod.snd) hlookup

theorem child?_addChild_ne (h : key' ≠ key) :
    (t.addChild [key'] new).child? key = t.child? key := by
  have hlookup : lookup Prod.fst key (t.children ++ [(key', new)]) =
      lookup Prod.fst key t.children := by
    rw [lookup, List.find?_append]
    simp [h, lookup]
  exact congrArg (Option.map Prod.snd) hlookup

/-- What is added further down changes the subtree. -/
theorem child?_addChild_cons (h : path ≠ []) :
    (t.addChild (key :: path) new).child? key =
      some ((t.subtree key).addChild path new) := by
  obtain ⟨key₁, path, rfl⟩ := List.exists_cons_of_ne_nil h
  have hupsert := @lookup_upsert_self _ _ _ Prod.fst
    (fun child : κ × PropertyTree κ α => (child.1, addChild child.2 (key₁ :: path) new))
    (fun _ => rfl) key (key, empty) rfl t.children
  show (lookup Prod.fst key (upsert _ _ _ _ _)).map Prod.snd = _
  rw [hupsert, subtree, child?]
  cases lookup Prod.fst key t.children <;> rfl

theorem child?_addChild_cons_ne (h : key' ≠ key) :
    (t.addChild (key' :: path) new).child? key = t.child? key := by
  cases path with
  | nil => exact child?_addChild_ne h
  | cons key₁ path =>
    have hupsert := @lookup_upsert_ne _ _ _ Prod.fst
      (fun child : κ × PropertyTree κ α => (child.1, addChild child.2 (key₁ :: path) new))
      (fun _ => rfl) key key' (key', empty) rfl h t.children
    exact congrArg (Option.map Prod.snd) hupsert

/-! ## Subtrees -/

theorem subtree_addChild_cons (h : path ≠ []) :
    (t.addChild (key :: path) new).subtree key = (t.subtree key).addChild path new := by
  rw [subtree, child?_addChild_cons h, Option.getD_some]

/-- A longer path is one into the subtree. -/
theorem getChild?_cons (h : path ≠ []) :
    t.getChild? (key :: path) = (t.subtree key).getChild? path := by
  obtain ⟨key₁, path, rfl⟩ := List.exists_cons_of_ne_nil h
  rw [getChild?, subtree]
  cases t.child? key with
  | none => simp [getChild?]
  | some child => rfl

theorem get?_cons (h : path ≠ []) :
    t.get? tr (key :: path) = (t.subtree key).get? tr path := by
  rw [get?, getChild?_cons h, get?]

theorem get_cons {fallback : β} (h : path ≠ []) :
    t.get tr (key :: path) fallback = (t.subtree key).get tr path fallback := by
  rw [get, get?_cons h, get]

/-! ## Values -/

theorem child?_addUnless_ne [DecidableEq β] {full : Bool} {fallback value : β}
    (h : key' ≠ key) :
    (t.addUnless tr (key' :: path) full fallback value).child? key = t.child? key := by
  unfold addUnless
  split
  · exact child?_addChild_cons_ne h
  · rfl

theorem get_addUnless_ne {γ : Type} [DecidableEq γ] {tr' : Translator α γ} {full : Bool}
    {fallback value : γ} {fallback' : β} (h : key' ≠ key) :
    (t.addUnless tr' (key' :: path) full fallback value).get tr [key] fallback' =
      t.get tr [key] fallback' :=
  get_congr (child?_addUnless_ne h)

theorem getOrFail_addUnless_ne {γ : Type} [DecidableEq γ] {tr' : Translator α γ}
    {full : Bool} {fallback value : γ} {fallback' : β} (h : key' ≠ key) :
    (t.addUnless tr' (key' :: path) full fallback value).getOrFail tr [key] fallback' =
      t.getOrFail tr [key] fallback' :=
  getOrFail_congr (child?_addUnless_ne h)

theorem child?_add_ne {value : β} (h : key' ≠ key) :
    (t.add tr (key' :: path) value).child? key = t.child? key :=
  child?_addChild_cons_ne h

theorem get_addChild_ne {fallback : β} (h : key' ≠ key) :
    (t.addChild (key' :: path) new).get tr [key] fallback = t.get tr [key] fallback :=
  get_congr (child?_addChild_cons_ne h)

/-- A node that is added as a new child is found. -/
theorem getChild?_addChild (h : t.child? key = none) :
    (t.addChild [key] new).getChild? [key] = some new := by
  rw [getChild?, child?_addChild_self h]
  rfl

theorem get_add_ne {γ : Type} {tr' : Translator α γ} {value : γ} {fallback : β}
    (h : key' ≠ key) :
    (t.add tr' (key' :: path) value).get tr [key] fallback = t.get tr [key] fallback :=
  get_congr (child?_add_ne h)

/-- A value that is written to a new child is read. -/
theorem get?_add (htr : tr.Inverse) {value : β} (h : t.child? key = none) :
    (t.add tr [key] value).get? tr [key] = some value := by
  rw [get?_single, add, child?_addChild_self h]
  exact htr value

theorem get_add (htr : tr.Inverse) {value fallback : β} (h : t.child? key = none) :
    (t.add tr [key] value).get tr [key] fallback = value := by
  rw [get, get?_add htr h, Option.getD_some]

/-- Also if it was left out as the default one. -/
theorem get_addUnless [DecidableEq β] (htr : tr.Inverse) {full : Bool} {fallback value : β}
    (h : t.child? key = none) :
    (t.addUnless tr [key] full fallback value).get tr [key] fallback = value := by
  unfold addUnless
  split
  · exact get_add htr h
  · rename_i hsame
    rw [get, get?_single, h]
    simp only [not_or, ne_eq, not_not] at hsame
    exact hsame.2.symm

theorem getOrFail_addUnless [DecidableEq β] (htr : tr.Inverse) {full : Bool}
    {fallback value : β} (h : t.child? key = none) :
    (t.addUnless tr [key] full fallback value).getOrFail tr [key] fallback = some value := by
  by_cases hwritten : full = true ∨ value ≠ fallback
  · rw [addUnless, if_pos hwritten, getOrFail, getChild?, add, child?_addChild_self h]
    exact htr value
  · have hsame : value = fallback := not_not.mp (not_or.mp hwritten).2
    rw [addUnless, if_neg hwritten, getOrFail, getChild?, h, hsame]
    rfl

/-- A value further down makes a child. -/
theorem child?_addUnless_eq_none_iff [DecidableEq β] {full : Bool} {fallback value : β}
    (h : path ≠ []) :
    (t.addUnless tr (key :: path) full fallback value).child? key = none ↔
      t.child? key = none ∧ full = false ∧ value = fallback := by
  by_cases hwritten : full = true ∨ value ≠ fallback
  · rw [addUnless, if_pos hwritten, add, child?_addChild_cons h]
    simp only [reduceCtorEq, false_iff, not_and_or, Bool.not_eq_false]
    exact .inr hwritten
  · rw [addUnless, if_neg hwritten]
    simp only [not_or, Bool.not_eq_true, ne_eq, not_not] at hwritten
    simp [hwritten]

theorem subtree_congr {t' : PropertyTree κ α} (h : t.child? key = t'.child? key) :
    t.subtree key = t'.subtree key := by
  rw [subtree, h, subtree]

/-- In a subtree, values are written as in a tree. -/
theorem subtree_addUnless [DecidableEq β] {full : Bool} {fallback value : β} (h : path ≠ []) :
    (t.addUnless tr (key :: path) full fallback value).subtree key =
      (t.subtree key).addUnless tr path full fallback value := by
  unfold addUnless
  split
  · exact subtree_addChild_cons h
  · rfl

end Writing

end PropertyTree

/-! ## Lists -/

open PropertyTree

variable {κ α γ : Type}

/-- A list as children with one key, in order. -/
def ofList [DecidableEq κ] [Inhabited α] (key : κ) (f : γ → PropertyTree κ α) (l : List γ) :
    PropertyTree κ α :=
  l.foldl (fun t a => t.addChild [key] (f a)) empty

theorem children_foldl_addChild [DecidableEq κ] [Inhabited α] (key : κ)
    (f : γ → PropertyTree κ α) (l : List γ) (t : PropertyTree κ α) :
    (l.foldl (fun t a => t.addChild [key] (f a)) t).children =
      t.children ++ l.map fun a => (key, f a) := by
  induction l generalizing t with
  | nil => simp
  | cons a l ih =>
    rw [List.foldl_cons, ih, List.map_cons]
    show (t.children ++ [(key, f a)]) ++ _ = _
    rw [List.append_assoc, List.singleton_append]

/-- Without their keys, the children are the elements. -/
theorem values_ofList [DecidableEq κ] [Inhabited α] (key : κ) (f : γ → PropertyTree κ α)
    (l : List γ) : (ofList key f l).children.map Prod.snd = l.map f := by
  rw [ofList, children_foldl_addChild, List.map_append, List.map_map]
  rfl

/-- A list is read as it was written, if its elements are. -/
theorem map_values_ofList [DecidableEq κ] [Inhabited α] {key : κ} {f : γ → PropertyTree κ α}
    {g : PropertyTree κ α → γ} (h : ∀ a, g (f a) = a) (l : List γ) :
    ((ofList key f l).children.map Prod.snd).map g = l := by
  rw [values_ofList, List.map_map]
  exact (List.map_congr_left fun a _ => h a).trans (List.map_id l)

/-- Also if reading an element may fail. -/
theorem mapM_values_ofList [DecidableEq κ] [Inhabited α] {key : κ} {f : γ → PropertyTree κ α}
    {g : PropertyTree κ α → Option γ} {l : List γ} (h : ∀ a ∈ l, g (f a) = some a) :
    ((ofList key f l).children.map Prod.snd).mapM g = some l := by
  rw [values_ofList]
  induction l with
  | nil => rfl
  | cons a l ih =>
    rw [List.map_cons, List.mapM_cons, h a List.mem_cons_self,
      ih fun b hb => h b (List.mem_cons_of_mem _ hb)]
    rfl

/-- Insert the children of another tree at the end. -/
def insertChildren (t new : PropertyTree κ α) : PropertyTree κ α :=
  node t.data (t.children ++ new.children)

/-- They are found where there was none. -/
theorem child?_insertChildren [DecidableEq κ] {key : κ} {t new : PropertyTree κ α} :
    (insertChildren t new).child? key = (t.child? key).or (new.child? key) := by
  show (Tables.lookup Prod.fst key (t.children ++ new.children)).map Prod.snd = _
  rw [Tables.lookup, List.find?_append, Option.map_or]
  rfl

/-! ## Sections -/

/-- An object that is written to a tree and read from one. Reading changes an object that
is there, and may fail. -/
structure Section (κ α γ : Type) where
  initial : γ
  fromProperties : γ → PropertyTree κ α → Option γ
  toProperties : γ → Bool → PropertyTree κ α

namespace Section

/-- What is written is read again by a new object. -/
def ReadsWritten (s : Section κ α γ) : Prop :=
  ∀ object full, s.fromProperties s.initial (s.toProperties object full) = some object

/-- Also a tree without children changes no object. -/
structure Lawful (s : Section κ α γ) : Prop where
  read_written : s.ReadsWritten
  blank : ∀ object (t : PropertyTree κ α), t.isEmpty = true →
    s.fromProperties object t = some object

/-- What is left out is an object as a new one. -/
theorem Lawful.eq_initial {s : Section κ α γ} (h : s.Lawful) {object : γ} {full : Bool}
    (hblank : (s.toProperties object full).isEmpty = true) : object = s.initial :=
  Option.some.inj ((h.read_written object full).symm.trans (h.blank _ _ hblank))

variable [DecidableEq κ]

/-- Only the children with these keys count for the reader. -/
def ReadsOnly (s : Section κ α γ) (keys : List κ) : Prop :=
  ∀ object (t t' : PropertyTree κ α), (∀ key ∈ keys, t.child? key = t'.child? key) →
    s.fromProperties object t = s.fromProperties object t'

/-- Read a new object from a child of the tree, if there is one. -/
def read (s : Section κ α γ) (key : κ) (t : PropertyTree κ α) : Option γ :=
  match t.child? key with
  | none => some s.initial
  | some child => s.fromProperties s.initial child

theorem read_congr {s : Section κ α γ} {key : κ} {t t' : PropertyTree κ α}
    (h : t.child? key = t'.child? key) : s.read key t = s.read key t' := by
  rw [read, h, read]

variable [Inhabited α]

/-- Write the object to a new child of the tree, if there is anything to write. -/
def write (s : Section κ α γ) (key : κ) (full : Bool) (object : γ) (t : PropertyTree κ α) :
    PropertyTree κ α :=
  if full = true ∨ ¬ (s.toProperties object full).isEmpty then
    t.addChild [key] (s.toProperties object full)
  else t

variable {s : Section κ α γ} {keys : List κ} {key key' : κ} {t : PropertyTree κ α}

theorem child?_write_ne {full : Bool} {object : γ} (h : key' ≠ key) :
    (s.write key' full object t).child? key = t.child? key := by
  unfold write
  split
  · exact child?_addChild_ne h
  · rfl

theorem get_write_ne {β : Type} {tr : Translator α β} {full : Bool} {object : γ} {fallback : β}
    (h : key' ≠ key) :
    (s.write key' full object t).get tr [key] fallback = t.get tr [key] fallback :=
  get_congr (child?_write_ne h)

theorem getOrFail_write_ne {β : Type} {tr : Translator α β} {full : Bool} {object : γ}
    {fallback : β} (h : key' ≠ key) :
    (s.write key' full object t).getOrFail tr [key] fallback = t.getOrFail tr [key] fallback :=
  getOrFail_congr (child?_write_ne h)

theorem read_write_ne {δ : Type} {s' : Section κ α δ} {full : Bool} {object : δ}
    (h : key' ≠ key) : s.read key (s'.write key' full object t) = s.read key t :=
  read_congr (child?_write_ne h)

theorem read_addUnless_ne {β : Type} [DecidableEq β] {tr : Translator α β} {path : List κ}
    {full : Bool} {fallback value : β} (h : key' ≠ key) :
    s.read key (t.addUnless tr (key' :: path) full fallback value) = s.read key t :=
  read_congr (child?_addUnless_ne h)

theorem child?_write_eq_none_iff {full : Bool} {object : γ} (h : t.child? key = none) :
    (s.write key full object t).child? key = none ↔
      full = false ∧ (s.toProperties object full).isEmpty = true := by
  by_cases hwritten : full = true ∨ ¬ (s.toProperties object full).isEmpty
  · rw [write, if_pos hwritten, child?_addChild_self h]
    simp only [reduceCtorEq, false_iff, not_and_or, Bool.not_eq_false]
    exact hwritten
  · rw [write, if_neg hwritten]
    simpa [h] using hwritten

/-- A section that is written to a new child is read. -/
theorem Lawful.read_write (h : s.Lawful) {full : Bool} {object : γ}
    (hnew : t.child? key = none) : s.read key (s.write key full object t) = some object := by
  by_cases hwritten : full = true ∨ ¬ (s.toProperties object full).isEmpty
  · rw [write, if_pos hwritten, read, child?_addChild_self hnew]
    exact h.read_written object full
  · have hblank : (s.toProperties object full).isEmpty = true := by
      simpa using (not_or.mp hwritten).2
    rw [write, if_neg hwritten, read, hnew, h.eq_initial hblank]

/-- It does not matter for the reader whether there is a subtree. -/
theorem Lawful.read_eq (h : s.Lawful) :
    s.read key t = s.fromProperties s.initial (t.subtree key) := by
  rw [read, subtree]
  cases t.child? key with
  | none => exact (h.blank s.initial empty rfl).symm
  | some child => rfl

/-- What a section leaves behind. -/
theorem child?_subtree_write {full : Bool} {object : γ} (h : t.child? key = none) :
    ((s.write key full object t).subtree key).child? key' =
      (s.toProperties object full).child? key' := by
  unfold write
  split
  · rw [subtree, child?_addChild_self h, Option.getD_some]
  · rename_i hblank
    rw [subtree, h, Option.getD_none, child?_empty, child?_of_isEmpty]
    simpa using (not_or.mp hblank).2

/-- **Sections**: an object is read from a subtree that agrees with its own, whatever else
stands there. -/
theorem ReadsWritten.read_of_child (h : s.ReadsWritten) (hkeys : s.ReadsOnly keys)
    (full : Bool) {object : γ} (hchild : t.child? key ≠ none)
    (hagrees : ∀ k ∈ keys, (t.subtree key).child? k = (s.toProperties object full).child? k) :
    s.read key t = some object := by
  obtain ⟨child, hsome⟩ := Option.ne_none_iff_exists'.mp hchild
  rw [subtree, hsome, Option.getD_some] at hagrees
  rw [read, hsome]
  exact (hkeys _ _ _ hagrees).trans (h object full)

theorem Lawful.read_of_agrees (h : s.Lawful) (hkeys : s.ReadsOnly keys) (full : Bool)
    {object : γ}
    (hagrees : ∀ k ∈ keys, (t.subtree key).child? k = (s.toProperties object full).child? k) :
    s.read key t = some object := by
  rw [h.read_eq, hkeys _ _ _ hagrees, h.read_written]

/-! ## A subtree with further values -/

/-- Only children with these keys are written. -/
def WritesOnly (s : Section κ α γ) (keys : List κ) : Prop :=
  ∀ object full, ∀ key ∉ keys, (s.toProperties object full).child? key = none

section Shared

variable {β δ : Type} [DecidableEq β] [DecidableEq δ]

/-- Write the object, and two values to the same subtree. -/
def writeShared (s : Section κ α γ) (key : κ) (full : Bool) (object : γ)
    (tr : Translator α β) (k : κ) (fallback value : β) (tr' : Translator α δ) (k' : κ)
    (fallback' value' : δ) (t : PropertyTree κ α) : PropertyTree κ α :=
  ((s.write key full object t).addUnless tr [key, k] full fallback value).addUnless tr'
    [key, k'] full fallback' value'

variable {full : Bool} {object : γ} {tr : Translator α β} {tr' : Translator α δ} {k k' : κ}
  {fallback value : β} {fallback' value' : δ}

theorem child?_writeShared_ne (h : key' ≠ key) :
    (s.writeShared key' full object tr k fallback value tr' k' fallback' value' t).child? key =
      t.child? key := by
  rw [writeShared, child?_addUnless_ne h, child?_addUnless_ne h, child?_write_ne h]

/-- There is no subtree where nothing was to be written. -/
theorem child?_writeShared_eq_none_iff (h : t.child? key = none) :
    (s.writeShared key full object tr k fallback value tr' k' fallback' value' t).child? key =
        none ↔
      full = false ∧ (s.toProperties object full).isEmpty = true ∧ value = fallback ∧
        value' = fallback' := by
  rw [writeShared, child?_addUnless_eq_none_iff (List.cons_ne_nil _ _),
    child?_addUnless_eq_none_iff (List.cons_ne_nil _ _), child?_write_eq_none_iff h]
  constructor
  · rintro ⟨⟨⟨hfull, hempty⟩, -, hvalue⟩, -, hvalue'⟩
    exact ⟨hfull, hempty, hvalue, hvalue'⟩
  · rintro ⟨hfull, hempty, hvalue, hvalue'⟩
    exact ⟨⟨⟨hfull, hempty⟩, hfull, hvalue⟩, hfull, hvalue'⟩

theorem subtree_writeShared :
    (s.writeShared key full object tr k fallback value tr' k' fallback' value' t).subtree key =
      (((s.write key full object t).subtree key).addUnless tr [k] full fallback
        value).addUnless tr' [k'] full fallback' value' := by
  rw [writeShared, subtree_addUnless (List.cons_ne_nil _ _),
    subtree_addUnless (List.cons_ne_nil _ _)]

/-- The subtree agrees with that of the object. -/
theorem child?_subtree_writeShared (h : t.child? key = none) (hk : k ∉ keys) (hk' : k' ∉ keys) :
    ∀ key₁ ∈ keys,
      ((s.writeShared key full object tr k fallback value tr' k' fallback' value' t).subtree
        key).child? key₁ = (s.toProperties object full).child? key₁ := by
  intro key₁ hkey
  have hne : k ≠ key₁ := fun heq => hk (heq.symm ▸ hkey)
  have hne' : k' ≠ key₁ := fun heq => hk' (heq.symm ▸ hkey)
  rw [subtree_writeShared, child?_addUnless_ne hne', child?_addUnless_ne hne,
    child?_subtree_write h]

/-- The further values are read. -/
theorem get_writeShared (h : t.child? key = none) (hwrites : s.WritesOnly keys) (hk : k ∉ keys)
    (htr : tr.Inverse) (hne : k' ≠ k) :
    (s.writeShared key full object tr k fallback value tr' k' fallback' value' t).get tr
      [key, k] fallback = value := by
  rw [get_cons (List.cons_ne_nil _ _), subtree_writeShared, get_addUnless_ne hne]
  apply get_addUnless htr
  rw [child?_subtree_write h]
  exact hwrites object full k hk

theorem get_writeShared' (h : t.child? key = none) (hwrites : s.WritesOnly keys)
    (hk' : k' ∉ keys) (htr' : tr'.Inverse) (hne : k ≠ k') :
    (s.writeShared key full object tr k fallback value tr' k' fallback' value' t).get tr'
      [key, k'] fallback' = value' := by
  rw [get_cons (List.cons_ne_nil _ _), subtree_writeShared]
  apply get_addUnless htr'
  rw [child?_addUnless_ne hne, child?_subtree_write h]
  exact hwrites object full k' hk'

end Shared

end Section

end PropertyTrees
