import Arinc615a.StatusCode

/-!
# Target IDs

`arinc_615a/TargetId.cpp`: a target hardware ID and a position, written with an
underscore between them. A `TargetId` may hold any two strings; only
`isTargetId` says that they are valid.
-/

namespace Arinc615a

/-- The part of a string in front of the first separator, and the part behind
it: `find`, and `substr` twice. -/
def splitAt? (separator : UInt8) : Str → Option (Str × Str)
  | [] => none
  | c :: cs =>
    if c = separator then some ([], cs)
    else (splitAt? separator cs).map fun (front, back) => (c :: front, back)

/-- The separator that is found is the first one. -/
theorem splitAt?_eq_some_iff {separator : UInt8} {s front back : Str} :
    splitAt? separator s = some (front, back) ↔
      s = front ++ separator :: back ∧ separator ∉ front := by
  induction s generalizing front with
  | nil => simp [splitAt?]
  | cons c cs ih =>
    by_cases hc : c = separator
    · subst hc
      rw [splitAt?, if_pos rfl]
      cases front with
      | nil => simp [eq_comm]
      | cons d ds =>
        refine iff_of_false (by simp) ?_
        rintro ⟨heq, hfree⟩
        rw [List.cons_append, List.cons.injEq] at heq
        exact hfree (heq.1 ▸ List.mem_cons_self)
    · rw [splitAt?, if_neg hc]
      cases front with
      | nil =>
        refine iff_of_false (by simp) ?_
        rintro ⟨heq, -⟩
        exact hc (List.cons.inj heq).1
      | cons d ds =>
        rw [Option.map_eq_some_iff]
        constructor
        · rintro ⟨⟨front, back⟩, hsplit, heq⟩
          cases heq
          obtain ⟨rfl, hfree⟩ := ih.mp hsplit
          exact ⟨rfl, by simp [hfree, Ne.symm hc]⟩
        · rintro ⟨heq, hfree⟩
          rw [List.cons_append, List.cons.injEq] at heq
          rw [List.mem_cons, not_or] at hfree
          exact ⟨(ds, back), ih.mpr ⟨heq.2, hfree.2⟩, by rw [heq.1]⟩

/-- `TargetId`. -/
structure TargetId where
  thwId : Str := []
  position : Str := []
  deriving DecidableEq

namespace TargetId

/-- `TargetId::splitTargetId`. -/
def splitTargetId (targetId : Str) : Str × Str :=
  (splitAt? 95 targetId).getD ([], [])

/-- `std::isalnum` in the classic locale. -/
def isAlnum (c : UInt8) : Bool :=
  (48 ≤ c && c ≤ 57) || (65 ≤ c && c ≤ 90) || (97 ≤ c && c ≤ 122)

/-- `TargetId::isCompliant`. -/
def isCompliant (stringToCheck : Str) (minLength maxLength : Nat) : Bool :=
  if stringToCheck.length < minLength ∨ maxLength < stringToCheck.length then false
  else stringToCheck.all isAlnum

/-- `TargetId::isThwId`. -/
def isThwId (thwId : Str) : Bool := isCompliant thwId 4 15

/-- `TargetId::isPosition`. -/
def isPosition (position : Str) : Bool := isCompliant position 0 8

/-- `TargetId::isTargetId`. -/
def isTargetId (targetId : Str) : Bool :=
  let (thwId, position) := splitTargetId targetId
  isThwId thwId && isPosition position

/-- `TargetId( std::string_view )`, and the assignment of a string. -/
def ofString (targetId : Str) : TargetId :=
  let (thwId, position) := splitTargetId targetId
  ⟨thwId, position⟩

/-- `TargetId::toString`. -/
def toString (targetId : TargetId) : Str := targetId.thwId ++ 95 :: targetId.position

/-- `TargetId::operator bool`. -/
def isValid (targetId : TargetId) : Bool :=
  isCompliant targetId.thwId 4 15 && isCompliant targetId.position 0 8

/-! ## Valid target IDs -/

theorem all_isAlnum_of_isCompliant {s : Str} {minLength maxLength : Nat}
    (h : isCompliant s minLength maxLength = true) : ∀ c ∈ s, isAlnum c = true := by
  rw [isCompliant] at h
  split at h
  · cases h
  · exact List.all_eq_true.mp h

theorem isValid_iff {targetId : TargetId} :
    targetId.isValid = true ↔
      isCompliant targetId.thwId 4 15 = true ∧ isCompliant targetId.position 0 8 = true := by
  rw [isValid, Bool.and_eq_true]

/-- A character that is not alphanumeric is not in the parts of a valid target ID. -/
theorem notMem_of_isValid {targetId : TargetId} (h : targetId.isValid = true) {c : UInt8}
    (hc : isAlnum c = false) : c ∉ targetId.thwId ∧ c ∉ targetId.position := by
  obtain ⟨hthwId, hposition⟩ := isValid_iff.mp h
  constructor
  · intro hmem
    rw [all_isAlnum_of_isCompliant hthwId c hmem] at hc
    cases hc
  · intro hmem
    rw [all_isAlnum_of_isCompliant hposition c hmem] at hc
    cases hc

/-- A THW ID without an underscore is read back with its position. -/
theorem ofString_toString {targetId : TargetId} (h : 95 ∉ targetId.thwId) :
    ofString targetId.toString = targetId := by
  rw [ofString, splitTargetId, toString, splitAt?_eq_some_iff.mpr ⟨rfl, h⟩]
  rfl

/-- What is read from a text with an underscore is written as the text. -/
theorem toString_ofString {s : Str} (h : (ofString s).thwId ≠ []) :
    (ofString s).toString = s := by
  cases hsplit : splitAt? 95 s with
  | none =>
    rw [ofString, splitTargetId, hsplit] at h
    exact absurd rfl h
  | some parts =>
    obtain ⟨thwId, position⟩ := parts
    rw [ofString, splitTargetId, hsplit]
    exact (splitAt?_eq_some_iff.mp hsplit).1.symm

theorem thwId_ne_nil_of_isValid {targetId : TargetId} (h : targetId.isValid = true) :
    targetId.thwId ≠ [] := by
  intro hnil
  rw [isValid_iff, hnil] at h
  cases h.1

end TargetId

end Arinc615a
