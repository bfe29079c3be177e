import Arinc615a.Find.PacketHandler
import Arinc615a.Lib.OrderedMap
import Arinc615a.TargetId
import Mathlib.Data.List.Find

/-!
# Targets by their IDs

`find/TargetInformation.cpp`: the map of targets that is made of the answers of
a FIND query. Its keys are compared as texts, with the underscore between THW ID
and position, while the equality of target IDs compares the two parts.
-/

namespace Arinc615a

/-- `TargetId::operator<=>`. -/
def TargetId.compare : TargetId → TargetId → Ordering := compareOn TargetId.toString

namespace Find

open OrderedMaps OrderedMap

/-- `TargetAddressInformation`. -/
structure TargetAddressInformation where
  address : Nat
  information : TargetInformation
  deriving DecidableEq

/-- `TargetInformation::targetId`. -/
def TargetInformation.targetId (information : TargetInformation) : TargetId :=
  ⟨information.thwId, information.thwPosition⟩

/-- `TargetsAddressInformationMap`. -/
abbrev TargetsAddressInformationMap :=
  OrderedMap TargetId.compare TargetAddressInformation

instance : Std.TransCmp TargetId.compare :=
  inferInstanceAs (Std.TransCmp (compareOn TargetId.toString))

/-- `TargetsAddressInformationMap_fromTargetsAddressInformation`. -/
def targetsAddressInformationMap (targetsAddressInformation : List TargetAddressInformation) :
    TargetsAddressInformationMap :=
  targetsAddressInformation.foldl (fun information targetAddressInformation =>
    information.emplace targetAddressInformation.information.targetId targetAddressInformation)
    (empty TargetId.compare TargetAddressInformation)

/-! ## Texts that two targets share -/

/-- The two targets are one text, cut at different underscores. -/
def Collide (a b : TargetId) : Prop :=
  ∃ front middle back,
    (a = ⟨front, middle ++ 95 :: back⟩ ∧ b = ⟨front ++ 95 :: middle, back⟩) ∨
    (b = ⟨front, middle ++ 95 :: back⟩ ∧ a = ⟨front ++ 95 :: middle, back⟩)

theorem toString_eq_iff {a b : TargetId} : a.toString = b.toString ↔ a = b ∨ Collide a b := by
  obtain ⟨thwId, position⟩ := a
  obtain ⟨thwId', position'⟩ := b
  show thwId ++ 95 :: position = thwId' ++ 95 :: position' ↔ _
  constructor
  · intro h
    rw [List.append_eq_append_iff] at h
    rcases h with ⟨middle, rfl, hposition⟩ | ⟨middle, rfl, hposition⟩
    · cases middle with
      | nil =>
        cases hposition
        exact .inl (by rw [List.append_nil])
      | cons c middle =>
        rw [List.cons_append, List.cons.injEq] at hposition
        obtain ⟨rfl, rfl⟩ := hposition
        exact .inr ⟨thwId, middle, position', .inl ⟨rfl, rfl⟩⟩
    · cases middle with
      | nil =>
        cases hposition
        exact .inl (by rw [List.append_nil])
      | cons c middle =>
        rw [List.cons_append, List.cons.injEq] at hposition
        obtain ⟨rfl, rfl⟩ := hposition
        exact .inr ⟨thwId', middle, position, .inr ⟨rfl, rfl⟩⟩
  · rintro (heq | ⟨front, middle, back, ⟨ha, hb⟩ | ⟨hb, ha⟩⟩)
    · cases heq
      rfl
    · cases ha
      cases hb
      rw [List.append_assoc, List.cons_append]
    · cases ha
      cases hb
      rw [List.append_assoc, List.cons_append]

theorem not_collide_self (a : TargetId) : ¬ Collide a a := by
  rintro ⟨front, middle, back, ⟨ha, hb⟩ | ⟨hb, ha⟩⟩
  · have hlen := congrArg (List.length ∘ TargetId.thwId) (ha.symm.trans hb)
    simp at hlen
  · have hlen := congrArg (List.length ∘ TargetId.thwId) (hb.symm.trans ha)
    simp at hlen

/-- The order does not tell two targets apart that have the same text. -/
theorem compare_eq_iff {a b : TargetId} : TargetId.compare a b = .eq ↔ a = b ∨ Collide a b := by
  rw [TargetId.compare, compareOn, Std.compare_eq_iff_eq, toString_eq_iff]

/-! ## The map of a list of answers -/

/-- One entry for each target of the list, with its first answer. -/
def MapMeets (answers : List TargetAddressInformation) : Prop :=
  ((targetsAddressInformationMap answers).entries.map Prod.fst).Nodup ∧
    ∀ targetId answer, (targetId, answer) ∈ (targetsAddressInformationMap answers).entries ↔
      answers.find? (fun answer => answer.information.targetId = targetId) = some answer

/-- The entry of an answer. -/
def entryOf (answer : TargetAddressInformation) : TargetId × TargetAddressInformation :=
  (answer.information.targetId, answer)

theorem targetsAddressInformationMap_eq (answers : List TargetAddressInformation) :
    targetsAddressInformationMap answers = ofEntries TargetId.compare (answers.map entryOf) := by
  rw [targetsAddressInformationMap, ofEntries, List.foldl_map]
  rfl

/-- The entries of the map: of the answers with the same text, the first one. -/
theorem mem_targetsAddressInformationMap {answers : List TargetAddressInformation}
    {targetId : TargetId} {answer : TargetAddressInformation} :
    (targetId, answer) ∈ (targetsAddressInformationMap answers).entries ↔
      answer.information.targetId = targetId ∧ answers.find? (fun other =>
        TargetId.compare targetId other.information.targetId = .eq) = some answer := by
  rw [targetsAddressInformationMap_eq, mem_ofEntries, List.find?_map, Option.map_eq_some_iff]
  constructor
  · rintro ⟨other, hfind, hentry⟩
    cases hentry
    exact ⟨rfl, hfind⟩
  · rintro ⟨rfl, hfind⟩
    exact ⟨answer, hfind, rfl⟩

/-- Which of the answers the map holds, where no two targets of them collide. -/
theorem compare_answer {answers : List TargetAddressInformation} {targetId : TargetId}
    (hlisted : ∃ answer ∈ answers, answer.information.targetId = targetId)
    (h : ∀ a ∈ answers, ∀ b ∈ answers, ¬ Collide a.information.targetId b.information.targetId) :
    answers.find? (fun other => TargetId.compare targetId other.information.targetId = .eq) =
      answers.find? (fun other => other.information.targetId = targetId) := by
  obtain ⟨answer, hmem, rfl⟩ := hlisted
  apply List.find?_congr
  intro other hother
  rw [decide_eq_decide, compare_eq_iff]
  constructor
  · rintro (heq | hcollide)
    · exact heq.symm
    · exact absurd hcollide (h answer hmem other hother)
  · exact fun heq => .inl heq.symm

theorem mapMeets_iff (answers : List TargetAddressInformation) :
    MapMeets answers ↔ ∀ a ∈ answers, ∀ b ∈ answers,
      ¬ Collide a.information.targetId b.information.targetId := by
  constructor
  · rintro ⟨-, hmeets⟩ a ha b hb hcollide
    -- Both targets have an entry, but the order takes them for one key.
    have hentry (c : TargetAddressInformation) (hc : c ∈ answers) : ∃ answer,
        (c.information.targetId, answer) ∈ (targetsAddressInformationMap answers).entries := by
      cases hfind : answers.find? (fun answer =>
          answer.information.targetId = c.information.targetId) with
      | none => exact absurd (decide_eq_true rfl) (List.find?_eq_none.mp hfind c hc)
      | some answer => exact ⟨answer, (hmeets _ _).mpr hfind⟩
    obtain ⟨answer, hanswer⟩ := hentry a ha
    obtain ⟨answer', hanswer'⟩ := hentry b hb
    have heq := eq_of_mem hanswer hanswer' (compare_eq_iff.mpr (.inr hcollide))
    rw [(Prod.mk.inj heq).1] at hcollide
    exact not_collide_self _ hcollide
  · intro h
    refine ⟨nodup_keys _, ?_⟩
    intro targetId answer
    rw [mem_targetsAddressInformationMap]
    constructor
    · rintro ⟨rfl, hfind⟩
      rwa [← compare_answer ⟨answer, List.mem_of_find?_eq_some hfind, rfl⟩ h]
    · intro hfind
      have htarget : answer.information.targetId = targetId := by
        simpa using List.find?_some hfind
      exact ⟨htarget, by
        rwa [compare_answer ⟨answer, List.mem_of_find?_eq_some hfind, htarget⟩ h]⟩

/-- **Order and equality of targets** agree on two targets exactly if these are
not one text cut at different underscores; and the map of a list of answers has
one entry for each target, with its first answer, exactly if no two of them are. -/
theorem target_order_iff (a b : TargetId) (answers : List TargetAddressInformation) :
    ((TargetId.compare a b = .eq ↔ a = b) ↔ ¬ Collide a b) ∧
    (MapMeets answers ↔ ∀ a ∈ answers, ∀ b ∈ answers,
      ¬ Collide a.information.targetId b.information.targetId) := by
  refine ⟨?_, mapMeets_iff answers⟩
  rw [compare_eq_iff]
  constructor
  · intro h hcollide
    rw [h.mp (.inr hcollide)] at hcollide
    exact not_collide_self b hcollide
  · exact fun h => ⟨fun heq => heq.resolve_right h, .inl⟩

/-- The answers of two targets, one of which has an underscore in its THW ID. -/
def collidingAnswers : List TargetAddressInformation :=
  [⟨1, ⟨str "MCU1_A", [], str "1", [], []⟩⟩, ⟨2, ⟨str "MCU1", [], str "A_1", [], []⟩⟩]

/-- The second of them is lost. -/
theorem target_order_collision :
    TargetId.compare ⟨str "MCU1_A", str "1"⟩ ⟨str "MCU1", str "A_1"⟩ = .eq ∧
      (targetsAddressInformationMap collidingAnswers).entries.length = 1 ∧
      ¬ MapMeets collidingAnswers := by
  refine ⟨by decide, by decide, fun hmeets => ?_⟩
  have hlost := (hmeets.2 ⟨str "MCU1", str "A_1"⟩
    ⟨2, ⟨str "MCU1", [], str "A_1", [], []⟩⟩).mpr (by decide)
  revert hlost
  decide

end Find

end Arinc615a
