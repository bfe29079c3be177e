import Mathlib.Data.List.Chain
import Mathlib.Dynamics.PeriodicPts.Defs

/-!
# Cyclic counters

Messages that are numbered one after the other, by a counter that wraps around,
and some of which get lost. Those that arrive carry consecutive numbers exactly
if the losses between two of them are whole turns of the counter
(`isChain_arrived_iff`).
-/

namespace Counters

variable {ν : Type} {next : ν → ν} {period : Nat}

/-- From every number, the counter is back after each turn and not before. -/
def Cyclic (next : ν → ν) (period : Nat) : Prop :=
  ∀ n a, Function.IsPeriodicPt next n a ↔ period ∣ n

/-- The numbers count on from the first one. -/
def Counts (next : ν → ν) : ν → List ν → Prop
  | _, [] => True
  | a, b :: bs => b = a ∧ Counts next (next a) bs

/-- The next number is as far from the first one as there are numbers. -/
theorem counts_append_singleton {a b : ν} {l : List ν} :
    Counts next a (l ++ [b]) ↔ Counts next a l ∧ b = next^[l.length] a := by
  induction l generalizing a with
  | nil => simp [Counts]
  | cons c l ih =>
    simp only [List.cons_append, Counts, ih, and_assoc]
    rfl

/-- Each number is as far from the first one as it stands behind it. -/
theorem Counts.getElem {a b : ν} {l : List ν} (h : Counts next a l) {k : Nat}
    (hb : l[k]? = some b) : b = next^[k] a := by
  induction l generalizing a k with
  | nil => simp at hb
  | cons c l ih =>
    obtain ⟨hc, hrest⟩ := h
    cases k with
    | zero => rw [← Option.some.inj hb, hc, Function.iterate_zero_apply]
    | succ k => exact ih hrest hb

/-- The numbers that arrive. -/
def arrived : List (ν × Bool) → List ν
  | [] => []
  | (a, true) :: l => a :: arrived l
  | (_, false) :: l => arrived l

/-- The losses between arrivals, `gap` of them since the last one. -/
def gapsFrom (gap : Nat) : List Bool → List Nat
  | [] => []
  | true :: bs => gap :: gapsFrom 0 bs
  | false :: bs => gapsFrom (gap + 1) bs

/-- The losses between each two arrivals. -/
def gaps : List Bool → List Nat
  | [] => []
  | true :: bs => gapsFrom 0 bs
  | false :: bs => gaps bs

/-- Behind an arrival, so many losses ago. -/
theorem isChain_arrived_from_iff (hnext : Cyclic next period) {a : ν} (gap : Nat)
    {l : List (ν × Bool)} (h : Counts next (next^[gap + 1] a) (l.map (·.1))) :
    (a :: arrived l).IsChain (fun a b => b = next a) ↔
      ∀ n ∈ gapsFrom gap (l.map (·.2)), period ∣ n := by
  induction l generalizing a gap with
  | nil => simp [arrived, gapsFrom]
  | cons m l ih =>
    obtain ⟨b, lost | arrives⟩ := m
    · obtain ⟨-, hrest⟩ := h
      rw [← Function.iterate_succ_apply' next] at hrest
      exact ih (gap + 1) hrest
    · obtain ⟨hb, hrest⟩ := h
      have hb : b = next^[gap + 1] a := hb
      -- The turn is counted from the number behind the last arrival.
      have hgap : b = next a ↔ period ∣ gap := by
        rw [hb, Function.iterate_succ_apply]
        exact hnext gap (next a)
      simp only [arrived, List.isChain_cons_cons, List.map_cons, gapsFrom, List.mem_cons,
        forall_eq_or_imp, hgap]
      rw [← hb] at hrest
      exact and_congr_right fun _ => ih 0 hrest

/-- **Arrivals** are consecutive exactly if the losses between them are turns. -/
theorem isChain_arrived_iff (hnext : Cyclic next period) {a : ν} {l : List (ν × Bool)}
    (h : Counts next a (l.map (·.1))) :
    (arrived l).IsChain (fun a b => b = next a) ↔
      ∀ n ∈ gaps (l.map (·.2)), period ∣ n := by
  induction l generalizing a with
  | nil => simp [arrived, gaps]
  | cons m l ih =>
    obtain ⟨b, lost | arrives⟩ := m
    · exact ih h.2
    · obtain ⟨hb, hrest⟩ := h
      have hb : b = a := hb
      rw [← hb] at hrest
      exact isChain_arrived_from_iff hnext 0 hrest

/-- Counting up in 16 bits. -/
theorem iterate_uint16 (n : Nat) (a : UInt16) :
    (fun b : UInt16 => b + 1)^[n] a = a + UInt16.ofNat n := by
  induction n with
  | zero => simp
  | succ n ih =>
    rw [Function.iterate_succ_apply', ih, UInt16.ofNat_add, UInt16.add_assoc]
    rfl

theorem cyclic_uint16 : Cyclic (fun a : UInt16 => a + 1) 65536 := by
  intro n a
  show (fun b : UInt16 => b + 1)^[n] a = a ↔ 65536 ∣ n
  rw [iterate_uint16, UInt16.add_eq_left]
  rw [← UInt16.toNat_inj, UInt16.toNat_ofNat']
  show n % 65536 = 0 ↔ _
  exact (Nat.dvd_iff_mod_eq_zero ..).symm

end Counters
