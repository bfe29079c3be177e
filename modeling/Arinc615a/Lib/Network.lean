import Arinc615a.Lib.Machine
import Mathlib.Logic.Function.Basic

/-!
# Networks of event machines

Parties that are machines, and send each other messages: an output may be a
message, and an event may be one that only a message brings about. What was sent
stays in the network, so that messages are delayed, reordered, repeated and lost.

Two rules reduce a network to its parties:

- `exec_own`: what a party does in a run of the network is a run of its machine,
  so that every law of the runs of one machine is one of the network.
- `exists_sender`: a message that is taken was sent before, in a step of its sender.
-/

namespace Machines

/-! ## What one party does -/

section Own

variable {ι : Type} [DecidableEq ι] {α : ι → Type}

/-- The elements of one party, in a row of elements of all of them. -/
def own (i : ι) (l : List (Σ i, α i)) : List (α i) :=
  l.filterMap fun x => if h : x.1 = i then some (h ▸ x.2) else none

@[simp] theorem own_nil (i : ι) : own i ([] : List (Σ i, α i)) = [] := rfl

@[simp] theorem own_append (i : ι) (l l' : List (Σ i, α i)) :
    own i (l ++ l') = own i l ++ own i l' :=
  List.filterMap_append

@[simp] theorem own_cons_self (i : ι) (a : α i) (l : List (Σ i, α i)) :
    own i (⟨i, a⟩ :: l) = a :: own i l := by
  simp [own]

theorem own_cons_of_ne {i j : ι} (h : j ≠ i) (a : α j) (l : List (Σ i, α i)) :
    own i (⟨j, a⟩ :: l) = own i l := by
  simp [own, h]

theorem mem_own {i : ι} {a : α i} {l : List (Σ i, α i)} : a ∈ own i l ↔ ⟨i, a⟩ ∈ l := by
  induction l with
  | nil => simp
  | cons x l ih =>
    obtain ⟨j, b⟩ := x
    by_cases h : j = i
    · subst h
      simp [ih]
    · rw [own_cons_of_ne h, ih, List.mem_cons]
      constructor
      · exact .inr
      · intro hmem
        rcases hmem with heq | hmem
        · exact absurd (congrArg Sigma.fst heq).symm h
        · exact hmem

/-- What a party does alone is its own. -/
@[simp] theorem own_map_self (i : ι) (l : List (α i)) :
    own i (l.map fun a => (⟨i, a⟩ : Σ i, α i)) = l := by
  induction l with
  | nil => rfl
  | cons a l ih => rw [List.map_cons, own_cons_self, ih]

theorem own_map_of_ne {i j : ι} (h : j ≠ i) (l : List (α j)) :
    own i (l.map fun a => (⟨j, a⟩ : Σ i, α i)) = [] := by
  induction l with
  | nil => rfl
  | cons a l ih => rw [List.map_cons, own_cons_of_ne h, ih]

end Own

/-! ## Networks -/

/-- Parties with a machine each, and the messages between them. -/
structure Network (ι μ : Type) where
  State : ι → Type
  Event : ι → Type
  Output : ι → Type
  machine : ∀ i, Machine (State i) (Event i) (Output i)
  /-- The message that an output puts into the network. -/
  sends : ∀ i, Output i → Option μ
  /-- The messages that may bring about an event, where it takes one. -/
  takes : ∀ i, State i → Event i → Option (μ → Bool)

namespace Network

variable {ι μ : Type}

/-- The states of the parties, and the messages that were sent. -/
structure Snapshot (net : Network ι μ) where
  party : ∀ i, net.State i
  sent : List μ

/-- An event of a party can happen: what it takes was sent. -/
def supplied (net : Network ι μ) (c : net.Snapshot) (e : Σ i, net.Event i) : Bool :=
  (net.takes e.1 (c.party e.1) e.2).all fun p => c.sent.any p

/-- The message of an output. -/
def message (net : Network ι μ) (o : Σ i, net.Output i) : Option μ := net.sends o.1 o.2

variable {net : Network ι μ} {c c' : net.Snapshot}

/-- An event that takes a message takes one that was sent. -/
theorem exists_of_supplied {i : ι} {e : net.Event i} {p : μ → Bool}
    (h : net.supplied c ⟨i, e⟩ = true) (htakes : net.takes i (c.party i) e = some p) :
    ∃ m ∈ c.sent, p m = true := by
  rw [supplied, htakes] at h
  exact List.any_eq_true.mp h

variable [DecidableEq ι]

/-- The snapshot behind a step of one party. -/
def Snapshot.after {net : Network ι μ} (c : net.Snapshot) (i : ι) (s : net.State i)
    (o : List (net.Output i)) : net.Snapshot :=
  ⟨Function.update c.party i s, c.sent ++ o.filterMap (net.sends i)⟩

/-- The network as one machine: one party after the other takes a step. -/
def system (net : Network ι μ) :
    Machine net.Snapshot (Σ i, net.Event i) (Σ i, net.Output i) where
  step c e :=
    if net.supplied c e then
      ((net.machine e.1).step (c.party e.1) e.2).map fun (s, o) =>
        (c.after e.1 s o, o.map fun o => ⟨e.1, o⟩)
    else none

@[simp] theorem party_after_self (i : ι) (s : net.State i) (o : List (net.Output i)) :
    (c.after i s o).party i = s :=
  Function.update_self ..

theorem party_after_of_ne {i j : ι} (h : i ≠ j) (s : net.State j) (o : List (net.Output j)) :
    (c.after j s o).party i = c.party i :=
  Function.update_of_ne h ..

@[simp] theorem sent_after (i : ι) (s : net.State i) (o : List (net.Output i)) :
    (c.after i s o).sent = c.sent ++ o.filterMap (net.sends i) := rfl

/-- A step of the network is a step of one party that is supplied. -/
theorem step_iff {i : ι} {e : net.Event i} {out : List (Σ i, net.Output i)} :
    net.system.step c ⟨i, e⟩ = some (c', out) ↔ net.supplied c ⟨i, e⟩ = true ∧
      ∃ s o, (net.machine i).step (c.party i) e = some (s, o) ∧ c' = c.after i s o ∧
        out = o.map fun o => ⟨i, o⟩ := by
  simp only [system]
  by_cases hsupplied : net.supplied c ⟨i, e⟩ = true
  · rw [if_pos hsupplied, Option.map_eq_some_iff]
    constructor
    · intro h
      obtain ⟨⟨s, o⟩, hs, heq⟩ := h
      cases heq
      exact ⟨hsupplied, s, o, hs, rfl, rfl⟩
    · intro h
      obtain ⟨-, s, o, hs, rfl, rfl⟩ := h
      exact ⟨(s, o), hs, rfl⟩
  · simp [hsupplied]

/-- **Outputs**: an output of a step of the network is one of a step of its party, which
is supplied. -/
theorem exists_step_of_mem {e : Σ i, net.Event i} {out : List (Σ i, net.Output i)} {i : ι}
    {o : net.Output i} (h : net.system.step c e = some (c', out)) (ho : ⟨i, o⟩ ∈ out) :
    ∃ f s os, e = ⟨i, f⟩ ∧ net.supplied c ⟨i, f⟩ = true ∧
      (net.machine i).step (c.party i) f = some (s, os) ∧ c' = c.after i s os ∧ o ∈ os := by
  obtain ⟨j, f⟩ := e
  obtain ⟨hsupplied, s, os, hs, hc', rfl⟩ := step_iff.mp h
  obtain ⟨o', ho', heq⟩ := List.mem_map.mp ho
  cases heq
  exact ⟨f, s, os, rfl, hsupplied, hs, hc', ho'⟩

/-- What was sent stays in the network. -/
theorem sent_of_step {e : Σ i, net.Event i} {out : List (Σ i, net.Output i)}
    (h : net.system.step c e = some (c', out)) {m : μ} (hm : m ∈ c.sent) : m ∈ c'.sent := by
  obtain ⟨i, e⟩ := e
  obtain ⟨-, s, o, -, rfl, -⟩ := step_iff.mp h
  exact List.mem_append_left _ hm

/-! ## Runs -/

/-- **Projection**: what a party does in a run is a run of its machine. -/
theorem exec_own {es : List (Σ i, net.Event i)} {tr : List (Σ i, net.Output i)}
    (h : net.system.exec c es = some (c', tr)) (i : ι) :
    (net.machine i).exec (c.party i) (own i es) = some (c'.party i, own i tr) := by
  induction es generalizing c tr with
  | nil =>
    simp only [Machine.exec_nil, Option.some.injEq, Prod.mk.injEq] at h
    obtain ⟨rfl, rfl⟩ := h
    rfl
  | cons e es ih =>
    obtain ⟨j, e⟩ := e
    obtain ⟨c₁, out, os, hs, hr, rfl⟩ := Machine.exec_cons.mp h
    obtain ⟨-, s, o, hstep, rfl, rfl⟩ := step_iff.mp hs
    have hrest := ih hr
    by_cases hij : j = i
    · subst hij
      rw [party_after_self] at hrest
      rw [own_cons_self, own_append, own_map_self]
      exact Machine.exec_cons.mpr ⟨s, o, _, hstep, hrest, rfl⟩
    · -- A step of another party leaves this one as it is.
      rw [party_after_of_ne (Ne.symm hij)] at hrest
      rw [own_cons_of_ne hij, own_append, own_map_of_ne hij, List.nil_append]
      exact hrest

/-- What is in the network was there from the start, or is the message of an output. -/
theorem sent_exec {es : List (Σ i, net.Event i)} {tr : List (Σ i, net.Output i)}
    (h : net.system.exec c es = some (c', tr)) :
    c'.sent = c.sent ++ tr.filterMap net.message := by
  induction es generalizing c tr with
  | nil =>
    simp only [Machine.exec_nil, Option.some.injEq, Prod.mk.injEq] at h
    obtain ⟨rfl, rfl⟩ := h
    simp
  | cons e es ih =>
    obtain ⟨j, e⟩ := e
    obtain ⟨c₁, out, os, hs, hr, rfl⟩ := Machine.exec_cons.mp h
    obtain ⟨-, s, o, -, rfl, rfl⟩ := step_iff.mp hs
    rw [ih hr, sent_after, List.append_assoc, List.filterMap_append, List.filterMap_map]
    rfl

/-- **Senders**: a message that a network which started empty holds is that of an output. -/
theorem exists_sender {es : List (Σ i, net.Event i)} {tr : List (Σ i, net.Output i)} {m : μ}
    (h : net.system.exec c es = some (c', tr)) (hm : m ∈ c'.sent) (hstart : m ∉ c.sent) :
    ∃ i o, ⟨i, o⟩ ∈ tr ∧ net.sends i o = some m := by
  rw [sent_exec h, List.mem_append, List.mem_filterMap] at hm
  rcases hm with hm | ⟨⟨i, o⟩, hmem, hsends⟩
  · exact absurd hm hstart
  · exact ⟨i, o, hmem, hsends⟩

/-- **Parties**: a run of one party is a run of the network, if all that its events take
was sent before. -/
theorem exec_party {i : ι} {es : List (net.Event i)} {s : net.State i} {o : List (net.Output i)}
    (h : (net.machine i).exec (c.party i) es = some (s, o))
    (hsupplied : ∀ e ∈ es, ∀ s, (net.takes i s e).all (fun p => c.sent.any p) = true) :
    net.system.exec c (es.map (⟨i, ·⟩)) = some (c.after i s o, o.map (⟨i, ·⟩)) := by
  induction es generalizing c o with
  | nil =>
    simp only [Machine.exec_nil, Option.some.injEq, Prod.mk.injEq] at h
    obtain ⟨rfl, rfl⟩ := h
    simp [Snapshot.after]
  | cons e es ih =>
    obtain ⟨s₁, o₁, os, hs, hr, rfl⟩ := Machine.exec_cons.mp h
    have hstep : net.system.step c ⟨i, e⟩ = some (c.after i s₁ o₁, o₁.map (⟨i, ·⟩)) :=
      step_iff.mpr ⟨hsupplied e (List.mem_cons_self ..) _, s₁, o₁, hs, rfl, rfl⟩
    have hmore : ∀ e' ∈ es, ∀ s', (net.takes i s' e').all
        (fun p => (c.after i s₁ o₁).sent.any p) = true := by
      intro e' he' s'
      have hbefore := hsupplied e' (List.mem_cons_of_mem _ he') s'
      cases htakes : net.takes i s' e' with
      | none => rfl
      | some p =>
        rw [htakes, Option.all_some] at hbefore
        rw [Option.all_some, sent_after, List.any_append, hbefore, Bool.true_or]
    rw [← party_after_self (c := c) i s₁ o₁] at hr
    have hrest := ih hr hmore
    rw [List.map_cons, List.map_append]
    refine Machine.exec_cons.mpr ⟨_, _, _, hstep, ?_, rfl⟩
    rw [hrest]
    simp [Snapshot.after]

end Network

end Machines
