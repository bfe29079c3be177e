import Arinc615a.Host.Steps

/-!
# Replaced list transfers

A new list request aborts the list transfer that is active and takes its place.
The completion handler does not know which transfer it belongs to: it forgets
the active transfer and lets the operation fail. The completion of a replaced
transfer is harmless in the states in which both make no difference.
-/

namespace Arinc615a.Host

open Actions Actions.Action Machines
open Files Tftp

/-- A later list transfer was started. -/
def Superseded (tr : List Output) (operation : TransferId) : Prop :=
  ∃ remote newer checkValue,
    Output.writeOperation remote newer (.listFile checkValue) ∈ tr ∧ operation < newer

/-- The event completes a list transfer that was replaced by a later one. -/
def CompletesReplaced (s : State) (tr : List Output) (e : Event) : Prop :=
  ∃ operation status data t checkValue, e = .serverCompleted operation status data ∧
    transfer? s operation = some t ∧ t.kind = .listFile checkValue ∧ Superseded tr operation

/-- The outputs that change the outcome of an operation. -/
def isOutcome : Output → Bool
  | .finished _ _ => true
  | .targetInformation _ _ => true
  | .downloadingList _ => true
  | .gracefulAbort _ _ _ => true
  | _ => false

/-- A step leaves the active list transfer and the outcome alone. -/
structure Harmless (s s' : State) (out : List Output) : Prop where
  listFileOperation_eq : s'.listFileOperation = s.listFileOperation
  abortReason_eq : s'.abortReason = s.abortReason
  noOutcome : ∀ o ∈ out, isOutcome o = false

/-- The list cannot be read, no list transfer is active, and a failed list makes
no difference: an abort is pending, and an information operation waits for the
final status. -/
def WithoutEffect (cfg : Configuration) (s : State) : Event → Prop
  | .serverCompleted _ status data =>
    ¬ ListDelivered cfg status data ∧ s.listFileOperation = none ∧
      s.abortReason ≠ .noAbort ∧ (cfg.operation = .information → s.waitForFinalStatus)
  | _ => False

/-- A call of the user's handler with a list changes the outcome. -/
theorem isOutcome_of_isList {call : Call} (h : call.isList) : isOutcome call.output = true := by
  cases call <;> first | rfl | cases h

/-- A list that fails changes the abort reason or the outcome, unless an abort
is pending and an information operation waits for the final status. -/
theorem listFailure_harmless_iff (cfg : Configuration) {s t : State}
    (hreason : t.abortReason = s.abortReason) :
    (((listFailure cfg s).state cfg t).abortReason = s.abortReason ∧
        ∀ o ∈ (listFailure cfg s).out cfg t, isOutcome o = false) ↔
      s.abortReason ≠ .noAbort ∧ (cfg.operation = .information → s.waitForFinalStatus) := by
  unfold listFailure
  split
  · rename_i hends
    simp [Reaction.out, isOutcome, hends]
  · rename_i hgoes
    have hwait : cfg.operation = .information → s.waitForFinalStatus = true := fun hop =>
      Bool.not_eq_false _ ▸ fun hfalse => hgoes ⟨hop, hfalse⟩
    simp only [Reaction.state, Reaction.out, hreason]
    split
    · rename_i hnone
      simp [hnone]
    · rename_i hsome
      simp only [List.not_mem_nil, false_imp_iff, implies_true, and_true, hreason, hsome, ne_eq,
        not_false_eq_true, true_and, true_iff]
      exact hwait

/-- The member for the active list is reset, whatever becomes of the list. -/
theorem listFailure_listFileOperation {cfg : Configuration} {s t : State} :
    ((listFailure cfg s).state cfg t).listFileOperation = t.listFileOperation := by
  unfold listFailure
  split
  · rfl
  · simp only [Reaction.state]
    split <;> rfl

/-- **List completions**: harmless exactly without effect. -/
theorem listCompleted_harmless_iff {cfg : Configuration} {s s' : State} (hs : Consistent s)
    {operation : TransferId} {status : LibraryTransferStatus} {data : RawData}
    {out : List Output} {t : Transfer} {checkValue : CheckValue}
    (ht : transfer? s operation = some t) (hkind : t.kind = .listFile checkValue)
    (h : (machine cfg).step s (.serverCompleted operation status data) = some (s', out)) :
    Harmless s s' out ↔ WithoutEffect cfg s (.serverCompleted operation status data) := by
  obtain ⟨r, hr, rfl, rfl⟩ := listCompleted_step hs ht hkind h
  rw [hkind]
  rcases listFileReaction_eq_some hr with ⟨hdelivered, call, hcall, rfl⟩ | ⟨hfailed, rfl⟩
  · constructor
    · intro hharmless
      have hnot : isOutcome call.output = false :=
        hharmless.noOutcome call.output (by simp [Reaction.out])
      rw [isOutcome_of_isList hcall] at hnot
      cases hnot
    · intro hnone
      exact absurd hdelivered hnone.1
  · -- The completion leaves the abort reason to the handler.
    have hsame : (s.completed operation (.listFile checkValue)).abortReason = s.abortReason :=
      rfl
    have hiff := listFailure_harmless_iff cfg hsame
    constructor
    · intro hharmless
      obtain ⟨habort, hwait⟩ := hiff.mp ⟨hharmless.abortReason_eq, hharmless.noOutcome⟩
      have hnone := hharmless.listFileOperation_eq
      rw [listFailure_listFileOperation] at hnone
      exact ⟨hfailed, hnone.symm, habort, hwait⟩
    · intro heffect
      rcases heffect with ⟨-, hnone, habort, hwait⟩
      obtain ⟨hreason, hout⟩ := hiff.mpr ⟨habort, hwait⟩
      exact ⟨listFailure_listFileOperation.trans hnone.symm, hreason, hout⟩

/-- **Replaced list transfers**: along a run, their completions are harmless
exactly if none has an effect. -/
theorem host_replacedList_iff (cfg : Configuration) (es : List Event) :
    (∀ pre tr s e s' out, (machine cfg).HasStep started es pre tr s e s' out →
        CompletesReplaced s tr e → Harmless s s' out) ↔
      ∀ pre tr s e s' out, (machine cfg).HasStep started es pre tr s e s' out →
        CompletesReplaced s tr e → WithoutEffect cfg s e := by
  have hstep : ∀ pre tr s e s' out, (machine cfg).HasStep started es pre tr s e s' out →
      CompletesReplaced s tr e → (Harmless s s' out ↔ WithoutEffect cfg s e) := by
    intro pre tr s e s' out htaken hreplaced
    rcases htaken with ⟨post, -, hpre, hs⟩
    rcases hreplaced with ⟨operation, status, data, t, cv, rfl, ht, hkind, -⟩
    exact listCompleted_harmless_iff (consistent_run hpre) ht hkind hs
  constructor
  · intro h pre tr s e s' out hs hreplaced
    exact (hstep pre tr s e s' out hs hreplaced).mp (h pre tr s e s' out hs hreplaced)
  · intro h pre tr s e s' out hs hreplaced
    exact (hstep pre tr s e s' out hs hreplaced).mpr (h pre tr s e s' out hs hreplaced)

/-- A target that sends its list again: the end of the first transfer ends the
operation, while the second one goes on. -/
theorem host_replacedList_finishes :
    ∃ tr s s' out,
      (machine (exampleConfiguration .information)).HasStep started
        [.tftpRequest (exampleRequest .write "HNPFMS_L.LCL"),
          .tftpRequest (exampleRequest .write "HNPFMS_L.LCL"),
          .serverCompleted 1 .aborted []]
        [.tftpRequest (exampleRequest .write "HNPFMS_L.LCL"),
          .tftpRequest (exampleRequest .write "HNPFMS_L.LCL")]
        tr s (.serverCompleted 1 .aborted []) s' out ∧
      CompletesReplaced s tr (.serverCompleted 1 .aborted []) ∧
      s.listFileOperation = some 2 ∧ ¬ Harmless s s' out := by
  refine ⟨_, _, _, _, ⟨[], rfl, rfl, rfl⟩, ?_, rfl, fun h => ?_⟩
  · exact ⟨1, .aborted, [], ⟨1, .listFile {}, true⟩, {}, rfl, rfl, rfl,
      ⟨0, 59⟩, 2, {}, by decide, by decide⟩
  · cases h.listFileOperation_eq

end Arinc615a.Host
