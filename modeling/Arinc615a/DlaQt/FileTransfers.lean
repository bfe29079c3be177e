import Arinc615a.Host.DownloadInformation
import Arinc615a.Lib.Action
import Arinc615a.Lib.Machine

/-!
# The file transfers of a download

`dla_qt/operations/MediaDefinedDownloadOperation.cpp`, which its operator defined
sibling repeats: each file that the target sends has a write operation, and its
start and its end are told to the download information. A file that is sent again
has a second operation under the name of the first.

`downloadInformation_iff` says when the records are those of the last attempts.
-/

namespace Arinc615a.DlaQt.FileTransfers

open Actions Actions.Action Machines
open Host Tftp

/-- A write operation, with the filename that its completion handler is bound
to. -/
structure WriteOperation where
  id : Nat
  filename : Str
  deriving DecidableEq

/-- Where the data of a file goes: `downloadDataPathV / normaliseFilename( filename )`. -/
structure Configuration where
  filePath : Str → Str

structure State where
  downloadInformation : DownloadInformation := {}
  fileOperations : List WriteOperation := []
  nextOperation : Nat := 0

inductive Output where
  /-- `file_size` throws, and the completion handler with it. -/
  | fileSizeThrew
  deriving DecidableEq

abbrev Handler := Action State Output Unit

/-! ## The functions -/

/-- `MediaDefinedDownloadOperation::fileRequest`. -/
def fileRequest (cfg : Configuration) (operation : WriteOperation) (partNumber : Str)
    (checkValue : CheckValue) (now : Int) : Handler :=
  modify fun s =>
    { downloadInformation := s.downloadInformation.fileStart now operation.filename
        (cfg.filePath operation.filename) partNumber checkValue
      fileOperations := operation :: s.fileOperations
      nextOperation := s.nextOperation + 1 }

/-- The status and the size that a transfer ends with. The size is the one of the
file, where it can be read. -/
def outcome (status : LibraryTransferStatus) (fileSize : Option UInt64) :
    Option (Str × UInt64) :=
  if status ≠ .successful then some (transferError, 0)
  else fileSize.map fun fileSize => (transferOk, fileSize)

/-- `MediaDefinedDownloadOperation::fileCompleted`, of an operation that is in the
list. -/
def fileCompleted (operation : WriteOperation) (status : LibraryTransferStatus)
    (fileSize : Option UInt64) (now : Int) : Handler := do
  modify fun s => { s with fileOperations := s.fileOperations.filter (· ≠ operation) }
  match outcome status fileSize with
  | some (status, fileSize) =>
    modify fun s =>
      { s with
        downloadInformation :=
          s.downloadInformation.fileFinished now operation.filename status fileSize }
  | none => emit .fileSizeThrew

/-! ## Events -/

inductive Event where
  /-- The target sends a file. -/
  | fileRequest (operation : WriteOperation) (partNumber : Str) (checkValue : CheckValue)
      (now : Int)
  /-- A transfer ends. -/
  | fileCompleted (operation : WriteOperation) (status : LibraryTransferStatus)
      (fileSize : Option UInt64) (now : Int)
  /-- The download ends. -/
  | finished (status : Str) (now : Int)
  deriving DecidableEq

/-- The reaction to an event, where it can happen. A new operation has a new
number, and each operation completes once. -/
def react (cfg : Configuration) : Event → Handler
  | .fileRequest operation partNumber checkValue now => do
    let s ← get
    require (operation.id = s.nextOperation)
    fileRequest cfg operation partNumber checkValue now
  | .fileCompleted operation status fileSize now => do
    let s ← get
    require (operation ∈ s.fileOperations)
    fileCompleted operation status fileSize now
  | .finished status now =>
    modify fun s => { s with downloadInformation := s.downloadInformation.finished now status }

/-- The transfers as a machine. -/
def machine (cfg : Configuration) : Machine State Event Output where
  step s e := (react cfg e).run s

theorem step_eq_some {cfg : Configuration} {s s' : State} {e : Event} {out : List Output} :
    (machine cfg).step s e = some (s', out) ↔ react cfg e s [] = some ((), s', out) :=
  run_eq_some

/-! ## The law -/

/-- The operation that an event starts. -/
def start? : Event → Option WriteOperation
  | .fileRequest operation .. => some operation
  | _ => none

/-- What an event tells of the end of an operation. -/
def end? : Event → Option (WriteOperation × (Str × UInt64))
  | .fileCompleted operation status fileSize _ =>
    (outcome status fileSize).map fun result => (operation, result)
  | _ => none

/-- The operations of a run, as they were started. -/
def starts (es : List Event) : List WriteOperation := es.filterMap start?

/-- The ends of operations, as they were told. -/
def ends (es : List Event) : List (WriteOperation × (Str × UInt64)) := es.filterMap end?

/-- The most recently started transfer of a file. -/
def lastStart (es : List Event) (filename : Str) : Option WriteOperation :=
  ((starts es).filter (·.filename = filename)).getLast?

/-- The transfer of a file that ended last, and how. -/
def lastEnd (es : List Event) (filename : Str) : Option (WriteOperation × (Str × UInt64)) :=
  ((ends es).filter (·.1.filename = filename)).getLast?

/-- The final status and the size of a transfer. -/
def resultOf (es : List Event) (operation : WriteOperation) : Option (Str × UInt64) :=
  ((ends es).find? (·.1 = operation)).map Prod.snd

/-- All transfers have ended. -/
def AllEnded (es : List Event) : Prop := ∀ operation ∈ starts es, resultOf es operation ≠ none

/-- The files that were sent. -/
def filenames (es : List Event) : Finset Str := ((starts es).map (·.filename)).toFinset

/-- The size of the most recently started transfer of a file. -/
def lastSize (es : List Event) (filename : Str) : Nat :=
  ((lastStart es filename).bind (resultOf es)).elim 0 (·.2.toNat)

/-- The download information is that of the most recently started transfers. -/
structure LastAttempts (es : List Event) (information : DownloadInformation) : Prop where
  records : ∀ filename operation, lastStart es filename = some operation →
    information.result filename = resultOf es operation
  overallSize : ∀ now status, (information.finished now status).overallStatus.2.toNat =
    ∑ filename ∈ filenames es, lastSize es filename

/-- Of each file, the transfer that ended last ended as the most recently started
one did, and the sizes of these fit the overall size. -/
structure EndsInOrder (es : List Event) : Prop where
  ends : ∀ filename operation operation' result, lastStart es filename = some operation →
    lastEnd es filename = some (operation', result) → resultOf es operation = some result
  fits : ∑ filename ∈ filenames es, lastSize es filename < 2 ^ 64

variable {cfg : Configuration} {s s' : State} {es : List Event} {e : Event}
  {tr out : List Output} {operation : WriteOperation} {filename : Str}

/-! ## What a step does -/

/-- The steps: what each needs of the state, and what it makes of it. -/
inductive Taken (cfg : Configuration) : State → Event → State → List Output → Prop where
  | requested {s : State} {operation : WriteOperation} {partNumber : Str}
      {checkValue : CheckValue} {now : Int} (h : operation.id = s.nextOperation) :
    Taken cfg s (.fileRequest operation partNumber checkValue now)
      { downloadInformation := s.downloadInformation.fileStart now operation.filename
          (cfg.filePath operation.filename) partNumber checkValue
        fileOperations := operation :: s.fileOperations
        nextOperation := s.nextOperation + 1 } []
  | ended {s : State} {operation : WriteOperation} {status : LibraryTransferStatus}
      {fileSize : Option UInt64} {now : Int} {result : Str × UInt64}
      (h : operation ∈ s.fileOperations) (hresult : outcome status fileSize = some result) :
    Taken cfg s (.fileCompleted operation status fileSize now)
      { s with
        fileOperations := s.fileOperations.filter (· ≠ operation)
        downloadInformation :=
          s.downloadInformation.fileFinished now operation.filename result.1 result.2 } []
  | threw {s : State} {operation : WriteOperation} {status : LibraryTransferStatus}
      {fileSize : Option UInt64} {now : Int} (h : operation ∈ s.fileOperations)
      (hresult : outcome status fileSize = none) :
    Taken cfg s (.fileCompleted operation status fileSize now)
      { s with fileOperations := s.fileOperations.filter (· ≠ operation) } [.fileSizeThrew]
  | finished {s : State} {status : Str} {now : Int} :
    Taken cfg s (.finished status now)
      { s with downloadInformation := s.downloadInformation.finished now status } []

/-- Every step is one of these. -/
theorem taken_of_step (h : (machine cfg).step s e = some (s', out)) : Taken cfg s e s' out := by
  rw [step_eq_some] at h
  cases e with
  | fileRequest operation partNumber checkValue now =>
    simp only [react, get_bind, require_bind_eq_some, fileRequest, modify_apply] at h
    obtain ⟨hid, h⟩ := h
    cases h
    exact .requested hid
  | fileCompleted operation status fileSize now =>
    simp only [react, get_bind, require_bind_eq_some, fileCompleted, modify_bind] at h
    obtain ⟨hmem, h⟩ := h
    cases hresult : outcome status fileSize with
    | some result =>
      rw [hresult] at h
      cases h
      exact .ended hmem hresult
    | none =>
      rw [hresult] at h
      cases h
      exact .threw hmem hresult
  | finished status now =>
    cases h
    exact .finished

/-! ## The history -/

theorem starts_append (es : List Event) (e : Event) :
    starts (es ++ [e]) = starts es ++ (start? e).toList :=
  filterMap_concat start? es e

theorem ends_append (es : List Event) (e : Event) :
    ends (es ++ [e]) = ends es ++ (end? e).toList :=
  filterMap_concat end? es e

/-- What started or ended last is behind a step as before, unless it starts or
ends one. -/
theorem lastStart_append (filename : Str) (h : start? e = none) :
    lastStart (es ++ [e]) filename = lastStart es filename := by
  rw [lastStart, starts_append, h, Option.toList_none, List.append_nil, lastStart]

theorem lastEnd_append (filename : Str) (h : end? e = none) :
    lastEnd (es ++ [e]) filename = lastEnd es filename := by
  rw [lastEnd, ends_append, h, Option.toList_none, List.append_nil, lastEnd]

theorem resultOf_append (operation : WriteOperation) (h : end? e = none) :
    resultOf (es ++ [e]) operation = resultOf es operation := by
  rw [resultOf, ends_append, h, Option.toList_none, List.append_nil, resultOf]

theorem lastStart_append_start (filename : Str) (h : start? e = some operation) :
    lastStart (es ++ [e]) filename =
      if operation.filename = filename then some operation else lastStart es filename := by
  rw [lastStart, starts_append, h, Option.toList_some, getLast?_filter_concat, lastStart]
  simp only [decide_eq_true_eq]

theorem lastEnd_append_end {result : Str × UInt64} (filename : Str)
    (h : end? e = some (operation, result)) :
    lastEnd (es ++ [e]) filename =
      if operation.filename = filename then some (operation, result)
      else lastEnd es filename := by
  rw [lastEnd, ends_append, h, Option.toList_some, getLast?_filter_concat, lastEnd]
  simp only [decide_eq_true_eq]

/-- The end of an operation says nothing of another one. -/
theorem resultOf_append_end {result : Str × UInt64} {other : WriteOperation}
    (h : end? e = some (operation, result)) (hne : other ≠ operation) :
    resultOf (es ++ [e]) other = resultOf es other := by
  rw [resultOf, ends_append, h, Option.toList_some, List.find?_append,
    List.find?_cons_of_neg (by simpa using hne.symm), List.find?_nil, Option.or_none, resultOf]

theorem mem_of_lastStart (h : lastStart es filename = some operation) :
    operation ∈ starts es ∧ operation.filename = filename := by
  obtain ⟨hmem, hname⟩ := List.mem_filter.mp (List.mem_of_getLast? h)
  exact ⟨hmem, of_decide_eq_true hname⟩

/-- An operation that has ended has an end that was told. -/
theorem resultOf_ne_none_iff :
    resultOf es operation ≠ none ↔ ∃ result, (operation, result) ∈ ends es := by
  rw [resultOf, ne_eq, Option.map_eq_none_iff, List.find?_eq_none]
  constructor
  · intro h
    simp only [decide_eq_true_eq, not_forall, not_not] at h
    obtain ⟨⟨_, result⟩, hmem, rfl⟩ := h
    exact ⟨result, hmem⟩
  · intro h hall
    obtain ⟨result, hmem⟩ := h
    simpa using hall _ hmem

/-! ## The records -/

/-- What the state knows of the run. -/
structure Records (es : List Event) (s : State) : Prop where
  numbered : ∀ operation ∈ starts es, operation.id < s.nextOperation
  pending : ∀ operation ∈ s.fileOperations, operation ∈ starts es
  started : ∀ ended ∈ ends es, ended.1 ∈ starts es
  /-- The files that were sent have a record. -/
  known : ∀ filename, filename ∈ filenames es ↔ s.downloadInformation.result filename ≠ none
  /-- Once the most recently started transfer has ended, it is the record of the
  one that ended last. -/
  last : ∀ filename operation, lastStart es filename = some operation →
    resultOf es operation ≠ none →
      s.downloadInformation.result filename = (lastEnd es filename).map Prod.snd

theorem mem_filenames : filename ∈ filenames es ↔
    ∃ operation ∈ starts es, operation.filename = filename := by
  rw [filenames, List.mem_toFinset, List.mem_map]

/-- A start adds its file. -/
theorem mem_filenames_append (h : start? e = some operation) :
    filename ∈ filenames (es ++ [e]) ↔
      operation.filename = filename ∨ filename ∈ filenames es := by
  rw [mem_filenames, mem_filenames, starts_append, h, Option.toList_some]
  constructor
  · intro hmem
    obtain ⟨other, hother, hname⟩ := hmem
    rcases List.mem_append.mp hother with hold | hnew
    · exact .inr ⟨other, hold, hname⟩
    · rw [List.mem_singleton.mp hnew] at hname
      exact .inl hname
  · intro hname
    rcases hname with hname | ⟨other, hold, hname⟩
    · exact ⟨operation, List.mem_append_right _ (List.mem_singleton_self _), hname⟩
    · exact ⟨other, List.mem_append_left _ hold, hname⟩

theorem filenames_append (h : start? e = none) : filenames (es ++ [e]) = filenames es := by
  rw [filenames, starts_append, h, Option.toList_none, List.append_nil, filenames]

/-- A step that starts and ends no transfer. -/
theorem Records.same (hs : Records es s) (hstart : start? e = none) (hend : end? e = none)
    (hoperations : ∀ operation ∈ s'.fileOperations, operation ∈ s.fileOperations)
    (hnext : s'.nextOperation = s.nextOperation)
    (hresult : ∀ filename, s'.downloadInformation.result filename =
      s.downloadInformation.result filename) : Records (es ++ [e]) s' := by
  have hstarts : starts (es ++ [e]) = starts es := by
    rw [starts_append, hstart, Option.toList_none, List.append_nil]
  have hends : ends (es ++ [e]) = ends es := by
    rw [ends_append, hend, Option.toList_none, List.append_nil]
  refine ⟨?_, ?_, ?_, ?_, ?_⟩
  · rw [hstarts, hnext]
    exact hs.numbered
  · rw [hstarts]
    exact fun operation hmem => hs.pending operation (hoperations operation hmem)
  · rw [hstarts, hends]
    exact hs.started
  · intro filename
    rw [filenames_append hstart, hresult]
    exact hs.known filename
  · intro filename operation
    rw [lastStart_append filename hstart, resultOf_append operation hend, hresult,
      lastEnd_append filename hend]
    exact hs.last filename operation

/-- A step that starts a transfer. -/
theorem Records.requested {partNumber : Str} {checkValue : CheckValue} {now : Int}
    (hs : Records es s) (hid : operation.id = s.nextOperation) :
    Records (es ++ [.fileRequest operation partNumber checkValue now])
      { downloadInformation := s.downloadInformation.fileStart now operation.filename
          (cfg.filePath operation.filename) partNumber checkValue
        fileOperations := operation :: s.fileOperations
        nextOperation := s.nextOperation + 1 } := by
  have hstart : start? (.fileRequest operation partNumber checkValue now) = some operation := rfl
  have hend : end? (.fileRequest operation partNumber checkValue now) = none := rfl
  have hstarts : starts (es ++ [.fileRequest operation partNumber checkValue now]) =
      starts es ++ [operation] := starts_append _ _
  refine ⟨?_, ?_, ?_, ?_, ?_⟩
  · intro other hmem
    show other.id < s.nextOperation + 1
    rw [hstarts] at hmem
    rcases List.mem_append.mp hmem with hold | hnew
    · exact Nat.lt_succ_of_lt (hs.numbered other hold)
    · rw [List.mem_singleton.mp hnew, hid]
      omega
  · intro other hmem
    rw [hstarts]
    rcases List.mem_cons.mp hmem with rfl | hold
    · exact List.mem_append_right _ (List.mem_singleton_self _)
    · exact List.mem_append_left _ (hs.pending other hold)
  · intro ended hmem
    rw [ends_append, hend, Option.toList_none, List.append_nil] at hmem
    rw [hstarts]
    exact List.mem_append_left _ (hs.started ended hmem)
  · intro filename
    rw [mem_filenames_append hstart, DownloadInformation.result_fileStart]
    by_cases hname : operation.filename = filename
    · simp [hname]
    · rw [if_neg hname, ← hs.known filename, or_iff_right hname]
  · intro filename other hlast
    rw [lastStart_append_start filename hstart] at hlast
    rw [resultOf_append other hend, lastEnd_append filename hend,
      DownloadInformation.result_fileStart]
    intro hresult
    by_cases hname : operation.filename = filename
    · -- The new operation has not ended, since its number is new.
      exfalso
      rw [if_pos hname, Option.some.injEq] at hlast
      subst hlast
      obtain ⟨result, hmem⟩ := resultOf_ne_none_iff.mp hresult
      have hlt := hs.numbered operation (hs.started _ hmem)
      omega
    · rw [if_neg hname] at hlast ⊢
      exact hs.last filename other hlast hresult

/-- A step that ends a transfer. -/
theorem Records.ended {result : Str × UInt64} {now : Int} (hs : Records es s)
    (hmem : operation ∈ s.fileOperations) (hstart : start? e = none)
    (hend : end? e = some (operation, result)) :
    Records (es ++ [e])
      { s with
        fileOperations := s.fileOperations.filter (· ≠ operation)
        downloadInformation :=
          s.downloadInformation.fileFinished now operation.filename result.1 result.2 } := by
  have hstarts : starts (es ++ [e]) = starts es := by
    rw [starts_append, hstart, Option.toList_none, List.append_nil]
  refine ⟨?_, ?_, ?_, ?_, ?_⟩
  · rw [hstarts]
    exact hs.numbered
  · intro other hother
    rw [hstarts]
    exact hs.pending other (List.mem_filter.mp hother).1
  · intro ended hended
    rw [hstarts]
    rw [ends_append, hend, Option.toList_some] at hended
    rcases List.mem_append.mp hended with hold | hnew
    · exact hs.started ended hold
    · rw [List.mem_singleton.mp hnew]
      exact hs.pending operation hmem
  · intro filename
    rw [filenames_append hstart, DownloadInformation.result_fileFinished]
    by_cases hname : operation.filename = filename
    · rw [if_pos hname]
      exact iff_of_true (mem_filenames.mpr ⟨operation, hs.pending operation hmem, hname⟩)
        (Option.some_ne_none _)
    · rw [if_neg hname]
      exact hs.known filename
  · intro filename other hlast
    rw [lastStart_append filename hstart] at hlast
    rw [lastEnd_append_end filename hend, DownloadInformation.result_fileFinished]
    intro hresult
    by_cases hname : operation.filename = filename
    · rw [if_pos hname, if_pos hname]
      rfl
    · have hne : other ≠ operation := by
        rintro rfl
        exact hname (mem_of_lastStart hlast).2
      rw [resultOf_append_end hend hne] at hresult
      rw [if_neg hname, if_neg hname]
      exact hs.last filename other hlast hresult

theorem records_step (hs : Records es s) (h : (machine cfg).step s e = some (s', out)) :
    Records (es ++ [e]) s' := by
  cases taken_of_step h with
  | requested hid => exact hs.requested hid
  | ended hmem hresult =>
    exact hs.ended hmem rfl (by rw [end?, hresult, Option.map_some])
  | threw hmem hresult =>
    exact hs.same rfl (by rw [end?, hresult, Option.map_none])
      (fun operation hoperation => (List.mem_filter.mp hoperation).1) rfl fun _ => rfl
  | finished => exact hs.same rfl rfl (fun _ hoperation => hoperation) rfl fun _ => rfl

/-- **The records** of a run. -/
theorem records_run (h : (machine cfg).exec {} es = some (s, tr)) : Records es s := by
  refine Machine.exec_history (fun es s _ => Records es s) ?_ ?_ h
  · refine ⟨by simp [starts], by simp, by simp [ends], ?_, by simp [lastStart, starts]⟩
    intro filename
    simp [filenames, starts, DownloadInformation.result]
  · intro es s tr e s' out _ hs hstep
    exact records_step hs hstep

/-! ## The last attempts -/

theorem exists_lastEnd (h : lastStart es filename = some operation)
    (hended : resultOf es operation ≠ none) : ∃ ended, lastEnd es filename = some ended := by
  obtain ⟨result, hmem⟩ := resultOf_ne_none_iff.mp hended
  rw [← Option.isSome_iff_exists, lastEnd, List.getLast?_isSome]
  apply List.ne_nil_of_mem (a := (operation, result))
  exact List.mem_filter.mpr ⟨hmem, by simpa using (mem_of_lastStart h).2⟩

theorem exists_lastStart (h : filename ∈ filenames es) :
    ∃ operation, lastStart es filename = some operation := by
  obtain ⟨operation, hmem, hname⟩ := mem_filenames.mp h
  rw [← Option.isSome_iff_exists, lastStart, List.getLast?_isSome]
  apply List.ne_nil_of_mem (a := operation)
  exact List.mem_filter.mpr ⟨hmem, by simpa using hname⟩

/-- Once all transfers have ended, a record is that of the one that ended last. -/
theorem Records.result_eq (hs : Records es s) (hended : AllEnded es)
    (hlast : lastStart es filename = some operation) :
    ∃ operation' result, lastEnd es filename = some (operation', result) ∧
      s.downloadInformation.result filename = some result := by
  have hresult := hended operation (mem_of_lastStart hlast).1
  obtain ⟨⟨operation', result⟩, hend⟩ := exists_lastEnd hlast hresult
  refine ⟨operation', result, hend, ?_⟩
  rw [hs.last filename operation hlast hresult, hend]
  rfl

/-- The records are those of the last attempts if these ended last. -/
theorem Records.records_iff (hs : Records es s) (hended : AllEnded es) :
    (∀ filename operation, lastStart es filename = some operation →
      s.downloadInformation.result filename = resultOf es operation) ↔
    ∀ filename operation operation' result, lastStart es filename = some operation →
      lastEnd es filename = some (operation', result) → resultOf es operation = some result := by
  constructor
  · intro hrecords filename operation operation' result hlast hend
    obtain ⟨ended, result', hend', hresult⟩ := hs.result_eq hended hlast
    rw [hend', Option.some.injEq, Prod.mk.injEq] at hend
    rw [← hrecords filename operation hlast, hresult, hend.2]
  · intro hends filename operation hlast
    obtain ⟨operation', result, hend, hresult⟩ := hs.result_eq hended hlast
    rw [hresult, hends filename operation operation' result hlast hend]

/-- The overall size of such records. -/
theorem Records.toNat_overallSize (hs : Records es s)
    (hrecords : ∀ filename operation, lastStart es filename = some operation →
      s.downloadInformation.result filename = resultOf es operation) :
    s.downloadInformation.overallSize.toNat =
      (∑ filename ∈ filenames es, lastSize es filename) % 2 ^ 64 := by
  rw [DownloadInformation.toNat_overallSize _ hs.known]
  congr 1
  apply Finset.sum_congr rfl
  intro filename hmem
  obtain ⟨operation, hlast⟩ := exists_lastStart hmem
  rw [lastSize, hlast, hrecords filename operation hlast, Option.bind_some]

/-- **Download statistics**: once all transfers have ended, the records and the
overall size are those of the most recently started transfers exactly if these
ended last, or as the last ones did, and the sum of their sizes fits. -/
theorem downloadInformation_iff (h : (machine cfg).exec {} es = some (s, tr))
    (hended : AllEnded es) : LastAttempts es s.downloadInformation ↔ EndsInOrder es := by
  have hs : Records es s := records_run h
  constructor
  · intro hlast
    refine ⟨(hs.records_iff hended).mp hlast.records, ?_⟩
    rw [← hlast.overallSize 0 []]
    exact UInt64.toNat_lt _
  · intro horder
    have hrecords := (hs.records_iff hended).mpr horder.ends
    refine ⟨hrecords, fun now status => ?_⟩
    show s.downloadInformation.overallSize.toNat = _
    rw [hs.toNat_overallSize hrecords, Nat.mod_eq_of_lt horder.fits]

/-- A file that is sent twice, and two ends of its transfers. -/
def sentTwice (end₁ end₂ : Event) : List Event :=
  [.fileRequest ⟨0, str "FILE"⟩ [] {} 0, .fileRequest ⟨1, str "FILE"⟩ [] {} 1, end₁, end₂]

/-- The first transfer fails. -/
def fails : Event := .fileCompleted ⟨0, str "FILE"⟩ .transferError none 2

/-- The second one succeeds, with ten bytes. -/
def succeeds : Event := .fileCompleted ⟨1, str "FILE"⟩ .successful (some 10) 3

/-- The failure ends before the success. -/
theorem downloadInformation_ordered :
    ∃ s tr, (machine ⟨id⟩).exec {} (sentTwice fails succeeds) = some (s, tr) ∧
      LastAttempts (sentTwice fails succeeds) s.downloadInformation := by
  have hended : AllEnded (sentTwice fails succeeds) := by
    unfold AllEnded
    decide
  refine ⟨_, _, rfl, (@downloadInformation_iff ⟨id⟩ _ _ _ rfl hended).mpr ⟨?_, by decide⟩⟩
  intro filename operation operation' result hlast hend
  obtain ⟨hmem, rfl⟩ := mem_of_lastStart hlast
  have hnames : ∀ operation ∈ starts (sentTwice fails succeeds),
      operation.filename = str "FILE" := by decide
  have hname := hnames operation hmem
  have hsecond : lastStart (sentTwice fails succeeds) (str "FILE") = some ⟨1, str "FILE"⟩ := by
    decide
  have hsuccess : lastEnd (sentTwice fails succeeds) (str "FILE") =
      some (⟨1, str "FILE"⟩, transferOk, 10) := by decide
  rw [hname, hsecond] at hlast
  rw [hname, hsuccess] at hend
  cases hlast
  cases hend
  decide

/-- It ends behind the success: the record says that the file failed. -/
theorem downloadInformation_late :
    ¬ ∀ (cfg : Configuration) (es : List Event) (s : State) (tr : List Output),
      (machine cfg).exec {} es = some (s, tr) → AllEnded es →
        LastAttempts es s.downloadInformation := by
  intro h
  have hended : AllEnded (sentTwice succeeds fails) := by
    unfold AllEnded
    decide
  have hlast := h ⟨id⟩ (sentTwice succeeds fails) _ _ rfl hended
  have hrecords := hlast.records (str "FILE") ⟨1, str "FILE"⟩ (by decide)
  have hresult := (@records_run ⟨id⟩ _ (sentTwice succeeds fails) _ rfl).last (str "FILE")
    ⟨1, str "FILE"⟩ (by decide) (by decide)
  rw [hrecords] at hresult
  exact absurd hresult (by decide)

end Arinc615a.DlaQt.FileTransfers
