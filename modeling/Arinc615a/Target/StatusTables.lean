import Arinc615a.Lib.TableMap
import Arinc615a.Target.LoadResults

/-!
# The tables of the status

The status of an upload has a table of loads, the one of a download a table of
files. The calls of the application look an entry up by its name, or append it;
seen from outside, the tables are maps from names to what was reported last
(`LoadTable`, `FileTable`), as long as a name is accepted before it is reported
otherwise. That a description is additional information is lost where the
description is moved before it is looked at (`target_statusTables_iff`).
-/

namespace Arinc615a.Target

open Machines Tables
open Information Tftp

/-! ## The law -/

/-- The call of an event. -/
def call? : Event → Option ApplicationCall
  | .application call => some call
  | _ => none

/-- The calls of a run. -/
def calls (es : List Event) : List ApplicationCall := es.filterMap call?

/-- The load that a call names. -/
def ApplicationCall.load? : ApplicationCall → Option Str
  | loadAccepted headerFilename _ => some headerFilename
  | loadInProgress headerFilename _ _ => some headerFilename
  | loadFinished headerFilename _ _ => some headerFilename
  | _ => none

/-- The file that a call names. -/
def ApplicationCall.file? : ApplicationCall → Option Str
  | fileAccepted filename => some filename
  | fileInProgress filename _ => some filename
  | fileFinished filename _ _ => some filename
  | _ => none

/-- A load or file is accepted once at most, and before any other call names it. -/
structure AcceptedFirst (calls : List ApplicationCall) : Prop where
  loads : ∀ before headerFilename partNumber after,
    calls = before ++ .loadAccepted headerFilename partNumber :: after →
      ∀ call ∈ before, call.load? ≠ some headerFilename
  files : ∀ before filename after, calls = before ++ .fileAccepted filename :: after →
    ∀ call ∈ before, call.file? ≠ some filename

/-- The ratio that a call reports of a load. -/
def ApplicationCall.ratio? (name : Str) : ApplicationCall → Option Ratio
  | loadAccepted headerFilename _ => if headerFilename = name then some .zero else none
  | loadInProgress headerFilename ratio _ => if headerFilename = name then some ratio else none
  | _ => none

/-- The part number that a load is accepted with. -/
def ApplicationCall.partNumber? (name : Str) : ApplicationCall → Option Str
  | loadAccepted headerFilename partNumber =>
    if headerFilename = name then some partNumber else none
  | _ => none

/-- The codes of a load or file that is done: the ones that a final status has. -/
def isFinalCode : StatusCode → Bool
  | .operationCompleted | .operationAbortedByTargetHw | .operationAbortedByDlp
  | .operationAbortedByOperator | .loadPartNumberOrDownloadFileFailed => true
  | _ => false

/-- The code of a progress: a description is additional information. -/
def progressCode (description : Str) : StatusCode :=
  if description = [] then .operationInProgress else .operationInProgressAdditionalInfo

/-- The code and the description that a call reports of a load. -/
def loadOutcome? (name : Str) : ApplicationCall → Option (StatusCode × Str)
  | .loadAccepted headerFilename _ =>
    if headerFilename = name then some (.operationAccepted, []) else none
  | .loadInProgress headerFilename _ description =>
    if headerFilename = name then some (progressCode description, description) else none
  | .loadFinished headerFilename finalStatus description =>
    if headerFilename = name then some (statusCodeOfFinalStatus finalStatus, description)
    else none
  | _ => none

/-- The same of a file. -/
def fileOutcome? (name : Str) : ApplicationCall → Option (StatusCode × Str)
  | .fileAccepted filename => if filename = name then some (.operationAccepted, []) else none
  | .fileInProgress filename description =>
    if filename = name then some (progressCode description, description) else none
  | .fileFinished filename finalStatus description =>
    if filename = name then some (statusCodeOfFinalStatus finalStatus, description) else none
  | _ => none

/-- What a call finishes all loads with. -/
def loadsFinished? : ApplicationCall → Option (FinalStatus × Str)
  | .loadsFinished finalStatus description => some (finalStatus, description)
  | _ => none

/-- What a call finishes all files with. -/
def filesFinished? : ApplicationCall → Option (FinalStatus × Str)
  | .filesFinished finalStatus description => some (finalStatus, description)
  | _ => none

/-- What a call that finishes all makes of one code and description. -/
def finishOutcome (finished : FinalStatus × Str) (outcome : StatusCode × Str) :
    StatusCode × Str :=
  if isFinalCode outcome.1 then outcome
  else (statusCodeOfFinalStatus finished.1, finished.2)

/-- The code and the description of a name behind a call: what the call reports, or
what was there, which a call that finishes all may change. -/
def outcomeBehind (outcome? : ApplicationCall → Option (StatusCode × Str))
    (finished? : ApplicationCall → Option (FinalStatus × Str))
    (outcome : Option (StatusCode × Str)) (call : ApplicationCall) :
    Option (StatusCode × Str) :=
  (outcome? call).or (outcome.map ((finished? call).elim id finishOutcome))

/-- The code and the description that were reported last. -/
def lastOutcome (outcome? : ApplicationCall → Option (StatusCode × Str))
    (finished? : ApplicationCall → Option (FinalStatus × Str)) (calls : List ApplicationCall) :
    Option (StatusCode × Str) :=
  calls.foldl (outcomeBehind outcome? finished?) none

/-- The table of loads has an entry for each load that was named, in the order in which
that was done first, with what was reported last. -/
structure LoadTable (calls : List ApplicationCall) (loads : List UploadLoadStatus) :
    Prop where
  names : loads.map (·.headerFilename) = (calls.filterMap (·.load?)).eraseDups
  nodup : (loads.map (·.headerFilename)).Nodup
  partNumber : ∀ load ∈ loads, load.partNumber =
    (calls.filterMap (·.partNumber? load.headerFilename)).getLast?.getD []
  ratio : ∀ load ∈ loads, load.ratio =
    (calls.filterMap (·.ratio? load.headerFilename)).getLast?.getD .zero
  outcome : ∀ load ∈ loads, some (load.code, load.description) =
    lastOutcome (loadOutcome? load.headerFilename) loadsFinished? calls

/-- So has the table of files. -/
structure FileTable (calls : List ApplicationCall) (files : List DownloadFileStatus) :
    Prop where
  names : files.map (·.filename) = (calls.filterMap (·.file?)).eraseDups
  nodup : (files.map (·.filename)).Nodup
  outcome : ∀ file ∈ files, some (file.code, file.description) =
    lastOutcome (fileOutcome? file.filename) filesFinished? calls

/-- A load before and behind the call that finishes all: only a code that is no final
one is changed, and with it the description. -/
structure LoadFinishes (finalStatus : FinalStatus) (description : Str)
    (load load' : UploadLoadStatus) : Prop where
  headerFilename : load'.headerFilename = load.headerFilename
  partNumber : load'.partNumber = load.partNumber
  ratio : load'.ratio = load.ratio
  kept : load' = load ↔ isFinalCode load.code = true
  finished : load' ≠ load →
    load'.code = statusCodeOfFinalStatus finalStatus ∧ load'.description = description

/-- The same of a file. -/
structure FileFinishes (finalStatus : FinalStatus) (description : Str)
    (file file' : DownloadFileStatus) : Prop where
  filename : file'.filename = file.filename
  kept : file' = file ↔ isFinalCode file.code = true
  finished : file' ≠ file →
    file'.code = statusCodeOfFinalStatus finalStatus ∧ file'.description = description

/-- What the calls make of the tables of an operation, and the one that finishes all of
what is in there. -/
structure StatusTablesLaw (cfg : Configuration) (calls : List ApplicationCall) (s : State) :
    Prop where
  upload : operationClass cfg.operation = .upload → ∃ status, s.status = .upload status ∧
    LoadTable calls status.loads ∧
    ∀ finalStatus description s' out,
      (machine cfg).step s (.application (.loadsFinished finalStatus description)) =
          some (s', out) →
        ∃ status', s'.status = .upload status' ∧
          List.Forall₂ (LoadFinishes finalStatus description) status.loads status'.loads
  download : operationClass cfg.operation = .download → ∃ status, s.status = .download status ∧
    FileTable calls status.files ∧
    ∀ finalStatus description s' out,
      (machine cfg).step s (.application (.filesFinished finalStatus description)) =
          some (s', out) →
        ∃ status', s'.status = .download status' ∧
          List.Forall₂ (FileFinishes finalStatus description) status.files status'.files

/-- The call tells a progress with a description. -/
def ApplicationCall.isDescribed : ApplicationCall → Bool
  | loadInProgress _ _ description => description ≠ []
  | fileInProgress _ description => description ≠ []
  | _ => false

/-- The last call that names one, or finishes all. -/
def lastReport (name? : ApplicationCall → Option Str)
    (finished? : ApplicationCall → Option (FinalStatus × Str)) (name : Str)
    (calls : List ApplicationCall) : Option ApplicationCall :=
  (calls.filter fun call => name? call = some name || (finished? call).isSome).getLast?

/-- The last that was told of one is a progress with a description. -/
def EndsDescribed (name? : ApplicationCall → Option Str)
    (finished? : ApplicationCall → Option (FinalStatus × Str)) (calls : List ApplicationCall) :
    Prop :=
  ∃ name, ∃ call ∈ lastReport name? finished? name calls, call.isDescribed = true

/-- A load of an upload is left so, or a file of a download. -/
def LeavesDescribed (cfg : Configuration) (calls : List ApplicationCall) : Prop :=
  (operationClass cfg.operation = .upload ∧ EndsDescribed (·.load?) loadsFinished? calls) ∨
    (operationClass cfg.operation = .download ∧ EndsDescribed (·.file?) filesFinished? calls)

variable {cfg : Configuration} {s s' : State} {e : Event} {out : List Output}

/-! ## The tables behind a step -/

/-- The loads of a status. -/
def loads : OperationStatus → List UploadLoadStatus
  | .upload status => status.loads
  | _ => []

/-- The files of a status. -/
def files : OperationStatus → List DownloadFileStatus
  | .download status => status.files
  | _ => []

theorem loads_update (f : Status → Status) (status : OperationStatus) :
    loads (status.update f) = loads status := by
  cases status <;> rfl

theorem files_update (f : Status → Status) (status : OperationStatus) :
    files (status.update f) = files status := by
  cases status <;> rfl

section

-- What the part of the status that all operations share does not show in.
variable {β : Type} {p : OperationStatus → β} (hp : ∀ f status, p (status.update f) = p status)
include hp

theorem keeps_statusToSend (status : OperationStatus) : p (statusToSend status) = p status := by
  unfold statusToSend
  split
  · exact hp _ status
  · rfl

/-- An event that is no call leaves it alone. -/
theorem keeps_step (he : call? e = none) (hstep : (machine cfg).step s e = some (s', out)) :
    p s'.status = p s.status := by
  obtain ⟨r, hr, hresult⟩ := step_iff.mp hstep
  have hupdated : p (r.updated cfg s.status) = p s.status := by
    refine updated_cases (P := fun status => p status = p s.status) hr rfl ?_ ?_ ?_
    · intro f hf
      obtain ⟨code, description, estimatedTime, rfl, -, -⟩ := hf.ownReport
      exact hp _ s.status
    · intro call hcall
      rw [hcall] at he
      cases he
    · exact fun status h => (keeps_statusToSend hp status).trans h
  obtain hs' | hs' := status_result hresult
  · rw [hs', status_taken, hupdated]
  · rw [hs', status_taken, hp, hupdated]

/-- A call changes it as it says. -/
theorem call_step {call : ApplicationCall}
    (hstep : (machine cfg).step s (.application call) = some (s', out)) :
    p s'.status = p (callUpdate cfg call s.status) := by
  obtain ⟨r, hr, hresult⟩ := step_iff.mp hstep
  have hupdated : p (r.updated cfg s.status) = p (callUpdate cfg call s.status) := by
    cases callReaction_of_reaction hr with
    | thrown hid =>
      rw [hid]
      rfl
    | sendList hid =>
      rw [hid]
      rfl
    | report htransmits =>
      simp only [Reaction.updated]
      split
      · exact keeps_statusToSend hp _
      · rfl
    | update hkeeps => rfl
  obtain hs' | hs' := status_result hresult
  · rw [hs', status_taken, hupdated]
  · rw [hs', status_taken, hp, hupdated]

end

/-! ## The operations on the tables -/

/-- A load that was not accepted. -/
def freshLoad (headerFilename : Str) : UploadLoadStatus :=
  { headerFilename := headerFilename, partNumber := [] }

/-- A file that was not accepted. -/
def freshFile (filename : Str) : DownloadFileStatus := { filename := filename }

/-- What a call does to the table of loads. -/
def loadOperation (cfg : Configuration) : ApplicationCall → Option (Operation Str UploadLoadStatus)
  | .loadAccepted headerFilename partNumber =>
    some (.add (UploadLoadStatus.set { headerFilename := headerFilename, partNumber := partNumber }
      .zero .operationAccepted []))
  | .loadInProgress headerFilename ratio description =>
    some (.set headerFilename (·.set ratio (inProgressCode cfg description) description))
  | .loadFinished headerFilename finalStatus description =>
    some (.set headerFilename fun load =>
      load.set load.ratio (statusCodeOfFinalStatus finalStatus) description)
  | .loadsFinished finalStatus description =>
    some (.all fun load =>
      if keepsFileStatus load.code then load
      else load.set load.ratio (statusCodeOfFinalStatus finalStatus) description)
  | _ => none

/-- What a call does to the table of files. -/
def fileOperation (cfg : Configuration) :
    ApplicationCall → Option (Operation Str DownloadFileStatus)
  | .fileAccepted filename =>
    some (.add (DownloadFileStatus.set { filename := filename } .operationAccepted []))
  | .fileInProgress filename description =>
    some (.set filename (·.set (inProgressCode cfg description) description))
  | .fileFinished filename finalStatus description =>
    some (.set filename (·.set (statusCodeOfFinalStatus finalStatus) description))
  | .filesFinished finalStatus description =>
    some (.all fun file =>
      if keepsFileStatus file.code then file
      else file.set (statusCodeOfFinalStatus finalStatus) description)
  | _ => none

theorem loads_callUpdate (call : ApplicationCall) {status : OperationStatus}
    (hclass : status.operationClass = .upload) :
    loads (callUpdate cfg call status) =
      (loadOperation cfg call).elim (loads status)
        fun op => op.apply (·.headerFilename) freshLoad (loads status) := by
  cases status with
  | upload status =>
    cases call with
    | loadInProgress headerFilename ratio description => exact UploadStatus.loads_setLoad ..
    | loadFinished headerFilename finalStatus description => exact UploadStatus.loads_setLoad ..
    | _ => rfl
  | _ => cases hclass

theorem files_callUpdate (call : ApplicationCall) {status : OperationStatus}
    (hclass : status.operationClass = .download) :
    files (callUpdate cfg call status) =
      (fileOperation cfg call).elim (files status)
        fun op => op.apply (·.filename) freshFile (files status) := by
  cases status with
  | download status =>
    cases call with
    | fileInProgress filename description => exact DownloadStatus.files_setFile ..
    | fileFinished filename finalStatus description => exact DownloadStatus.files_setFile ..
    | _ => rfl
  | _ => cases hclass

theorem calls_append (es : List Event) (e : Event) :
    calls (es ++ [e]) = calls es ++ (call? e).toList :=
  filterMap_concat call? es e

theorem eq_application {call : ApplicationCall} (h : call? e = some call) :
    e = .application call := by
  cases e <;> cases h
  rfl

section

variable {α : Type} {key : α → Str} {fresh : Str → α}
  {operation : ApplicationCall → Option (Operation Str α)}

/-- The table and the map behind one more call. -/
theorem run_calls_append (calls : List ApplicationCall) (call : ApplicationCall) :
    Tables.run key fresh ((calls ++ [call]).filterMap operation) =
      (operation call).elim (Tables.run key fresh (calls.filterMap operation))
        fun op => op.apply key fresh (Tables.run key fresh (calls.filterMap operation)) := by
  rw [filterMap_concat]
  cases operation call with
  | none => rw [Option.toList_none, List.append_nil, Option.elim_none]
  | some op => rw [Option.toList_some, run_append, Option.elim_some]

theorem writes_calls_append (calls : List ApplicationCall) (call : ApplicationCall) :
    writes key fresh ((calls ++ [call]).filterMap operation) =
      (operation call).elim (writes key fresh (calls.filterMap operation))
        fun op => op.write key fresh (writes key fresh (calls.filterMap operation)) := by
  rw [filterMap_concat]
  cases operation call with
  | none => rw [Option.toList_none, List.append_nil, Option.elim_none]
  | some op => rw [Option.toList_some, writes_append, Option.elim_some]

/-- **The table of a run** is the one that the calls make. -/
theorem table_run {p : OperationStatus → List α}
    (hp : ∀ f status, p (status.update f) = p status)
    (hinitial : p (initialStatus cfg.operation) = [])
    (hcalls : ∀ call status, status.operationClass = operationClass cfg.operation →
      p (callUpdate cfg call status) =
        (operation call).elim (p status) fun op => op.apply key fresh (p status))
    {hostAddress : Endpoint} {port : Option UInt16} {es : List Event} {tr : List Output}
    (h : (machine cfg).exec (started cfg hostAddress port) es = some (s, tr)) :
    p s.status = Tables.run key fresh ((calls es).filterMap operation) := by
  refine Machine.exec_history (fun es s _ =>
    p s.status = Tables.run key fresh ((calls es).filterMap operation)) hinitial ?_ h
  intro es s tr e s' out hexec ih hstep
  cases hcall : call? e with
  | none =>
    rw [keeps_step hp hcall hstep, ih, calls_append, hcall, Option.toList_none, List.append_nil]
  | some call =>
    obtain rfl := eq_application hcall
    rw [call_step hp hstep, hcalls call s.status (inClass_run hexec), ih, calls_append, hcall,
      Option.toList_some, run_calls_append]

end

/-! ## What was reported last -/

section

variable {outcome? : ApplicationCall → Option (StatusCode × Str)}
  {finished? : ApplicationCall → Option (FinalStatus × Str)}

/-- What was reported last, behind one more call. -/
theorem lastOutcome_append (outcome? : ApplicationCall → Option (StatusCode × Str))
    (finished? : ApplicationCall → Option (FinalStatus × Str)) (calls : List ApplicationCall)
    (call : ApplicationCall) :
    lastOutcome outcome? finished? (calls ++ [call]) =
      outcomeBehind outcome? finished? (lastOutcome outcome? finished? calls) call := by
  rw [lastOutcome, List.foldl_append, List.foldl_cons, List.foldl_nil, lastOutcome]

/-- What holds of each report, and of what all are finished with, holds of the last one. -/
theorem lastOutcome_of_reports {P : StatusCode × Str → Prop}
    (hreport : ∀ call, ∀ outcome ∈ outcome? call, P outcome)
    (hfinish : ∀ finished outcome, P outcome → P (finishOutcome finished outcome))
    (calls : List ApplicationCall) :
    ∀ outcome ∈ lastOutcome outcome? finished? calls, P outcome := by
  induction calls using List.reverseRecOn with
  | nil =>
    intro outcome h
    cases h
  | append_singleton calls call ih =>
    intro outcome h
    rw [lastOutcome_append, outcomeBehind] at h
    rcases Option.or_eq_some_iff.mp h with hcall | ⟨-, hbefore⟩
    · exact hreport call outcome hcall
    · obtain ⟨before, hlast, rfl⟩ := Option.map_eq_some_iff.mp hbefore
      cases finished? call with
      | none => exact ih before hlast
      | some finished => exact hfinish finished before (ih before hlast)

/-- The code of an entry: no load or file is told not to be accepted or supported. -/
def EntryCode (code : StatusCode) : Prop :=
  code ≠ .operationNotAccepted ∧ code ≠ .operationNotSupported

instance (code : StatusCode) : Decidable (EntryCode code) := inferInstanceAs (Decidable (_ ∧ _))

theorem entryCode_progressCode (description : Str) : EntryCode (progressCode description) := by
  unfold progressCode
  split <;> decide

theorem entryCode_result (finalStatus : FinalStatus) :
    EntryCode (statusCodeOfFinalStatus finalStatus) := by
  cases finalStatus <;> decide

theorem entryCode_lastOutcome
    (hreport : ∀ call, ∀ outcome ∈ outcome? call, EntryCode outcome.1)
    {calls : List ApplicationCall} {outcome : StatusCode × Str}
    (h : lastOutcome outcome? finished? calls = some outcome) : EntryCode outcome.1 := by
  refine lastOutcome_of_reports (P := fun outcome => EntryCode outcome.1) hreport ?_ calls
    outcome h
  intro finished outcome houtcome
  unfold finishOutcome
  split
  · exact houtcome
  · exact entryCode_result finished.1

theorem entryCode_loadOutcome (name : Str) (call : ApplicationCall) :
    ∀ outcome ∈ loadOutcome? name call, EntryCode outcome.1 := by
  intro outcome h
  unfold loadOutcome? at h
  split at h <;> simp only [Option.mem_def, Option.ite_none_right_eq_some, reduceCtorEq] at h
  · rw [← Option.some.inj h.2]
    decide
  · rw [← Option.some.inj h.2]
    exact entryCode_progressCode _
  · rw [← Option.some.inj h.2]
    exact entryCode_result _

theorem entryCode_fileOutcome (name : Str) (call : ApplicationCall) :
    ∀ outcome ∈ fileOutcome? name call, EntryCode outcome.1 := by
  intro outcome h
  unfold fileOutcome? at h
  split at h <;> simp only [Option.mem_def, Option.ite_none_right_eq_some, reduceCtorEq] at h
  · rw [← Option.some.inj h.2]
    decide
  · rw [← Option.some.inj h.2]
    exact entryCode_progressCode _
  · rw [← Option.some.inj h.2]
    exact entryCode_result _

end

/-! ## What is stored of it -/

/-- What is stored of a code and a description: additional information is told only by
arguments that are evaluated from left to right. -/
def stored (cfg : Configuration) (outcome : StatusCode × Str) : StatusCode × Str :=
  if outcome.1 = .operationInProgressAdditionalInfo ∧ cfg.argumentsLeftToRight = false then
    (.operationInProgress, outcome.2)
  else outcome

theorem stored_of_ne {outcome : StatusCode × Str}
    (h : outcome.1 ≠ .operationInProgressAdditionalInfo) : stored cfg outcome = outcome :=
  if_neg fun hboth => h hboth.1

theorem stored_of_leftToRight (horder : cfg.argumentsLeftToRight = true)
    (outcome : StatusCode × Str) : stored cfg outcome = outcome :=
  if_neg (by simp [horder])

@[simp] theorem stored_accepted :
    stored cfg (.operationAccepted, []) = (.operationAccepted, []) :=
  stored_of_ne (by decide)

@[simp] theorem stored_progress (description : Str) :
    stored cfg (progressCode description, description) =
      (inProgressCode cfg description, description) := by
  unfold stored progressCode inProgressCode
  cases cfg.argumentsLeftToRight <;> by_cases h : description = [] <;> simp [h]

theorem result_ne_additionalInfo (finalStatus : FinalStatus) :
    statusCodeOfFinalStatus finalStatus ≠ .operationInProgressAdditionalInfo := by
  cases finalStatus <;> decide

@[simp] theorem stored_result (finalStatus : FinalStatus) (description : Str) :
    stored cfg (statusCodeOfFinalStatus finalStatus, description) =
      (statusCodeOfFinalStatus finalStatus, description) :=
  stored_of_ne (result_ne_additionalInfo finalStatus)

/-- On the codes of entries, the ones that are left alone are the final ones. -/
theorem keepsFileStatus_eq_isFinalCode {code : StatusCode} (h : EntryCode code) :
    keepsFileStatus code = isFinalCode code := by
  obtain ⟨haccepted, hsupported⟩ := h
  cases code <;> first | rfl | contradiction

theorem entryCode_stored (cfg : Configuration) {outcome : StatusCode × Str}
    (h : EntryCode outcome.1) : EntryCode (stored cfg outcome).1 := by
  unfold stored
  split
  · exact (by decide : EntryCode .operationInProgress)
  · exact h

/-- All are finished alike, whichever code of a progress is stored. -/
theorem stored_finishOutcome (cfg : Configuration) (finished : FinalStatus × Str)
    {outcome : StatusCode × Str} (h : EntryCode outcome.1) :
    stored cfg (finishOutcome finished outcome) =
      if keepsFileStatus (stored cfg outcome).1 then stored cfg outcome
      else (statusCodeOfFinalStatus finished.1, finished.2) := by
  by_cases hinfo : outcome.1 = .operationInProgressAdditionalInfo
  · have hfinish : finishOutcome finished outcome =
        (statusCodeOfFinalStatus finished.1, finished.2) := by
      rw [finishOutcome, hinfo]
      rfl
    have hkeeps : keepsFileStatus (stored cfg outcome).1 = false := by
      unfold stored
      split
      · rfl
      · rw [hinfo]
        rfl
    rw [hfinish, stored_result, hkeeps]
    rfl
  · rw [stored_of_ne hinfo, keepsFileStatus_eq_isFinalCode h, finishOutcome]
    split
    · exact stored_of_ne hinfo
    · exact stored_result ..

/-- What the map of loads says of a name is what was reported last of it, as stored. -/
structure LoadReported (cfg : Configuration) (calls : List ApplicationCall) (name : Str)
    (load : Option UploadLoadStatus) : Prop where
  partNumber : (load.getD (freshLoad name)).partNumber =
    (calls.filterMap (·.partNumber? name)).getLast?.getD []
  ratio : (load.getD (freshLoad name)).ratio =
    (calls.filterMap (·.ratio? name)).getLast?.getD .zero
  outcome : load.map (fun load => (load.code, load.description)) =
    (lastOutcome (loadOutcome? name) loadsFinished? calls).map (stored cfg)

/-- One more call. -/
theorem LoadReported.append {calls : List ApplicationCall} {name : Str}
    {load load' : Option UploadLoadStatus} (h : LoadReported cfg calls name load)
    (call : ApplicationCall)
    (hpart : (load'.getD (freshLoad name)).partNumber =
      (call.partNumber? name).getD (load.getD (freshLoad name)).partNumber)
    (hratio : (load'.getD (freshLoad name)).ratio =
      (call.ratio? name).getD (load.getD (freshLoad name)).ratio)
    (houtcome : load'.map (fun load => (load.code, load.description)) =
      (outcomeBehind (loadOutcome? name) loadsFinished?
        (lastOutcome (loadOutcome? name) loadsFinished? calls) call).map (stored cfg)) :
    LoadReported cfg (calls ++ [call]) name load' := by
  refine ⟨?_, ?_, ?_⟩
  · rw [hpart, h.partNumber, getLast?_filterMap_concat]
    cases call.partNumber? name <;> rfl
  · rw [hratio, h.ratio, getLast?_filterMap_concat]
    cases call.ratio? name <;> rfl
  · rw [houtcome, lastOutcome_append]

/-- A call that names another load, or none, and does not finish all. -/
theorem LoadReported.other {calls : List ApplicationCall} {name : Str}
    {load : Option UploadLoadStatus} (h : LoadReported cfg calls name load)
    {call : ApplicationCall} (hname : call.load? ≠ some name)
    (hfinished : loadsFinished? call = none) : LoadReported cfg (calls ++ [call]) name load := by
  have hload : ∀ {headerFilename}, call.load? = some headerFilename → headerFilename ≠ name := by
    rintro headerFilename hcall rfl
    exact hname hcall
  have hnone : call.partNumber? name = none ∧ call.ratio? name = none ∧
      loadOutcome? name call = none := by
    cases call with
    | loadAccepted headerFilename partNumber =>
      simp [ApplicationCall.partNumber?, ApplicationCall.ratio?, loadOutcome?, hload rfl]
    | loadInProgress headerFilename ratio description =>
      simp [ApplicationCall.partNumber?, ApplicationCall.ratio?, loadOutcome?, hload rfl]
    | loadFinished headerFilename finalStatus description =>
      simp [ApplicationCall.partNumber?, ApplicationCall.ratio?, loadOutcome?, hload rfl]
    | _ => exact ⟨rfl, rfl, rfl⟩
  obtain ⟨hpart, hratio, houtcome⟩ := hnone
  apply h.append call
  · rw [hpart, Option.getD_none]
  · rw [hratio, Option.getD_none]
  · rw [outcomeBehind, houtcome, hfinished]
    simpa using h.outcome

/-- **The map of loads** says of each name what was reported last of it. -/
theorem loadReported_writes (cfg : Configuration) (calls : List ApplicationCall) (name : Str) :
    LoadReported cfg calls name
      (writes (·.headerFilename) freshLoad (calls.filterMap (loadOperation cfg)) name) := by
  induction calls using List.reverseRecOn with
  | nil => exact ⟨rfl, rfl, rfl⟩
  | append_singleton calls call ih =>
    rw [writes_calls_append]
    generalize writes (·.headerFilename) freshLoad (calls.filterMap (loadOperation cfg)) = m at ih
    -- A call that names one load leaves the others alone.
    have hnamed : ∀ {headerFilename load}, call.load? = some headerFilename →
        loadsFinished? call = none →
        (headerFilename = name → LoadReported cfg (calls ++ [call]) name load) →
        LoadReported cfg (calls ++ [call]) name (Function.update m headerFilename load name) := by
      intro headerFilename load hcall hfinished hself
      by_cases hname : headerFilename = name
      · subst hname
        rw [Function.update_self]
        exact hself rfl
      · rw [Function.update_of_ne (Ne.symm hname)]
        exact ih.other (by simpa [hcall] using hname) hfinished
    cases call with
    | loadAccepted headerFilename partNumber =>
      refine hnamed rfl rfl fun hname => ?_
      subst hname
      apply ih.append <;> simp [ApplicationCall.partNumber?, ApplicationCall.ratio?,
        outcomeBehind, loadOutcome?, UploadLoadStatus.set]
    | loadInProgress headerFilename ratio description =>
      refine hnamed rfl rfl fun hname => ?_
      subst hname
      apply ih.append <;> simp [ApplicationCall.partNumber?, ApplicationCall.ratio?,
        outcomeBehind, loadOutcome?, UploadLoadStatus.set]
    | loadFinished headerFilename finalStatus description =>
      refine hnamed rfl rfl fun hname => ?_
      subst hname
      apply ih.append <;> simp [ApplicationCall.partNumber?, ApplicationCall.ratio?,
        outcomeBehind, loadOutcome?, UploadLoadStatus.set]
    | loadsFinished finalStatus description =>
      show LoadReported cfg _ _ (Option.map _ (m name))
      have houtcome := ih.outcome
      cases hload : m name with
      | none =>
        rw [hload] at ih houtcome
        refine ih.append _ rfl rfl ?_
        rw [Option.map_eq_none_iff.mp houtcome.symm]
        rfl
      | some load =>
        rw [hload] at ih houtcome
        obtain ⟨outcome, hlast, hstored⟩ := Option.map_eq_some_iff.mp houtcome.symm
        have hfinish := stored_finishOutcome cfg (finalStatus, description)
          (entryCode_lastOutcome (entryCode_loadOutcome name) hlast)
        rw [hstored] at hfinish
        refine ih.append _ ?_ ?_ ?_
        · by_cases hkeeps : keepsFileStatus load.code = true <;>
            simp [hkeeps, ApplicationCall.partNumber?, UploadLoadStatus.set]
        · by_cases hkeeps : keepsFileStatus load.code = true <;>
            simp [hkeeps, ApplicationCall.ratio?, UploadLoadStatus.set]
        · rw [hlast]
          show _ = some (stored cfg (finishOutcome (finalStatus, description) outcome))
          rw [hfinish]
          by_cases hkeeps : keepsFileStatus load.code = true <;>
            simp [hkeeps, UploadLoadStatus.set]
    | _ => exact ih.other (by simp [ApplicationCall.load?]) rfl

/-- **The map of files** says of each name what was reported last of it, as stored. -/
theorem fileReported_writes (calls : List ApplicationCall) (name : Str) :
    (writes (·.filename) freshFile (calls.filterMap (fileOperation cfg)) name).map
        (fun file => (file.code, file.description)) =
      (lastOutcome (fileOutcome? name) filesFinished? calls).map (stored cfg) := by
  induction calls using List.reverseRecOn with
  | nil => rfl
  | append_singleton calls call ih =>
    rw [writes_calls_append, lastOutcome_append]
    generalize writes (·.filename) freshFile (calls.filterMap (fileOperation cfg)) = m at ih
    -- A call that names one file leaves the others alone.
    have hnamed : ∀ {filename file reported},
        (filename = name → file.map (fun file => (file.code, file.description)) = reported) →
        (filename ≠ name →
          (m name).map (fun file => (file.code, file.description)) = reported) →
        (Function.update m filename file name).map
          (fun file => (file.code, file.description)) = reported := by
      intro filename file reported hself hne
      by_cases hname : filename = name
      · subst hname
        rw [Function.update_self]
        exact hself rfl
      · rw [Function.update_of_ne (Ne.symm hname)]
        exact hne hname
    cases call with
    | fileAccepted filename =>
      refine hnamed (fun (hname : filename = name) => ?_) fun (hname : filename ≠ name) => ?_
      · simp [outcomeBehind, fileOutcome?, hname, DownloadFileStatus.set]
      · simpa [outcomeBehind, fileOutcome?, hname, filesFinished?] using ih
    | fileInProgress filename description =>
      refine hnamed (fun (hname : filename = name) => ?_) fun (hname : filename ≠ name) => ?_
      · simp [outcomeBehind, fileOutcome?, hname, DownloadFileStatus.set]
      · simpa [outcomeBehind, fileOutcome?, hname, filesFinished?] using ih
    | fileFinished filename finalStatus description =>
      refine hnamed (fun (hname : filename = name) => ?_) fun (hname : filename ≠ name) => ?_
      · simp [outcomeBehind, fileOutcome?, hname, DownloadFileStatus.set]
      · simpa [outcomeBehind, fileOutcome?, hname, filesFinished?] using ih
    | filesFinished finalStatus description =>
      show Option.map _ (Option.map _ (m name)) = _
      cases hfile : m name with
      | none =>
        rw [hfile] at ih
        rw [Option.map_eq_none_iff.mp ih.symm]
        rfl
      | some file =>
        rw [hfile] at ih
        obtain ⟨outcome, hlast, hstored⟩ := Option.map_eq_some_iff.mp ih.symm
        have hfinish := stored_finishOutcome cfg (finalStatus, description)
          (entryCode_lastOutcome (entryCode_fileOutcome name) hlast)
        rw [hstored] at hfinish
        rw [hlast]
        show _ = some (stored cfg (finishOutcome (finalStatus, description) outcome))
        rw [hfinish]
        by_cases hkeeps : keepsFileStatus file.code = true <;>
          simp [hkeeps, DownloadFileStatus.set]
    | _ => simpa [fileOperation, outcomeBehind, fileOutcome?, filesFinished?] using ih

/-! ## What is left in progress -/

section

variable {outcome? : ApplicationCall → Option (StatusCode × Str)}
  {finished? : ApplicationCall → Option (FinalStatus × Str)}
  {name? : ApplicationCall → Option Str} {name : Str}

/-- The last call that names one, behind one more call. -/
theorem lastReport_append (calls : List ApplicationCall) (call : ApplicationCall) :
    lastReport name? finished? name (calls ++ [call]) =
      if name? call = some name ∨ (finished? call).isSome then some call
      else lastReport name? finished? name calls := by
  rw [lastReport, getLast?_filter_concat]
  by_cases h : name? call = some name ∨ (finished? call).isSome
  · rw [if_pos h, if_pos (by simpa using h)]
  · rw [if_neg h, if_neg (by simpa using h), lastReport]

theorem finishOutcome_ne (finished : FinalStatus × Str) (outcome : StatusCode × Str) :
    (finishOutcome finished outcome).1 ≠ .operationInProgressAdditionalInfo := by
  unfold finishOutcome
  split
  · rename_i hfinal
    intro hinfo
    rw [hinfo] at hfinal
    cases hfinal
  · exact result_ne_additionalInfo finished.1

/-- What is told last of one was told under its name. -/
theorem mem_of_lastReport (hfinished : ∀ call, (finished? call).isSome → call.isDescribed = false)
    {calls : List ApplicationCall} {call : ApplicationCall}
    (h : call ∈ lastReport name? finished? name calls) (hdescribed : call.isDescribed = true) :
    name ∈ calls.filterMap name? := by
  obtain ⟨hmem, hreports⟩ := List.mem_filter.mp (List.mem_of_getLast? h)
  have hname : name? call = some name := by
    by_contra hne
    have hfinish : (finished? call).isSome = true := by simpa [hne] using hreports
    rw [hfinished call hfinish] at hdescribed
    cases hdescribed
  exact List.mem_filterMap.mpr ⟨call, hmem, hname⟩

/-- The last that was reported of one is additional information exactly if the last
call that names it, or finishes all, tells a progress with a description. -/
theorem additionalInfo_lastOutcome_iff
    (hnamed : ∀ call, outcome? call = none ↔ name? call ≠ some name)
    (hdescribed : ∀ call, ∀ outcome ∈ outcome? call,
      (outcome.1 = .operationInProgressAdditionalInfo ↔ call.isDescribed = true))
    (hfinished : ∀ call, (finished? call).isSome → call.isDescribed = false)
    (calls : List ApplicationCall) :
    (∃ outcome ∈ lastOutcome outcome? finished? calls,
        outcome.1 = .operationInProgressAdditionalInfo) ↔
      ∃ call ∈ lastReport name? finished? name calls, call.isDescribed = true := by
  induction calls using List.reverseRecOn with
  | nil => simp [lastOutcome, lastReport]
  | append_singleton calls call ih =>
    rw [lastOutcome_append, lastReport_append, outcomeBehind]
    cases hcall : outcome? call with
    | some outcome =>
      have hname : name? call = some name := by
        by_contra hne
        rw [(hnamed call).mpr hne] at hcall
        cases hcall
      simpa [hname] using hdescribed call outcome hcall
    | none =>
      have hname := (hnamed call).mp hcall
      cases hfinish : finished? call with
      | none => simpa [hname] using ih
      | some finished =>
        -- Behind the call that finishes all, nothing is in progress.
        have hcalm := finishOutcome_ne finished
        have hnot := hfinished call (by rw [hfinish]; rfl)
        refine iff_of_false ?_ (by simp [hnot])
        rintro ⟨outcome, hlast, hinfo⟩
        obtain ⟨before, -, rfl⟩ := Option.map_eq_some_iff.mp hlast
        exact hcalm before hinfo

end

theorem progressCode_eq_iff (description : Str) :
    progressCode description = .operationInProgressAdditionalInfo ↔ description ≠ [] := by
  unfold progressCode
  by_cases h : description = [] <;> simp [h]

theorem isDescribed_loadsFinished (call : ApplicationCall)
    (h : (loadsFinished? call).isSome = true) : call.isDescribed = false := by
  cases call with
  | loadsFinished finalStatus description => rfl
  | _ => cases h

theorem isDescribed_filesFinished (call : ApplicationCall)
    (h : (filesFinished? call).isSome = true) : call.isDescribed = false := by
  cases call with
  | filesFinished finalStatus description => rfl
  | _ => cases h

theorem additionalInfo_load_iff (calls : List ApplicationCall) (name : Str) :
    (∃ outcome ∈ lastOutcome (loadOutcome? name) loadsFinished? calls,
        outcome.1 = .operationInProgressAdditionalInfo) ↔
      ∃ call ∈ lastReport (·.load?) loadsFinished? name calls, call.isDescribed = true := by
  refine additionalInfo_lastOutcome_iff ?_ ?_ isDescribed_loadsFinished calls
  · intro call
    cases call <;> simp [loadOutcome?, ApplicationCall.load?]
  · intro call outcome h
    unfold loadOutcome? at h
    split at h <;> simp only [Option.mem_def, Option.ite_none_right_eq_some, reduceCtorEq] at h
    · simp [← Option.some.inj h.2, ApplicationCall.isDescribed]
    · simp [← Option.some.inj h.2, ApplicationCall.isDescribed, progressCode_eq_iff]
    · simp [← Option.some.inj h.2, ApplicationCall.isDescribed, result_ne_additionalInfo]

theorem additionalInfo_file_iff (calls : List ApplicationCall) (name : Str) :
    (∃ outcome ∈ lastOutcome (fileOutcome? name) filesFinished? calls,
        outcome.1 = .operationInProgressAdditionalInfo) ↔
      ∃ call ∈ lastReport (·.file?) filesFinished? name calls, call.isDescribed = true := by
  refine additionalInfo_lastOutcome_iff ?_ ?_ isDescribed_filesFinished calls
  · intro call
    cases call <;> simp [fileOutcome?, ApplicationCall.file?]
  · intro call outcome h
    unfold fileOutcome? at h
    split at h <;> simp only [Option.mem_def, Option.ite_none_right_eq_some, reduceCtorEq] at h
    · simp [← Option.some.inj h.2, ApplicationCall.isDescribed]
    · simp [← Option.some.inj h.2, ApplicationCall.isDescribed, progressCode_eq_iff]
    · simp [← Option.some.inj h.2, ApplicationCall.isDescribed, result_ne_additionalInfo]

/-! ## The tables of a run -/

section

variable {α : Type} {key : α → Str} {operation : ApplicationCall → Option (Operation Str α)}
  {name? : ApplicationCall → Option Str}

/-- The names of a table are those of the calls. -/
theorem filterMap_mentioned (hname : ∀ call, (operation call).bind (·.mentioned key) = name? call)
    (calls : List ApplicationCall) :
    (calls.filterMap operation).filterMap (·.mentioned key) = calls.filterMap name? := by
  rw [List.filterMap_filterMap]
  exact congrArg (calls.filterMap ·) (funext hname)

/-- What is accepted first is added first. -/
theorem addsFirst_of_accepted
    (hname : ∀ call, (operation call).bind (·.mentioned key) = name? call)
    {calls : List ApplicationCall}
    (hfirst : ∀ before call after, calls = before ++ call :: after → ∀ a,
      operation call = some (.add a) → ∀ earlier ∈ before, name? earlier ≠ some (key a)) :
    AddsFirst key (calls.filterMap operation) := by
  intro before a after hops op hop hmentioned
  obtain ⟨front, back, rfl, rfl, hback⟩ := List.filterMap_eq_append_iff.mp hops
  obtain ⟨skipped, call, rest, rfl, hskipped, hcall, -⟩ := List.filterMap_eq_cons_iff.mp hback
  obtain ⟨earlier, hearlier, hoperation⟩ := List.mem_filterMap.mp hop
  apply hfirst (front ++ skipped) call rest (by simp) a hcall earlier
    (List.mem_append_left _ hearlier)
  rw [← hname, hoperation]
  exact hmentioned

end

theorem keepsKeys_loadOperation {call : ApplicationCall} {op : Operation Str UploadLoadStatus}
    (h : loadOperation cfg call = some op) : op.KeepsKeys (·.headerFilename) := by
  cases call with
  | loadAccepted headerFilename partNumber =>
    cases h
    trivial
  | loadInProgress headerFilename ratio description =>
    cases h
    exact fun _ => rfl
  | loadFinished headerFilename finalStatus description =>
    cases h
    exact fun _ => rfl
  | loadsFinished finalStatus description =>
    cases h
    intro load
    show UploadLoadStatus.headerFilename (if _ then load else _) = _
    split <;> rfl
  | _ => cases h

theorem keepsKeys_fileOperation {call : ApplicationCall} {op : Operation Str DownloadFileStatus}
    (h : fileOperation cfg call = some op) : op.KeepsKeys (·.filename) := by
  cases call with
  | fileAccepted filename =>
    cases h
    trivial
  | fileInProgress filename description =>
    cases h
    exact fun _ => rfl
  | fileFinished filename finalStatus description =>
    cases h
    exact fun _ => rfl
  | filesFinished finalStatus description =>
    cases h
    intro file
    show DownloadFileStatus.filename (if _ then file else _) = _
    split <;> rfl
  | _ => cases h

/-- What is stored is what was reported, exactly if no code is told that is not stored. -/
theorem outcomes_iff {α : Type} (key : α → Str) (outcome : α → StatusCode × Str)
    (last : Str → Option (StatusCode × Str)) {table : List α}
    (hstored : ∀ a ∈ table, some (outcome a) = (last (key a)).map (stored cfg))
    (hmem : ∀ name, (∃ o ∈ last name, o.1 = .operationInProgressAdditionalInfo) →
      name ∈ table.map key) :
    (∀ a ∈ table, some (outcome a) = last (key a)) ↔
      cfg.argumentsLeftToRight = true ∨
        ¬ ∃ name, ∃ o ∈ last name, o.1 = .operationInProgressAdditionalInfo := by
  constructor
  · intro hreported
    by_cases horder : cfg.argumentsLeftToRight = true
    · exact .inl horder
    · right
      rintro ⟨name, o, hlast, hinfo⟩
      obtain ⟨a, ha, rfl⟩ := List.mem_map.mp (hmem name ⟨o, hlast, hinfo⟩)
      have heq := (hreported a ha).symm.trans (hstored a ha)
      rw [Option.mem_def.mp hlast] at heq
      have hcode := congrArg Prod.fst (Option.some.inj heq)
      rw [stored, if_pos ⟨hinfo, Bool.not_eq_true _ ▸ horder⟩, hinfo] at hcode
      cases hcode
  · intro hcondition a ha
    rw [hstored a ha]
    cases hlast : last (key a) with
    | none => rfl
    | some o =>
      rcases hcondition with horder | hnot
      · exact congrArg some (stored_of_leftToRight horder o)
      · exact congrArg some (stored_of_ne fun hinfo => hnot ⟨key a, o, hlast, hinfo⟩)

/-- The loads are named as in the calls. -/
theorem loadOperation_mentioned (call : ApplicationCall) :
    (loadOperation cfg call).bind (·.mentioned (·.headerFilename)) = call.load? := by
  cases call <;> rfl

theorem fileOperation_mentioned (call : ApplicationCall) :
    (fileOperation cfg call).bind (·.mentioned (·.filename)) = call.file? := by
  cases call <;> rfl

/-- The table of loads of some calls. -/
def loadTable (cfg : Configuration) (calls : List ApplicationCall) : List UploadLoadStatus :=
  Tables.run (·.headerFilename) freshLoad (calls.filterMap (loadOperation cfg))

/-- The table of files of some calls. -/
def fileTable (cfg : Configuration) (calls : List ApplicationCall) : List DownloadFileStatus :=
  Tables.run (·.filename) freshFile (calls.filterMap (fileOperation cfg))

section

variable {calls : List ApplicationCall}

theorem keepsKeys_loads :
    ∀ op ∈ calls.filterMap (loadOperation cfg), op.KeepsKeys (·.headerFilename) := by
  intro op hop
  obtain ⟨call, -, hcall⟩ := List.mem_filterMap.mp hop
  exact keepsKeys_loadOperation hcall

theorem keepsKeys_files :
    ∀ op ∈ calls.filterMap (fileOperation cfg), op.KeepsKeys (·.filename) := by
  intro op hop
  obtain ⟨call, -, hcall⟩ := List.mem_filterMap.mp hop
  exact keepsKeys_fileOperation hcall

variable (h : AcceptedFirst calls)
include h

theorem addsFirst_loads : AddsFirst (·.headerFilename) (calls.filterMap (loadOperation cfg)) := by
  apply addsFirst_of_accepted loadOperation_mentioned
  rintro before call after rfl load hload
  cases call with
  | loadAccepted headerFilename partNumber =>
    cases hload
    exact h.loads before headerFilename partNumber after rfl
  | _ => cases hload

theorem addsFirst_files : AddsFirst (·.filename) (calls.filterMap (fileOperation cfg)) := by
  apply addsFirst_of_accepted fileOperation_mentioned
  rintro before call after rfl file hfile
  cases call with
  | fileAccepted filename =>
    cases hfile
    exact h.files before filename after rfl
  | _ => cases hfile

/-- Each entry is what the map of loads says of its name. -/
theorem loadReported_of_mem {load : UploadLoadStatus} (hload : load ∈ loadTable cfg calls) :
    LoadReported cfg calls load.headerFilename (some load) := by
  have hwrites := loadReported_writes cfg calls load.headerFilename
  rwa [writes_of_mem (fun _ => rfl) keepsKeys_loads (addsFirst_loads h) hload] at hwrites

theorem fileReported_of_mem {file : DownloadFileStatus} (hfile : file ∈ fileTable cfg calls) :
    some (file.code, file.description) =
      (lastOutcome (fileOutcome? file.filename) filesFinished? calls).map (stored cfg) := by
  rw [← fileReported_writes, writes_of_mem (fun _ => rfl) keepsKeys_files (addsFirst_files h) hfile]
  rfl

theorem names_loadTable : (loadTable cfg calls).map (·.headerFilename) =
    (calls.filterMap (·.load?)).eraseDups :=
  (keys_run (fun _ => rfl) keepsKeys_loads (addsFirst_loads h)).trans
    (congrArg List.eraseDups (filterMap_mentioned loadOperation_mentioned calls))

theorem names_fileTable : (fileTable cfg calls).map (·.filename) =
    (calls.filterMap (·.file?)).eraseDups :=
  (keys_run (fun _ => rfl) keepsKeys_files (addsFirst_files h)).trans
    (congrArg List.eraseDups (filterMap_mentioned fileOperation_mentioned calls))

/-- **The table of loads** is the map of what was reported last, exactly if what is stored
is what was reported. -/
theorem loadTable_iff : LoadTable calls (loadTable cfg calls) ↔
    cfg.argumentsLeftToRight = true ∨ ¬ EndsDescribed (·.load?) loadsFinished? calls := by
  have houtcomes := outcomes_iff UploadLoadStatus.headerFilename
    (fun load => (load.code, load.description))
    (fun name => lastOutcome (loadOutcome? name) loadsFinished? calls)
    (fun load (hload : load ∈ loadTable cfg calls) => (loadReported_of_mem h hload).outcome) ?_
  · simp only [additionalInfo_load_iff] at houtcomes
    rw [EndsDescribed, ← houtcomes]
    refine ⟨LoadTable.outcome, fun houtcome => ⟨names_loadTable h, ?_, ?_, ?_, houtcome⟩⟩
    · exact nodup_run (fun _ => rfl) keepsKeys_loads (addsFirst_loads h)
    · exact fun load hload => (loadReported_of_mem h hload).partNumber
    · exact fun load hload => (loadReported_of_mem h hload).ratio
  · intro name hinfo
    obtain ⟨call, hlast, hdescribed⟩ := (additionalInfo_load_iff calls name).mp hinfo
    rw [names_loadTable h, List.mem_eraseDups]
    exact mem_of_lastReport isDescribed_loadsFinished hlast hdescribed

/-- So is the table of files. -/
theorem fileTable_iff : FileTable calls (fileTable cfg calls) ↔
    cfg.argumentsLeftToRight = true ∨ ¬ EndsDescribed (·.file?) filesFinished? calls := by
  have houtcomes := outcomes_iff DownloadFileStatus.filename
    (fun file => (file.code, file.description))
    (fun name => lastOutcome (fileOutcome? name) filesFinished? calls)
    (fun file (hfile : file ∈ fileTable cfg calls) => fileReported_of_mem h hfile) ?_
  · simp only [additionalInfo_file_iff] at houtcomes
    rw [EndsDescribed, ← houtcomes]
    refine ⟨FileTable.outcome, fun houtcome => ⟨names_fileTable h, ?_, houtcome⟩⟩
    exact nodup_run (fun _ => rfl) keepsKeys_files (addsFirst_files h)
  · intro name hinfo
    obtain ⟨call, hlast, hdescribed⟩ := (additionalInfo_file_iff calls name).mp hinfo
    rw [names_fileTable h, List.mem_eraseDups]
    exact mem_of_lastReport isDescribed_filesFinished hlast hdescribed

/-- The codes of the entries are ones that entries have. -/
theorem entryCode_load {load : UploadLoadStatus} (hload : load ∈ loadTable cfg calls) :
    EntryCode load.code := by
  obtain ⟨outcome, hlast, hstored⟩ :=
    Option.map_eq_some_iff.mp (loadReported_of_mem h hload).outcome.symm
  have hcode := entryCode_stored cfg
    (entryCode_lastOutcome (entryCode_loadOutcome load.headerFilename) hlast)
  rwa [hstored] at hcode

theorem entryCode_file {file : DownloadFileStatus} (hfile : file ∈ fileTable cfg calls) :
    EntryCode file.code := by
  obtain ⟨outcome, hlast, hstored⟩ :=
    Option.map_eq_some_iff.mp (fileReported_of_mem h hfile).symm
  have hcode := entryCode_stored cfg
    (entryCode_lastOutcome (entryCode_fileOutcome file.filename) hlast)
  rwa [hstored] at hcode

end

theorem isFinalCode_result (finalStatus : FinalStatus) :
    isFinalCode (statusCodeOfFinalStatus finalStatus) = true := by
  cases finalStatus <;> rfl

/-- The call that finishes all loads, entry by entry. -/
theorem loadFinishes_map (finalStatus : FinalStatus) (description : Str)
    {table : List UploadLoadStatus} (htable : ∀ load ∈ table, EntryCode load.code) :
    List.Forall₂ (LoadFinishes finalStatus description) table
      (table.map fun load =>
        if keepsFileStatus load.code then load
        else load.set load.ratio (statusCodeOfFinalStatus finalStatus) description) := by
  rw [List.forall₂_map_right_iff, List.forall₂_same]
  intro load hload
  rw [keepsFileStatus_eq_isFinalCode (htable load hload)]
  by_cases hfinal : isFinalCode load.code = true
  · rw [if_pos hfinal]
    exact ⟨rfl, rfl, rfl, by simp [hfinal], fun hne => absurd rfl hne⟩
  · rw [if_neg hfinal]
    refine ⟨rfl, rfl, rfl, ⟨fun heq => ?_, fun h => absurd h hfinal⟩, fun _ => ⟨rfl, rfl⟩⟩
    -- The new code is a final one.
    rw [← heq]
    exact isFinalCode_result finalStatus

theorem fileFinishes_map (finalStatus : FinalStatus) (description : Str)
    {table : List DownloadFileStatus} (htable : ∀ file ∈ table, EntryCode file.code) :
    List.Forall₂ (FileFinishes finalStatus description) table
      (table.map fun file =>
        if keepsFileStatus file.code then file
        else file.set (statusCodeOfFinalStatus finalStatus) description) := by
  rw [List.forall₂_map_right_iff, List.forall₂_same]
  intro file hfile
  rw [keepsFileStatus_eq_isFinalCode (htable file hfile)]
  by_cases hfinal : isFinalCode file.code = true
  · rw [if_pos hfinal]
    exact ⟨rfl, by simp [hfinal], fun hne => absurd rfl hne⟩
  · rw [if_neg hfinal]
    refine ⟨rfl, ⟨fun heq => ?_, fun h => absurd h hfinal⟩, fun _ => ⟨rfl, rfl⟩⟩
    rw [← heq]
    exact isFinalCode_result finalStatus

/-- An upload has an upload status. -/
theorem exists_upload (hclass : InClass cfg s) (hupload : operationClass cfg.operation = .upload) :
    ∃ status, s.status = .upload status := by
  unfold InClass at hclass
  rw [hupload] at hclass
  cases hstatus : s.status with
  | upload status => exact ⟨status, rfl⟩
  | _ =>
    rw [hstatus] at hclass
    cases hclass

theorem exists_download (hclass : InClass cfg s)
    (hdownload : operationClass cfg.operation = .download) :
    ∃ status, s.status = .download status := by
  unfold InClass at hclass
  rw [hdownload] at hclass
  cases hstatus : s.status with
  | download status => exact ⟨status, rfl⟩
  | _ =>
    rw [hstatus] at hclass
    cases hclass

/-- **The tables of an upload**, behind a run. -/
theorem statusTables_upload {hostAddress : Endpoint} {port : Option UInt16} {es : List Event}
    {tr : List Output} (h : (machine cfg).exec (started cfg hostAddress port) es = some (s, tr))
    (hfirst : AcceptedFirst (calls es)) (hupload : operationClass cfg.operation = .upload) :
    ∃ status, s.status = .upload status ∧ status.loads = loadTable cfg (calls es) ∧
      ∀ finalStatus description s' out,
        (machine cfg).step s (.application (.loadsFinished finalStatus description)) =
            some (s', out) →
          ∃ status', s'.status = .upload status' ∧
            List.Forall₂ (LoadFinishes finalStatus description) status.loads status'.loads := by
  have hclass := inClass_run h
  have hinitial : loads (initialStatus cfg.operation) = [] := by
    rw [initialStatus, hupload]
    rfl
  have htable : loads s.status = loadTable cfg (calls es) :=
    table_run loads_update hinitial
      (fun call status hstatus => loads_callUpdate call (hstatus.trans hupload)) h
  obtain ⟨status, hstatus⟩ := exists_upload hclass hupload
  rw [hstatus] at htable
  have hloads : status.loads = loadTable cfg (calls es) := htable
  refine ⟨status, hstatus, hloads, ?_⟩
  intro finalStatus description s' out hstep
  obtain ⟨status', hstatus'⟩ := exists_upload (inClass_step hclass hstep) hupload
  have hfinished := call_step loads_update hstep
  rw [hstatus', hstatus] at hfinished
  refine ⟨status', hstatus', ?_⟩
  rw [show status'.loads = loads (.upload status') from rfl, hfinished]
  apply loadFinishes_map finalStatus description
  rw [hloads]
  exact fun load hload => entryCode_load hfirst hload

/-- **The tables of a download**, behind a run. -/
theorem statusTables_download {hostAddress : Endpoint} {port : Option UInt16} {es : List Event}
    {tr : List Output} (h : (machine cfg).exec (started cfg hostAddress port) es = some (s, tr))
    (hfirst : AcceptedFirst (calls es)) (hdownload : operationClass cfg.operation = .download) :
    ∃ status, s.status = .download status ∧ status.files = fileTable cfg (calls es) ∧
      ∀ finalStatus description s' out,
        (machine cfg).step s (.application (.filesFinished finalStatus description)) =
            some (s', out) →
          ∃ status', s'.status = .download status' ∧
            List.Forall₂ (FileFinishes finalStatus description) status.files status'.files := by
  have hclass := inClass_run h
  have hinitial : files (initialStatus cfg.operation) = [] := by
    rw [initialStatus, hdownload]
    rfl
  have htable : files s.status = fileTable cfg (calls es) :=
    table_run files_update hinitial
      (fun call status hstatus => files_callUpdate call (hstatus.trans hdownload)) h
  obtain ⟨status, hstatus⟩ := exists_download hclass hdownload
  rw [hstatus] at htable
  have hfiles : status.files = fileTable cfg (calls es) := htable
  refine ⟨status, hstatus, hfiles, ?_⟩
  intro finalStatus description s' out hstep
  obtain ⟨status', hstatus'⟩ := exists_download (inClass_step hclass hstep) hdownload
  have hfinished := call_step files_update hstep
  rw [hstatus', hstatus] at hfinished
  refine ⟨status', hstatus', ?_⟩
  rw [show status'.files = files (.download status') from rfl, hfinished]
  apply fileFinishes_map finalStatus description
  rw [hfiles]
  exact fun file hfile => entryCode_file hfirst hfile

/-- **The tables of the status**: in every run in which a name is accepted before it is
reported otherwise, they are the maps of what was reported last, and the call that
finishes all changes the entries that are not finished, and no other, exactly if
arguments are evaluated from left to right or no load or file is left in a progress
that has a description. -/
theorem target_statusTables_iff {hostAddress : Endpoint} {port : Option UInt16}
    {es : List Event} {tr : List Output}
    (h : (machine cfg).exec (started cfg hostAddress port) es = some (s, tr))
    (hfirst : AcceptedFirst (calls es)) :
    StatusTablesLaw cfg (calls es) s ↔
      cfg.argumentsLeftToRight = true ∨ ¬ LeavesDescribed cfg (calls es) := by
  constructor
  · intro hlaw
    by_cases horder : cfg.argumentsLeftToRight = true
    · exact .inl horder
    · right
      rintro (⟨hupload, hleft⟩ | ⟨hdownload, hleft⟩)
      · obtain ⟨status, hstatus, htable, -⟩ := hlaw.upload hupload
        obtain ⟨status', hstatus', hloads, -⟩ := statusTables_upload h hfirst hupload
        cases hstatus.symm.trans hstatus'
        rw [hloads] at htable
        exact ((loadTable_iff hfirst).mp htable).elim horder (fun hnot => hnot hleft)
      · obtain ⟨status, hstatus, htable, -⟩ := hlaw.download hdownload
        obtain ⟨status', hstatus', hfiles, -⟩ := statusTables_download h hfirst hdownload
        cases hstatus.symm.trans hstatus'
        rw [hfiles] at htable
        exact ((fileTable_iff hfirst).mp htable).elim horder (fun hnot => hnot hleft)
  · intro hcondition
    constructor
    · intro hupload
      obtain ⟨status, hstatus, hloads, hfinishes⟩ := statusTables_upload h hfirst hupload
      refine ⟨status, hstatus, ?_, hfinishes⟩
      rw [hloads]
      exact (loadTable_iff hfirst).mpr (hcondition.imp_right fun hnot hleft =>
        hnot (.inl ⟨hupload, hleft⟩))
    · intro hdownload
      obtain ⟨status, hstatus, hfiles, hfinishes⟩ := statusTables_download h hfirst hdownload
      refine ⟨status, hstatus, ?_, hfinishes⟩
      rw [hfiles]
      exact (fileTable_iff hfirst).mpr (hcondition.imp_right fun hnot hleft =>
        hnot (.inr ⟨hdownload, hleft⟩))

/-- A call that is followed by no other that accepts. -/
theorem acceptedFirst_cons (call : ApplicationCall) {rest : List ApplicationCall}
    (hloads : ∀ headerFilename partNumber, .loadAccepted headerFilename partNumber ∉ rest)
    (hfiles : ∀ filename, .fileAccepted filename ∉ rest) : AcceptedFirst (call :: rest) := by
  constructor
  · intro before headerFilename partNumber after hcalls earlier hearlier
    cases before with
    | nil => cases hearlier
    | cons first before =>
      have hrest : rest = before ++ _ := (List.cons.inj hcalls).2
      exact absurd (by rw [hrest]; simp) (hloads headerFilename partNumber)
  · intro before filename after hcalls earlier hearlier
    cases before with
    | nil => cases hearlier
    | cons first before =>
      have hrest : rest = before ++ _ := (List.cons.inj hcalls).2
      exact absurd (by rw [hrest]; simp) (hfiles filename)

/-- An upload of two loads, of which one fails and the other is finished with the rest. -/
def exampleReports : List Event :=
  [.application (.loadAccepted (str "A.LUH") (str "PN")),
    .application (.loadInProgress (str "B.LUH") .zero (str "erasing")),
    .application (.loadFinished (str "A.LUH") .abortedByTargetHardware (str "flash")),
    .application (.loadsFinished .completed [])]

/-- An upload that moves a description before it looks at it. -/
def movingUpload : Configuration :=
  { exampleConfiguration .upload with argumentsLeftToRight := false }

theorem acceptedFirst_exampleReports : AcceptedFirst (calls exampleReports) :=
  acceptedFirst_cons (.loadAccepted (str "A.LUH") (str "PN"))
    (by simp [call?]) (by simp [call?])

/-- Both are in the table, also of an upload that moves its descriptions: the load that
was in progress with one is finished with the rest. -/
theorem target_statusTables_finished :
    ∃ s tr, (machine movingUpload).exec (started movingUpload exampleHost none) exampleReports =
        some (s, tr) ∧ StatusTablesLaw movingUpload (calls exampleReports) s := by
  refine ⟨_, _, rfl, (target_statusTables_iff rfl acceptedFirst_exampleReports).mpr (.inr ?_)⟩
  rintro (⟨-, name, call, hlast, hdescribed⟩ | ⟨hdownload, -⟩)
  · -- Whatever load is looked at, the last call is the one that finishes all.
    have hcalls : calls exampleReports =
        calls (exampleReports.take 3) ++ [.loadsFinished .completed []] := rfl
    rw [hcalls, lastReport_append, if_pos (.inr rfl)] at hlast
    cases hlast
    cases hdescribed
  · cases hdownload

/-- While it is in progress, the additional information is not told. -/
theorem target_statusTables_moved :
    ∃ s tr, (machine movingUpload).exec (started movingUpload exampleHost none)
        [.application (.loadInProgress (str "B.LUH") .zero (str "erasing"))] = some (s, tr) ∧
      AcceptedFirst (calls [.application (.loadInProgress (str "B.LUH") .zero (str "erasing"))]) ∧
      ¬ StatusTablesLaw movingUpload
        (calls [.application (.loadInProgress (str "B.LUH") .zero (str "erasing"))]) s := by
  refine ⟨_, _, rfl, acceptedFirst_cons _ (by simp) (by simp), fun hlaw => ?_⟩
  obtain ⟨status, hstatus, htable, -⟩ := hlaw.upload rfl
  cases hstatus
  have houtcome := htable.outcome _ List.mem_cons_self
  cases houtcome

end Arinc615a.Target
