import Arinc615a.Host.Steps
import Arinc615a.Target.StatusText

/-!
# The results of single loads and files

What the application reports of a load goes into the table of the status, from
there into a status file, and is read by the host. The host finds the final status
that was reported, except for the one that has a code of its own and is sent with
the code of another (`target_loadResult_iff`).
-/

namespace Arinc615a.Target

open Actions Machines Readers Readers.Reader Timers
open Files Information Tftp

/-! ## The law -/

/-- A load of the table: its name and its code. -/
def loadEntry (load : UploadLoadStatus) : Str × StatusCode := (load.headerFilename, load.code)

/-- So a file. -/
def fileEntry (file : DownloadFileStatus) : Str × StatusCode := (file.filename, file.code)

/-- The table of a status. -/
def entries : OperationStatus → List (Str × StatusCode)
  | .information _ => []
  | .upload status => status.loads.map loadEntry
  | .download status => status.files.map fileEntry

/-- The load or file that a call reports. -/
def ApplicationCall.reported? : ApplicationCall → Option Str
  | loadAccepted headerFilename _ => some headerFilename
  | loadInProgress headerFilename _ _ => some headerFilename
  | loadFinished headerFilename _ _ => some headerFilename
  | fileAccepted filename => some filename
  | fileInProgress filename _ => some filename
  | fileFinished filename _ _ => some filename
  | _ => none

/-- The load or file that a call finishes, and its final status. -/
def ApplicationCall.result? : ApplicationCall → Option (Str × FinalStatus)
  | loadFinished headerFilename finalStatus _ => some (headerFilename, finalStatus)
  | fileFinished filename finalStatus _ => some (filename, finalStatus)
  | _ => none

/-- The last report of the load or file was that it is finished. -/
def ResultReported (es : List Event) (name : Str) (finalStatus : FinalStatus) : Prop :=
  ∃ before call after, es = before ++ .application call :: after ∧
    call.result? = some (name, finalStatus) ∧
      ∀ later, .application later ∈ after → later.reported? ≠ some name

/-- The host reads the file that was sent. Where the load or file stands in the table of
the target, it finds its name, up to a NUL, and a code that gives the final status. -/
def ResultArrives (operation : OperationType) (sent : OperationStatus × RawData) (name : Str)
    (finalStatus : FinalStatus) : Prop :=
  ∃ received rest i code,
    Host.decodeStatus operation sent.2 = .done (received, rest) ∧
      ((entries sent.1).findIdx? fun entry => entry.1 = name) = some i ∧
        (entries received)[i]? = some (cut name, code) ∧
          finalStatusOfStatusCode code = finalStatus

variable {cfg : Configuration} {s₀ s : State}

/-! ## The table -/

/-- The code of a table that a name is found with. -/
def HasResult (name : Str) (code : StatusCode) (table : List (Str × StatusCode)) : Prop :=
  Tables.lookup Prod.fst name table = some (name, code)

/-- An entry with another code. -/
def withCode (code : StatusCode) (entry : Str × StatusCode) : Str × StatusCode := (entry.1, code)

theorem fst_withCode (code : StatusCode) (entry : Str × StatusCode) :
    Prod.fst (withCode code entry) = Prod.fst entry := rfl

/-- The table behind the calls that set one entry. -/
theorem entries_setLoad {set : UploadLoadStatus → UploadLoadStatus} {code : StatusCode}
    (hset : ∀ load, loadEntry (set load) = withCode code (loadEntry load)) (headerFilename : Str)
    (status : UploadStatus) :
    (status.setLoad headerFilename set).loads.map loadEntry =
      Tables.upsert Prod.fst headerFilename (headerFilename, .invalid) (withCode code)
        (status.loads.map loadEntry) := by
  rw [UploadStatus.loads_setLoad]
  apply Tables.map_upsert
  · exact fun _ => rfl
  · exact hset

theorem entries_setFile {set : DownloadFileStatus → DownloadFileStatus} {code : StatusCode}
    (hset : ∀ file, fileEntry (set file) = withCode code (fileEntry file)) (filename : Str)
    (status : DownloadStatus) :
    (status.setFile filename set).files.map fileEntry =
      Tables.upsert Prod.fst filename (filename, .invalid) (withCode code)
        (status.files.map fileEntry) := by
  rw [DownloadStatus.files_setFile]
  apply Tables.map_upsert
  · exact fun _ => rfl
  · exact hset

/-- The table behind the calls that finish all that is not. -/
def finishAll (code : StatusCode) (entry : Str × StatusCode) : Str × StatusCode :=
  if keepsFileStatus entry.2 then entry else withCode code entry

/-- What a call does to the table of a status of its class. -/
def tableUpdate (cfg : Configuration) :
    ApplicationCall → List (Str × StatusCode) → List (Str × StatusCode)
  | .loadAccepted name _ => (· ++ [(name, .operationAccepted)])
  | .fileAccepted name => (· ++ [(name, .operationAccepted)])
  | .loadInProgress name _ description =>
    Tables.upsert Prod.fst name (name, .invalid) (withCode (inProgressCode cfg description))
  | .fileInProgress name description =>
    Tables.upsert Prod.fst name (name, .invalid) (withCode (inProgressCode cfg description))
  | .loadFinished name finalStatus _ =>
    Tables.upsert Prod.fst name (name, .invalid) (withCode (statusCodeOfFinalStatus finalStatus))
  | .fileFinished name finalStatus _ =>
    Tables.upsert Prod.fst name (name, .invalid) (withCode (statusCodeOfFinalStatus finalStatus))
  | .loadsFinished finalStatus _ => List.map (finishAll (statusCodeOfFinalStatus finalStatus))
  | .filesFinished finalStatus _ => List.map (finishAll (statusCodeOfFinalStatus finalStatus))
  | _ => id

@[simp] theorem entries_update (f : Status → Status) (status : OperationStatus) :
    entries (status.update f) = entries status := by
  cases status <;> rfl

@[simp] theorem entries_reported (code : StatusCode) (description : Str) (estimatedTime : Int16)
    (status : OperationStatus) :
    entries (reported code description estimatedTime status) = entries status :=
  entries_update ..

@[simp] theorem entries_statusToSend (status : OperationStatus) :
    entries (statusToSend status) = entries status := by
  unfold statusToSend
  split
  · exact entries_update ..
  · rfl

theorem map_loadsFinished (finalStatus : FinalStatus) (description : Str)
    (status : UploadStatus) :
    (UploadOperation.withLoadsFinished finalStatus description status).loads.map loadEntry =
      (status.loads.map loadEntry).map (finishAll (statusCodeOfFinalStatus finalStatus)) := by
  simp only [UploadOperation.withLoadsFinished, List.map_map]
  refine List.map_congr_left fun load _ => ?_
  by_cases hkeeps : keepsFileStatus load.code = true <;>
    simp [finishAll, loadEntry, withCode, hkeeps, UploadLoadStatus.set]

theorem map_filesFinished (finalStatus : FinalStatus) (description : Str)
    (status : DownloadStatus) :
    (DownloadOperation.withFilesFinished finalStatus description status).files.map fileEntry =
      (status.files.map fileEntry).map (finishAll (statusCodeOfFinalStatus finalStatus)) := by
  simp only [DownloadOperation.withFilesFinished, List.map_map]
  refine List.map_congr_left fun file _ => ?_
  by_cases hkeeps : keepsFileStatus file.code = true <;>
    simp [finishAll, fileEntry, withCode, hkeeps, DownloadFileStatus.set]

/-- **The table** behind a call that the operation has. -/
theorem entries_callUpdate {operation : OperationType} {call : ApplicationCall}
    (hoffers : offers operation call = true) {status : OperationStatus}
    (hclass : status.operationClass = operationClass operation) :
    entries (callUpdate cfg call status) = tableUpdate cfg call (entries status) := by
  cases status with
  | information status =>
    cases call <;> first | rfl | simp_all [offers, OperationStatus.operationClass]
  | upload status =>
    cases call with
    | loadAccepted headerFilename partNumber => exact List.map_append
    | loadInProgress headerFilename ratio description => exact entries_setLoad (fun _ => rfl) ..
    | loadFinished headerFilename finalStatus description =>
      exact entries_setLoad (fun _ => rfl) ..
    | loadsFinished finalStatus description => exact map_loadsFinished ..
    | _ => first | rfl | simp_all [offers, OperationStatus.operationClass]
  | download status =>
    cases call with
    | fileAccepted filename => exact List.map_append
    | fileInProgress filename description => exact entries_setFile (fun _ => rfl) ..
    | fileFinished filename finalStatus description => exact entries_setFile (fun _ => rfl) ..
    | filesFinished finalStatus description => exact map_filesFinished ..
    | _ => first | rfl | simp_all [offers, OperationStatus.operationClass]

/-! ## The results in the table -/

theorem hasResult_result {call : ApplicationCall} {name : Str} {finalStatus : FinalStatus}
    (h : call.result? = some (name, finalStatus)) (table : List (Str × StatusCode)) :
    HasResult name (statusCodeOfFinalStatus finalStatus) (tableUpdate cfg call table) := by
  have hset : ∀ code, HasResult name code
      (Tables.upsert Prod.fst name (name, .invalid) (withCode code) table) := by
    intro code
    have hfresh : Prod.fst (name, StatusCode.invalid) = name := rfl
    rw [HasResult, Tables.lookup_upsert_self (fst_withCode code) hfresh]
    cases hlookup : Tables.lookup Prod.fst name table with
    | none => rfl
    | some entry =>
      have hname : entry.1 = name := Tables.key_of_lookup hlookup
      rw [Option.getD_some, withCode, hname]
  cases call with
  | loadFinished headerFilename finalStatus description =>
    cases h
    exact hset _
  | fileFinished filename finalStatus description =>
    cases h
    exact hset _
  | _ => cases h

/-- A code that the finishing calls keep stays with a name that is not reported. -/
theorem hasResult_keep {call : ApplicationCall} {name : Str} {code : StatusCode}
    (hname : call.reported? ≠ some name) (hcode : keepsFileStatus code = true)
    {table : List (Str × StatusCode)} (h : HasResult name code table) :
    HasResult name code (tableUpdate cfg call table) := by
  have hset : ∀ {other} code', other ≠ name → HasResult name code
      (Tables.upsert Prod.fst other (other, .invalid) (withCode code') table) := by
    intro other code' hne
    have hfresh : Prod.fst (other, StatusCode.invalid) = other := rfl
    rw [HasResult, Tables.lookup_upsert_ne (fst_withCode code') hfresh hne]
    exact h
  have hall : ∀ code', HasResult name code (table.map (finishAll code')) := by
    intro code'
    rw [HasResult, Tables.lookup_map, h, Option.map_some, finishAll, if_pos hcode]
    intro entry
    unfold finishAll
    split <;> rfl
  have hne : ∀ {other}, call.reported? = some other → other ≠ name := by
    rintro other hother rfl
    exact hname hother
  cases call with
  | loadAccepted headerFilename partNumber => exact Tables.lookup_append h _
  | fileAccepted filename => exact Tables.lookup_append h _
  | loadInProgress headerFilename ratio description => exact hset _ (hne rfl)
  | loadFinished headerFilename finalStatus description => exact hset _ (hne rfl)
  | fileInProgress filename description => exact hset _ (hne rfl)
  | fileFinished filename finalStatus description => exact hset _ (hne rfl)
  | loadsFinished finalStatus description => exact hall _
  | filesFinished finalStatus description => exact hall _
  | _ => exact h

theorem keepsFileStatus_result (finalStatus : FinalStatus) :
    keepsFileStatus (statusCodeOfFinalStatus finalStatus) = true := by
  cases finalStatus <;> rfl

/-- A call that the operation has. -/
theorem offers_of_reaction {call : ApplicationCall} {r : Reaction}
    (h : reaction cfg s (.application call) = some r) : offers cfg.operation call = true := by
  simp only [reaction] at h
  split at h
  · assumption
  · cases h

/-- A result goes into the table. -/
theorem hasResult_step_result {call : ApplicationCall} {name : Str} {finalStatus : FinalStatus}
    {s' : State} {out : List Output} (hclass : InClass cfg s)
    (h : call.result? = some (name, finalStatus))
    (hstep : (machine cfg).step s (.application call) = some (s', out)) :
    HasResult name (statusCodeOfFinalStatus finalStatus) (entries s'.status) := by
  obtain ⟨r, hr, hresult⟩ := step_iff.mp hstep
  have hoffers := offers_of_reaction hr
  have hupdate : r = .update (callUpdate cfg call) := by
    simp only [reaction, hoffers, if_true, Option.some.injEq] at hr
    rw [← hr]
    cases call <;> first | rfl | cases h
  subst hupdate
  simp only [Reaction.result, Option.some.injEq, Prod.mk.injEq] at hresult
  rw [← hresult.1, status_withStatus, status_taken, entries_callUpdate hoffers hclass]
  exact hasResult_result h _

/-- It stays there. -/
theorem hasResult_step_keep {e : Event} {name : Str} {code : StatusCode} {s' : State}
    {out : List Output} (hclass : InClass cfg s) (hcode : keepsFileStatus code = true)
    (hother : ∀ call, e = .application call → call.reported? ≠ some name)
    (h : HasResult name code (entries s.status))
    (hstep : (machine cfg).step s e = some (s', out)) :
    HasResult name code (entries s'.status) := by
  obtain ⟨r, hr, hresult⟩ := step_iff.mp hstep
  have hupdated : HasResult name code (entries (r.updated cfg s.status)) := by
    refine updated_cases (P := fun status => HasResult name code (entries status)) hr h ?_ ?_ ?_
    · intro f hf
      obtain ⟨code, description, estimatedTime, rfl, -, -⟩ := hf.ownReport
      rwa [entries_reported]
    · intro call he
      subst he
      rw [entries_callUpdate (offers_of_reaction hr) hclass]
      exact hasResult_keep (hother call rfl) hcode h
    · intro status hstatus
      rwa [entries_statusToSend]
  obtain hs' | hs' := status_result hresult
  · rw [hs', status_taken]
    exact hupdated
  · rw [hs', status_taken, entries_update]
    exact hupdated

theorem inClass_run {hostAddress : Endpoint} {port : Option UInt16} {es : List Event}
    {tr : List Output} (h : (machine cfg).exec (started cfg hostAddress port) es = some (s, tr)) :
    InClass cfg s :=
  Machine.exec_invariant (fun _ _ _ _ => inClass_step) (inClass_started hostAddress port) h

/-- **Results**: what was reported last is found in the table. -/
theorem hasResult_run {hostAddress : Endpoint} {port : Option UInt16} {es : List Event}
    {tr : List Output} {name : Str} {finalStatus : FinalStatus}
    (h : (machine cfg).exec (started cfg hostAddress port) es = some (s, tr))
    (hresult : ResultReported es name finalStatus) :
    HasResult name (statusCodeOfFinalStatus finalStatus) (entries s.status) := by
  refine Machine.exec_history (fun es s _ => ResultReported es name finalStatus →
    HasResult name (statusCodeOfFinalStatus finalStatus) (entries s.status)) ?_ ?_ h hresult
  · rintro ⟨before, call, after, hes, -⟩
    cases before <;> cases hes
  · rintro es s tr e s' out hexec ih hstep ⟨before, call, after, hes, hcall, hafter⟩
    have hclass := inClass_run hexec
    rcases List.eq_nil_or_concat' after with rfl | ⟨after, last, rfl⟩
    · obtain ⟨-, hlast⟩ := List.append_inj' hes rfl
      rw [List.singleton_inj.mp hlast] at hstep
      exact hasResult_step_result hclass hcall hstep
    · rw [← List.cons_append, ← List.append_assoc] at hes
      obtain ⟨hinit, hlast⟩ := List.append_inj' hes rfl
      obtain rfl := List.singleton_inj.mp hlast
      refine hasResult_step_keep hclass (keepsFileStatus_result finalStatus) ?_
        (ih ⟨before, call, after, hinit, hcall, ?_⟩) hstep
      · intro later he
        exact hafter later (he ▸ by simp)
      · intro later hmem
        exact hafter later (List.mem_append_left _ hmem)

/-! ## The codes -/

/-- The codes of a status are no internal ones, but for the one of a status that was
never set. -/
structure CodesTravel (status : OperationStatus) : Prop where
  code_ne : status.status.code ≠ .operationDeferred
  entries : ∀ entry ∈ entries status, entry.2.Transmissible

theorem transmissible_inProgressCode (description : Str) :
    (inProgressCode cfg description).Transmissible := by
  unfold inProgressCode
  split <;> exact ⟨by decide, by decide⟩

theorem transmissible_statusCodeOfFinalStatus (finalStatus : FinalStatus) :
    (statusCodeOfFinalStatus finalStatus).Transmissible := by
  cases finalStatus <;> exact ⟨by decide, by decide⟩

/-- The calls set codes that travel. -/
theorem transmissible_tableUpdate {table : List (Str × StatusCode)}
    (h : ∀ entry ∈ table, entry.2.Transmissible) (call : ApplicationCall) :
    ∀ entry ∈ tableUpdate cfg call table, entry.2.Transmissible := by
  have hset : ∀ {code} name, code.Transmissible → ∀ entry ∈
      Tables.upsert Prod.fst name (name, StatusCode.invalid) (withCode code) table,
        entry.2.Transmissible :=
    fun name hcode => Tables.forall_upsert h (fun _ _ => hcode) hcode
  have hnew : ∀ name, ∀ entry ∈ table ++ [(name, StatusCode.operationAccepted)],
      entry.2.Transmissible := by
    intro name entry hmem
    rcases List.mem_append.mp hmem with hmem | hmem
    · exact h entry hmem
    · rw [List.mem_singleton.mp hmem]
      refine ⟨?_, ?_⟩ <;> simp
  have hall : ∀ {code}, code.Transmissible → ∀ entry ∈ table.map (finishAll code),
      entry.2.Transmissible := by
    intro code hcode entry hmem
    obtain ⟨old, hold, rfl⟩ := List.mem_map.mp hmem
    unfold finishAll
    split
    · exact h old hold
    · exact hcode
  cases call with
  | loadAccepted headerFilename partNumber => exact hnew _
  | fileAccepted filename => exact hnew _
  | loadInProgress headerFilename ratio description =>
    exact hset _ (transmissible_inProgressCode description)
  | fileInProgress filename description =>
    exact hset _ (transmissible_inProgressCode description)
  | loadFinished headerFilename finalStatus description =>
    exact hset _ (transmissible_statusCodeOfFinalStatus finalStatus)
  | fileFinished filename finalStatus description =>
    exact hset _ (transmissible_statusCodeOfFinalStatus finalStatus)
  | loadsFinished finalStatus description =>
    exact hall (transmissible_statusCodeOfFinalStatus finalStatus)
  | filesFinished finalStatus description =>
    exact hall (transmissible_statusCodeOfFinalStatus finalStatus)
  | _ => exact h

theorem codesTravel_reported {code : StatusCode} (hcode : code ≠ .operationDeferred)
    (description : Str) (estimatedTime : Int16) {status : OperationStatus}
    (h : CodesTravel status) : CodesTravel (reported code description estimatedTime status) := by
  refine ⟨?_, ?_⟩
  · rw [status_reported]
    exact hcode
  · rw [entries_reported]
    exact h.entries

theorem codesTravel_statusToSend {status : OperationStatus} (h : CodesTravel status) :
    CodesTravel (statusToSend status) := by
  refine ⟨?_, ?_⟩
  · unfold statusToSend
    split
    · rw [OperationStatus.status_update]
      simp [Status.setCode]
    · exact h.code_ne
  · rw [entries_statusToSend]
    exact h.entries

/-- The code of the operation behind a call. -/
theorem code_callUpdate_deferred (call : ApplicationCall) {status : OperationStatus}
    (h : status.status.code ≠ .operationDeferred) :
    (callUpdate cfg call status).status.code ≠ .operationDeferred := by
  cases hreport : call.isReport with
  | false =>
    rw [status_callUpdate hreport]
    exact h
  | true =>
    cases call with
    | accepted => simp [callUpdate, Status.set]
    | inProgress immediateTransmission estimatedTime description =>
      simpa [callUpdate, Status.set] using (transmissible_inProgressCode description).1
    | inProgressList immediateTransmission estimatedTime description listRatio =>
      simpa [callUpdate, Status.set] using (transmissible_inProgressCode description).1
    | finished finalStatus description =>
      simpa [callUpdate, Status.set] using (transmissible_statusCodeOfFinalStatus finalStatus).1
    | _ => cases hreport

theorem codesTravel_updated {e : Event} {r : Reaction} (hclass : InClass cfg s)
    (hr : reaction cfg s e = some r) (h : CodesTravel s.status) :
    CodesTravel (r.updated cfg s.status) := by
  refine updated_cases hr h ?_ ?_ fun _ => codesTravel_statusToSend
  · intro f hf
    cases hf with
    | failed _ => exact codesTravel_reported (by decide) _ _ h
    | completed => exact codesTravel_reported (by decide) _ _ h
    | inProgress => exact codesTravel_reported (by decide) _ _ h
  · intro call he
    subst he
    refine ⟨code_callUpdate_deferred call h.code_ne, ?_⟩
    rw [entries_callUpdate (offers_of_reaction hr) hclass]
    exact transmissible_tableUpdate h.entries call

theorem codesTravel_run {hostAddress : Endpoint} {port : Option UInt16} {es : List Event}
    {tr : List Output} (h : (machine cfg).exec (started cfg hostAddress port) es = some (s, tr)) :
    CodesTravel s.status := by
  refine Machine.exec_history (fun _ s _ => CodesTravel s.status) ?_ ?_ h
  · refine ⟨?_, ?_⟩ <;> cases hop : cfg.operation <;>
      simp [started, newOperation, initialStatus, hop, operationClass, OperationStatus.status,
        entries]
  · intro es s tr e s' out hexec ih hstep
    obtain ⟨r, hr, hresult⟩ := step_iff.mp hstep
    have hupdated := codesTravel_updated (inClass_run hexec) hr ih
    obtain hs' | hs' := status_result hresult
    · rw [hs', status_taken]
      exact hupdated
    · rw [hs', status_taken]
      refine ⟨?_, ?_⟩
      · rw [OperationStatus.status_update]
        exact hupdated.code_ne
      · rw [entries_update]
        exact hupdated.entries

/-! ## What the host reads -/

/-- An entry as it arrives. -/
def cutEntry (entry : Str × StatusCode) : Str × StatusCode := (cut entry.1, entry.2)

/-- **Arrival**: the host reads the table that was encoded, its names up to a NUL. -/
theorem decode_of_encode {operation : OperationType} {version : Arinc615aVersion}
    {status : OperationStatus} {file : RawData} (hversion : version.Supported)
    (hclass : status.operationClass = operationClass operation) (htable : entries status ≠ [])
    (hcode : status.status.code ≠ .invalid) (hcodes : CodesTravel status)
    (hencode : encodeStatus version status = .ok file) :
    ∃ received, Host.decodeStatus operation file = .done (received, []) ∧
      entries received = (entries status).map cutEntry := by
  have htexts := (exists_encodeStatus_iff version status).mp ⟨file, hencode⟩
  have htransmissible : status.status.code.Transmissible := ⟨hcodes.code_ne, hcode⟩
  cases status with
  | information status => exact absurd rfl htable
  | upload status =>
    obtain rfl : operation = .upload := by
      cases operation <;> first | rfl | cases hclass
    obtain ⟨hdescription, hcount, hloads⟩ := htexts
    obtain ⟨rawData, hraw, hdecode⟩ := UploadOperationStatusFile.arrives
      ⟨version, status⟩ hversion htransmissible hdescription hcount
      (fun load hload => ⟨hloads load hload, hcodes.entries _ (List.mem_map_of_mem hload)⟩) {}
    obtain rfl : rawData = file := Except.ok.inj (hraw.symm.trans hencode)
    refine ⟨_, congrArg (Outcome.bind · _) hdecode, ?_⟩
    simp only [entries, List.map_map]
    rfl
  | download status =>
    have hdecoder : Host.decodeStatus operation = Host.DownloadOperation.decodeStatus := by
      cases operation <;> first | rfl | cases hclass
    obtain ⟨hdescription, hcount, hfiles⟩ := htexts
    obtain ⟨rawData, hraw, hdecode⟩ := DownloadOperationStatusFile.arrives
      ⟨version, status⟩ hversion htransmissible hdescription hcount
      (fun f hf => ⟨hfiles f hf, hcodes.entries _ (List.mem_map_of_mem hf)⟩) {}
    obtain rfl : rawData = file := Except.ok.inj (hraw.symm.trans hencode)
    rw [hdecoder]
    refine ⟨_, congrArg (Outcome.bind · _) hdecode, ?_⟩
    simp only [entries, List.map_map]
    rfl

/-- The file of a status is framed with the version. -/
theorem exists_framed {version : Arinc615aVersion} {status : OperationStatus} {file : RawData}
    (h : encodeStatus version status = .ok file) : ∃ body, file = insertHeader version body := by
  cases status with
  | information status =>
    obtain ⟨a, -, hfile⟩ := bind_eq_ok.mp h
    exact ⟨_, (Except.ok.inj hfile).symm⟩
  | upload status =>
    obtain ⟨front, -, hfront⟩ := bind_eq_ok.mp h
    split at hfront
    · cases hfront
    · obtain ⟨loads, -, hfile⟩ := bind_eq_ok.mp hfront
      exact ⟨_, (Except.ok.inj hfile).symm⟩
  | download status =>
    obtain ⟨front, -, hfront⟩ := bind_eq_ok.mp h
    split at hfront
    · cases hfront
    · obtain ⟨files, -, hfile⟩ := bind_eq_ok.mp hfront
      exact ⟨_, (Except.ok.inj hfile).symm⟩

/-- The host reads files of supported versions only. -/
theorem supported_of_decode {operation : OperationType} {version : Arinc615aVersion}
    {body : RawData} {result : OperationStatus × RawData}
    (h : Host.decodeStatus operation (insertHeader version body) = .done result) :
    version.Supported := by
  cases operation <;>
    (obtain ⟨decoded, hdecode, -⟩ := Outcome.bind_eq_done.mp h
     exact supported_of_decodeFile hdecode)

/-! ## The results of a run -/

/-- A status that is sent with a result in its table is read with it. -/
theorem exists_received {operation : OperationType} {version : Arinc615aVersion}
    {status : OperationStatus} {file : RawData} {name : Str} {code : StatusCode}
    (hversion : version.Supported) (hclass : status.operationClass = operationClass operation)
    (hcode : status.status.code ≠ .invalid) (hcodes : CodesTravel status)
    (hresult : HasResult name code (entries status))
    (hencode : encodeStatus version status = .ok file) :
    ∃ received i, Host.decodeStatus operation file = .done (received, []) ∧
      ((entries status).findIdx? fun entry => entry.1 = name) = some i ∧
        (entries received)[i]? = some (cut name, code) := by
  obtain ⟨i, hposition, hentry⟩ := Tables.exists_position hresult
  have htable : entries status ≠ [] := by
    intro hnil
    rw [hnil] at hentry
    cases hentry
  obtain ⟨received, hdecode, hmap⟩ :=
    decode_of_encode hversion hclass htable hcode hcodes hencode
  refine ⟨received, i, hdecode, hposition, ?_⟩
  rw [hmap, List.getElem?_map, hentry]
  rfl

/-- **Results of loads and files**: in every run, the result that was reported last of a
load or file arrives with each status file exactly if the host reads the version and
the final status has a code of its own. -/
theorem target_loadResult_iff {hostAddress : Endpoint} {port : Option UInt16}
    {es pre : List Event} {tr out : List Output} {e : Event} {s' : State}
    {sent : OperationStatus × RawData} {name : Str} {finalStatus : FinalStatus}
    (hhas : (machine cfg).HasStep (started cfg hostAddress port) es pre tr s e s' out)
    (hsent : sent ∈ sentFiles out) (hresult : ResultReported (pre ++ [e]) name finalStatus) :
    ResultArrives cfg.operation sent name finalStatus ↔
      cfg.protocolVersion.Supported ∧ finalStatus ≠ .loadPartNumberOrDownloadFileFailed := by
  obtain ⟨post, -, hpre, hstep⟩ := hhas
  have htable := hasResult_run
    (Machine.exec_append_singleton.mpr ⟨s, tr, out, hpre, hstep, rfl⟩) hresult
  obtain ⟨r, hr, hreaction⟩ := step_iff.mp hstep
  cases stepSends_step hr hreaction with
  | none hstatus hnone =>
    rw [hnone] at hsent
    cases hsent
  | @one file hstatus hone hdue hencode =>
    rw [hone] at hsent
    obtain rfl := List.mem_singleton.mp hsent
    rw [hstatus, entries_update] at htable
    have hclass : (r.updated cfg s.status).operationClass = operationClass cfg.operation :=
      (operationClass_updated hr s.status).trans (inClass_run hpre)
    have hcodes := codesTravel_updated (inClass_run hpre) hr (codesTravel_run hpre)
    constructor
    · rintro ⟨received, rest, i, code, hdecode, hposition, hentry, hfinal⟩
      have hversion : cfg.protocolVersion.Supported := by
        obtain ⟨body, rfl⟩ := exists_framed hencode
        exact supported_of_decode hdecode
      refine ⟨hversion, ?_⟩
      rintro rfl
      -- The host finds the code that was sent, which is the one of an abort by the target.
      obtain ⟨received', i', hdecode', hposition', hentry'⟩ :=
        exists_received hversion hclass (code_due_ne hdue) hcodes htable hencode
      rw [hdecode', Outcome.done.injEq, Prod.mk.injEq] at hdecode
      rw [hposition', Option.some.injEq] at hposition
      rw [← hdecode.1, ← hposition, hentry', Option.some.injEq, Prod.mk.injEq] at hentry
      rw [← hentry.2] at hfinal
      cases hfinal
    · rintro ⟨hversion, hne⟩
      obtain ⟨received, i, hdecode, hposition, hentry⟩ :=
        exists_received hversion hclass (code_due_ne hdue) hcodes htable hencode
      exact ⟨received, [], i, _, hdecode, hposition, hentry, finalStatus_statusCode hne⟩

/-- An upload of one load, which is finished before its status is sent. -/
def exampleUpload (finalStatus : FinalStatus) : List Event :=
  [.serverCompleted 0 .successful [], .application (.loadAccepted (str "A.LUH") (str "PN")),
    .application (.loadFinished (str "A.LUH") finalStatus []), .advance second, .timerExpired]

theorem resultReported_exampleUpload (finalStatus : FinalStatus) :
    ResultReported (exampleUpload finalStatus ++ [.timerHandler .success]) (str "A.LUH")
      finalStatus :=
  ⟨[.serverCompleted 0 .successful [], .application (.loadAccepted (str "A.LUH") (str "PN"))],
    _, [.advance second, .timerExpired, .timerHandler .success], rfl, rfl, by simp⟩

/-- Its status is sent. -/
theorem sends_exampleUpload (finalStatus : FinalStatus) :
    ∃ tr s s' out sent,
      (machine (exampleConfiguration .upload)).HasStep
          (started (exampleConfiguration .upload) exampleHost none)
          (exampleUpload finalStatus ++ [.timerHandler .success]) (exampleUpload finalStatus) tr s
          (.timerHandler .success) s' out ∧
        sent ∈ sentFiles out := by
  cases finalStatus <;> exact ⟨_, _, _, _, _, ⟨[], rfl, rfl, rfl⟩, List.mem_cons_self⟩

/-- The load is completed. -/
theorem target_loadResult_completed :
    ∃ tr s s' out sent,
      (machine (exampleConfiguration .upload)).HasStep
          (started (exampleConfiguration .upload) exampleHost none)
          (exampleUpload .completed ++ [.timerHandler .success]) (exampleUpload .completed) tr s
          (.timerHandler .success) s' out ∧
        sent ∈ sentFiles out ∧ ResultArrives .upload sent (str "A.LUH") .completed := by
  obtain ⟨tr, s, s', out, sent, hhas, hsent⟩ := sends_exampleUpload .completed
  refine ⟨tr, s, s', out, sent, hhas, hsent, ?_⟩
  exact (target_loadResult_iff hhas hsent (resultReported_exampleUpload .completed)).mpr
    ⟨.inr rfl, by decide⟩

/-- Its part number was wrong: the host finds that the target aborted it. -/
theorem target_loadResult_failed :
    ∃ tr s s' out sent,
      (machine (exampleConfiguration .upload)).HasStep
          (started (exampleConfiguration .upload) exampleHost none)
          (exampleUpload .loadPartNumberOrDownloadFileFailed ++ [.timerHandler .success])
          (exampleUpload .loadPartNumberOrDownloadFileFailed) tr s
          (.timerHandler .success) s' out ∧
        sent ∈ sentFiles out ∧
          ResultReported (exampleUpload .loadPartNumberOrDownloadFileFailed ++
            [.timerHandler .success]) (str "A.LUH") .loadPartNumberOrDownloadFileFailed ∧
          ¬ ResultArrives .upload sent (str "A.LUH") .loadPartNumberOrDownloadFileFailed := by
  refine ⟨_, _, _, _, _, ⟨[], rfl, rfl, rfl⟩, List.mem_cons_self,
    resultReported_exampleUpload _, ?_⟩
  rintro ⟨received, rest, i, code, hdecode, hposition, hentry, hfinal⟩
  cases hdecode
  cases hposition
  cases hentry
  cases hfinal

end Arinc615a.Target
