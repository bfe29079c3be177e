import Arinc615a.Files.Accepted
import Arinc615a.Target.StatusContent

/-!
# The texts of the status of a target operation

Descriptions, file names and part numbers come in by a dozen calls, none of which
looks at them, and are encoded when the status is sent. A call that sends it throws
what the encoder throws. From the handler of the timer nobody catches it, and the
timer is not armed again (`target_statusTimer_iff`).
-/

namespace Arinc615a.Target

open Actions Machines Readers Readers.Reader Timers
open Files Information Tftp

/-! ## What the encoders accept -/

/-- The texts of a status fit, and there are at most so many entries. -/
def TextsAccepted (entries : Nat) : OperationStatus → Prop
  | .information status => StringAccepted status.description
  | .upload status =>
    StringAccepted status.description ∧ status.loads.length ≤ entries ∧
      ∀ load ∈ status.loads, LoadAccepted load
  | .download status =>
    StringAccepted status.description ∧ status.files.length ≤ entries ∧
      ∀ file ∈ status.files, FileAccepted file

variable {cfg : Configuration} {s₀ s : State}

/-- **Encoding**: a status is encoded exactly if its texts are accepted, and its
entries fit their count. -/
theorem exists_encodeStatus_iff (version : Arinc615aVersion) (status : OperationStatus) :
    (∃ file, encodeStatus version status = .ok file) ↔ TextsAccepted 65535 status := by
  cases status with
  | information status =>
    simp [encodeStatus, InformationOperationStatusFile.encode, exists_bind_ok,
      exists_stringEncode_iff, TextsAccepted]
  | upload status =>
    simp only [encodeStatus, UploadOperationStatusFile.encode, exists_counted_iff,
      exists_encodeStatusFront_iff, exists_encodeUploadLoadStatus_iff, TextsAccepted]
  | download status =>
    simp only [encodeStatus, DownloadOperationStatusFile.encode, exists_counted_iff,
      exists_encodeStatusFront_iff, exists_encodeDownloadFileStatus_iff, TextsAccepted]

/-! ## The law -/

/-- A call of the application throws. -/
def CallThrows (cfg : Configuration) (s₀ : State) (es : List Event) : Prop :=
  ∃ pre tr s call s' out exception,
    (machine cfg).HasStep s₀ es pre tr s (.application call) s' out ∧ .thrown exception ∈ out

/-- Unless a call threw, the handler of the timer does not throw, and arms the timer
again. -/
def StatusTimerLaw (cfg : Configuration) (s₀ : State) (es : List Event) : Prop :=
  ¬ CallThrows cfg s₀ es →
    ∀ pre tr s result s' out,
      (machine cfg).HasStep s₀ es pre tr s (.timerHandler result) s' out →
        (∀ exception, .thrown exception ∉ out) ∧
          (result ≠ .operationAborted → ∃ deadline, .timerArmed deadline ∈ out)

/-- Where the handler of the timer sends the status, its texts fit. -/
def TimerFindsTexts (cfg : Configuration) (s₀ : State) (es : List Event) : Prop :=
  ∀ pre tr s result s' out, (machine cfg).HasStep s₀ es pre tr s (.timerHandler result) s' out →
    result ≠ .operationAborted → TextsAccepted 65535 (statusToSend s.status)

/-- The texts that a call gives to the status. -/
def ApplicationCall.texts : ApplicationCall → List Str
  | accepted => []
  | inProgress _ _ description => [description]
  | inProgressList _ _ description _ => [description]
  | finished _ description => [description]
  | loadAccepted headerFilename partNumber => [headerFilename, partNumber]
  | loadInProgress headerFilename _ description => [headerFilename, description]
  | loadFinished headerFilename _ description => [headerFilename, description]
  | loadsFinished _ description => [description]
  | fileAccepted filename => [filename]
  | fileInProgress filename description => [filename, description]
  | fileFinished filename _ description => [filename, description]
  | filesFinished _ description => [description]
  | targetInformation _ _ => []
  | downloadingList _ => []

/-- The calls that can add an entry. -/
def ApplicationCall.addsEntry : ApplicationCall → Bool
  | loadAccepted _ _ => true
  | loadInProgress _ _ _ => true
  | loadFinished _ _ _ => true
  | fileAccepted _ => true
  | fileInProgress _ _ => true
  | fileFinished _ _ _ => true
  | _ => false

/-- The entries that the event can add. -/
def addedEntries : Event → Nat
  | .application call => if call.addsEntry then 1 else 0
  | _ => 0

/-- The calls give texts that fit, and add no more entries than their count allows. -/
structure CallsFit (es : List Event) : Prop where
  texts : ∀ call, .application call ∈ es → ∀ text ∈ call.texts, StringAccepted text
  entries : (es.map addedEntries).sum ≤ 65535

/-! ## Where the texts come from -/

theorem TextsAccepted.mono {m n : Nat} {status : OperationStatus} (h : TextsAccepted m status)
    (hle : m ≤ n) : TextsAccepted n status := by
  cases status with
  | information status => exact h
  | upload status => exact ⟨h.1, h.2.1.trans hle, h.2.2⟩
  | download status => exact ⟨h.1, h.2.1.trans hle, h.2.2⟩

/-- A change of what all operations share keeps the entries. -/
theorem textsAccepted_update {n : Nat} {f : Status → Status} {status : OperationStatus}
    (hf : StringAccepted (f status.status).description) (h : TextsAccepted n status) :
    TextsAccepted n (status.update f) := by
  cases status with
  | information status => exact hf
  | upload status => exact ⟨hf, h.2⟩
  | download status => exact ⟨hf, h.2⟩

theorem textsAccepted_description {n : Nat} {status : OperationStatus}
    (h : TextsAccepted n status) : StringAccepted status.status.description := by
  cases status with
  | information status => exact h
  | upload status => exact h.1
  | download status => exact h.1

theorem textsAccepted_statusToSend {n : Nat} {status : OperationStatus}
    (h : TextsAccepted n status) : TextsAccepted n (statusToSend status) := by
  unfold statusToSend
  split
  · exact textsAccepted_update stringAccepted_nil h
  · exact h

theorem textsAccepted_reported {n : Nat} {code : StatusCode} {description : Str}
    {estimatedTime : Int16} (hdescription : StringAccepted description)
    {status : OperationStatus} (h : TextsAccepted n status) :
    TextsAccepted n (reported code description estimatedTime status) :=
  textsAccepted_update hdescription h

theorem textsAccepted_setListRatio {n : Nat} (listRatio : Ratio) {status : OperationStatus}
    (h : TextsAccepted n status) : TextsAccepted n (setListRatio listRatio status) := by
  cases status with
  | information status => exact h
  | upload status => exact h
  | download status => exact h

/-- A change of the loads. -/
theorem textsAccepted_onUpload {m n : Nat} {f : UploadStatus → UploadStatus}
    (hstatus : ∀ upload, (f upload).toStatus = upload.toStatus)
    (hlength : ∀ upload, (f upload).loads.length ≤ upload.loads.length + n)
    (hloads : ∀ upload, (∀ load ∈ upload.loads, LoadAccepted load) →
      ∀ load ∈ (f upload).loads, LoadAccepted load)
    {status : OperationStatus} (h : TextsAccepted m status) :
    TextsAccepted (m + n) (onUpload f status) := by
  cases status with
  | upload upload =>
    obtain ⟨hdescription, hcount, hall⟩ := h
    refine ⟨?_, ?_, hloads upload hall⟩
    · rw [hstatus]
      exact hdescription
    · have hmore := hlength upload
      omega
  | information status => exact h
  | download status => exact h.mono (Nat.le_add_right m n)

/-- A change of the files. -/
theorem textsAccepted_onDownload {m n : Nat} {f : DownloadStatus → DownloadStatus}
    (hstatus : ∀ download, (f download).toStatus = download.toStatus)
    (hlength : ∀ download, (f download).files.length ≤ download.files.length + n)
    (hfiles : ∀ download, (∀ file ∈ download.files, FileAccepted file) →
      ∀ file ∈ (f download).files, FileAccepted file)
    {status : OperationStatus} (h : TextsAccepted m status) :
    TextsAccepted (m + n) (onDownload f status) := by
  cases status with
  | download download =>
    obtain ⟨hdescription, hcount, hall⟩ := h
    refine ⟨?_, ?_, hfiles download hall⟩
    · rw [hstatus]
      exact hdescription
    · have hmore := hlength download
      omega
  | information status => exact h
  | upload status => exact h.mono (Nat.le_add_right m n)

theorem loadAccepted_set {load : UploadLoadStatus} (h : LoadAccepted load) (ratio : Ratio)
    (code : StatusCode) {description : Str} (hdescription : StringAccepted description) :
    LoadAccepted (load.set ratio code description) :=
  ⟨h.headerFilename, h.partNumber, hdescription⟩

theorem fileAccepted_set {file : DownloadFileStatus} (h : FileAccepted file) (code : StatusCode)
    {description : Str} (hdescription : StringAccepted description) :
    FileAccepted (file.set code description) := ⟨h.filename, hdescription⟩

/-- The load that is set, or a new one. -/
theorem textsAccepted_setLoad {n : Nat} {headerFilename : Str}
    {set : UploadLoadStatus → UploadLoadStatus} (hname : StringAccepted headerFilename)
    (hset : ∀ load, LoadAccepted load → LoadAccepted (set load)) {status : OperationStatus}
    (h : TextsAccepted n status) :
    TextsAccepted (n + 1) (onUpload (·.setLoad headerFilename set) status) := by
  refine textsAccepted_onUpload (fun _ => UploadStatus.toStatus_setLoad ..) ?_ ?_ h
  · intro upload
    rw [UploadStatus.loads_setLoad]
    exact Tables.length_upsert_le ..
  · intro upload hloads
    rw [UploadStatus.loads_setLoad]
    exact Tables.forall_upsert hloads hset
      (hset _ ⟨hname, stringAccepted_nil, stringAccepted_nil⟩)

theorem textsAccepted_setFile {n : Nat} {filename : Str}
    {set : DownloadFileStatus → DownloadFileStatus} (hname : StringAccepted filename)
    (hset : ∀ file, FileAccepted file → FileAccepted (set file)) {status : OperationStatus}
    (h : TextsAccepted n status) :
    TextsAccepted (n + 1) (onDownload (·.setFile filename set) status) := by
  refine textsAccepted_onDownload (fun _ => DownloadStatus.toStatus_setFile ..) ?_ ?_ h
  · intro download
    rw [DownloadStatus.files_setFile]
    exact Tables.length_upsert_le ..
  · intro download hfiles
    rw [DownloadStatus.files_setFile]
    exact Tables.forall_upsert hfiles hset (hset _ ⟨hname, stringAccepted_nil⟩)

/-- **Calls**: one whose texts fit leaves texts that fit. -/
theorem textsAccepted_callUpdate {n : Nat} {call : ApplicationCall}
    (hcall : ∀ text ∈ call.texts, StringAccepted text) {status : OperationStatus}
    (h : TextsAccepted n status) :
    TextsAccepted (n + addedEntries (.application call)) (callUpdate cfg call status) := by
  cases call with
  | accepted => exact textsAccepted_reported stringAccepted_nil h
  | inProgress immediateTransmission estimatedTime description =>
    exact textsAccepted_reported (hcall _ (by simp [ApplicationCall.texts])) h
  | inProgressList immediateTransmission estimatedTime description listRatio =>
    exact textsAccepted_setListRatio listRatio
      (textsAccepted_reported (hcall _ (by simp [ApplicationCall.texts])) h)
  | finished finalStatus description =>
    exact textsAccepted_reported (hcall _ (by simp [ApplicationCall.texts])) h
  | loadAccepted headerFilename partNumber =>
    have hname := hcall headerFilename (by simp [ApplicationCall.texts])
    have hpart := hcall partNumber (by simp [ApplicationCall.texts])
    refine textsAccepted_onUpload ?_ ?_ ?_ h
    · exact fun _ => rfl
    · intro upload
      exact Nat.le_of_eq List.length_append
    · intro upload hloads load hload
      rcases List.mem_append.mp hload with hload | hload
      · exact hloads load hload
      · rw [List.mem_singleton.mp hload]
        exact ⟨hname, hpart, stringAccepted_nil⟩
  | loadInProgress headerFilename ratio description =>
    have hdescription := hcall description (by simp [ApplicationCall.texts])
    exact textsAccepted_setLoad (hcall _ (by simp [ApplicationCall.texts]))
      (fun _ hload => loadAccepted_set hload _ _ hdescription) h
  | loadFinished headerFilename finalStatus description =>
    have hdescription := hcall description (by simp [ApplicationCall.texts])
    exact textsAccepted_setLoad (hcall _ (by simp [ApplicationCall.texts]))
      (fun load hload => loadAccepted_set hload load.ratio _ hdescription) h
  | loadsFinished finalStatus description =>
    have hdescription := hcall description (by simp [ApplicationCall.texts])
    refine textsAccepted_onUpload ?_ ?_ ?_ h
    · exact fun _ => rfl
    · intro upload
      exact Nat.le_of_eq (List.length_map ..)
    · intro upload hloads load hload
      obtain ⟨old, hold, rfl⟩ := List.mem_map.mp hload
      split
      · exact hloads old hold
      · exact loadAccepted_set (hloads old hold) _ _ hdescription
  | fileAccepted filename =>
    have hname := hcall filename (by simp [ApplicationCall.texts])
    refine textsAccepted_onDownload ?_ ?_ ?_ h
    · exact fun _ => rfl
    · intro download
      exact Nat.le_of_eq List.length_append
    · intro download hfiles file hfile
      rcases List.mem_append.mp hfile with hfile | hfile
      · exact hfiles file hfile
      · rw [List.mem_singleton.mp hfile]
        exact ⟨hname, stringAccepted_nil⟩
  | fileInProgress filename description =>
    have hdescription := hcall description (by simp [ApplicationCall.texts])
    exact textsAccepted_setFile (hcall _ (by simp [ApplicationCall.texts]))
      (fun _ hfile => fileAccepted_set hfile _ hdescription) h
  | fileFinished filename finalStatus description =>
    have hdescription := hcall description (by simp [ApplicationCall.texts])
    exact textsAccepted_setFile (hcall _ (by simp [ApplicationCall.texts]))
      (fun _ hfile => fileAccepted_set hfile _ hdescription) h
  | filesFinished finalStatus description =>
    have hdescription := hcall description (by simp [ApplicationCall.texts])
    refine textsAccepted_onDownload ?_ ?_ ?_ h
    · exact fun _ => rfl
    · intro download
      exact Nat.le_of_eq (List.length_map ..)
    · intro download hfiles file hfile
      obtain ⟨old, hold, rfl⟩ := List.mem_map.mp hfile
      split
      · exact hfiles old hold
      · exact fileAccepted_set (hfiles old hold) _ hdescription
  | targetInformation targetsHardware checkValueType => exact h
  | downloadingList files => exact h

/-- **Steps** keep to texts that fit, where their calls do. -/
theorem textsAccepted_step {n : Nat} {e : Event} {s' : State} {out : List Output}
    (hcall : ∀ call, e = .application call → ∀ text ∈ call.texts, StringAccepted text)
    (h : TextsAccepted n s.status) (hstep : (machine cfg).step s e = some (s', out)) :
    TextsAccepted (n + addedEntries e) s'.status := by
  obtain ⟨r, hr, hresult⟩ := step_iff.mp hstep
  have hmore : TextsAccepted (n + addedEntries e) s.status := h.mono (Nat.le_add_right n _)
  have hupdated : TextsAccepted (n + addedEntries e) (r.updated cfg s.status) := by
    refine updated_cases hr hmore ?_ ?_ fun _ => textsAccepted_statusToSend
    · intro f hf
      obtain ⟨code, description, estimatedTime, rfl, -, hdescription⟩ := hf.ownReport
      exact textsAccepted_reported hdescription hmore
    · intro call he
      subst he
      exact textsAccepted_callUpdate (hcall call rfl) h
  obtain hs' | hs' := status_result hresult
  · rw [hs', status_taken]
    exact hupdated
  · rw [hs', status_taken]
    exact textsAccepted_update (textsAccepted_description hupdated) hupdated

/-- **Runs** whose calls fit have texts that fit. -/
theorem textsAccepted_run {hostAddress : Endpoint} {port : Option UInt16} {es : List Event}
    {tr : List Output} (h : (machine cfg).exec (started cfg hostAddress port) es = some (s, tr))
    (hcalls : ∀ call, .application call ∈ es → ∀ text ∈ call.texts, StringAccepted text) :
    TextsAccepted (es.map addedEntries).sum s.status := by
  refine Machine.exec_history (fun es s _ =>
    (∀ call, .application call ∈ es → ∀ text ∈ call.texts, StringAccepted text) →
      TextsAccepted (es.map addedEntries).sum s.status) ?_ ?_ h hcalls
  · intro _
    cases hop : cfg.operation <;>
      simp [started, newOperation, initialStatus, hop, operationClass, TextsAccepted,
        stringAccepted_nil]
  · intro es s tr e s' out hexec ih hstep hcalls
    rw [List.map_append, List.sum_append, List.map_singleton, List.sum_singleton]
    refine textsAccepted_step ?_ (ih ?_) hstep
    · intro call he
      exact hcalls call (he ▸ by simp)
    · intro call hmem
      exact hcalls call (List.mem_append_left _ hmem)

/-! ## The timer -/

/-- A status file is started without an exception, and the timer armed behind it. -/
theorem statusFileOutputs_arms (file : RawData) :
    (∀ exception, .thrown exception ∉ statusFileOutputs cfg s file) ∧
      ∃ deadline, .timerArmed deadline ∈ statusFileOutputs cfg s file := by
  unfold statusFileOutputs
  cases s.statusOperation <;> simp [transferAborts]

/-- The handler of a wait that was not aborted sends the status, or its encoder
throws. -/
theorem timerHandler_iff {result : WaitResult} {s' : State} {out : List Output}
    (hresult : result ≠ .operationAborted)
    (hstep : (machine cfg).step s (.timerHandler result) = some (s', out)) :
    ((∀ exception, .thrown exception ∉ out) ∧ ∃ deadline, .timerArmed deadline ∈ out) ↔
      TextsAccepted 65535 (statusToSend s.status) := by
  obtain ⟨r, hr, htransmit⟩ := step_iff.mp hstep
  obtain rfl : r = .transmit := by
    rw [timerHandler_eq_some hr]
    cases result <;> first | rfl | exact absurd rfl hresult
  have hsend : transmission cfg
      ((taken s (.timerHandler result)).withStatus (statusToSend s.status)) = some (s', out) :=
    htransmit
  rw [← exists_encodeStatus_iff cfg.protocolVersion]
  obtain ⟨error, hencode, -, rfl⟩ | ⟨file, hencode, -, rfl⟩ := transmission_eq_some hsend
  · rw [status_withStatus] at hencode
    simp [hencode]
  · rw [status_withStatus] at hencode
    exact iff_of_true (statusFileOutputs_arms file) ⟨file, hencode⟩

/-- That of an aborted wait does nothing. -/
theorem timerHandler_aborted {s' : State} {out : List Output}
    (hstep : (machine cfg).step s (.timerHandler .operationAborted) = some (s', out)) :
    out = [] := by
  obtain ⟨r, hr, hnothing⟩ := step_iff.mp hstep
  obtain rfl := timerHandler_eq_some hr
  simp only [timerReaction, Reaction.result, Option.some.injEq, Prod.mk.injEq] at hnothing
  exact hnothing.2.symm

/-- **The timer**: in a run in which no call throws, its handler goes on sending the
status exactly if it finds texts that fit each time. It does where every call gives
such texts. -/
theorem target_statusTimer_iff (cfg : Configuration) (hostAddress : Endpoint)
    (port : Option UInt16) (es : List Event) :
    (StatusTimerLaw cfg (started cfg hostAddress port) es ↔
        CallThrows cfg (started cfg hostAddress port) es ∨
          TimerFindsTexts cfg (started cfg hostAddress port) es) ∧
      (CallsFit es → TimerFindsTexts cfg (started cfg hostAddress port) es) := by
  refine ⟨⟨?_, ?_⟩, ?_⟩
  · intro hlaw
    by_cases hthrows : CallThrows cfg (started cfg hostAddress port) es
    · exact .inl hthrows
    · right
      intro pre tr s result s' out hhas hresult
      obtain ⟨hquiet, harmed⟩ := hlaw hthrows pre tr s result s' out hhas
      obtain ⟨post, -, -, hstep⟩ := hhas
      exact (timerHandler_iff hresult hstep).mp ⟨hquiet, harmed hresult⟩
  · rintro hcondition hthrows pre tr s result s' out hhas
    have htexts := hcondition.resolve_left hthrows pre tr s result s' out hhas
    obtain ⟨post, -, -, hstep⟩ := hhas
    by_cases hresult : result = .operationAborted
    · subst hresult
      rw [timerHandler_aborted hstep]
      exact ⟨by simp, fun hne => absurd rfl hne⟩
    · obtain ⟨hquiet, harmed⟩ := (timerHandler_iff hresult hstep).mpr (htexts hresult)
      exact ⟨hquiet, fun _ => harmed⟩
  · intro hfit pre tr s result s' out hhas _
    obtain ⟨post, rfl, hpre, -⟩ := hhas
    have htexts := textsAccepted_run hpre fun call hmem =>
      hfit.texts call (List.mem_append_left _ hmem)
    have hentries : (pre.map addedEntries).sum ≤ 65535 := by
      have hall := hfit.entries
      rw [List.map_append, List.sum_append] at hall
      omega
    exact textsAccepted_statusToSend (htexts.mono hentries)

set_option maxRecDepth 2000 in
/-- A load is accepted whose name is one byte longer than the encoder takes. -/
theorem target_statusTimer_thrown :
    ¬ StatusTimerLaw (exampleConfiguration .upload)
      (started (exampleConfiguration .upload) exampleHost none)
      [.serverCompleted 0 .successful [],
        .application (.loadAccepted (List.replicate 254 0x41) (str "PN")),
        .advance second, .timerExpired, .timerHandler .success] := by
  intro hlaw
  have hcalls : ¬ CallThrows (exampleConfiguration .upload)
      (started (exampleConfiguration .upload) exampleHost none)
      [.serverCompleted 0 .successful [],
        .application (.loadAccepted (List.replicate 254 0x41) (str "PN")),
        .advance second, .timerExpired, .timerHandler .success] := by
    rintro ⟨pre, tr, s, call, s', out, exception, ⟨post, hes, -, hstep⟩, hthrown⟩
    -- There is one call, which only changes the status.
    have hcall : call = .loadAccepted (List.replicate 254 0x41) (str "PN") := by
      have hmem : Event.application call ∈ pre ++ .application call :: post := by simp
      rw [← hes] at hmem
      simpa using hmem
    subst hcall
    obtain ⟨r, hr, hresult⟩ := step_iff.mp hstep
    obtain rfl : Reaction.update _ = r := Option.some.inj hr
    simp only [Reaction.result, Option.some.injEq, Prod.mk.injEq] at hresult
    rw [← hresult.2] at hthrown
    cases hthrown
  obtain ⟨hquiet, -⟩ := hlaw hcalls
    [.serverCompleted 0 .successful [],
      .application (.loadAccepted (List.replicate 254 0x41) (str "PN")),
      .advance second, .timerExpired] _ _ .success _ _ ⟨[], rfl, rfl, rfl⟩
  exact hquiet _ List.mem_cons_self

end Arinc615a.Target
