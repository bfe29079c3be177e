import Arinc615a.Target.StatusTransfers

/-!
# The content of the status files of a target operation

What the application and the operation itself report goes into one record,
field by field, and is sent later. Every status file carries a code, times only
while the operation is in progress, and the next counter. That a description is
additional information is lost where the description is moved before it is
looked at (`target_statusContent_iff`).
-/

namespace Arinc615a.Target

open Actions Machines Readers Timers Counters
open Files Information Tftp

/-! ## The law -/

/-- The status that an output sends, and its file. -/
def sentFile? : Output → Option (OperationStatus × RawData)
  | .statusFile _ _ _ sentStatus file => some (sentStatus, file)
  | _ => none

/-- The status files that are sent, in their order. -/
def sentFiles (tr : List Output) : List (OperationStatus × RawData) := tr.filterMap sentFile?

/-- The event updates the status of the operation: a report of the application, or
one of the operation itself. -/
def updatesStatus (cfg : Configuration) (s : State) (e : Event) : Bool :=
  match e with
  | .application call => call.isReport
  | _ =>
    match reaction cfg s e with
    | some (.report _) => true
    | _ => false

/-- The last update of the status in a run. -/
def lastUpdate (cfg : Configuration) (s₀ : State) (es : List Event) : Option Event :=
  ((((machine cfg).steps s₀ es).filter fun (s, e) => updatesStatus cfg s e).getLast?).map (·.2)

/-- The event is a call of `inProgress` with a description. -/
def givesAdditionalInfo : Event → Bool
  | .application (.inProgress _ _ description) => description ≠ []
  | .application (.inProgressList _ _ description _) => description ≠ []
  | _ => false

/-- The last update gave additional information. -/
def AdditionalInfoGiven (cfg : Configuration) (s₀ : State) (es : List Event) : Prop :=
  ∃ e ∈ lastUpdate cfg s₀ es, givesAdditionalInfo e = true

instance (cfg : Configuration) (s₀ : State) (es : List Event) :
    Decidable (AdditionalInfoGiven cfg s₀ es) :=
  inferInstanceAs (Decidable (∃ e ∈ lastUpdate cfg s₀ es, _))

/-- The codes of an operation in progress. -/
def isInProgress : StatusCode → Bool
  | .operationInProgress | .operationInProgressAdditionalInfo => true
  | _ => false

/-- A status that can be sent: it has a code, and times only while the operation is
in progress. -/
structure WellFormedStatus (status : Status) : Prop where
  code_ne : status.code ≠ .invalid
  times : isInProgress status.code = false → status.exceptionTimer = 0 ∧ status.estimatedTime = 0

/-- What the status files of a run owe. -/
structure StatusContentLaw (cfg : Configuration) (s₀ : State) (es : List Event)
    (tr : List Output) : Prop where
  /-- The file is the one of the status. -/
  encoded : ∀ sent ∈ sentFiles tr, encodeStatus cfg.protocolVersion sent.1 = .ok sent.2
  wellFormed : ∀ sent ∈ sentFiles tr, WellFormedStatus sent.1.status
  /-- It is additional information exactly if the last update was an `inProgress` with
  a description. -/
  additionalInfo : ∀ pre before s e s' out, (machine cfg).HasStep s₀ es pre before s e s' out →
    ∀ sent ∈ sentFiles out,
      (sent.1.status.code = .operationInProgressAdditionalInfo ↔
        AdditionalInfoGiven cfg s₀ (pre ++ [e]))
  /-- Status files are numbered from zero on. -/
  counter : ∀ k sent, (sentFiles tr)[k]? = some sent →
    sent.1.status.counter = UInt16.ofNat k

/-- An event sends a status while the last update gave additional information. -/
def SendsAdditionalInfo (cfg : Configuration) (s₀ : State) (es : List Event) : Prop :=
  ∃ pre before s e s' out, (machine cfg).HasStep s₀ es pre before s e s' out ∧
    (∃ status ∈ dueStatus cfg s e, (encodeStatus cfg.protocolVersion status).isOk) ∧
      AdditionalInfoGiven cfg s₀ (pre ++ [e])

variable {cfg : Configuration} {s₀ s : State}

/-! ## What a step sends -/

theorem sentFiles_append (tr out : List Output) :
    sentFiles (tr ++ out) = sentFiles tr ++ sentFiles out := List.filterMap_append ..

theorem sentFiles_eq_nil {out : List Output} (h : ∀ o ∈ out, startsStatusFile o = false) :
    sentFiles out = [] := by
  apply List.filterMap_eq_nil_iff.mpr
  intro o ho
  have hquiet := h o ho
  cases o with
  | statusFile remote operation filename sentStatus file => cases hquiet
  | _ => rfl

theorem sentFiles_statusFileOutputs (file : RawData) :
    sentFiles (statusFileOutputs cfg s file) = [(s.status, file)] := by
  unfold statusFileOutputs
  cases s.statusOperation <;> rfl

/-- A step sends no status, or the one behind its reaction, which was due and is
counted on. -/
inductive StepSends (cfg : Configuration) (s : State) (e : Event) (status : OperationStatus)
    (s' : State) (out : List Output) : Prop where
  | none (hstatus : s'.status = status) (hsent : sentFiles out = [])
  | one {file : RawData} (hstatus : s'.status = status.update Status.incrementCounter)
    (hsent : sentFiles out = [(status, file)]) (hdue : dueStatus cfg s e = some status)
    (hencode : encodeStatus cfg.protocolVersion status = .ok file)

theorem stepSends_transmission {e : Event} {status : OperationStatus} {t s' : State}
    {out : List Output} (hdue : dueStatus cfg s e = some status)
    (h : transmission cfg (t.withStatus status) = some (s', out)) :
    StepSends cfg s e status s' out := by
  obtain ⟨error, -, rfl, rfl⟩ | ⟨file, hencode, rfl, rfl⟩ := transmission_eq_some h
  · exact .none rfl rfl
  · exact .one rfl (sentFiles_statusFileOutputs file) hdue hencode

theorem stepSends_step {e : Event} {r : Reaction} {s' : State} {out : List Output}
    (hr : reaction cfg s e = some r) (hresult : r.result cfg (taken s e) = some (s', out)) :
    StepSends cfg s e (r.updated cfg s.status) s' out := by
  cases hsends : r.sends cfg with
  | false =>
    obtain ⟨hstatus, -, -, hquiet⟩ := result_of_not_sends hresult hsends
    rw [status_taken] at hstatus
    exact .none hstatus (sentFiles_eq_nil hquiet)
  | true =>
    cases r with
    | transmit =>
      refine stepSends_transmission (t := taken s e) ?_ ?_
      · simp only [dueStatus, hr, Reaction.updated]
      · simp only [Reaction.updated]
        rw [← status_taken e]
        exact hresult
    | report f =>
      have hop : cfg.operation = .information := of_decide_eq_true hsends
      obtain ⟨-, hsend⟩ | ⟨hne, -⟩ := forced_eq_some hresult
      · refine stepSends_transmission (t := taken s e) ?_ ?_
        · simp only [dueStatus, hr, Reaction.updated, hop, if_true]
        · simp only [Reaction.updated, hop, if_true]
          rw [← status_taken e]
          exact hsend
      · exact absurd hop hne
    | _ => cases hsends

/-! ## The times -/

/-- What the record of a status keeps to, also before it has a code. -/
structure KeepsTimes (status : Status) : Prop where
  exceptionTimer : status.exceptionTimer = 0
  estimatedTime : isInProgress status.code = false → status.estimatedTime = 0

theorem KeepsTimes.wellFormed {status : Status} (h : KeepsTimes status)
    (hcode : status.code ≠ .invalid) : WellFormedStatus status :=
  ⟨hcode, fun hprogress => ⟨h.exceptionTimer, h.estimatedTime hprogress⟩⟩

/-- A report keeps to it that gives a time in progress only. -/
theorem keepsTimes_reported {code : StatusCode} {estimatedTime : Int16}
    (htime : isInProgress code = false → estimatedTime = 0) (description : Str)
    {status : OperationStatus} (h : KeepsTimes status.status) :
    KeepsTimes (reported code description estimatedTime status).status := by
  rw [status_reported]
  exact ⟨h.exceptionTimer, htime⟩

theorem isInProgress_inProgressCode (description : Str) :
    isInProgress (inProgressCode cfg description) = true := by
  unfold inProgressCode
  split <;> rfl

theorem keepsTimes_statusToSend {status : OperationStatus} (h : KeepsTimes status.status) :
    KeepsTimes (statusToSend status).status := by
  by_cases hcode : status.status.code = .invalid
  · rw [statusToSend, if_pos hcode, OperationStatus.status_update]
    refine ⟨h.exceptionTimer, fun _ => h.estimatedTime ?_⟩
    rw [hcode]
    rfl
  · rw [statusToSend_eq hcode]
    exact h

theorem keepsTimes_ownStatus {f : OperationStatus → OperationStatus} (hf : OwnStatus f)
    {status : OperationStatus} (h : KeepsTimes status.status) : KeepsTimes (f status).status := by
  cases hf with
  | failed _ => exact keepsTimes_reported (fun _ => rfl) _ h
  | completed => exact keepsTimes_reported (fun _ => rfl) _ h
  | inProgress => exact keepsTimes_reported (by decide) _ h

theorem keepsTimes_callUpdate (call : ApplicationCall) {status : OperationStatus}
    (h : KeepsTimes status.status) : KeepsTimes (callUpdate cfg call status).status := by
  have hprogress : ∀ estimatedTime description,
      KeepsTimes (reported (inProgressCode cfg description) description estimatedTime
        status).status := by
    intro estimatedTime description
    apply keepsTimes_reported _ description h
    rw [isInProgress_inProgressCode]
    exact fun hfalse => absurd hfalse (by decide)
  cases hreport : call.isReport with
  | false =>
    rw [status_callUpdate hreport]
    exact h
  | true =>
    cases call with
    | accepted => exact keepsTimes_reported (fun _ => rfl) _ h
    | finished finalStatus description => exact keepsTimes_reported (fun _ => rfl) _ h
    | inProgress immediateTransmission estimatedTime description => exact hprogress ..
    | inProgressList immediateTransmission estimatedTime description listRatio =>
      rw [callUpdate, status_setListRatio]
      exact hprogress ..
    | _ => cases hreport

/-- **Times**: every reaction keeps to them. -/
theorem keepsTimes_updated {e : Event} {r : Reaction} (hr : reaction cfg s e = some r)
    {status : OperationStatus} (h : KeepsTimes status.status) :
    KeepsTimes (r.updated cfg status).status := by
  refine updated_cases (P := fun status => KeepsTimes status.status) hr h ?_ ?_ ?_
  · exact fun _ hf => keepsTimes_ownStatus hf h
  · exact fun call _ => keepsTimes_callUpdate call h
  · exact fun _ => keepsTimes_statusToSend

/-! ## Additional information -/

theorem lastUpdate_append {es : List Event} {tr : List Output}
    (h : (machine cfg).exec s₀ es = some (s, tr)) (e : Event) :
    lastUpdate cfg s₀ (es ++ [e]) =
      if updatesStatus cfg s e then some e else lastUpdate cfg s₀ es := by
  rw [lastUpdate, Machine.steps_append_singleton h, getLast?_filter_concat]
  exact apply_ite (Option.map Prod.snd) ..

theorem additionalInfoGiven_append {es : List Event} {tr : List Output}
    (h : (machine cfg).exec s₀ es = some (s, tr)) (e : Event) :
    AdditionalInfoGiven cfg s₀ (es ++ [e]) ↔
      if updatesStatus cfg s e then givesAdditionalInfo e = true
      else AdditionalInfoGiven cfg s₀ es := by
  rw [AdditionalInfoGiven, lastUpdate_append h]
  split
  · simp
  · rfl

theorem inProgressCode_eq_iff (description : Str) :
    inProgressCode cfg description = .operationInProgressAdditionalInfo ↔
      cfg.argumentsLeftToRight = true ∧ description ≠ [] := by
  unfold inProgressCode
  cases cfg.argumentsLeftToRight <;> by_cases h : description = [] <;> simp [h]

/-- The code behind a report of the application. -/
theorem code_report_iff {call : ApplicationCall} (h : call.isReport = true)
    (status : OperationStatus) :
    (callUpdate cfg call status).status.code = .operationInProgressAdditionalInfo ↔
      cfg.argumentsLeftToRight = true ∧ givesAdditionalInfo (.application call) = true := by
  cases call with
  | accepted => simp [callUpdate, Status.set, givesAdditionalInfo]
  | finished finalStatus description =>
    have hne : statusCodeOfFinalStatus finalStatus ≠ .operationInProgressAdditionalInfo := by
      cases finalStatus <;> decide
    simp [callUpdate, Status.set, givesAdditionalInfo, hne]
  | inProgress immediateTransmission estimatedTime description =>
    simp [callUpdate, Status.set, givesAdditionalInfo, inProgressCode_eq_iff]
  | inProgressList immediateTransmission estimatedTime description listRatio =>
    simp [callUpdate, Status.set, givesAdditionalInfo, inProgressCode_eq_iff]
  | _ => cases h

theorem code_ownStatus_ne {f : OperationStatus → OperationStatus} (hf : OwnStatus f)
    (status : OperationStatus) :
    ((Reaction.report f).updated cfg status).status.code ≠ .operationInProgressAdditionalInfo := by
  cases hf with
  | failed _ =>
    rw [code_failed]
    decide
  | completed =>
    rw [code_report (by decide)]
    decide
  | inProgress =>
    rw [code_report (by decide)]
    decide

theorem code_statusToSend_iff (status : OperationStatus) :
    (statusToSend status).status.code = .operationInProgressAdditionalInfo ↔
      status.status.code = .operationInProgressAdditionalInfo := by
  by_cases hcode : status.status.code = .invalid
  · rw [statusToSend, if_pos hcode, OperationStatus.status_update, hcode]
    simp [Status.setCode]
  · rw [statusToSend_eq hcode]

/-- An event that updates the status decides whether it is additional information. -/
theorem code_updated_of_updates {e : Event} {r : Reaction} (hr : reaction cfg s e = some r)
    (hupdates : updatesStatus cfg s e = true) (status : OperationStatus) :
    (r.updated cfg status).status.code = .operationInProgressAdditionalInfo ↔
      cfg.argumentsLeftToRight = true ∧ givesAdditionalInfo e = true := by
  by_cases he : e.Internal
  · have hgives : givesAdditionalInfo e = false := by
      cases e with
      | application call => exact absurd rfl (he call)
      | _ => rfl
    have hreport : ∃ f, r = .report f := by
      cases e with
      | application call => exact absurd rfl (he call)
      | _ =>
        simp only [updatesStatus, hr] at hupdates
        cases r with
        | report f => exact ⟨f, rfl⟩
        | _ => cases hupdates
    obtain ⟨f, rfl⟩ := hreport
    simp [hgives, code_ownStatus_ne (ownStatus_reaction he hr) status]
  · obtain ⟨call, rfl⟩ := Event.exists_call he
    rw [updated_application hr (code_callUpdate_ne hupdates status)]
    exact code_report_iff hupdates status

/-- The others leave it as it is. -/
theorem code_updated_of_not_updates {e : Event} {r : Reaction} (hr : reaction cfg s e = some r)
    (hupdates : updatesStatus cfg s e = false) (status : OperationStatus) :
    (r.updated cfg status).status.code = .operationInProgressAdditionalInfo ↔
      status.status.code = .operationInProgressAdditionalInfo := by
  by_cases he : e.Internal
  · cases r with
    | report f =>
      have htrue : updatesStatus cfg s e = true := by
        cases e with
        | application call => exact absurd rfl (he call)
        | _ => simp only [updatesStatus, hr]
      rw [htrue] at hupdates
      cases hupdates
    | update f => exact (ownStatus_reaction he hr).elim
    | transmit => exact code_statusToSend_iff status
    | _ => exact Iff.rfl
  · obtain ⟨call, rfl⟩ := Event.exists_call he
    cases callReaction_of_reaction hr with
    | thrown hid => exact Iff.rfl
    | sendList hid => exact Iff.rfl
    | report htransmits =>
      have hreport : call.isReport = false := hupdates
      rw [isReport_of_callTransmits htransmits] at hreport
      cases hreport
    | update hkeeps =>
      show (callUpdate cfg call status).status.code = _ ↔ _
      rw [status_callUpdate hupdates]

/-! ## Runs -/

/-- What the status files of a run, and the record behind it, keep to. -/
structure Content (cfg : Configuration) (s₀ : State) (es : List Event) (s : State)
    (tr : List Output) : Prop where
  times : KeepsTimes s.status.status
  additionalInfo : s.code = .operationInProgressAdditionalInfo ↔
    cfg.argumentsLeftToRight = true ∧ AdditionalInfoGiven cfg s₀ es
  sent : ∀ sent ∈ sentFiles tr,
    encodeStatus cfg.protocolVersion sent.1 = .ok sent.2 ∧ WellFormedStatus sent.1.status
  counts : Counts nextCounter 0 ((sentFiles tr).map (·.1.status.counter))
  counter : s.status.status.counter = nextCounter^[(sentFiles tr).length] 0

/-- A status that is sent has a code. -/
theorem code_due_ne {e : Event} {status : OperationStatus}
    (h : dueStatus cfg s e = some status) : status.status.code ≠ .invalid := by
  unfold dueStatus at h
  split at h
  · rw [← Option.some.inj h]
    exact code_statusToSend_ne _
  · split at h
    · rw [← Option.some.inj h]
      exact code_statusToSend_ne _
    · cases h
  · cases h

/-- The code that a step leaves, and sends. -/
theorem additionalInfo_updated {es : List Event} {tr : List Output} {e : Event} {r : Reaction}
    (hexec : (machine cfg).exec s₀ es = some (s, tr)) (hr : reaction cfg s e = some r)
    (h : Content cfg s₀ es s tr) :
    (r.updated cfg s.status).status.code = .operationInProgressAdditionalInfo ↔
      cfg.argumentsLeftToRight = true ∧ AdditionalInfoGiven cfg s₀ (es ++ [e]) := by
  rw [additionalInfoGiven_append hexec]
  cases hupdates : updatesStatus cfg s e with
  | true => exact code_updated_of_updates hr hupdates s.status
  | false => exact (code_updated_of_not_updates hr hupdates s.status).trans h.additionalInfo

theorem content_step {es : List Event} {tr out : List Output} {e : Event} {s' : State}
    (hexec : (machine cfg).exec s₀ es = some (s, tr)) (h : Content cfg s₀ es s tr)
    (hstep : (machine cfg).step s e = some (s', out)) :
    Content cfg s₀ (es ++ [e]) s' (tr ++ out) := by
  obtain ⟨r, hr, hresult⟩ := step_iff.mp hstep
  have htimes := keepsTimes_updated hr h.times
  have hinfo := additionalInfo_updated hexec hr h
  have hcounter := (counter_updated hr s.status).trans h.counter
  cases stepSends_step hr hresult with
  | none hstatus hsent =>
    have hsame : sentFiles (tr ++ out) = sentFiles tr := by
      rw [sentFiles_append, hsent, List.append_nil]
    constructor
    · rw [hstatus]
      exact htimes
    · rw [State.code, hstatus]
      exact hinfo
    · rw [hsame]
      exact h.sent
    · rw [hsame]
      exact h.counts
    · rw [hsame, hstatus]
      exact hcounter
  | @one file hstatus hsent hdue hencode =>
    have hmore : sentFiles (tr ++ out) = sentFiles tr ++ [(r.updated cfg s.status, file)] := by
      rw [sentFiles_append, hsent]
    constructor
    · rw [hstatus, OperationStatus.status_update]
      exact ⟨htimes.exceptionTimer, htimes.estimatedTime⟩
    · rw [State.code, hstatus, OperationStatus.status_update]
      exact hinfo
    · rw [hmore]
      intro sent hmem
      rcases List.mem_append.mp hmem with hmem | hmem
      · exact h.sent sent hmem
      · rw [List.mem_singleton.mp hmem]
        exact ⟨hencode, htimes.wellFormed (code_due_ne hdue)⟩
    · rw [hmore, List.map_append]
      refine counts_append_singleton.mpr ⟨h.counts, ?_⟩
      rw [List.length_map]
      exact hcounter
    · rw [hmore, List.length_append, hstatus, OperationStatus.status_update]
      show nextCounter (r.updated cfg s.status).status.counter = _
      rw [hcounter]
      exact (Function.iterate_succ_apply' ..).symm

/-- **Content**: every run keeps to it. -/
theorem content_run {hostAddress : Endpoint} {port : Option UInt16} {es : List Event}
    {tr : List Output} (h : (machine cfg).exec (started cfg hostAddress port) es = some (s, tr)) :
    Content cfg (started cfg hostAddress port) es s tr := by
  refine Machine.exec_history (fun es s tr => Content cfg (started cfg hostAddress port) es s tr)
    ?_ ?_ h
  · have hinitial : (started cfg hostAddress port).status.status = {} := by
      cases hop : cfg.operation <;>
        simp [started, newOperation, initialStatus, hop, operationClass, OperationStatus.status]
    refine ⟨?_, ?_, ?_, trivial, ?_⟩
    · rw [hinitial]
      exact ⟨rfl, fun _ => rfl⟩
    · rw [State.code, hinitial]
      simp [AdditionalInfoGiven, lastUpdate, Machine.steps]
    · intro sent hmem
      cases hmem
    · rw [hinitial]
      rfl
  · intro es s tr e s' out hexec hcontent hstep
    exact content_step hexec hcontent hstep

/-- **Status files**: what is sent is well formed and counted on in every run, and its
code tells additional information exactly if none was to be told, or the arguments
of a call are evaluated from left to right. -/
theorem target_statusContent_iff {hostAddress : Endpoint} {port : Option UInt16}
    {es : List Event} {tr : List Output}
    (h : (machine cfg).exec (started cfg hostAddress port) es = some (s, tr)) :
    StatusContentLaw cfg (started cfg hostAddress port) es tr ↔
      cfg.argumentsLeftToRight = true ∨
        ¬ SendsAdditionalInfo cfg (started cfg hostAddress port) es := by
  have hcontent := content_run h
  constructor
  · intro hlaw
    by_cases horder : cfg.argumentsLeftToRight = true
    · exact .inl horder
    · right
      rintro ⟨pre, before, s, e, s', out, hhas, ⟨status, hdue, hok⟩, hgiven⟩
      obtain ⟨post, hes, hpre, hstep⟩ := hhas
      obtain ⟨r, hr, hresult⟩ := step_iff.mp hstep
      obtain ⟨o, ho, hstarts⟩ := starts_of_due hstep hdue hok
      cases stepSends_step hr hresult with
      | none hstatus hsent =>
        cases o with
        | statusFile remote operation filename sentStatus file =>
          have hmem : (sentStatus, file) ∈ sentFiles out := List.mem_filterMap.mpr ⟨_, ho, rfl⟩
          rw [hsent] at hmem
          cases hmem
        | _ => cases hstarts
      | @one file hstatus hsent hdue hencode =>
        have hmem : (r.updated cfg s.status, file) ∈ sentFiles out := by
          rw [hsent]
          exact List.mem_singleton_self _
        have hcode := (hlaw.additionalInfo pre before s e s' out ⟨post, hes, hpre, hstep⟩ _
          hmem).mpr hgiven
        exact horder ((additionalInfo_updated hpre hr (content_run hpre)).mp hcode).1
  · intro hcondition
    refine ⟨fun sent hmem => (hcontent.sent sent hmem).1,
      fun sent hmem => (hcontent.sent sent hmem).2, ?_, ?_⟩
    · intro pre before s e s' out hhas sent hmem
      obtain ⟨post, hes, hpre, hstep⟩ := hhas
      obtain ⟨r, hr, hresult⟩ := step_iff.mp hstep
      cases stepSends_step hr hresult with
      | none hstatus hsent =>
        rw [hsent] at hmem
        cases hmem
      | @one file hstatus hsent hdue hencode =>
        rw [hsent] at hmem
        rw [List.mem_singleton.mp hmem, additionalInfo_updated hpre hr (content_run hpre)]
        rcases hcondition with horder | hnot
        · simp [horder]
        · -- It is sent, so no additional information was given last.
          have hgiven : ¬ AdditionalInfoGiven cfg (started cfg hostAddress port) (pre ++ [e]) := by
            intro hgiven
            have hok : (encodeStatus cfg.protocolVersion (r.updated cfg s.status)).isOk := by
              rw [hencode]
              rfl
            exact hnot ⟨pre, before, s, e, s', out, ⟨post, hes, hpre, hstep⟩,
              ⟨_, hdue, hok⟩, hgiven⟩
          exact iff_of_false (fun hboth => hgiven hboth.2) hgiven
    · intro k sent hk
      have hcount : sent.1.status.counter = nextCounter^[k] 0 := by
        apply hcontent.counts.getElem
        rw [List.getElem?_map, hk]
        rfl
      rw [hcount]
      exact (iterate_uint16 k 0).trans (UInt16.zero_add _)

/-- An information operation tells its progress. -/
theorem target_statusContent_described :
    ∃ s tr, (machine (exampleConfiguration .information)).exec
        (started (exampleConfiguration .information) exampleHost none)
        [.serverCompleted 0 .successful [], .application (.inProgress true 60 (str "erasing"))]
          = some (s, tr) ∧
      StatusContentLaw (exampleConfiguration .information)
        (started (exampleConfiguration .information) exampleHost none)
        [.serverCompleted 0 .successful [], .application (.inProgress true 60 (str "erasing"))]
        tr :=
  ⟨_, _, rfl, (target_statusContent_iff rfl).mpr (.inl rfl)⟩

/-- An information operation that moves a description before it looks at it. -/
def movingConfiguration : Configuration :=
  { exampleConfiguration .information with argumentsLeftToRight := false }

/-- The status that it sends has the description, and is none with additional
information. -/
theorem target_statusContent_moved :
    ∃ s tr, (machine movingConfiguration).exec (started movingConfiguration exampleHost none)
        [.serverCompleted 0 .successful [], .application (.inProgress true 60 (str "erasing"))]
          = some (s, tr) ∧
      ¬ StatusContentLaw movingConfiguration (started movingConfiguration exampleHost none)
        [.serverCompleted 0 .successful [], .application (.inProgress true 60 (str "erasing"))]
        tr := by
  refine ⟨_, _, rfl, fun hlaw => ?_⟩
  have hsent := hlaw.additionalInfo [.serverCompleted 0 .successful []] _ _
    (.application (.inProgress true 60 (str "erasing"))) _ _ ⟨[], rfl, rfl, rfl⟩ _
    List.mem_cons_self
  have hgiven : AdditionalInfoGiven movingConfiguration
      (started movingConfiguration exampleHost none)
      [.serverCompleted 0 .successful [], .application (.inProgress true 60 (str "erasing"))] := by
    decide
  have hcode := hsent.mpr hgiven
  cases hcode

end Arinc615a.Target
