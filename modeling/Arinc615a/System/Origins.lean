import Arinc615a.System.Session

/-!
# Nothing is made up

What either side is told of the other one, the other one has said: a status that the
user of the host gets was sent by the target, a list was given by the application of
the target and passes its check, and a file that this application gets was sent by the
user (`session_origins`). Texts arrive up to their first NUL.
-/

namespace Arinc615a.System

open Machines Readers
open Files Information Tftp

/-! ## The law -/

/-- The calls of a handler that pass on what the other party said. -/
def delivers : (Σ i : Party, i.Output) → Bool
  | ⟨.host, o⟩ => o.delivers
  | ⟨.target, .received _⟩ => true
  | _ => false

/-- Where such a call comes from: an output or an event of the run that led to it. -/
inductive Origin (es : List (Σ i : Party, i.Event)) (tr : List (Σ i : Party, i.Output)) :
    (Σ i : Party, i.Output) → Prop where
  | initialisationResponse :
    Origin es tr ⟨.host, .initialisationResponse ⟨.operationAccepted, []⟩⟩
  | status {remote : Endpoint} {operation : Target.TransferId} {filename : Str}
    {status : OperationStatus} {file : RawData}
    (h : ⟨.target, .statusFile remote operation filename status file⟩ ∈ tr) :
    Origin es tr ⟨.host, .status (arrivedStatus status)⟩
  | targetInformation {targetsHardware : List TargetHardware} {type : CheckValueType}
    (h : ⟨.target, .application (.targetInformation targetsHardware type)⟩ ∈ es) :
    Origin es tr ⟨.host, .targetInformation (targetsHardware.map cutTargetHardware) true⟩
  | downloadingList {files : List DownloadFileInformation}
    (h : ⟨.target, .application (.downloadingList files)⟩ ∈ es) :
    Origin es tr ⟨.host, .downloadingList (files.map cutDownloadFileInformation)⟩
  | received {call : Host.Event} {file : Target.Received} (h : ⟨.host, call⟩ ∈ es)
    (hgiven : given call = some file) : Origin es tr ⟨.target, .received file⟩

/-! ## What was sent -/

namespace Session

variable {session : Session} {c c' : session.network.Snapshot}
  {es : List (Σ i : Party, i.Event)} {tr out : List (Σ i : Party, i.Output)}
  {e : Σ i : Party, i.Event}

/-- The network starts with the initialisation file. -/
theorem mem_sent_start {m : Message} (h : m ∈ session.start.sent) :
    ∃ data, m = .initialisationFile data ∧
      InitializationFile.encode ⟨session.target.protocolVersion, ⟨.operationAccepted, []⟩⟩ =
        .ok data := by
  obtain ⟨o, ho, hsends⟩ := List.mem_filterMap.mp h
  unfold initialisationOutputs at ho
  split at ho
  · cases ho
  · rename_i file hencode
    obtain rfl := List.mem_singleton.mp ho
    cases hsends
    exact ⟨file, rfl, hencode⟩

theorem sent_statusFile (hrun : session.system.exec session.start es = some (c, tr))
    {data : RawData} (h : .statusFile data ∈ c.sent) :
    ∃ remote operation filename status,
      ⟨.target, .statusFile remote operation filename status data⟩ ∈ tr := by
  have hstart : .statusFile data ∉ session.start.sent := by
    intro hmem
    obtain ⟨_, heq, -⟩ := mem_sent_start hmem
    cases heq
  obtain ⟨i, o, ho, hsends⟩ := Network.exists_sender hrun h hstart
  cases i with
  | host => cases o <;> cases hsends
  | target =>
    cases o <;> cases hsends
    exact ⟨_, _, _, _, ho⟩

theorem sent_listFile (hrun : session.system.exec session.start es = some (c, tr))
    {data : RawData} {checkValue : CheckValue} (h : .listFile data checkValue ∈ c.sent) :
    ∃ remote operation filename,
      ⟨.target, .listFile remote operation filename data checkValue⟩ ∈ tr := by
  have hstart : .listFile data checkValue ∉ session.start.sent := by
    intro hmem
    obtain ⟨_, heq, -⟩ := mem_sent_start hmem
    cases heq
  obtain ⟨i, o, ho, hsends⟩ := Network.exists_sender hrun h hstart
  cases i with
  | host => cases o <;> cases hsends
  | target =>
    cases o <;> cases hsends
    exact ⟨_, _, _, ho⟩

theorem sent_requestFile (hrun : session.system.exec session.start es = some (c, tr))
    {data : RawData} (h : .requestFile data ∈ c.sent) :
    ∃ operation filename, ⟨.host, .clientWriteOperation operation filename data⟩ ∈ tr := by
  have hstart : .requestFile data ∉ session.start.sent := by
    intro hmem
    obtain ⟨_, heq, -⟩ := mem_sent_start hmem
    cases heq
  obtain ⟨i, o, ho, hsends⟩ := Network.exists_sender hrun h hstart
  cases i with
  | host =>
    cases o <;> cases hsends
    exact ⟨_, _, ho⟩
  | target => cases o <;> cases hsends

/-! ## The steps behind what was sent -/

/-- An output of the host was made in a step of a run of the host. -/
theorem host_output (hrun : session.system.exec session.start es = some (c, tr))
    {o : Host.Output} (ho : ⟨.host, o⟩ ∈ tr) :
    ∃ es₁ f s tr₁ s' os, (∀ f ∈ es₁, ⟨.host, f⟩ ∈ es) ∧ ⟨.host, f⟩ ∈ es ∧
      (Host.machine session.host).exec Host.started es₁ = some (s, tr₁) ∧
      (Host.machine session.host).step s f = some (s', os) ∧ o ∈ os := by
  obtain ⟨pre, post, htr⟩ := List.append_of_mem (mem_own.mpr ho)
  obtain ⟨es₁, f, es₂, s, tr₁, s', os, hes, hpre, hstep, hos, -⟩ :=
    Machine.exists_step_of_output (host_run hrun) htr
  have hmem : ∀ g ∈ es₁ ++ f :: es₂, ⟨.host, g⟩ ∈ es := fun g hg => mem_own.mp (hes ▸ hg)
  exact ⟨es₁, f, s, tr₁, s', os, fun g hg => hmem g (List.mem_append_left _ hg),
    hmem f (by simp), hpre, hstep, hos⟩

theorem target_output (hrun : session.system.exec session.start es = some (c, tr))
    {o : Target.Output} (ho : ⟨.target, o⟩ ∈ tr) :
    ∃ es₁ f s tr₁ s' os, (∀ f ∈ es₁, ⟨.target, f⟩ ∈ es) ∧ ⟨.target, f⟩ ∈ es ∧
      (Target.machine session.target).exec
        (Target.started session.target session.hostAddress session.port) es₁ = some (s, tr₁) ∧
      (Target.machine session.target).step s f = some (s', os) ∧ o ∈ os := by
  obtain ⟨pre, post, htr⟩ := List.append_of_mem (mem_own.mpr ho)
  obtain ⟨es₁, f, es₂, s, tr₁, s', os, hes, hpre, hstep, hos, -⟩ :=
    Machine.exists_step_of_output (target_run hrun) htr
  have hmem : ∀ g ∈ es₁ ++ f :: es₂, ⟨.target, g⟩ ∈ es := fun g hg => mem_own.mp (hes ▸ hg)
  exact ⟨es₁, f, s, tr₁, s', os, fun g hg => hmem g (List.mem_append_left _ hg),
    hmem f (by simp), hpre, hstep, hos⟩

/-- A target that was started sends no other initialisation file. -/
theorem sent_initialisationFile (hrun : session.system.exec session.start es = some (c, tr))
    {data : RawData} (h : .initialisationFile data ∈ c.sent) :
    InitializationFile.encode ⟨session.target.protocolVersion, ⟨.operationAccepted, []⟩⟩ =
      .ok data := by
  by_cases hstart : .initialisationFile data ∈ session.start.sent
  · obtain ⟨data', heq, hencode⟩ := mem_sent_start hstart
    cases heq
    exact hencode
  · obtain ⟨i, o, ho, hsends⟩ := Network.exists_sender hrun h hstart
    cases i with
    | host => cases o <;> cases hsends
    | target =>
      cases o <;> cases hsends
      obtain ⟨_, f, s, _, s', os, -, -, -, hstep, hos⟩ := target_output hrun ho
      cases Target.passedBy_of_step hstep hos rfl

end Session

/-! ## The law holds -/

variable {session : Session} {c c' : session.network.Snapshot}
  {es : List (Σ i : Party, i.Event)} {tr out : List (Σ i : Party, i.Output)}
  {e : Σ i : Party, i.Event}

open Session

/-- The status of a status file that was sent. -/
theorem sentStatus_of_mem (hrun : session.system.exec session.start es = some (c, tr))
    {remote : Endpoint} {operation : Target.TransferId} {filename : Str}
    {status : OperationStatus} {file : RawData}
    (h : ⟨.target, .statusFile remote operation filename status file⟩ ∈ tr) :
    Target.SentStatus session.target filename status file := by
  obtain ⟨_, f, s, _, s', os, -, -, hexec, hstep, hos⟩ := target_output hrun h
  exact Target.sentStatus_of_step hexec hstep hos

/-- The call of the application behind a list that was sent. -/
theorem passedBy_of_mem (hrun : session.system.exec session.start es = some (c, tr))
    {remote : Endpoint} {operation : Target.TransferId} {filename : Str} {file : RawData}
    {checkValue : CheckValue}
    (h : ⟨.target, .listFile remote operation filename file checkValue⟩ ∈ tr) :
    ∃ s f, ⟨.target, f⟩ ∈ es ∧ Target.PassedBy session.target s
      (.listFile remote operation filename file checkValue) f := by
  obtain ⟨_, f, s, _, s', os, -, hf, -, hstep, hos⟩ := target_output hrun h
  exact ⟨s, f, hf, Target.passedBy_of_step hstep hos rfl⟩

/-- The list that the target gives, with its check value. -/
theorem origin_targetInformation (hrun : session.system.exec session.start es = some (c, tr))
    {data rest : RawData} {checkValue : CheckValue} {file : LoadConfigurationListFile}
    (hop : session.host.operation = .information) (hsent : .listFile data checkValue ∈ c.sent)
    (hdecode : LoadConfigurationListFile.decode {} data = .done (file, rest)) :
    Origin es tr ⟨.host, .targetInformation file.targetsHardware
      (session.host.checkValue checkValue.type data = checkValue)⟩ := by
  obtain ⟨remote, operation, filename, hmem⟩ := sent_listFile hrun hsent
  obtain ⟨s, f, hf, hpassed⟩ := passedBy_of_mem hrun hmem
  cases hpassed with
  | targetInformation hinformation hencode =>
    -- The host generates the check value that the target has generated.
    rw [eq_arrivedTargetsHardware hencode hdecode, session.checkValue_eq,
      session.type_checkValue, decide_eq_true rfl]
    exact .targetInformation hf
  | downloadingList hdownload hencode =>
    rw [session.operation_eq, hdownload] at hop
    cases hop

theorem origin_downloadingList (hrun : session.system.exec session.start es = some (c, tr))
    {data rest : RawData} {checkValue : CheckValue} {file : DownloadOperationListFile}
    (hop : session.host.operation = .operatorDefinedDownload)
    (hsent : .listFile data checkValue ∈ c.sent)
    (hdecode : DownloadOperationListFile.decode {} data = .done (file, rest)) :
    Origin es tr ⟨.host, .downloadingList file.files⟩ := by
  obtain ⟨remote, operation, filename, hmem⟩ := sent_listFile hrun hsent
  obtain ⟨s, f, hf, hpassed⟩ := passedBy_of_mem hrun hmem
  cases hpassed with
  | targetInformation hinformation hencode =>
    rw [session.operation_eq, hinformation] at hop
    cases hop
  | downloadingList hdownload hencode =>
    rw [eq_arrivedFiles hencode hdecode]
    exact .downloadingList hf

/-- The initialisation file of the target is read as it was written. -/
theorem initialisation_arrives {version : Arinc615aVersion} {data : RawData}
    (hversion : version.Supported)
    (hencode : InitializationFile.encode ⟨version, ⟨.operationAccepted, []⟩⟩ = .ok data) :
    InitializationFile.decode {} data = .done (⟨version, ⟨.operationAccepted, []⟩⟩, []) :=
  @InitializationFile.arrives_written ⟨version, ⟨.operationAccepted, []⟩⟩ data hversion nofun
    hencode {}

theorem response_of_decode {version : Arinc615aVersion} {data rest : RawData}
    {file : InitializationFile}
    (hencode : InitializationFile.encode ⟨version, ⟨.operationAccepted, []⟩⟩ = .ok data)
    (hdecode : InitializationFile.decode {} data = .done (file, rest)) :
    file = ⟨version, ⟨.operationAccepted, []⟩⟩ := by
  have hversion : version.Supported :=
    ProtocolFileClass.supported_of_decode (T := .initialization) {} hencode hdecode
  rw [initialisation_arrives hversion hencode] at hdecode
  cases hdecode
  rfl

/-- What the user of the host is told. -/
theorem origin_of_deliveredBy (hrun : session.system.exec session.start es = some (c, tr))
    {call : Host.Call} {f : Host.Event}
    (hsupplied : session.network.supplied c ⟨.host, f⟩ = true)
    (h : Host.DeliveredBy session.host (c.party .host) call f) :
    Origin es tr ⟨.host, call.output⟩ := by
  cases h with
  | initialisation ht hkind hdecode =>
    have hsent := (supplied_clientCompleted ht (by rw [hkind]; rfl)).mp hsupplied
    rw [response_of_decode (sent_initialisationFile hrun hsent) hdecode]
    exact .initialisationResponse
  | status ht hkind hdecode =>
    have hsent := (supplied_serverCompleted ht (by rw [hkind]; rfl)).mp hsupplied
    obtain ⟨remote, operation, filename, status, hmem⟩ := sent_statusFile hrun hsent
    rw [session.operation_eq] at hdecode
    rw [eq_arrivedStatus (sentStatus_of_mem hrun hmem) hdecode]
    exact .status hmem
  | targetInformation ht hkind hop hdecode =>
    have hsent := (supplied_serverCompleted ht (by rw [hkind]; rfl)).mp hsupplied
    exact origin_targetInformation hrun hop hsent hdecode
  | downloadingList ht hkind hop hdecode =>
    have hsent := (supplied_serverCompleted ht (by rw [hkind]; rfl)).mp hsupplied
    exact origin_downloadingList hrun hop hsent hdecode

/-- What the application of the target gets. -/
theorem origin_of_passedBy (hrun : session.system.exec session.start es = some (c, tr))
    {file : Target.Received} {f : Target.Event}
    (hsupplied : session.network.supplied c ⟨.target, f⟩ = true)
    (h : Target.PassedBy session.target (c.party .target) (.received file) f) :
    Origin es tr ⟨.target, .received file⟩ := by
  cases h with
  | received ht hkind hop hdecode =>
    have hsent := (supplied_target ht (by rw [hkind]; rfl)).mp hsupplied
    obtain ⟨operation, filename, hmem⟩ := sent_requestFile hrun hsent
    obtain ⟨_, call, s, _, s', os, -, hcall, hexec, hstep, hos⟩ := host_output hrun hmem
    rw [← session.operation_eq] at hdecode
    have hgiven := eq_given (Host.sentBy_of_step (Host.consistent_run hexec) hstep hos) hdecode
    exact .received hcall hgiven.1

/-- **Nothing is made up**: behind every run of a session, what a step tells the user of
the host or the application of the target about the other party has its origin. -/
theorem session_origins (hrun : session.system.exec session.start es = some (c, tr))
    (hstep : session.system.step c e = some (c', out)) {o : Σ i : Party, i.Output} (ho : o ∈ out)
    (hdelivers : delivers o = true) : Origin es tr o := by
  obtain ⟨i, o⟩ := o
  cases i with
  | host =>
    obtain ⟨f, s, os, -, hsupplied, hhost, hos⟩ := host_step hstep ho
    obtain ⟨call, rfl, hdelivered⟩ :=
      Host.deliveredBy_of_step (Host.consistent_run (host_run hrun)) hhost hos hdelivers
    exact origin_of_deliveredBy hrun hsupplied hdelivered
  | target =>
    obtain ⟨f, s, os, -, hsupplied, htarget, hos⟩ := target_step hstep ho
    cases o with
    | received file =>
      exact origin_of_passedBy hrun hsupplied (Target.passedBy_of_step htarget hos rfl)
    | _ => cases hdelivers

/-- The host receives the first status of an upload. -/
theorem session_origins_status : ∃ es tr,
    Origin es tr ⟨.host, .status (.upload ⟨⟨0, 0, 0, .operationAccepted, []⟩, .zero, []⟩)⟩ :=
  ⟨exampleStart ++
    [⟨.target, .advance Timers.second⟩, ⟨.target, .timerExpired⟩, ⟨.target, .timerHandler .success⟩,
      ⟨.host, .tftpRequest (Host.exampleRequest .write "HNPFMS_L.LUS")⟩], _,
    @session_origins (exampleSession .upload) _ _ _ _ _
      ⟨.host, .serverCompleted 1 .successful (insertHeader .arinc615a34
        [0, 1, 0, 0, 0, 0, 0, 0, 0, 32, 32, 48, 0, 0])⟩ rfl rfl _ (.head _) rfl⟩

end Arinc615a.System
