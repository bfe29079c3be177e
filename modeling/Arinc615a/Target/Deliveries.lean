import Arinc615a.Target.LoadResults

/-!
# What passes between the application of a target operation and the host

Where a target operation sends a status, it sends the one it stores, with a code that
a file may carry; a list it sends where the application gave one, with the check value
of the file. In the other direction the application gets the file that a transfer
brought with success, if it has the version of the operation, and the ABORT that ended
the transfer of a status.
-/

namespace Arinc615a.Target

open Actions Actions.Action Machines Readers Timers
open Files Information Tftp

variable {cfg : Configuration} {s : State}

/-! ## The status files -/

/-- A status as an operation sends it, with its file. -/
structure SentStatus (cfg : Configuration) (filename : Str) (status : OperationStatus)
    (file : RawData) : Prop where
  filename_eq : filename = protocolFilename cfg (statusFileType cfg.operation)
  encoded : encodeStatus cfg.protocolVersion status = .ok file
  operationClass_eq : status.operationClass = operationClass cfg.operation
  code_ne : status.status.code ≠ .invalid
  codes : CodesTravel status

theorem addressed_transmission {s' : State} {out : List Output}
    (h : transmission cfg s = some (s', out)) {remote : Endpoint} {operation : TransferId}
    {filename : Str} {sentStatus : OperationStatus} {file : RawData}
    (hsent : .statusFile remote operation filename sentStatus file ∈ out) :
    remote = s.remote ∧ filename = protocolFilename cfg (statusFileType cfg.operation) := by
  obtain ⟨e, -, -, rfl⟩ | ⟨file, -, -, rfl⟩ := transmission_eq_some h
  · simp at hsent
  · simp only [statusFileOutputs, transferAborts] at hsent
    cases hop : s.statusOperation <;> simp_all

/-- Where it goes, and its protocol filename. -/
theorem addressed_result {r : Reaction} {s' : State} {out : List Output}
    (h : r.result cfg s = some (s', out)) {remote : Endpoint} {operation : TransferId}
    {filename : Str} {sentStatus : OperationStatus} {file : RawData}
    (hsent : .statusFile remote operation filename sentStatus file ∈ out) :
    remote = s.remote ∧ filename = protocolFilename cfg (statusFileType cfg.operation) := by
  cases r with
  | transmit =>
    have haddressed := addressed_transmission h hsent
    exact haddressed
  | report f =>
    obtain ⟨-, h⟩ | ⟨-, -, rfl⟩ := forced_eq_some h
    · have haddressed := addressed_transmission h hsent
      exact haddressed
    · simp at hsent
  | sendList filename file checkValue =>
    simp only [Reaction.result, transferAborts] at h
    split at h
    · rw [Option.some.injEq, Prod.mk.injEq] at h
      obtain ⟨-, rfl⟩ := h
      cases hop : s.listOperation <;> simp_all
    · cases h
  | call c =>
    simp only [Reaction.result, Option.some.injEq, Prod.mk.injEq] at h
    obtain ⟨-, rfl⟩ := h
    cases c <;> simp [Call.output] at hsent
  | _ =>
    simp only [Reaction.result, Option.some.injEq, Prod.mk.injEq] at h
    obtain ⟨-, rfl⟩ := h
    simp at hsent

/-- **Status files**: behind every run, what a step sends is such a status. -/
theorem sentStatus_of_step {hostAddress : Endpoint} {port : Option UInt16} {es : List Event}
    {tr : List Output} (hexec : (machine cfg).exec (started cfg hostAddress port) es = some (s, tr))
    {s' : State} {e : Event} {out : List Output} {remote : Endpoint} {operation : TransferId}
    {filename : Str} {status : OperationStatus} {file : RawData}
    (h : (machine cfg).step s e = some (s', out))
    (ho : .statusFile remote operation filename status file ∈ out) :
    SentStatus cfg filename status file := by
  obtain ⟨r, hr, hresult⟩ := step_iff.mp h
  have hmem : (status, file) ∈ sentFiles out :=
    List.mem_filterMap.mpr ⟨_, ho, rfl⟩
  cases stepSends_step hr hresult with
  | none hstatus hnone =>
    rw [hnone] at hmem
    cases hmem
  | one hstatus hone hdue hencode =>
    rw [hone] at hmem
    cases List.mem_singleton.mp hmem
    exact ⟨(addressed_result hresult ho).2, hencode,
      (operationClass_updated hr s.status).trans (inClass_run hexec), code_due_ne hdue,
      codesTravel_updated (inClass_run hexec) hr (codesTravel_run hexec)⟩

/-! ## The reaction behind an output -/

/-- The outputs of a transmission of the status. -/
theorem transmission_outputs {P : Output → Prop} {s' : State} {out : List Output}
    (hthrown : ∀ e, P (.thrown e)) (habort : ∀ operation, P (.abortTransfer operation))
    (hstatus : ∀ remote operation filename status file,
      P (.statusFile remote operation filename status file))
    (harmed : ∀ deadline, P (.timerArmed deadline))
    (h : transmission cfg s = some (s', out)) : ∀ o ∈ out, P o := by
  intro o ho
  obtain ⟨e, -, -, rfl⟩ | ⟨file, -, -, rfl⟩ := transmission_eq_some h
  · rw [List.mem_singleton.mp ho]
    exact hthrown e
  · rcases List.mem_append.mp ho with hmem | hmem
    · cases hop : s.statusOperation with
      | none =>
        rw [hop] at hmem
        cases hmem
      | some operation =>
        rw [hop] at hmem
        rw [List.mem_singleton.mp hmem]
        exact habort operation
    · rcases List.mem_pair.mp hmem with rfl | rfl
      · exact hstatus ..
      · exact harmed _

/-- The outputs that tell the application what the host sent, and the starts of files
other than the status. -/
def Output.passes : Output → Bool
  | .received _ => true
  | .abortRequest _ => true
  | .listFile _ _ _ _ _ => true
  | .readOperation _ _ _ => true
  | _ => false

/-- Only three reactions make such an output: the initialisation file was started before. -/
inductive Passes (s : State) : Output → Reaction → Prop where
  | received {file : Received} : Passes s (.received file) (.call (.received file))
  | abortRequest {request : AbortRequest} :
    Passes s (.abortRequest request) (.abortRequest request)
  | listFile {filename : Str} {file : RawData} {checkValue : CheckValue} :
    Passes s (.listFile s.remote s.nextTransfer filename file checkValue)
      (.sendList filename file checkValue)

theorem passes_of_result {r : Reaction} {s' : State} {out : List Output} {o : Output}
    (h : r.result cfg s = some (s', out)) (ho : o ∈ out) (hpasses : o.passes = true) :
    Passes s o r := by
  have hnot : o.passes ≠ false := by simp [hpasses]
  have hquiet : ∀ {t : State}, transmission cfg t = some (s', out) → False := fun ht =>
    hnot (transmission_outputs (P := fun o => o.passes = false) (fun _ => rfl) (fun _ => rfl)
      (fun _ _ _ _ _ => rfl) (fun _ => rfl) ht o ho)
  cases r with
  | transmit => exact absurd h hquiet
  | report f =>
    obtain ⟨-, ht⟩ | ⟨-, -, rfl⟩ := forced_eq_some h
    · exact absurd ht hquiet
    · rw [List.mem_singleton.mp ho] at hpasses
      cases hpasses
  | call c =>
    simp only [Reaction.result, Option.some.injEq, Prod.mk.injEq] at h
    obtain ⟨-, rfl⟩ := h
    obtain rfl := List.mem_singleton.mp ho
    cases c with
    | received file => exact .received
    | _ => cases hpasses
  | abortRequest request =>
    simp only [Reaction.result, Option.some.injEq, Prod.mk.injEq] at h
    obtain ⟨-, rfl⟩ := h
    obtain rfl := List.mem_singleton.mp ho
    exact .abortRequest
  | sendList filename file checkValue =>
    simp only [Reaction.result] at h
    split at h
    · simp only [Option.some.injEq, Prod.mk.injEq] at h
      obtain ⟨-, rfl⟩ := h
      rcases List.mem_append.mp ho with hmem | hmem
      · unfold transferAborts at hmem
        split at hmem
        · cases hmem
        · rw [List.mem_singleton.mp hmem] at hpasses
          cases hpasses
      · obtain rfl := List.mem_singleton.mp hmem
        exact .listFile
    · cases h
  | initialised =>
    simp only [Reaction.result, Option.some.injEq, Prod.mk.injEq] at h
    obtain ⟨-, rfl⟩ := h
    rcases List.mem_pair.mp ho with rfl | rfl <;> cases hpasses
  | _ =>
    simp only [Reaction.result, Option.some.injEq, Prod.mk.injEq] at h
    obtain ⟨-, rfl⟩ := h
    first
      | (rw [List.mem_singleton.mp ho] at hpasses; cases hpasses)
      | cases ho

/-! ## The event behind an output -/

/-- The event completes the transfer that a call of the application tells of, or is
the call of the application that sends the list. -/
inductive PassedBy (cfg : Configuration) (s : State) : Output → Event → Prop where
  | received {operation : TransferId} {data rest : RawData} {t : Transfer} {file : Received}
    (ht : transfer? s operation = some t) (hkind : t.kind = .requestFile)
    (hop : cfg.operation ≠ .information)
    (hdecode : decodeRequest cfg.operation data = .done ((cfg.protocolVersion, file), rest)) :
    PassedBy cfg s (.received file) (.serverCompleted operation .successful data)
  | abortByDlp {operation : TransferId} {t : Transfer} {sentStatus : OperationStatus}
    (ht : transfer? s operation = some t) (hkind : t.kind = .statusFile sentStatus) :
    PassedBy cfg s (.abortRequest .abortByDlp) (.clientCompleted operation .operationAbortedByDlp)
  | abortByOperator {operation : TransferId} {t : Transfer} {sentStatus : OperationStatus}
    (ht : transfer? s operation = some t) (hkind : t.kind = .statusFile sentStatus) :
    PassedBy cfg s (.abortRequest .abortByOperator)
      (.clientCompleted operation .operationAbortedByOperator)
  | targetInformation {targetsHardware : List TargetHardware} {type : CheckValueType}
    {file : RawData} (hop : cfg.operation = .information)
    (hencode : LoadConfigurationListFile.encode ⟨cfg.protocolVersion, targetsHardware⟩ =
      .ok file) :
    PassedBy cfg s
      (.listFile s.remote s.nextTransfer (protocolFilename cfg .loadConfigurationList) file
        (cfg.checkValue type file))
      (.application (.targetInformation targetsHardware type))
  | downloadingList {files : List DownloadFileInformation} {file : RawData}
    (hop : cfg.operation = .operatorDefinedDownload)
    (hencode : DownloadOperationListFile.encode ⟨cfg.protocolVersion, files⟩ = .ok file) :
    PassedBy cfg s
      (.listFile s.remote s.nextTransfer (protocolFilename cfg .operatorDefinedDownloadList) file
        {})
      (.application (.downloadingList files))

/-- The reaction to a request file that the application is called with. -/
theorem requestFileReaction_received {status : LibraryTransferStatus} {data : RawData}
    {file : Received}
    (h : requestFileReaction cfg status data = some (.call (.received file))) :
    cfg.operation ≠ .information ∧ status = .successful ∧
      ∃ rest, decodeRequest cfg.operation data = .done ((cfg.protocolVersion, file), rest) := by
  unfold requestFileReaction at h
  split at h
  · cases h
  rename_i hop
  split at h
  · cases h
  rename_i hstatus
  refine ⟨hop, not_not.mp hstatus, ?_⟩
  cases hdecode : decodeRequest cfg.operation data with
  | overrun => simp [hdecode] at h
  | thrown e => simp [hdecode] at h
  | done result =>
    obtain ⟨⟨protocolVersion, received⟩, rest⟩ := result
    simp only [hdecode, Option.some.injEq] at h
    split at h
    · cases h
    · rename_i hversion
      cases h
      exact ⟨rest, by rw [not_not.mp hversion]⟩

/-- The list of a call of the application. -/
theorem listReaction_sendList {fileType : ProtocolFileType}
    {encoded : Except Arinc615aException RawData} {checkValue : RawData → CheckValue}
    {filename : Str} {file : RawData} {value : CheckValue}
    (h : listReaction cfg fileType encoded checkValue = .sendList filename file value) :
    encoded = .ok file ∧ filename = protocolFilename cfg fileType ∧ value = checkValue file := by
  cases encoded with
  | error e => cases h
  | ok file' =>
    cases h
    exact ⟨rfl, rfl, rfl⟩

theorem listReaction_not {fileType : ProtocolFileType}
    {encoded : Except Arinc615aException RawData} {checkValue : RawData → CheckValue} {r : Reaction}
    (hr : ∀ filename file value, r ≠ .sendList filename file value) (hthrown : ∀ e, r ≠ .thrown e) :
    listReaction cfg fileType encoded checkValue ≠ r := by
  cases encoded with
  | error e => exact (hthrown e).symm
  | ok file => exact (hr _ _ _).symm

/-- The reactions with such an output. -/
def Reaction.passes : Reaction → Bool
  | .call (.received _) => true
  | .abortRequest _ => true
  | .sendList _ _ _ => true
  | _ => false

theorem Passes.passes {o : Output} {r : Reaction} (h : Passes s o r) : r.passes = true := by
  cases h <;> rfl

theorem passes_statusReaction (sentStatus : OperationStatus) :
    (statusReaction cfg sentStatus).passes = false := by
  unfold statusReaction
  split
  · split <;> rfl
  all_goals rfl

theorem passes_listFileReaction {status : TransferStatus} {r : Reaction}
    (h : listFileReaction cfg s status = some r) : r.passes = false := by
  unfold listFileReaction at h
  split at h
  · cases h
    split
    · rfl
    split <;> rfl
  · cases h
    split <;> rfl
  · cases h

/-- The reactions to the completion of a transfer. -/
theorem passedBy_completed {operation : TransferId} {t : Transfer} {o : Output}
    {sentStatus : OperationStatus} {status : TransferStatus} (ht : transfer? s operation = some t)
    (hkind : t.kind = .statusFile sentStatus) {s' : State}
    (h : Passes s' o (statusFileReaction sentStatus status)) :
    PassedBy cfg s o (.clientCompleted operation status) := by
  cases status with
  | operationAbortedByDlp =>
    cases h
    exact .abortByDlp ht hkind
  | operationAbortedByOperator =>
    cases h
    exact .abortByOperator ht hkind
  | _ => cases h

theorem passedBy_requestFile {operation : TransferId} {t : Transfer} {o : Output} {r : Reaction}
    {status : LibraryTransferStatus} {data : RawData} (ht : transfer? s operation = some t)
    (hkind : t.kind = .requestFile) (hr : requestFileReaction cfg status data = some r) {s' : State}
    (h : Passes s' o r) : PassedBy cfg s o (.serverCompleted operation status data) := by
  cases h with
  | received =>
    obtain ⟨hop, rfl, rest, hdecode⟩ := requestFileReaction_received hr
    exact .received ht hkind hop hdecode
  | _ =>
    -- A failure is reported.
    unfold requestFileReaction at hr
    grind

/-- The lists of the application. -/
theorem passedBy_application {call : ApplicationCall} {o : Output}
    (hoffers : offers cfg.operation call = true) (h : Passes s o (applicationReaction cfg call)) :
    PassedBy cfg s o (.application call) := by
  obtain ⟨r, hr⟩ : ∃ r, applicationReaction cfg call = r := ⟨_, rfl⟩
  rw [hr] at h
  cases call with
  | targetInformation targetsHardware type =>
    have hop : cfg.operation = .information := by simpa [offers] using hoffers
    cases h with
    | listFile =>
      obtain ⟨hencode, rfl, rfl⟩ := listReaction_sendList hr
      exact .targetInformation hop hencode
    | _ => exact absurd hr (listReaction_not (by simp) (by simp))
  | downloadingList files =>
    have hop : cfg.operation = .operatorDefinedDownload := by simpa [offers] using hoffers
    cases h with
    | listFile =>
      obtain ⟨hencode, rfl, rfl⟩ := listReaction_sendList hr
      exact .downloadingList hop hencode
    | _ => exact absurd hr (listReaction_not (by simp) (by simp))
  | _ =>
    simp only [applicationReaction] at hr
    split at hr <;> subst hr <;> cases h

theorem passedBy_of_reaction {e : Event} {o : Output} {r : Reaction}
    (hr : reaction cfg s e = some r) (h : Passes (taken s e) o r) : PassedBy cfg s o e := by
  have hpasses := h.passes
  cases e with
  | application call =>
    simp only [reaction] at hr
    split at hr
    · cases hr
      exact passedBy_application ‹_› h
    · cases hr
  | clientCompleted operation status =>
    obtain ⟨t, ht, ⟨sentStatus, hkind, rfl⟩ | ⟨-, hlist⟩⟩ := clientCompleted_eq_some hr
    · exact passedBy_completed ht hkind h
    · rw [passes_listFileReaction hlist] at hpasses
      cases hpasses
  | serverCompleted operation status data =>
    obtain ⟨t, ht, ⟨-, rfl⟩ | ⟨hkind, hrequest⟩⟩ := serverCompleted_eq_some hr
    · unfold initialisationReaction at h
      split at h <;> cases h
    · exact passedBy_requestFile ht hkind hrequest h
  | tftpRequest request =>
    obtain ⟨errorCode, errorMessage, rfl⟩ | rfl := tftpRequest_eq_some hr <;> cases h
  | callbackReturned =>
    obtain ⟨continuation, -, rfl⟩ := Option.map_eq_some_iff.mp hr
    cases continuation with
    | status sentStatus =>
      rw [returnReaction, passes_statusReaction] at hpasses
      cases hpasses
    | _ => cases h
  | callbackThrew =>
    obtain ⟨continuation, -, rfl⟩ := Option.map_eq_some_iff.mp hr
    cases continuation <;> cases h
  | timerHandler result =>
    obtain rfl := timerHandler_eq_some hr
    cases result <;> cases h
  | timerExpired =>
    cases nothing_of_eq_some (.inl rfl) hr
    cases h
  | timerFailed =>
    cases nothing_of_eq_some (.inr (.inl rfl)) hr
    cases h
  | advance time =>
    cases nothing_of_eq_some (.inr (.inr ⟨time, rfl⟩)) hr
    cases h

/-- **Passing**: an output that passes something on has its event. -/
theorem passedBy_of_step {s' : State} {e : Event} {out : List Output} {o : Output}
    (h : (machine cfg).step s e = some (s', out)) (ho : o ∈ out) (hpasses : o.passes = true) :
    PassedBy cfg s o e := by
  obtain ⟨r, hr, hresult⟩ := step_iff.mp h
  exact passedBy_of_reaction hr (passes_of_result hresult ho hpasses)

/-! ## The host of an operation -/

/-- Where a file is sent to, and under which name. -/
def Output.file? : Output → Option (Endpoint × Str)
  | .statusFile remote _ filename _ _ => some (remote, filename)
  | .listFile remote _ filename _ _ => some (remote, filename)
  | _ => none

theorem remote_transmission {s' : State} {out : List Output}
    (h : transmission cfg s = some (s', out)) : s'.remote = s.remote := by
  obtain ⟨e, -, rfl, -⟩ | ⟨file, -, rfl, -⟩ := transmission_eq_some h <;> rfl

theorem remote_result {r : Reaction} {s' : State} {out : List Output}
    (h : r.result cfg s = some (s', out)) : s'.remote = s.remote := by
  cases r with
  | transmit =>
    have hsame := remote_transmission h
    exact hsame
  | report f =>
    obtain ⟨-, h⟩ | ⟨-, rfl, -⟩ := forced_eq_some h
    · have hsame := remote_transmission h
      exact hsame
    · rfl
  | sendList filename file checkValue =>
    simp only [Reaction.result] at h
    split at h
    · cases h
      rfl
    · cases h
  | _ =>
    cases h
    rfl

theorem remote_afterCompletion (s : State) (operation : TransferId) :
    (s.afterCompletion operation).remote = s.remote := by
  unfold State.afterCompletion
  split
  · rfl
  · rename_i t _
    cases t.kind <;> rfl

theorem remote_taken (s : State) (e : Event) : (taken s e).remote = s.remote := by
  cases e with
  | clientCompleted operation status => exact remote_afterCompletion s operation
  | serverCompleted operation status data => exact remote_afterCompletion s operation
  | _ => rfl

theorem remote_step {s' : State} {e : Event} {out : List Output}
    (h : (machine cfg).step s e = some (s', out)) : s'.remote = s.remote := by
  obtain ⟨r, -, hresult⟩ := step_iff.mp h
  rw [remote_result hresult, remote_taken]

/-- **The host**: in every run, files go to and come from the host of the start. -/
theorem remote_run {hostAddress : Endpoint} {port : Option UInt16} {es : List Event}
    {tr : List Output} (h : (machine cfg).exec (started cfg hostAddress port) es = some (s, tr)) :
    s.remote = ⟨hostAddress.address, port.getD cfg.tftpServerPort⟩ := by
  have hstep : ∀ s e s' out, s.remote = ⟨hostAddress.address, port.getD cfg.tftpServerPort⟩ →
      (machine cfg).step s e = some (s', out) →
        s'.remote = ⟨hostAddress.address, port.getD cfg.tftpServerPort⟩ :=
    fun s e s' out hinv hstep => (remote_step hstep).trans hinv
  exact Machine.exec_invariant hstep rfl h

/-- The files that a step sends: to the host of the operation, under a protocol filename
of its own target. -/
theorem addressed_step {s' : State} {e : Event} {out : List Output} {o : Output}
    (h : (machine cfg).step s e = some (s', out)) (ho : o ∈ out) {remote : Endpoint}
    {filename : Str} (hfile : o.file? = some (remote, filename)) :
    remote = s.remote ∧ ∃ fileType, fileType ≠ .invalid ∧
      filename = protocolFilename cfg fileType := by
  cases o with
  | statusFile remote operation filename status file =>
    cases hfile
    obtain ⟨r, -, hresult⟩ := step_iff.mp h
    obtain ⟨rfl, rfl⟩ := addressed_result hresult ho
    refine ⟨remote_taken s e, _, ?_, rfl⟩
    cases hop : cfg.operation <;> simp [statusFileType, operationClass]
  | listFile remote operation filename file checkValue =>
    cases hfile
    cases passedBy_of_step h ho rfl with
    | targetInformation hop hencode => exact ⟨rfl, .loadConfigurationList, by decide, rfl⟩
    | downloadingList hop hencode => exact ⟨rfl, .operatorDefinedDownloadList, by decide, rfl⟩
  | _ => cases hfile

/-- **Addresses**: in every run, files go to the host of the start. -/
theorem addressed_run {hostAddress : Endpoint} {port : Option UInt16} {es : List Event}
    {tr : List Output} (h : (machine cfg).exec (started cfg hostAddress port) es = some (s, tr))
    {o : Output} (ho : o ∈ tr) {remote : Endpoint} {filename : Str}
    (hfile : o.file? = some (remote, filename)) :
    remote = ⟨hostAddress.address, port.getD cfg.tftpServerPort⟩ ∧
      ∃ fileType, fileType ≠ .invalid ∧ filename = protocolFilename cfg fileType := by
  obtain ⟨pre, post, htr⟩ := List.append_of_mem ho
  obtain ⟨es₁, e, es₂, s₁, tr₁, s₂, out, -, hpre, hstep, hout, -⟩ :=
    Machine.exists_step_of_output h htr
  obtain ⟨hremote, hname⟩ := addressed_step hstep hout hfile
  exact ⟨hremote.trans (remote_run hpre), hname⟩

end Arinc615a.Target
