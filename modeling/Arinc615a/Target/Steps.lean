import Arinc615a.Target.Machine

/-!
# The steps of a target operation

Every step in the same form (`step_iff`): the event takes something out of the
state (`taken`), and the operation reacts in one of a few ways to what is left.
The properties of runs are proved by cases on the reactions.
-/

namespace Arinc615a.Target

open Actions Actions.Action Machines Readers Timers
open Files Information Tftp

/-! ## Reactions -/

/-- The calls of the application's handler that the operation continues after. -/
inductive Call where
  | status (sentStatus : OperationStatus)
  | finished (finalStatus : FinalStatus) (description : Str)
  | received (file : Received)

def Call.output : Call → Output
  | status sentStatus => .status sentStatus
  | finished finalStatus description => .finished finalStatus description
  | received file => .received file

def Call.continuation : Call → Continuation
  | status sentStatus => .status sentStatus
  | finished _ _ => .finalised
  | received _ => .receivedFile

/-- What a step does to the state that the event left. -/
inductive Reaction where
  | nothing
  /-- Outputs that leave the state as it is. -/
  | reply (remote : Endpoint) (errorCode : ErrorCode) (errorMessage : Str)
  | abortRequest (abortRequest : AbortRequest)
  | thrown (exception : Arinc615aException)
  /-- The reception of a request file is started. -/
  | receive (remote : Endpoint)
  | initialised
  | call (call : Call)
  | cancel
  | arm (seconds : Nat)
  /-- The status is changed, and its transmission is forced or not. -/
  | update (f : OperationStatus → OperationStatus)
  | report (f : OperationStatus → OperationStatus)
  /-- The status is sent. -/
  | transmit
  | sendList (filename : Str) (file : RawData) (checkValue : CheckValue)

/-- Sending the status at once, or letting the timer expire at once. -/
def forced (cfg : Configuration) (s : State) : Option (State × List Output) :=
  match operationClass cfg.operation with
  | .information => transmission cfg (s.withStatus (statusToSend s.status))
  | _ => some (s.armed 0, [.timerArmed (s.deadline 0)])

/-- The state and the outputs of a reaction, where it is defined. -/
def Reaction.result (cfg : Configuration) (s : State) : Reaction → Option (State × List Output)
  | nothing => some (s, [])
  | reply remote errorCode errorMessage =>
    some (s, [.errorOperation remote errorCode errorMessage])
  | abortRequest request => some (s, [.abortRequest request])
  | thrown exception => some (s, [.thrown exception])
  | receive remote =>
    some ({ s.withTransfer .requestFile with requestFileOperation := some s.nextTransfer },
      [.writeOperation remote s.nextTransfer])
  | initialised =>
    some (s.armed cfg.statusTransmissionRate,
      [.timerArmed (s.deadline cfg.statusTransmissionRate), .initialised])
  | call c => some ({ s with callback := some c.continuation }, [c.output])
  | cancel => some ({ s with timer := s.timer.cancel }, [])
  | arm seconds => some (s.armed seconds, [.timerArmed (s.deadline seconds)])
  | update f => some (s.withStatus (f s.status), [])
  -- An information operation sends the status in the call, the others arm the timer.
  | report f => forced cfg (s.withStatus (f s.status))
  | transmit => transmission cfg (s.withStatus (statusToSend s.status))
  | sendList filename file checkValue =>
    if Replaceable cfg s.listOperation then
      some ({ (s.without s.listOperation).withTransfer .listFile with
          listOperation := some s.nextTransfer },
        transferAborts s.listOperation ++
          [.listFile s.remote s.nextTransfer filename file checkValue])
    else none

/-! ## The reaction to an event -/

/-- A request: an information operation expects none, the others expect their
file, written by the host. -/
def requestReaction (fileType : ProtocolFileType) (addressNotExpected : Str) (s : State)
    (request : Request) : Reaction :=
  if s.hostAddress ≠ request.remote.address then
    .reply request.remote .illegalTftpOperation addressNotExpected
  else if request.requestType ≠ .write then
    .reply request.remote .illegalTftpOperation (str "Only WRQ allowed")
  else if (ProtocolFilename.ofString request.filename).fileType ≠ fileType then
    .reply request.remote .fileNotFound (str "Wrong filename")
  else .receive request.remote

def tftpReaction (cfg : Configuration) (s : State) (request : Request) : Reaction :=
  match cfg.operation with
  | .information =>
    .reply request.remote .fileNotFound (str "RRQ/WRQ not expected")
  | .upload =>
    requestReaction .uploadRequest (str "Request from this address isn't expected") s request
  | .mediaDefinedDownload =>
    requestReaction .mediaDefinedDownloadRequest (str "Request from this address not expected")
      s request
  | .operatorDefinedDownload =>
    requestReaction .operatorDefinedDownloadAnswer (str "Request from this address not expected")
      s request

def initialisationReaction (status : LibraryTransferStatus) : Reaction :=
  if status ≠ .successful then
    .call (.finished .abortedByTargetHardware (str "Initialisation file transmission failed"))
  else .initialised

/-- A status file was sent, its transmission failed, or the host aborts. -/
def statusFileReaction (sentStatus : OperationStatus) : TransferStatus → Reaction
  | .successful => .call (.status sentStatus)
  | .operationAbortedByDlp => .abortRequest .abortByDlp
  | .operationAbortedByOperator => .abortRequest .abortByOperator
  | _ => .call (.finished .abortedByTargetHardware (str "Status transmission failed"))

/-- The status of a failure. -/
def failed (description : Str) : OperationStatus → OperationStatus :=
  reported (statusCodeOfFinalStatus .abortedByTargetHardware) description 0

/-- A list was sent, or its transmission failed. -/
def listFileReaction (cfg : Configuration) (s : State) (status : TransferStatus) :
    Option Reaction :=
  match cfg.operation with
  | .information =>
    some (if status ≠ .successful then
        .report (failed (str "Target Information transmission failed"))
      else if s.code = .invalid then .call (.finished .completed [])
      else .report (reported .operationCompleted [] 0))
  | .operatorDefinedDownload =>
    some (if status ≠ .successful then
        .report (failed (str "Target Information transmission failed"))
      else .nothing)
  | _ => none

/-- The decoder of the file that an operation receives. -/
def decodeRequest : OperationType → RawData →
    Outcome Arinc615aException ((Arinc615aVersion × Received) × RawData)
  | .information => fun _ => .overrun
  | .upload => UploadOperation.decodeRequest
  | .mediaDefinedDownload => MediaDefinedDownloadOperation.decodeRequest
  | .operatorDefinedDownload => OperatorDefinedDownloadOperation.decodeAnswer

/-- A request file: the application's handler is called with what was received,
and a failure is reported. -/
def requestFileReaction (cfg : Configuration) (status : LibraryTransferStatus) (data : RawData) :
    Option Reaction :=
  if cfg.operation = .information then none
  else if status ≠ .successful then
    some (.report (failed (failureTexts cfg.operation).transmissionFailed))
  else
    match decodeRequest cfg.operation data with
    | .overrun => none
    | .thrown _ => some (.report (failed (failureTexts cfg.operation).formatError))
    | .done ((protocolVersion, received), _) =>
      some (if protocolVersion ≠ cfg.protocolVersion then
          .report (failed (failureTexts cfg.operation).protocolVersionInvalid)
        else .call (.received received))

/-- Behind the call with a status that was sent. -/
def statusReaction (cfg : Configuration) (sentStatus : OperationStatus) : Reaction :=
  match sentStatus.status.code with
  | .operationAccepted =>
    -- The class writes the status itself, whatever the application reported meanwhile.
    if cfg.operation = .information then .report (reported .operationInProgress [] (-1))
    else .arm cfg.statusTransmissionRate
  | .operationInProgress | .operationInProgressAdditionalInfo => .arm cfg.statusTransmissionRate
  | code => .call (.finished (finalStatusOfStatusCode code) sentStatus.status.description)

def returnReaction (cfg : Configuration) : Continuation → Reaction
  | .status sentStatus => statusReaction cfg sentStatus
  | .finalised => .cancel
  | .receivedFile => .nothing

def throwReaction (cfg : Configuration) : Continuation → Reaction
  | .status _ => .nothing
  | .finalised => .nothing
  | .receivedFile => .report (failed (failureTexts cfg.operation).formatError)

def timerReaction : WaitResult → Reaction
  | .operationAborted => .nothing
  | .failure => .transmit
  | .success => .transmit

/-- The status behind a call of the application. -/
def callUpdate (cfg : Configuration) : ApplicationCall → OperationStatus → OperationStatus
  | .accepted => reported .operationAccepted [] 0
  | .inProgress _ estimatedTime description =>
    reported (inProgressCode cfg description) description estimatedTime
  | .inProgressList _ estimatedTime description listRatio => fun status =>
    setListRatio listRatio
      (reported (inProgressCode cfg description) description estimatedTime status)
  | .finished finalStatus description =>
    reported (statusCodeOfFinalStatus finalStatus) description 0
  | .loadAccepted headerFilename partNumber =>
    onUpload (UploadOperation.withLoadAccepted headerFilename partNumber)
  | .loadInProgress headerFilename ratio description =>
    onUpload (UploadOperation.withLoadInProgress cfg headerFilename ratio description)
  | .loadFinished headerFilename finalStatus description =>
    onUpload (UploadOperation.withLoadFinished headerFilename finalStatus description)
  | .loadsFinished finalStatus description =>
    onUpload (UploadOperation.withLoadsFinished finalStatus description)
  | .fileAccepted filename => onDownload (DownloadOperation.withFileAccepted filename)
  | .fileInProgress filename description =>
    onDownload (DownloadOperation.withFileInProgress cfg filename description)
  | .fileFinished filename finalStatus description =>
    onDownload (DownloadOperation.withFileFinished filename finalStatus description)
  | .filesFinished finalStatus description =>
    onDownload (DownloadOperation.withFilesFinished finalStatus description)
  | .targetInformation _ _ => id
  | .downloadingList _ => id

/-- The calls that force a transmission. -/
def callTransmits : ApplicationCall → Bool
  | .accepted => true
  | .inProgress immediateTransmission _ _ => immediateTransmission
  | .inProgressList immediateTransmission _ _ _ => immediateTransmission
  | .finished _ _ => true
  | _ => false

def listReaction (cfg : Configuration) (fileType : ProtocolFileType)
    (encoded : Except Arinc615aException RawData) (checkValue : RawData → CheckValue) :
    Reaction :=
  match encoded with
  | .error e => .thrown e
  | .ok file => .sendList (protocolFilename cfg fileType) file (checkValue file)

def applicationReaction (cfg : Configuration) (call : ApplicationCall) : Reaction :=
  match call with
  | .targetInformation targetsHardware checkValueType =>
    listReaction cfg .loadConfigurationList
      (LoadConfigurationListFile.encode ⟨cfg.protocolVersion, targetsHardware⟩)
      (cfg.checkValue checkValueType)
  | .downloadingList files =>
    listReaction cfg .operatorDefinedDownloadList
      (DownloadOperationListFile.encode ⟨cfg.protocolVersion, files⟩) fun _ => {}
  | _ => if callTransmits call then .report (callUpdate cfg call) else .update (callUpdate cfg call)

/-- The reaction to an event, where it can happen. -/
def reaction (cfg : Configuration) (s : State) : Event → Option Reaction
  | .tftpRequest request =>
    if s.callback = none then some (tftpReaction cfg s request) else none
  | .clientCompleted operation status =>
    if s.callback = none then
      (transfer? s operation).bind fun t =>
        match t.kind with
        | .statusFile sentStatus => some (statusFileReaction sentStatus status)
        | .listFile => listFileReaction cfg s status
        | _ => none
    else none
  | .serverCompleted operation status data =>
    if s.callback = none then
      (transfer? s operation).bind fun t =>
        match t.kind with
        | .initialisation => some (initialisationReaction status)
        | .requestFile => requestFileReaction cfg status data
        | _ => none
    else none
  | .timerExpired => if s.timer.due s.now then some .nothing else none
  | .timerFailed => if s.timer.deadline.isSome then some .nothing else none
  | .timerHandler result =>
    if s.callback = none ∧ s.timer.queue.head? = some result then some (timerReaction result)
    else none
  | .callbackReturned => s.callback.map (returnReaction cfg)
  | .callbackThrew => s.callback.map (throwReaction cfg)
  | .application call =>
    if offers cfg.operation call then some (applicationReaction cfg call) else none
  | .advance _ => some .nothing

/-- What a call of the application can be answered with: the calls with a list leave
the status alone, the others set it, and some of them transmit. -/
inductive CallReaction (cfg : Configuration) (call : ApplicationCall) : Reaction → Prop where
  | thrown {exception : Arinc615aException} (hid : callUpdate cfg call = id) :
    CallReaction cfg call (.thrown exception)
  | sendList {filename : Str} {file : RawData} {checkValue : CheckValue}
    (hid : callUpdate cfg call = id) :
    CallReaction cfg call (.sendList filename file checkValue)
  | report (htransmits : callTransmits call = true) :
    CallReaction cfg call (.report (callUpdate cfg call))
  | update (hkeeps : callTransmits call = false) :
    CallReaction cfg call (.update (callUpdate cfg call))

theorem callReaction_of_reaction {cfg : Configuration} {s : State} {call : ApplicationCall}
    {r : Reaction} (h : reaction cfg s (.application call) = some r) : CallReaction cfg call r := by
  have hlist : callUpdate cfg call = id → ∀ fileType encoded checkValue,
      CallReaction cfg call (listReaction cfg fileType encoded checkValue) := by
    intro hid fileType encoded checkValue
    cases encoded with
    | error exception => exact .thrown hid
    | ok file => exact .sendList hid
  simp only [reaction] at h
  split at h
  · rw [Option.some.injEq] at h
    subst h
    unfold applicationReaction
    split
    · exact hlist rfl ..
    · exact hlist rfl ..
    · split
      · exact .report ‹_›
      · exact .update (Bool.eq_false_iff.mpr ‹_›)
  · cases h

/-! ## What an event takes out of the state -/

/-- The completion of a transfer: the member of its kind is reset. -/
def State.completed (s : State) (operation : TransferId) : TransferKind → State
  | .initialisation => { s.withoutTransfer operation with initialisationOperation := none }
  | .statusFile _ => { s.withoutTransfer operation with statusOperation := none }
  | .listFile => { s.withoutTransfer operation with listOperation := none }
  | .requestFile => { s.withoutTransfer operation with requestFileOperation := none }

/-- The state behind the completion of a transfer, if it is one in flight. -/
def State.afterCompletion (s : State) (operation : TransferId) : State :=
  match transfer? s operation with
  | none => s
  | some t => s.completed operation t.kind

def taken (s : State) : Event → State
  | .clientCompleted operation _ | .serverCompleted operation _ _ =>
    s.afterCompletion operation
  | .timerExpired => { s with timer := s.timer.complete .success }
  | .timerFailed => { s with timer := s.timer.complete .failure }
  | .timerHandler _ => { s with timer := { s.timer with queue := s.timer.queue.tail } }
  | .callbackReturned | .callbackThrew => { s with callback := none }
  | .advance time => { s with now := s.now + time }
  | _ => s

/-! ## The handlers react -/

/-- From the state `s`, the handler performs the reaction in the state `t`. -/
def Performs (cfg : Configuration) (m : Handler) (s t : State) (r : Option Reaction) : Prop :=
  m s [] = (r.bind fun r => r.result cfg t).map ((), ·)

variable {cfg : Configuration} {s : State}

theorem performs_nothing : Performs cfg (pure ()) s s (some .nothing) := rfl

theorem performs_finalise (finalStatus : FinalStatus) (description : Str) :
    Performs cfg (finalise finalStatus description) s s
      (some (.call (.finished finalStatus description))) := rfl

theorem performs_armTimer (seconds : Nat) :
    Performs cfg (armTimer seconds) s s (some (.arm seconds)) := rfl

theorem performs_statusFile : Performs cfg (statusFile cfg) s s (some .transmit) :=
  statusFile_apply cfg s

theorem performs_tftpRequestWith (fileType : ProtocolFileType) (addressNotExpected : Str)
    (request : Request) :
    Performs cfg (tftpRequestWith fileType addressNotExpected request) s s
      (some (requestReaction fileType addressNotExpected s request)) := by
  simp only [Performs, tftpRequestWith, get_bind, if_apply, requestReaction]
  split
  · rfl
  split
  · rfl
  split <;> rfl

theorem performs_tftpRequest (request : Request) :
    Performs cfg (tftpRequest cfg request) s s (some (tftpReaction cfg s request)) := by
  cases hop : cfg.operation with
  | information =>
    simp only [tftpRequest, tftpReaction, hop]
    rfl
  | _ =>
    simp only [tftpRequest, tftpReaction, hop]
    exact performs_tftpRequestWith _ _ request

theorem performs_sendInitFileComplete (status : LibraryTransferStatus) :
    Performs cfg (sendInitFileComplete cfg status) s { s with initialisationOperation := none }
      (some (initialisationReaction status)) := by
  simp only [Performs, sendInitFileComplete, modify_bind, if_apply, initialisationReaction]
  split
  · exact performs_finalise ..
  · rfl

theorem performs_statusFileCompleted (sentStatus : OperationStatus) (status : TransferStatus) :
    Performs cfg (statusFileCompleted sentStatus status) s { s with statusOperation := none }
      (some (statusFileReaction sentStatus status)) := by
  simp only [Performs, statusFileCompleted, modify_bind, statusFileReaction]
  cases status <;> rfl

/-- A report that forces a transmission. -/
theorem performs_report (f : OperationStatus → OperationStatus)
    (hop : cfg.operation = .information) :
    Performs cfg (do updateStatus f; statusFile cfg) s s (some (.report f)) := by
  simp only [Performs, updateStatus, modify_bind, Option.bind_some, Reaction.result, forced, hop,
    operationClass]
  exact statusFile_apply cfg _

theorem performs_report_timer (f : OperationStatus → OperationStatus)
    (hop : cfg.operation ≠ .information) :
    Performs cfg (do updateStatus f; triggerStatusTransmission) s s (some (.report f)) := by
  simp only [Performs, updateStatus, modify_bind, Option.bind_some, Reaction.result, forced]
  cases h : cfg.operation <;> first | exact absurd h hop | rfl

theorem performs_finished (finalStatus : FinalStatus) (description : Str) :
    Performs cfg (finished cfg finalStatus description) s s
      (some (.report (reported (statusCodeOfFinalStatus finalStatus) description 0))) := by
  cases hop : cfg.operation with
  | information =>
    simp only [finished, hop, operationClass]
    exact performs_report _ hop
  | _ =>
    simp only [finished, hop, operationClass]
    exact performs_report_timer _ (by simp [hop])

theorem performs_statusReturnedWith {accepted : Handler} {r : Reaction}
    (haccepted : Performs cfg accepted s s (some r)) (sentStatus : OperationStatus)
    (hr : sentStatus.status.code = .operationAccepted → statusReaction cfg sentStatus = r) :
    Performs cfg (statusReturnedWith cfg accepted sentStatus) s s
      (some (statusReaction cfg sentStatus)) := by
  cases hcode : sentStatus.status.code with
  | operationAccepted =>
    rw [hr hcode]
    simpa only [statusReturnedWith, hcode] using haccepted
  | _ =>
    simp only [statusReturnedWith, statusReaction, hcode]
    first | exact performs_armTimer _ | exact performs_finalise ..

theorem performs_statusReturned (sentStatus : OperationStatus) :
    Performs cfg (statusReturned cfg sentStatus) s s (some (statusReaction cfg sentStatus)) := by
  cases hop : cfg.operation with
  | information =>
    simp only [statusReturned, hop, operationClass]
    exact performs_statusReturnedWith (performs_report _ hop) sentStatus
      fun hcode => by simp [statusReaction, hcode, hop, inProgressCode]
  | _ =>
    simp only [statusReturned, hop, operationClass]
    exact performs_statusReturnedWith (performs_armTimer _) sentStatus
      fun hcode => by simp [statusReaction, hcode, hop]

theorem performs_listFileCompleted (status : TransferStatus) :
    Performs cfg (listFileCompleted cfg status) s { s with listOperation := none }
      (listFileReaction cfg s status) := by
  cases hop : cfg.operation with
  | information =>
    simp only [Performs, listFileCompleted, hop, InformationOperation.targetInformationCompleted,
      modify_bind, if_apply, get_bind, listFileReaction]
    split
    · exact performs_report _ hop
    split
    · exact performs_finalise ..
    · exact performs_report _ hop
  | operatorDefinedDownload =>
    simp only [Performs, listFileCompleted, hop,
      OperatorDefinedDownloadOperation.downloadingListCompleted, modify_bind, if_apply,
      listFileReaction]
    split
    · exact performs_report_timer _ (by simp [hop])
    · exact performs_nothing
  | _ => simp [Performs, listFileCompleted, hop, listFileReaction]

theorem performs_requestFileCompletedWith {finished : FinalStatus → Str → Handler}
    (hop : cfg.operation ≠ .information)
    (hfinished : finished = finishedWith triggerStatusTransmission)
    (data : RawData) (status : LibraryTransferStatus) :
    Performs cfg
      (requestFileCompletedWith cfg finished (failureTexts cfg.operation)
        (decodeRequest cfg.operation) data status)
      s { s with requestFileOperation := none } (requestFileReaction cfg status data) := by
  subst hfinished
  simp only [Performs, requestFileCompletedWith, modify_bind, if_apply, requestFileReaction, hop,
    if_false]
  split
  · exact performs_report_timer _ hop
  · cases decodeRequest cfg.operation data with
    | overrun => rfl
    | thrown e => exact performs_report_timer _ hop
    | done file =>
      simp only [if_apply]
      split
      · exact performs_report_timer _ hop
      · rfl

theorem performs_requestFileCompleted (data : RawData) (status : LibraryTransferStatus) :
    Performs cfg (requestFileCompleted cfg data status) s { s with requestFileOperation := none }
      (requestFileReaction cfg status data) := by
  cases hop : cfg.operation with
  | information => simp [Performs, requestFileCompleted, hop, requestFileReaction]
  | _ =>
    have h := @performs_requestFileCompletedWith cfg s _ (by simp [hop]) rfl data status
    rw [hop] at h
    simp only [requestFileCompleted, hop]
    exact h

theorem performs_callbackReturned (continuation : Continuation) :
    Performs cfg (callbackReturned cfg continuation) s s
      (some (returnReaction cfg continuation)) := by
  cases continuation with
  | status sentStatus => exact performs_statusReturned sentStatus
  | finalised => rfl
  | receivedFile => exact performs_nothing

theorem performs_callbackThrew (continuation : Continuation) :
    Performs cfg (callbackThrew cfg continuation) s s
      (some (throwReaction cfg continuation)) := by
  cases continuation with
  | status sentStatus => exact performs_nothing
  | finalised => exact performs_nothing
  | receivedFile => exact performs_finished ..

theorem performs_timerHandler (result : WaitResult) :
    Performs cfg (statusTransmissionTimerHandler cfg result) s s (some (timerReaction result)) := by
  cases result with
  | operationAborted => exact performs_nothing
  | _ => exact performs_statusFile

/-! ## Calls of the application -/

theorem performs_inProgressWith {transmit : Handler} {f : OperationStatus → OperationStatus}
    (htransmit : Performs cfg (do updateStatus f; transmit) s s (some (.report f)))
    (immediateTransmission : Bool) :
    Performs cfg (do updateStatus f; if immediateTransmission then transmit else pure ()) s s
      (some (if immediateTransmission then .report f else .update f)) := by
  cases immediateTransmission with
  | false => rfl
  | true => exact htransmit

theorem performs_sendListFile (fileType : ProtocolFileType)
    (encoded : Except Arinc615aException RawData) (checkValue : RawData → CheckValue) :
    Performs cfg (sendListFile cfg fileType encoded checkValue) s s
      (some (listReaction cfg fileType encoded checkValue)) := by
  simp only [Performs, sendListFile, get_bind, listReaction]
  cases encoded with
  | error e => rfl
  | ok file =>
    simp only [destroyOperation_bind, startTransfer_bind, modify_bind, emit_apply,
      Option.bind_some, Reaction.result, List.nil_append]
    split <;> rfl

theorem performs_application {call : ApplicationCall} (h : offers cfg.operation call) :
    Performs cfg (application cfg call) s s (some (applicationReaction cfg call)) := by
  cases call with
  | targetInformation targetsHardware checkValueType => exact performs_sendListFile ..
  | downloadingList files => exact performs_sendListFile ..
  | finished finalStatus description => exact performs_finished ..
  | accepted =>
    cases hop : cfg.operation with
    | information =>
      simp only [application, accepted, hop, operationClass]
      exact performs_report _ hop
    | _ =>
      simp only [application, accepted, hop, operationClass]
      exact performs_report_timer _ (by simp [hop])
  | inProgress immediateTransmission estimatedTime description =>
    cases hop : cfg.operation with
    | information =>
      simp only [application, inProgress, hop, operationClass]
      exact performs_inProgressWith (performs_report _ hop) immediateTransmission
    | _ =>
      simp only [application, inProgress, hop, operationClass]
      exact performs_inProgressWith (performs_report_timer _ (by simp [hop]))
        immediateTransmission
  | inProgressList immediateTransmission estimatedTime description listRatio =>
    cases hop : cfg.operation with
    | information => simp [offers, hop] at h
    | _ =>
      simp only [application, inProgressList, hop, operationClass]
      exact performs_inProgressWith (performs_report_timer _ (by simp [hop]))
        immediateTransmission
  | _ => rfl

/-! ## The steps -/

theorem performs_clientCompleted (operation : TransferId) (status : TransferStatus) :
    Performs cfg (react cfg (.clientCompleted operation status)) s
      (taken s (.clientCompleted operation status))
      (reaction cfg s (.clientCompleted operation status)) := by
  simp only [Performs, react, get_bind, require_bind, reaction, taken, State.afterCompletion,
    clientCompleted]
  split
  · cases ht : transfer? s operation with
    | none => rfl
    | some t =>
      cases hkind : t.kind <;> simp only [Option.bind_some, hkind, endTransfer_bind]
      · rfl
      · exact performs_statusFileCompleted _ status
      · exact performs_listFileCompleted status
      · rfl
  · rfl

theorem performs_serverCompleted (operation : TransferId) (status : LibraryTransferStatus)
    (data : RawData) :
    Performs cfg (react cfg (.serverCompleted operation status data)) s
      (taken s (.serverCompleted operation status data))
      (reaction cfg s (.serverCompleted operation status data)) := by
  simp only [Performs, react, get_bind, require_bind, reaction, taken, State.afterCompletion,
    serverCompleted]
  split
  · cases ht : transfer? s operation with
    | none => rfl
    | some t =>
      cases hkind : t.kind <;> simp only [Option.bind_some, hkind, endTransfer_bind]
      · exact performs_sendInitFileComplete status
      · rfl
      · rfl
      · exact performs_requestFileCompleted data status
  · rfl

/-- **Steps**: the operation performs the reaction to the event. -/
theorem performs_react (e : Event) :
    Performs cfg (react cfg e) s (taken s e) (reaction cfg s e) := by
  cases e with
  | clientCompleted operation status => exact performs_clientCompleted operation status
  | serverCompleted operation status data => exact performs_serverCompleted operation status data
  | tftpRequest request =>
    simp only [Performs, react, get_bind, require_bind, reaction]
    split
    · exact performs_tftpRequest request
    · rfl
  | timerExpired =>
    simp only [Performs, react, get_bind, require_bind, reaction]
    split <;> rfl
  | timerFailed =>
    simp only [Performs, react, get_bind, require_bind, reaction]
    split <;> rfl
  | timerHandler result =>
    simp only [Performs, react, get_bind, require_bind, reaction]
    split
    · exact performs_timerHandler result
    · rfl
  | callbackReturned =>
    simp only [Performs, react, get_bind, reaction]
    cases hcallback : s.callback with
    | none => rfl
    | some continuation => exact performs_callbackReturned continuation
  | callbackThrew =>
    simp only [Performs, react, get_bind, reaction]
    cases hcallback : s.callback with
    | none => rfl
    | some continuation => exact performs_callbackThrew continuation
  | application call =>
    simp only [Performs, react, require_bind, reaction]
    split
    · rename_i hoffers
      exact performs_application hoffers
    · rfl
  | advance time => rfl

/-- A step is the reaction to its event. -/
theorem step_iff {s' : State} {e : Event} {out : List Output} :
    (machine cfg).step s e = some (s', out) ↔
      ∃ r, reaction cfg s e = some r ∧ r.result cfg (taken s e) = some (s', out) := by
  rw [step_eq_some, performs_react e]
  simp [Option.bind_eq_some_iff]

end Arinc615a.Target
