import Arinc615a.Host.Replies

/-!
# The steps of a host operation

Every step in the same form (`step_iff`): the event takes something out of the
state (`taken`), and the operation reacts in one of a few ways to what is left.
The properties of runs are proved by cases on the reactions.
-/

namespace Arinc615a.Host

open Actions Actions.Action Machines Readers Timers
open Files Information Tftp

/-! ## Reactions -/

/-- The calls of the user's handler that the operation continues after. -/
inductive Call where
  | initialisationResponse (file : InitializationFile)
  | status (status : OperationStatus)
  | targetInformation (targetsHardware : List TargetHardware) (integrityInformation : Bool)
  | downloadingList (files : List DownloadFileInformation)

def Call.output : Call → Output
  | initialisationResponse file => .initialisationResponse file.response
  | status reported => .status reported
  | targetInformation targetsHardware integrityInformation =>
    .targetInformation targetsHardware integrityInformation
  | downloadingList files => .downloadingList files

def Call.continuation : Call → Continuation
  | initialisationResponse file => .initialisationResponse file
  | status reported => .status reported.status
  | targetInformation _ _ => .targetInformation
  | downloadingList _ => .downloadingList

/-- What a step does to the state that the event left. -/
inductive Reaction where
  | nothing
  | deferred (waitTime : Nat)
  | thrown (exception : Arinc615aException)
  | request (request : Request)
  | finish (status : StatusCode) (description : Str)
  | terminate (reason : AbortReason)
  | abort (reason : AbortReason)
  /-- The three that arm the DLP timer. -/
  | accept (protocolVersion : Arinc615aVersion)
  | goOn (exceptionTime : Nat)
  | rearm
  | call (call : Call)
  | send (filename : Str) (file : RawData)
  | sent

/-- The end of the operation. -/
def State.ended (s : State) : State :=
  { s with timer := s.timer.cancel, serverRunning := false }

/-- The state with the DLP timer armed. -/
def State.armed (cfg : Configuration) (s : State) (exceptionTime : Nat) : State :=
  { s with timer := s.timer.start (dlpDeadline cfg s exceptionTime) }

/-- A first status lets an information operation wait for the final one. -/
def State.awaitsStatus (cfg : Configuration) (s : State) : State :=
  { s with waitForFinalStatus := s.waitForFinalStatus || cfg.operation = .information }

/-- The state behind a reaction. -/
def Reaction.state (cfg : Configuration) (s : State) : Reaction → State
  | nothing => s
  | deferred _ => s
  | thrown _ => s
  | request r =>
    if checksRequest cfg r.filename then actionState cfg s (requestAction cfg.operation r) else s
  | finish _ _ => s.ended
  | terminate _ => s.ended
  | abort reason => if s.abortReason = .noAbort then { s with abortReason := reason } else s
  | accept protocolVersion => { s with protocolVersion := protocolVersion }.armed cfg 0
  | goOn exceptionTime => (s.awaitsStatus cfg).armed cfg exceptionTime
  | rearm => s.armed cfg 0
  | call c => { s with callback := some c.continuation }
  | send _ _ =>
    { s.withoutSentFile.withTransfer .sentFile with sentFileOperation := some s.nextTransfer }
  | sent => { s with sent := true }

/-- The outputs of a reaction. -/
def Reaction.out (cfg : Configuration) (s : State) : Reaction → List Output
  | nothing => []
  | deferred waitTime => [.initialisationDeferred waitTime]
  | thrown exception => [.thrown exception]
  | request r =>
    if checksRequest cfg r.filename then
      onlyWrites cfg.operation r ++ actionOutputs cfg r s (requestAction cfg.operation r)
    else [.errorOperation r.remote .fileNotFound (str "Wrong target ID for protocol file")]
  | finish status description => [.finished status description]
  | terminate reason =>
    initialisationAborts s ++ [.finished reason.statusCode (str "Terminate Request")]
  | abort _ => if s.abortReason = .noAbort then initialisationAborts s else []
  | accept _ => [.timerArmed (dlpDeadline cfg s 0)]
  | goOn exceptionTime => [.timerArmed (dlpDeadline cfg s exceptionTime)]
  | rearm => [.timerArmed (dlpDeadline cfg s 0)]
  | call c => [c.output]
  | send filename file =>
    sentFileAborts s ++ [.clientWriteOperation s.nextTransfer filename file]
  | sent => []

/-! ## The reaction to an event -/

/-- The initialisation file: the user's handler is called with its response. -/
def initialisationReaction (status : TransferStatus) (data : RawData) : Option Reaction :=
  if status ≠ .successful then
    some (.finish .operationAbortedByDlp (str "Initialisation File could not be received"))
  else
    match InitializationFile.decode {} data with
    | .overrun => none
    | .thrown _ =>
      some (.finish .operationAbortedByDlp (str "Initialisation File could not be received"))
    | .done (initFile, _) =>
      some (.call (.initialisationResponse initFile))

/-- The decoder of the status files of an operation. -/
def decodeStatus : OperationType → RawData →
    Outcome Arinc615aException (OperationStatus × RawData)
  | .information => InformationOperation.decodeStatus
  | .upload => UploadOperation.decodeStatus
  | .mediaDefinedDownload => DownloadOperation.decodeStatus
  | .operatorDefinedDownload => DownloadOperation.decodeStatus

/-- A status file: the user's handler is called with a status that can be
read, and a file that was not received ends the operation. -/
def statusFileReaction (operation : OperationType) (status : LibraryTransferStatus)
    (data : RawData) : Option Reaction :=
  if status ≠ .successful then
    some (.finish .operationAbortedByDlp (str "Status file could not be received"))
  else
    match decodeStatus operation data with
    | .overrun => none
    | .thrown _ => some .nothing
    | .done (statusFile, _) => some (.call (.status statusFile))

/-- A list that could not be received: it ends an information operation that
does not wait for a final status, and else aborts the operation. -/
def listFailure (cfg : Configuration) (s : State) : Reaction :=
  if cfg.operation = .information ∧ s.waitForFinalStatus = false then
    .finish .operationAbortedByDlp (str "Invalid Protocol file")
  else .abort .protocol

/-- The call of the user's handler with a list, if the list can be read. -/
def listCall (cfg : Configuration) (checkValue : CheckValue) (data : RawData) :
    Outcome Arinc615aException Reaction :=
  match cfg.operation with
  | .information =>
    (LoadConfigurationListFile.decode {} data).bind fun (listFile, _) =>
      .done (.call (.targetInformation listFile.targetsHardware
        (cfg.checkValue checkValue.type data = checkValue)))
  | .operatorDefinedDownload =>
    (DownloadOperationListFile.decode {} data).bind fun (listFile, _) =>
      .done (.call (.downloadingList listFile.files))
  | _ => .overrun

def listFileReaction (cfg : Configuration) (s : State) (checkValue : CheckValue)
    (status : LibraryTransferStatus) (data : RawData) : Option Reaction :=
  match cfg.operation with
  | .upload | .mediaDefinedDownload => none
  | _ =>
    if status ≠ .successful then some (listFailure cfg s)
    else
      match listCall cfg checkValue data with
      | .overrun => none
      | .thrown _ => some (listFailure cfg s)
      | .done r => some r

/-- The list file that an operation receives decodes. -/
def listDecodes (operation : OperationType) (data : RawData) : Bool :=
  match operation with
  | .information => (LoadConfigurationListFile.decode {} data).isDone
  | .operatorDefinedDownload => (DownloadOperationListFile.decode {} data).isDone
  | _ => false

/-- A list file is received, and can be read. -/
def ListDelivered (cfg : Configuration) (status : LibraryTransferStatus) (data : RawData) :
    Prop :=
  status = .successful ∧ listDecodes cfg.operation data

/-- The calls of the user's handler with a list. -/
def Call.isList : Call → Bool
  | targetInformation _ _ => true
  | downloadingList _ => true
  | _ => false

/-- A list that can be read is passed to the user's handler. -/
theorem listCall_eq_done {cfg : Configuration} {checkValue : CheckValue} {data : RawData}
    {r : Reaction} (h : listCall cfg checkValue data = .done r) :
    listDecodes cfg.operation data ∧ ∃ call : Call, call.isList ∧ r = .call call := by
  unfold listCall at h
  split at h
  · rename_i hop
    obtain ⟨listFile, hdecode, hcall⟩ := Outcome.bind_eq_done.mp h
    cases hcall
    exact ⟨by simp [listDecodes, hop, hdecode], _, rfl, rfl⟩
  · rename_i hop
    obtain ⟨listFile, hdecode, hcall⟩ := Outcome.bind_eq_done.mp h
    cases hcall
    exact ⟨by simp [listDecodes, hop, hdecode], _, rfl, rfl⟩
  · cases h

/-- The exception that a list causes is the one of its decoder. -/
theorem listCall_eq_thrown {cfg : Configuration} {checkValue : CheckValue} {data : RawData}
    {e : Arinc615aException} (h : listCall cfg checkValue data = .thrown e) :
    listDecodes cfg.operation data = false := by
  unfold listCall at h
  split at h
  · rename_i hop
    cases hdecode : LoadConfigurationListFile.decode {} data with
    | thrown e => simp [listDecodes, hop, hdecode]
    | _ => simp [hdecode] at h
  · rename_i hop
    cases hdecode : DownloadOperationListFile.decode {} data with
    | thrown e => simp [listDecodes, hop, hdecode]
    | _ => simp [hdecode] at h
  · cases h

/-- A list is delivered to the user's handler, or fails. -/
theorem listFileReaction_eq_some {cfg : Configuration} {s : State} {checkValue : CheckValue}
    {status : LibraryTransferStatus} {data : RawData} {r : Reaction}
    (h : listFileReaction cfg s checkValue status data = some r) :
    (ListDelivered cfg status data ∧ ∃ call : Call, call.isList ∧ r = .call call) ∨
      (¬ ListDelivered cfg status data ∧ r = listFailure cfg s) := by
  unfold listFileReaction at h
  split at h
  · cases h
  · cases h
  · split at h
    · rename_i hstatus
      exact .inr ⟨fun hdelivered => hstatus hdelivered.1, (Option.some.inj h).symm⟩
    · rename_i hstatus
      cases hlist : listCall cfg checkValue data with
      | overrun => simp [hlist] at h
      | thrown e =>
        have hfails : listDecodes cfg.operation data = false := listCall_eq_thrown hlist
        refine .inr ⟨fun hdelivered => ?_, ?_⟩
        · obtain ⟨-, hdecodes⟩ := hdelivered
          rw [hfails] at hdecodes
          cases hdecodes
        · simpa [hlist, eq_comm] using h
      | done reaction =>
        obtain ⟨hdecodes, hcall⟩ := listCall_eq_done hlist
        simp only [hlist, Option.some.injEq] at h
        exact .inl ⟨⟨not_not.mp hstatus, hdecodes⟩, h ▸ hcall⟩

/-- The status of the target decides how the operation continues. -/
def statusReaction (status : Status) : Reaction :=
  match status.code with
  | .operationNotAccepted | .operationNotSupported | .operationCompleted
  | .operationAbortedByTargetHw | .operationAbortedByDlp | .operationAbortedByOperator =>
    .finish status.code status.description
  | .operationAccepted => .goOn 0
  | .operationInProgress | .operationInProgressAdditionalInfo =>
    .goOn status.exceptionTimer.toNat
  | _ => .finish .operationAbortedByDlp []

/-- Behind a call of the user's handler. -/
def returnReaction (s : State) : Continuation → Reaction
  | .initialisationResponse initFile =>
    match initFile.response.code with
    | .operationAccepted => .accept initFile.protocolVersion
    | .operationDenied => .finish .operationNotAccepted initFile.response.description
    | .operationNotSupported => .finish .operationNotSupported initFile.response.description
    | .operationDeferred => .finish .operationAbortedByDlp (str "unknown status code")
  | .status status => statusReaction status
  | .targetInformation => if s.waitForFinalStatus then .rearm else .finish .operationCompleted []
  | .downloadingList => .nothing

/-- Behind a call of the user's handler that threw. -/
def throwReaction (s : State) : Continuation → Reaction
  | .initialisationResponse _ =>
    .finish .operationAbortedByDlp (str "Initialisation File could not be received")
  | .status _ => .nothing
  | .targetInformation =>
    if s.waitForFinalStatus then .abort .protocol
    else .finish .operationAbortedByDlp (str "Invalid Protocol file")
  | .downloadingList => .abort .protocol

/-- Sending a file, unless one was sent. -/
def sendReaction (cfg : Configuration) (s : State) (fileType : ProtocolFileType)
    (encoded : Except Arinc615aException RawData) : Option Reaction :=
  if s.sent then some .nothing
  else
    match encoded with
    | .error e => some (.thrown e)
    | .ok file =>
      if Replaceable cfg s then some (.send (protocolFilename cfg fileType) file) else none

/-- A call that sends a file does nothing, throws or sends. -/
theorem sendReaction_eq_some {cfg : Configuration} {s : State} {fileType : ProtocolFileType}
    {encoded : Except Arinc615aException RawData} {r : Reaction}
    (h : sendReaction cfg s fileType encoded = some r) :
    r = .nothing ∨ (∃ e, r = .thrown e) ∨ ∃ filename file, r = .send filename file := by
  unfold sendReaction at h
  split at h
  · exact .inl (Option.some.inj h).symm
  · cases encoded with
    | error e => exact .inr (.inl ⟨e, (Option.some.inj h).symm⟩)
    | ok file =>
      simp only at h
      split at h
      · exact .inr (.inr ⟨_, _, (Option.some.inj h).symm⟩)
      · cases h

def timerReaction : WaitResult → Reaction
  | .operationAborted => .nothing
  | .failure => .finish .operationAbortedByDlp (str "Internal timer error")
  | .success => .finish .operationAbortedByDlp (str "DLP Timeout")

/-- The reaction to an event, where it can happen. -/
def reaction (cfg : Configuration) (s : State) : Event → Option Reaction
  | .tftpRequest r => if s.callback = none ∧ s.serverRunning then some (.request r) else none
  | .initialisationDeferred waitTime =>
    if s.callback = none ∧ s.initialisationOperation.isSome then
      some (.deferred waitTime)
    else none
  | .clientCompleted operation status data =>
    if s.callback = none then
      (transfer? s operation).bind fun t =>
        match t.kind with
        | .initialisation => initialisationReaction status data
        | .sentFile => some (if status ≠ .successful then .abort .protocol else .sent)
        | _ => none
    else none
  | .serverCompleted operation status data =>
    if s.callback = none then
      (transfer? s operation).bind fun t =>
        if t.aborted → status ≠ .successful then
          match t.kind with
          | .statusFile => statusFileReaction cfg.operation status data
          | .listFile checkValue => listFileReaction cfg s checkValue status data
          | _ => none
        else none
    else none
  | .timerExpired => if s.timer.due s.now then some .nothing else none
  | .timerFailed => if s.timer.deadline.isSome then some .nothing else none
  | .timerHandler result =>
    if s.callback = none ∧ s.timer.queue.head? = some result then some (timerReaction result)
    else none
  | .callbackReturned => s.callback.map (returnReaction s)
  | .callbackThrew => s.callback.map (throwReaction s)
  | .abort reason => some (.abort reason)
  | .terminate reason => some (.terminate reason)
  | .loadList loads =>
    if cfg.operation = .upload then
      sendReaction cfg s .uploadRequest
        (UploadOperationRequestFile.encode ⟨s.protocolVersion, loads⟩)
    else none
  | .request files userDefinedData =>
    if cfg.operation = .mediaDefinedDownload then
      sendReaction cfg s .mediaDefinedDownloadRequest
        (DownloadOperationRequestFile.encode ⟨s.protocolVersion, files, userDefinedData⟩)
    else none
  | .answer files =>
    if cfg.operation = .operatorDefinedDownload then
      sendReaction cfg s .operatorDefinedDownloadAnswer
        (DownloadOperationAnswerFile.encode ⟨s.protocolVersion, files⟩)
    else none
  | .advance _ => some .nothing

/-- The calls of the user that send a file. -/
def Event.sends : Event → Bool
  | loadList _ => true
  | request _ _ => true
  | answer _ => true
  | _ => false

/-- What an operation can react with, event by event. -/
inductive Reacts (cfg : Configuration) (s : State) : Event → Reaction → Prop where
  | request {r : Request} (hidle : s.callback = none) (hrunning : s.serverRunning) :
    Reacts cfg s (.tftpRequest r) (.request r)
  | deferred {waitTime : Nat} (hidle : s.callback = none) :
    Reacts cfg s (.initialisationDeferred waitTime) (.deferred waitTime)
  | initialisation {operation : TransferId} {status : TransferStatus} {data : RawData}
    {t : Transfer} {r : Reaction} (hidle : s.callback = none)
    (ht : transfer? s operation = some t) (hkind : t.kind = .initialisation)
    (h : initialisationReaction status data = some r) :
    Reacts cfg s (.clientCompleted operation status data) r
  | sentFile {operation : TransferId} {status : TransferStatus} {data : RawData}
    {t : Transfer} (hidle : s.callback = none) (ht : transfer? s operation = some t)
    (hkind : t.kind = .sentFile) :
    Reacts cfg s (.clientCompleted operation status data)
      (if status ≠ .successful then .abort .protocol else .sent)
  | statusFile {operation : TransferId} {status : LibraryTransferStatus} {data : RawData}
    {t : Transfer} {r : Reaction} (hidle : s.callback = none)
    (ht : transfer? s operation = some t) (hkind : t.kind = .statusFile)
    (h : statusFileReaction cfg.operation status data = some r) :
    Reacts cfg s (.serverCompleted operation status data) r
  | listFile {operation : TransferId} {status : LibraryTransferStatus} {data : RawData}
    {t : Transfer} {checkValue : CheckValue} {r : Reaction} (hidle : s.callback = none)
    (ht : transfer? s operation = some t) (hkind : t.kind = .listFile checkValue)
    (h : listFileReaction cfg s checkValue status data = some r) :
    Reacts cfg s (.serverCompleted operation status data) r
  | timerExpired (hdue : s.timer.due s.now) : Reacts cfg s .timerExpired .nothing
  | timerFailed (harmed : s.timer.deadline.isSome) : Reacts cfg s .timerFailed .nothing
  | timerHandler {result : WaitResult} (hidle : s.callback = none)
    (hhead : s.timer.queue.head? = some result) :
    Reacts cfg s (.timerHandler result) (timerReaction result)
  | returned {c : Continuation} (hcallback : s.callback = some c) :
    Reacts cfg s .callbackReturned (returnReaction s c)
  | threw {c : Continuation} (hcallback : s.callback = some c) :
    Reacts cfg s .callbackThrew (throwReaction s c)
  | abort {reason : AbortReason} : Reacts cfg s (.abort reason) (.abort reason)
  | terminate {reason : AbortReason} : Reacts cfg s (.terminate reason) (.terminate reason)
  | send {e : Event} {fileType : ProtocolFileType}
    {encoded : Except Arinc615aException RawData} {r : Reaction} (he : e.sends)
    (h : sendReaction cfg s fileType encoded = some r) : Reacts cfg s e r
  | advance {time : Nat} : Reacts cfg s (.advance time) .nothing

/-- **Inversion**: every reaction is one of these. -/
theorem reacts_of_reaction {cfg : Configuration} {s : State} {e : Event} {r : Reaction}
    (h : reaction cfg s e = some r) : Reacts cfg s e r := by
  cases e with
  | tftpRequest request =>
    simp only [reaction] at h
    split at h
    · rename_i hready
      cases h
      exact .request hready.1 hready.2
    · cases h
  | initialisationDeferred waitTime =>
    simp only [reaction] at h
    split at h
    · rename_i hready
      cases h
      exact .deferred hready.1
    · cases h
  | clientCompleted operation status data =>
    simp only [reaction] at h
    split at h
    · rename_i hidle
      obtain ⟨t, ht, hr⟩ := Option.bind_eq_some_iff.mp h
      cases hkind : t.kind with
      | initialisation =>
        rw [hkind] at hr
        exact .initialisation hidle ht hkind hr
      | sentFile =>
        rw [hkind] at hr
        cases hr
        exact .sentFile hidle ht hkind
      | _ => simp [hkind] at hr
    · cases h
  | serverCompleted operation status data =>
    simp only [reaction] at h
    split at h
    · rename_i hidle
      obtain ⟨t, ht, hr⟩ := Option.bind_eq_some_iff.mp h
      split at hr
      · cases hkind : t.kind with
        | statusFile =>
          rw [hkind] at hr
          exact .statusFile hidle ht hkind hr
        | listFile checkValue =>
          rw [hkind] at hr
          exact .listFile hidle ht hkind hr
        | _ => simp [hkind] at hr
      · cases hr
    · cases h
  | timerExpired =>
    simp only [reaction] at h
    split at h
    · rename_i hdue
      cases h
      exact .timerExpired hdue
    · cases h
  | timerFailed =>
    simp only [reaction] at h
    split at h
    · rename_i harmed
      cases h
      exact .timerFailed harmed
    · cases h
  | timerHandler result =>
    simp only [reaction] at h
    split at h
    · rename_i hready
      cases h
      exact .timerHandler hready.1 hready.2
    · cases h
  | callbackReturned =>
    obtain ⟨c, hcallback, rfl⟩ := Option.map_eq_some_iff.mp h
    exact .returned hcallback
  | callbackThrew =>
    obtain ⟨c, hcallback, rfl⟩ := Option.map_eq_some_iff.mp h
    exact .threw hcallback
  | abort reason =>
    cases h
    exact .abort
  | terminate reason =>
    cases h
    exact .terminate
  | loadList loads =>
    simp only [reaction] at h
    split at h
    · exact .send rfl h
    · cases h
  | request files userDefinedData =>
    simp only [reaction] at h
    split at h
    · exact .send rfl h
    · cases h
  | answer files =>
    simp only [reaction] at h
    split at h
    · exact .send rfl h
    · cases h
  | advance time =>
    cases h
    exact .advance

/-- The calls behind the reactions that do not continue a transfer. -/
def Reaction.CausedBy (s : State) (e : Event) : Reaction → Prop
  | request r => e = .tftpRequest r ∧ s.serverRunning = true
  | send _ _ => e.sends ∧ s.sent = false
  | _ => True

/-- Only a request is taken for a request, while the server runs, and only the calls
that send a file send one, while none was sent. -/
theorem causedBy_of_reaction {cfg : Configuration} {s : State} {e : Event} {r : Reaction}
    (h : reaction cfg s e = some r) : r.CausedBy s e := by
  cases reacts_of_reaction h with
  | request hidle hrunning => exact ⟨rfl, hrunning⟩
  | initialisation hidle ht hkind hinit =>
    unfold initialisationReaction at hinit
    split at hinit
    · cases hinit
      trivial
    · split at hinit <;> cases hinit <;> trivial
  | sentFile hidle ht hkind => split <;> trivial
  | statusFile hidle ht hkind hstatus =>
    unfold statusFileReaction at hstatus
    split at hstatus
    · cases hstatus
      trivial
    · split at hstatus <;> cases hstatus <;> trivial
  | listFile hidle ht hkind hlist =>
    rcases listFileReaction_eq_some hlist with ⟨-, call, -, rfl⟩ | ⟨-, rfl⟩
    · trivial
    · unfold listFailure
      split <;> trivial
  | @timerHandler result hidle hhead => cases result <;> trivial
  | @returned c hcallback =>
    cases c with
    | initialisationResponse initFile =>
      simp only [returnReaction]
      split <;> trivial
    | status status =>
      simp only [returnReaction, statusReaction]
      split <;> trivial
    | targetInformation =>
      simp only [returnReaction]
      split <;> trivial
    | downloadingList => trivial
  | @threw c hcallback =>
    cases c with
    | targetInformation =>
      simp only [throwReaction]
      split <;> trivial
    | _ => trivial
  | send he hsend =>
    unfold sendReaction at hsend
    split at hsend
    · cases hsend
      trivial
    · rename_i hsent
      split at hsend
      · cases hsend
        trivial
      · split at hsend
        · cases hsend
          exact ⟨he, Bool.eq_false_iff.mpr hsent⟩
        · cases hsend
  | _ => trivial

/-! ## What an event takes out of the state -/

/-- The state without a status file in reception. -/
def State.withoutStatusFile (s : State) (operation : TransferId) : State :=
  { s with statusFileOperations := s.statusFileOperations.filter (· ≠ operation) }

/-- The completion of a transfer: the member that refers to it is reset. -/
def State.completed (s : State) (operation : TransferId) : TransferKind → State
  | .initialisation => { s.withoutTransfer operation with initialisationOperation := none }
  | .statusFile => (s.withoutTransfer operation).withoutStatusFile operation
  | .listFile _ => { s.withoutTransfer operation with listFileOperation := none }
  | .sentFile => { s.withoutTransfer operation with sentFileOperation := none }

/-- The state behind the completion of a transfer, if it is one in flight. -/
def State.afterCompletion (s : State) (operation : TransferId) : State :=
  match transfer? s operation with
  | none => s
  | some t => s.completed operation t.kind

/-- The state that an event leaves to the handler. -/
def taken (s : State) : Event → State
  | .clientCompleted operation _ _ | .serverCompleted operation _ _ =>
    s.afterCompletion operation
  | .timerExpired => { s with timer := s.timer.complete .success }
  | .timerFailed => { s with timer := s.timer.complete .failure }
  | .timerHandler _ => { s with timer := { s.timer with queue := s.timer.queue.tail } }
  | .callbackReturned | .callbackThrew => { s with callback := none }
  | .advance time => { s with now := s.now + time }
  | _ => s

/-- A completion changes the transfers and who waits for them only. -/
theorem afterCompletion_eq (s : State) (operation : TransferId) :
    s.afterCompletion operation = { s with
      initialisationOperation := (s.afterCompletion operation).initialisationOperation
      statusFileOperations := (s.afterCompletion operation).statusFileOperations
      listFileOperation := (s.afterCompletion operation).listFileOperation
      sentFileOperation := (s.afterCompletion operation).sentFileOperation
      transfers := (s.afterCompletion operation).transfers } := by
  unfold State.afterCompletion
  split
  · rfl
  · rename_i t _
    cases t.kind <;> rfl

/-- An event changes the timer, the call and the clock beside. -/
theorem taken_eq (s : State) (e : Event) :
    taken s e = { s with
      initialisationOperation := (taken s e).initialisationOperation
      statusFileOperations := (taken s e).statusFileOperations
      listFileOperation := (taken s e).listFileOperation
      sentFileOperation := (taken s e).sentFileOperation
      transfers := (taken s e).transfers
      timer := (taken s e).timer
      callback := (taken s e).callback
      now := (taken s e).now } := by
  cases e with
  | clientCompleted operation _ _ | serverCompleted operation _ _ =>
    simp only [taken, State.afterCompletion]
    split
    · rfl
    · rename_i t _
      cases t.kind <;> rfl
  | _ => rfl

/-! ## The handlers react -/

/-- From the state `s`, the handler performs the reaction in the state `t`. -/
def Performs (cfg : Configuration) (m : Handler) (s t : State) (r : Option Reaction) : Prop :=
  m s [] = r.map fun r => ((), r.state cfg t, r.out cfg t)

variable {cfg : Configuration} {s : State}

theorem performs_nothing : Performs cfg (pure ()) s s (some .nothing) := rfl

theorem performs_finished (status : StatusCode) (description : Str) :
    Performs cfg (finished status description) s s (some (.finish status description)) := rfl

theorem performs_terminate (reason : AbortReason) :
    Performs cfg (terminate reason) s s (some (.terminate reason)) := by
  simp [Performs, Reaction.state, Reaction.out, State.ended]

theorem performs_abort (reason : AbortReason) :
    Performs cfg (abort reason) s s (some (.abort reason)) := by
  simp only [Performs, abort_apply, Option.map_some, Reaction.state, Reaction.out]
  split <;> rfl

theorem performs_tftpRequest (r : Request) :
    Performs cfg (tftpRequest cfg r) s s (some (.request r)) := by
  simp only [Performs, tftpRequest_eq, perform_apply, Option.map_some, Reaction.state,
    Reaction.out, List.nil_append]
  split <;> rfl

theorem performs_timerHandler (result : WaitResult) :
    Performs cfg (timerHandler result) s s (some (timerReaction result)) := by
  cases result with
  | success => exact performs_finished ..
  | operationAborted => exact performs_nothing
  | failure => exact performs_finished ..

theorem performs_initialisationFileCompleted (status : TransferStatus) (data : RawData) :
    Performs cfg (initialisationFileCompleted status data) s
      { s with initialisationOperation := none } (initialisationReaction status data) := by
  simp only [Performs, initialisationFileCompleted, modify_bind, if_apply,
    initialisationReaction]
  split
  · exact performs_finished ..
  · cases InitializationFile.decode {} data <;> rfl

theorem performs_initialisationResponseReturned (initFile : InitializationFile) :
    Performs cfg (initialisationResponseReturned cfg initFile) s s
      (some (returnReaction s (.initialisationResponse initFile))) := by
  simp only [Performs, initialisationResponseReturned, returnReaction]
  cases initFile.response.code <;> rfl

theorem performs_sentFileCompleted (status : TransferStatus) :
    Performs cfg (sentFileCompleted status) s { s with sentFileOperation := none }
      (some (if status ≠ .successful then .abort .protocol else .sent)) := by
  simp only [Performs, sentFileCompleted, modify_bind, if_apply]
  split
  · exact performs_abort .protocol
  · rfl

theorem performs_sendFile (fileType : ProtocolFileType)
    (encode : Arinc615aVersion → Except Arinc615aException RawData) :
    Performs cfg (sendFile cfg fileType encode) s s
      (sendReaction cfg s fileType (encode s.protocolVersion)) := by
  simp only [Performs, sendFile, get_bind, if_apply, sendReaction]
  split
  · rfl
  · cases encode s.protocolVersion with
    | error e => rfl
    | ok file =>
      simp only [destroySentFileOperation_bind, startTransfer_bind, modify_bind, emit_apply]
      split
      · simp only [Option.map_some, Reaction.state, Reaction.out, List.nil_append,
          State.withTransfer, nextTransfer_withoutSentFile]
      · rfl

/-- A status file that the operation has in reception. -/
theorem performs_statusFileCompleted {operation : TransferId}
    (h : s.statusFileOperations.count operation = 1) (data : RawData)
    (status : LibraryTransferStatus) :
    Performs cfg (statusFileCompleted cfg data operation status) s
      (s.withoutStatusFile operation) (statusFileReaction cfg.operation status data) := by
  -- The operation was initiated, so what stands behind the check makes no difference.
  have hwith : ∀ notInitiated, Performs cfg
      (statusFileCompletedWith (decodeStatus cfg.operation) notInitiated data operation status) s
      (s.withoutStatusFile operation) (statusFileReaction cfg.operation status data) := by
    intro notInitiated
    simp only [Performs, statusFileCompletedWith, get_bind, modify_bind, h, ne_eq,
      not_true_eq_false, if_false, statusFileReceived, if_apply, statusFileReaction]
    split
    · exact performs_finished ..
    · cases decodeStatus cfg.operation data <;> rfl
  cases hop : cfg.operation <;> rw [hop] at hwith <;> simp only [statusFileCompleted, hop] <;>
    exact hwith _

theorem performs_statusReturnedWith {goesOn : Handler}
    (h : goesOn s [] = some ((), s.awaitsStatus cfg, [])) (status : Status) :
    Performs cfg (statusReturnedWith cfg goesOn status) s s (some (statusReaction status)) := by
  simp only [Performs, statusReturnedWith, statusReaction]
  cases status.code with
  | operationAccepted =>
    simp only [bind_of_eq_some h, triggerDlpTimeout_apply]
    rfl
  | operationInProgress =>
    simp only [bind_of_eq_some h, triggerDlpTimeout_apply]
    rfl
  | operationInProgressAdditionalInfo =>
    simp only [bind_of_eq_some h, triggerDlpTimeout_apply]
    rfl
  | _ => rfl

theorem performs_statusReturned (status : Status) :
    Performs cfg (statusReturned cfg status) s s (some (statusReaction status)) := by
  cases hop : cfg.operation with
  | information =>
    simp only [statusReturned, hop]
    exact performs_statusReturnedWith (by simp [State.awaitsStatus, hop]) status
  | _ =>
    simp only [statusReturned, hop]
    exact performs_statusReturnedWith (by simp [State.awaitsStatus, hop]) status

theorem performs_listFileFailed (hop : cfg.operation = .information) :
    Performs cfg InformationOperation.listFileFailed s s (some (listFailure cfg s)) := by
  simp only [Performs, InformationOperation.listFileFailed, get_bind, listFailure, hop,
    true_and]
  cases hwait : s.waitForFinalStatus with
  | true => exact performs_abort .protocol
  | false => exact performs_finished ..

theorem performs_listFileCompleted (data : RawData) (checkValue : CheckValue)
    (status : LibraryTransferStatus) :
    Performs cfg (listFileCompleted cfg data checkValue status) s
      { s with listFileOperation := none }
      (listFileReaction cfg s checkValue status data) := by
  cases hop : cfg.operation with
  | information =>
    simp only [Performs, listFileCompleted, hop, InformationOperation.listFileCompleted,
      modify_bind, if_apply, listFileReaction, listCall]
    split
    · exact performs_listFileFailed hop
    · cases LoadConfigurationListFile.decode {} data with
      | overrun => rfl
      | thrown e => exact performs_listFileFailed hop
      | done listFile => rfl
  | operatorDefinedDownload =>
    -- This class aborts, whether it waits for a status or not.
    have hfailure : ∀ t : State,
        Performs cfg (abort .protocol) t t (some (listFailure cfg t)) := by
      intro t
      simp only [listFailure, hop, reduceCtorEq, false_and, if_false]
      exact performs_abort .protocol
    simp only [Performs, listFileCompleted, hop,
      OperatorDefinedDownloadOperation.listFileCompleted, modify_bind, if_apply,
      listFileReaction, listCall]
    split
    · exact hfailure _
    · cases DownloadOperationListFile.decode {} data with
      | overrun => rfl
      | thrown e => exact hfailure _
      | done listFile => rfl
  | _ => simp [Performs, listFileCompleted, hop, listFileReaction]

theorem performs_callbackReturned (continuation : Continuation) :
    Performs cfg (callbackReturned cfg continuation) s s
      (some (returnReaction s continuation)) := by
  cases continuation with
  | initialisationResponse initFile => exact performs_initialisationResponseReturned initFile
  | status status => exact performs_statusReturned status
  | targetInformation =>
    simp only [Performs, callbackReturned, InformationOperation.targetInformationReturned,
      get_bind, if_apply, returnReaction]
    split <;> rfl
  | downloadingList => exact performs_nothing

theorem performs_callbackThrew (continuation : Continuation) :
    Performs cfg (callbackThrew continuation) s s (some (throwReaction s continuation)) := by
  cases continuation with
  | initialisationResponse initFile => exact performs_finished ..
  | status status => exact performs_nothing
  | targetInformation =>
    simp only [Performs, callbackThrew, InformationOperation.listFileFailed, get_bind, if_apply,
      throwReaction]
    split
    · exact performs_abort .protocol
    · exact performs_finished ..
  | downloadingList => exact performs_abort .protocol

/-! ## The steps -/

/-- The operation has each status file in reception once in its list. -/
structure Consistent (s : State) : Prop where
  transfers_lt : ∀ t ∈ s.transfers, t.id < s.nextTransfer
  statusFiles_lt : ∀ operation ∈ s.statusFileOperations, operation < s.nextTransfer
  statusFiles : ∀ t ∈ s.transfers, t.kind = .statusFile →
    s.statusFileOperations.count t.id = 1

theorem transfer?_mem {operation : TransferId} {t : Transfer}
    (h : transfer? s operation = some t) : t ∈ s.transfers ∧ t.id = operation :=
  ⟨List.mem_of_find?_eq_some h, by simpa using List.find?_some h⟩

theorem performs_clientCompleted (operation : TransferId) (status : TransferStatus)
    (data : RawData) :
    Performs cfg (react cfg (.clientCompleted operation status data)) s
      (taken s (.clientCompleted operation status data))
      (reaction cfg s (.clientCompleted operation status data)) := by
  simp only [Performs, react, get_bind, require_bind, reaction, taken, State.afterCompletion,
    clientCompleted]
  split
  · cases ht : transfer? s operation with
    | none => rfl
    | some t =>
      cases hkind : t.kind <;> simp only [Option.bind_some, hkind, endTransfer_bind]
      · exact performs_initialisationFileCompleted status data
      · rfl
      · rfl
      · exact performs_sentFileCompleted status
  · rfl

theorem performs_serverCompleted (hs : Consistent s) (operation : TransferId)
    (status : LibraryTransferStatus) (data : RawData) :
    Performs cfg (react cfg (.serverCompleted operation status data)) s
      (taken s (.serverCompleted operation status data))
      (reaction cfg s (.serverCompleted operation status data)) := by
  simp only [Performs, react, get_bind, require_bind, reaction, taken, State.afterCompletion,
    serverCompleted]
  split
  · cases ht : transfer? s operation with
    | none => rfl
    | some t =>
      simp only [Option.bind_some, require_bind]
      split
      · cases hkind : t.kind <;> simp only [endTransfer_bind]
        · rfl
        · obtain ⟨hmem, rfl⟩ := transfer?_mem ht
          have hcount : (s.withoutTransfer t.id).statusFileOperations.count t.id = 1 :=
            hs.statusFiles t hmem hkind
          exact performs_statusFileCompleted hcount data status
        · exact performs_listFileCompleted data _ status
        · rfl
      · rfl
  · rfl

/-- **Steps**: the operation performs the reaction to the event. -/
theorem performs_react (hs : Consistent s) (e : Event) :
    Performs cfg (react cfg e) s (taken s e) (reaction cfg s e) := by
  cases e with
  | clientCompleted operation status data => exact performs_clientCompleted operation status data
  | serverCompleted operation status data =>
    exact performs_serverCompleted hs operation status data
  | tftpRequest r =>
    simp only [Performs, react, get_bind, require_bind, reaction]
    split
    · exact performs_tftpRequest r
    · rfl
  | initialisationDeferred waitTime =>
    simp only [Performs, react, get_bind, require_bind, reaction]
    split <;> rfl
  | timerExpired =>
    simp only [Performs, react, get_bind, require_bind, reaction]
    split <;> rfl
  | timerFailed =>
    simp only [Performs, react, get_bind, require_bind, reaction]
    split <;> rfl
  | timerHandler result =>
    simp only [Performs, react, get_bind, require_bind, reaction]
    split
    · exact performs_timerHandler result
    · rfl
  | callbackReturned =>
    simp only [Performs, react, get_bind, reaction]
    cases hcallback : s.callback with
    | none => rfl
    | some continuation => exact performs_callbackReturned continuation
  | callbackThrew =>
    simp only [Performs, react, get_bind, reaction]
    cases hcallback : s.callback with
    | none => rfl
    | some continuation => exact performs_callbackThrew continuation
  | abort reason => exact performs_abort reason
  | terminate reason => exact performs_terminate reason
  | loadList loads =>
    simp only [Performs, react, require_bind, reaction]
    split
    · exact performs_sendFile ..
    · rfl
  | request files userDefinedData =>
    simp only [Performs, react, require_bind, reaction]
    split
    · exact performs_sendFile ..
    · rfl
  | answer files =>
    simp only [Performs, react, require_bind, reaction]
    split
    · exact performs_sendFile ..
    · rfl
  | advance time => rfl

/-- A step is the reaction to its event. -/
theorem step_iff (hs : Consistent s) {s' : State} {e : Event} {out : List Output} :
    (machine cfg).step s e = some (s', out) ↔
      ∃ r, reaction cfg s e = some r ∧ s' = r.state cfg (taken s e) ∧
        out = r.out cfg (taken s e) := by
  rw [step_eq_some, performs_react hs e]
  simp only [Option.map_eq_some_iff, Prod.mk.injEq, true_and]
  constructor
  · intro h
    rcases h with ⟨r, hr, rfl, rfl⟩
    exact ⟨r, hr, rfl, rfl⟩
  · intro h
    rcases h with ⟨r, hr, rfl, rfl⟩
    exact ⟨r, hr, rfl, rfl⟩

/-! ## Every run is consistent -/

theorem consistent_started : Consistent started where
  transfers_lt := by simp [started]
  statusFiles_lt := by simp [started]
  statusFiles := by simp [started]

/-- What refers to the same transfers is as consistent. -/
theorem Consistent.of_eq {t : State} (h : Consistent s) (htransfers : t.transfers = s.transfers)
    (hnext : t.nextTransfer = s.nextTransfer)
    (hstatus : t.statusFileOperations = s.statusFileOperations) : Consistent t where
  transfers_lt := by rw [htransfers, hnext]; exact h.transfers_lt
  statusFiles_lt := by rw [hstatus, hnext]; exact h.statusFiles_lt
  statusFiles := by rw [htransfers, hstatus]; exact h.statusFiles

theorem Consistent.withTransfer (h : Consistent s) {kind : TransferKind}
    (hkind : kind ≠ .statusFile) : Consistent (s.withTransfer kind) where
  transfers_lt := by
    intro t ht
    rcases List.mem_cons.mp ht with rfl | ht
    · exact Nat.lt_succ_self _
    · exact Nat.lt_succ_of_lt (h.transfers_lt t ht)
  statusFiles_lt := fun operation hop => Nat.lt_succ_of_lt (h.statusFiles_lt operation hop)
  statusFiles := by
    intro t ht htkind
    rcases List.mem_cons.mp ht with rfl | ht
    · exact absurd htkind hkind
    · exact h.statusFiles t ht htkind

theorem Consistent.withStatusFile (h : Consistent s) : Consistent s.withStatusFile where
  transfers_lt := by
    intro t ht
    rcases List.mem_cons.mp ht with rfl | ht
    · exact Nat.lt_succ_self _
    · exact Nat.lt_succ_of_lt (h.transfers_lt t ht)
  statusFiles_lt := by
    intro operation hop
    rcases List.mem_cons.mp hop with rfl | hop
    · exact Nat.lt_succ_self _
    · exact Nat.lt_succ_of_lt (h.statusFiles_lt operation hop)
  statusFiles := by
    intro t ht htkind
    -- Numbers of transfers are not used again.
    have hnew : s.statusFileOperations.count s.nextTransfer = 0 :=
      List.count_eq_zero.mpr fun hmem => lt_irrefl _ (h.statusFiles_lt _ hmem)
    rcases List.mem_cons.mp ht with rfl | ht
    · show (s.nextTransfer :: s.statusFileOperations).count s.nextTransfer = 1
      rw [List.count_cons_self, hnew]
    · have hne : s.nextTransfer ≠ t.id := (h.transfers_lt t ht).ne'
      show (s.nextTransfer :: s.statusFileOperations).count t.id = 1
      rw [List.count_cons_of_ne hne]
      exact h.statusFiles t ht htkind

theorem Consistent.withListAborted (h : Consistent s) : Consistent s.withListAborted := by
  unfold State.withListAborted
  split
  · exact h
  · rename_i operation hop
    have hold : ∀ t ∈ abortTransfer operation s.transfers,
        ∃ u ∈ s.transfers, t.id = u.id ∧ t.kind = u.kind := by
      intro t ht
      obtain ⟨u, hu, rfl⟩ := List.mem_map.mp ht
      refine ⟨u, hu, ?_⟩
      split <;> exact ⟨rfl, rfl⟩
    refine ⟨?_, h.statusFiles_lt, ?_⟩
    · intro t ht
      obtain ⟨u, hu, hid, -⟩ := hold t ht
      exact hid ▸ h.transfers_lt u hu
    · intro t ht htkind
      obtain ⟨u, hu, hid, hkind⟩ := hold t ht
      exact hid ▸ h.statusFiles u hu (hkind ▸ htkind)

theorem Consistent.withoutTransfer (h : Consistent s) (operation : TransferId) :
    Consistent (s.withoutTransfer operation) where
  transfers_lt := fun t ht => h.transfers_lt t (List.mem_filter.mp ht).1
  statusFiles_lt := h.statusFiles_lt
  statusFiles := fun t ht => h.statusFiles t (List.mem_filter.mp ht).1

theorem Consistent.withoutSentFile (h : Consistent s) : Consistent s.withoutSentFile := by
  unfold State.withoutSentFile
  split
  · exact h
  · exact h.withoutTransfer _

/-- A completed transfer leaves the transfers together with its member. -/
theorem Consistent.completed (h : Consistent s) (operation : TransferId)
    (kind : TransferKind) : Consistent (s.completed operation kind) := by
  cases kind with
  | statusFile =>
    refine ⟨(h.withoutTransfer operation).transfers_lt, ?_, ?_⟩
    · exact fun op hop => h.statusFiles_lt op (List.mem_filter.mp hop).1
    · intro t ht hkind
      obtain ⟨hmem, hne⟩ := List.mem_filter.mp ht
      show (s.statusFileOperations.filter (· ≠ operation)).count t.id = 1
      refine Eq.trans (List.count_filter ?_) (h.statusFiles t hmem hkind)
      exact hne
  | _ => exact (h.withoutTransfer operation).of_eq rfl rfl rfl

theorem Consistent.taken (h : Consistent s) (e : Event) : Consistent (taken s e) := by
  have hcompleted : ∀ operation, Consistent (s.afterCompletion operation) := by
    intro operation
    unfold State.afterCompletion
    split
    · exact h
    · exact h.completed operation _
  cases e with
  | clientCompleted operation status data => exact hcompleted operation
  | serverCompleted operation status data => exact hcompleted operation
  | _ => exact h.of_eq rfl rfl rfl

theorem Consistent.reaction (h : Consistent s) (r : Reaction) :
    Consistent (r.state cfg s) := by
  cases r with
  | request request =>
    simp only [Reaction.state]
    split
    · cases requestAction cfg.operation request with
      | statusFile =>
        simp only [actionState]
        split
        · exact h.withStatusFile
        · exact h.of_eq rfl rfl rfl
      | listFile checkValue =>
        have hlist : Consistent (s.withListAborted.withTransfer (.listFile checkValue)) :=
          h.withListAborted.withTransfer (by simp)
        exact hlist.of_eq rfl rfl rfl
      | reply output => exact h
      | ignored => exact h
    · exact h
  | abort reason =>
    simp only [Reaction.state]
    split
    · exact h.of_eq rfl rfl rfl
    · exact h
  | send filename file =>
    have hsent : Consistent (s.withoutSentFile.withTransfer .sentFile) :=
      h.withoutSentFile.withTransfer (by simp)
    exact hsent.of_eq rfl rfl rfl
  | _ => exact h.of_eq rfl rfl rfl

/-- What an event of a list transfer makes of the operation. -/
theorem listCompleted_step (hs : Consistent s) {s' : State} {operation : TransferId}
    {status : LibraryTransferStatus} {data : RawData} {out : List Output} {t : Transfer}
    {checkValue : CheckValue} (ht : transfer? s operation = some t)
    (hkind : t.kind = .listFile checkValue)
    (h : (machine cfg).step s (.serverCompleted operation status data) = some (s', out)) :
    ∃ r, listFileReaction cfg s checkValue status data = some r ∧
      s' = r.state cfg (s.completed operation t.kind) ∧
      out = r.out cfg (s.completed operation t.kind) := by
  obtain ⟨r, hr, hs', hout⟩ := (step_iff hs).mp h
  simp only [taken, State.afterCompletion, ht] at hs' hout
  refine ⟨r, ?_, hs', hout⟩
  simp only [Arinc615a.Host.reaction, ht, Option.bind_some, hkind] at hr
  split at hr
  · split at hr
    · exact hr
    · cases hr
  · cases hr

/-- Every step keeps the operation consistent. -/
theorem consistent_step {s' : State} {e : Event} {out : List Output} (h : Consistent s)
    (hstep : (machine cfg).step s e = some (s', out)) : Consistent s' := by
  obtain ⟨r, -, rfl, -⟩ := (step_iff h).mp hstep
  exact (h.taken e).reaction r

/-- Every run keeps the operation consistent. -/
theorem consistent_run {s' : State} {es : List Event} {tr : List Output}
    (h : (machine cfg).exec started es = some (s', tr)) : Consistent s' :=
  Machine.exec_invariant (fun _ _ _ _ => consistent_step) consistent_started h

/-! ## Behind a request -/

/-- The states a request can lead to. -/
theorem request_state {P : State → Prop} (request : Request) (hsame : P s)
    (hstatus : s.abortReason = .noAbort → P s.withStatusFile)
    (habort : s.abortReason ≠ .noAbort → P (s.withAbortSent cfg))
    (hlist : ∀ checkValue, P (s.withListFile checkValue)) :
    P ((Reaction.request request).state cfg s) := by
  simp only [Reaction.state]
  split
  · cases requestAction cfg.operation request with
    | statusFile =>
      simp only [actionState]
      split
      · rename_i hnone
        exact hstatus hnone
      · rename_i hpending
        exact habort hpending
    | listFile checkValue => exact hlist checkValue
    | reply output => exact hsame
    | ignored => exact hsame
  · exact hsame

/-- A new list transfer changes the transfers only. -/
theorem withListFile_eq (s : State) (checkValue : CheckValue) :
    s.withListFile checkValue = { s with
      transfers := ⟨s.nextTransfer, .listFile checkValue, false⟩ :: s.withListAborted.transfers
      nextTransfer := s.nextTransfer + 1
      listFileOperation := some s.nextTransfer } := by
  cases h : s.listFileOperation <;>
    simp [State.withListFile, State.withTransfer, State.withListAborted, h]

/-- So does a new transfer of a sent file. -/
theorem withoutSentFile_eq (s : State) :
    s.withoutSentFile = { s with transfers := s.withoutSentFile.transfers } := by
  unfold State.withoutSentFile
  split <;> rfl

/-- The outputs a request can have. -/
theorem request_outputs {P : Output → Prop} (request : Request)
    (herror : ∀ errorCode errorMessage,
      P (.errorOperation request.remote errorCode errorMessage))
    (hfile : P (fileRequestOutput request))
    (hstatus : P (.writeOperation request.remote s.nextTransfer .statusFile))
    (habort : P (.abortOperation request.remote s.abortReason.statusCode))
    (harmed : P (.timerArmed (dlpDeadline cfg s 0)))
    (hgraceful : ∀ operation,
      P (.gracefulAbort operation .notDefined (str "New list file received")))
    (hlist : ∀ checkValue,
      P (.writeOperation request.remote s.nextTransfer (.listFile checkValue))) :
    ∀ o ∈ (Reaction.request request).out cfg s, P o := by
  intro o ho
  simp only [Reaction.out] at ho
  split at ho
  · rcases List.mem_append.mp ho with honly | haction
    · unfold onlyWrites at honly
      split at honly
      · rw [List.mem_singleton.mp honly]
        exact herror _ _
      · cases honly
    · cases hrequest : requestAction cfg.operation request with
      | statusFile =>
        simp only [hrequest, actionOutputs] at haction
        split at haction
        · rw [List.mem_singleton.mp haction]
          exact hstatus
        · rcases List.mem_pair.mp haction with rfl | rfl
          · exact habort
          · exact harmed
      | listFile checkValue =>
        simp only [hrequest, actionOutputs, listAborts] at haction
        rcases List.mem_append.mp haction with haborts | hwrite
        · split at haborts
          · cases haborts
          · rw [List.mem_singleton.mp haborts]
            exact hgraceful _
        · rw [List.mem_singleton.mp hwrite]
          exact hlist checkValue
      | reply output =>
        simp only [hrequest, actionOutputs, List.mem_singleton] at haction
        rw [haction]
        rcases requestAction_reply hrequest with ⟨errorCode, errorMessage, rfl⟩ | rfl
        · exact herror errorCode errorMessage
        · exact hfile
      | ignored =>
        simp only [hrequest, actionOutputs] at haction
        cases haction
  · rw [List.mem_singleton.mp ho]
    exact herror _ _

end Arinc615a.Host
