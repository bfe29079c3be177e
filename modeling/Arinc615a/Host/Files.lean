import Arinc615a.Files.ListFiles
import Arinc615a.Files.LoadConfigurationListFile
import Arinc615a.Host.Operation

/-!
# The files of the host operations

How the four operation classes receive status files and list files, and send
the load list, the download request and the download answer. Where the classes
repeat a function, it is one definition here with what they differ in as its
parameters, and each class has its own instance below it.
-/

namespace Arinc615a.Host

open Actions Actions.Action Readers
open Files Information Tftp

/-! ## Status files -/

/-- `statusFileRequest` of all operations: unless an abort is pending, the file
is received. Any number of them may be received at a time. -/
def statusFileRequest (cfg : Configuration) (remote : Endpoint) : Handler := do
  let aborted ← isAborted cfg remote
  if aborted then pure ()
  else do
    let operation ← startTransfer .statusFile
    modify fun s => { s with statusFileOperations := operation :: s.statusFileOperations }
    emit (.writeOperation remote operation .statusFile)

/-- `statusFileCompleted` behind the check of the operation, up to the call of
the user's handler. -/
def statusFileReceived
    (decode : RawData → Outcome Arinc615aException (OperationStatus × RawData))
    (rawStatusFile : RawData) (status : LibraryTransferStatus) : Handler :=
  if status ≠ .successful then
    finished .operationAbortedByDlp (str "Status file could not be received")
  else
    match decode rawStatusFile with
    | .overrun => undefined
    -- The exception is caught and logged: the operation goes on as if no file had come.
    | .thrown _ => pure ()
    | .done (statusFile, _) => do
      emit (.status statusFile)
      modify fun s => { s with callback := some (.status statusFile.status) }

/-- `statusFileCompleted`: the decoder of the status file, and what is done
behind the end of an operation for a transfer that it has not started. -/
def statusFileCompletedWith
    (decode : RawData → Outcome Arinc615aException (OperationStatus × RawData))
    (notInitiated : Handler → Handler) (rawStatusFile : RawData) (operation : TransferId)
    (status : LibraryTransferStatus) : Handler := do
  let s ← get
  modify fun s =>
    { s with statusFileOperations := s.statusFileOperations.filter (· ≠ operation) }
  if s.statusFileOperations.count operation ≠ 1 then do
    finished .operationAbortedByDlp
      (str "Status file operation completed, which was not initiated")
    notInitiated (statusFileReceived decode rawStatusFile status)
  else statusFileReceived decode rawStatusFile status

/-- The status switch of `statusFileCompleted`, behind the call of the user's
handler, with what is done first where the operation goes on. -/
def statusReturnedWith (cfg : Configuration) (goesOn : Handler) (status : Status) : Handler :=
  match status.code with
  | .operationNotAccepted | .operationNotSupported | .operationCompleted
  | .operationAbortedByTargetHw | .operationAbortedByDlp | .operationAbortedByOperator =>
    finished status.code status.description
  -- Only a status in progress has an exception time.
  | .operationAccepted => do
    goesOn
    triggerDlpTimeout cfg 0
  | .operationInProgress | .operationInProgressAdditionalInfo => do
    goesOn
    triggerDlpTimeout cfg status.exceptionTimer.toNat
  | _ => finished .operationAbortedByDlp []

namespace InformationOperation

/-- The decoder, with the status as the handler gets it. -/
def decodeStatus (rawStatusFile : RawData) :
    Outcome Arinc615aException (OperationStatus × RawData) :=
  (InformationOperationStatusFile.decode {} rawStatusFile).bind fun (statusFile, rest) =>
    .done (.information statusFile.status, rest)

/-- `InformationOperationImpl::statusFileCompleted` returns there. -/
def statusFileCompleted : RawData → TransferId → LibraryTransferStatus → Handler :=
  statusFileCompletedWith decodeStatus fun _ => pure ()

/-- A first status lets the operation wait for the final one. -/
def statusReturned (cfg : Configuration) : Status → Handler :=
  statusReturnedWith cfg (modify fun s => { s with waitForFinalStatus := true })

end InformationOperation

namespace UploadOperation

def decodeStatus (rawStatusFile : RawData) :
    Outcome Arinc615aException (OperationStatus × RawData) :=
  (UploadOperationStatusFile.decode {} rawStatusFile).bind fun (statusFile, rest) =>
    .done (.upload statusFile.status, rest)

/-- `UploadOperationImpl::statusFileCompleted` has no return there. -/
def statusFileCompleted : RawData → TransferId → LibraryTransferStatus → Handler :=
  statusFileCompletedWith decodeStatus id

def statusReturned (cfg : Configuration) : Status → Handler := statusReturnedWith cfg (pure ())

end UploadOperation

namespace DownloadOperation

def decodeStatus (rawStatusFile : RawData) :
    Outcome Arinc615aException (OperationStatus × RawData) :=
  (DownloadOperationStatusFile.decode {} rawStatusFile).bind fun (statusFile, rest) =>
    .done (.download statusFile.status, rest)

/-- `DownloadOperationImpl::statusFileCompleted` has no return there. -/
def statusFileCompleted : RawData → TransferId → LibraryTransferStatus → Handler :=
  statusFileCompletedWith decodeStatus id

def statusReturned (cfg : Configuration) : Status → Handler := statusReturnedWith cfg (pure ())

end DownloadOperation

/-! ## List files -/

/-- The transfers with one of them aborted. -/
def abortTransfer (operation : TransferId) (transfers : List Transfer) : List Transfer :=
  transfers.map fun t => if t.id = operation then { t with aborted := true } else t

/-- Abort the list transfer that is active. -/
def abortListFileOperation : Handler := do
  let s ← get
  match s.listFileOperation with
  | none => pure ()
  | some operation => do
    modify fun s => { s with transfers := abortTransfer operation s.transfers }
    emit (.gracefulAbort operation .notDefined (str "New list file received"))

/-- `listFileRequest`: the new transfer replaces the active one. -/
def listFileRequest (remote : Endpoint) (checkValue : CheckValue) : Handler := do
  abortListFileOperation
  let operation ← startTransfer (.listFile checkValue)
  modify fun s => { s with listFileOperation := some operation }
  emit (.writeOperation remote operation (.listFile checkValue))

namespace InformationOperation

/-- A list that could not be received ends the operation, if it does not wait
for the final status. -/
def listFileFailed : Handler := do
  let s ← get
  if s.waitForFinalStatus then abort .protocol
  else finished .operationAbortedByDlp (str "Invalid Protocol file")

/-- `InformationOperationImpl::listFileCompleted`, up to the call of the user's
handler. -/
def listFileCompleted (cfg : Configuration) (rawListFile : RawData) (checkValue : CheckValue)
    (status : LibraryTransferStatus) : Handler := do
  -- The member is reset, whichever list transfer this is the completion of.
  modify fun s => { s with listFileOperation := none }
  if status ≠ .successful then listFileFailed
  else
    let integrityInformation := cfg.checkValue checkValue.type rawListFile = checkValue
    match LoadConfigurationListFile.decode {} rawListFile with
    | .overrun => undefined
    | .thrown _ => listFileFailed
    | .done (listFile, _) => do
      emit (.targetInformation listFile.targetsHardware integrityInformation)
      modify fun s => { s with callback := some .targetInformation }

/-- `listFileCompleted`, behind the call. -/
def targetInformationReturned (cfg : Configuration) : Handler := do
  let s ← get
  if s.waitForFinalStatus then triggerDlpTimeout cfg 0
  else finished .operationCompleted []

end InformationOperation

namespace OperatorDefinedDownloadOperation

/-- `OperatorDefinedDownloadOperationImpl::listFileCompleted`. Nothing stands
behind the call of the user's handler. -/
def listFileCompleted (rawListFile : RawData) (status : LibraryTransferStatus) : Handler := do
  modify fun s => { s with listFileOperation := none }
  if status ≠ .successful then abort .protocol
  else
    match DownloadOperationListFile.decode {} rawListFile with
    | .overrun => undefined
    | .thrown _ => abort .protocol
    | .done (listFile, _) => do
      emit (.downloadingList listFile.files)
      modify fun s => { s with callback := some .downloadingList }

end OperatorDefinedDownloadOperation

/-! ## Sent files -/

/-- The operation that sends a file is replaced. If its transfer is in flight,
it is aborted; a completion handler that is called for it resets the member that
the new operation is in already, and the call goes on with a null pointer. -/
def destroySentFileOperation (cfg : Configuration) : Handler := do
  let s ← get
  match s.sentFileOperation with
  | none => pure ()
  | some operation => do
    require (cfg.completesDestroyed = false)
    endTransfer operation
    emit (.abortTransfer operation)

/-- Send a file to the target, unless one was sent. The encoder may throw out
of the call. -/
def sendFile (cfg : Configuration) (fileType : ProtocolFileType)
    (encode : Arinc615aVersion → Except Arinc615aException RawData) : Handler := do
  let s ← get
  if s.sent then pure ()
  else
    match encode s.protocolVersion with
    | .error e => emit (.thrown e)
    | .ok file => do
      -- The guard looks at `sent` only, so a file may be in flight here.
      destroySentFileOperation cfg
      let operation ← startTransfer .sentFile
      modify fun s => { s with sentFileOperation := some operation }
      emit (.clientWriteOperation operation (protocolFilename cfg fileType) file)

/-- `loadListCompleted`, `requestCompleted` and `answerCompleted`. -/
def sentFileCompleted (status : TransferStatus) : Handler := do
  modify fun s => { s with sentFileOperation := none }
  if status ≠ .successful then abort .protocol
  else modify fun s => { s with sent := true }

/-- `UploadOperationImpl::loadList`. -/
def loadList (cfg : Configuration) (loads : List UploadLoad) : Handler :=
  sendFile cfg .uploadRequest fun protocolVersion =>
    UploadOperationRequestFile.encode ⟨protocolVersion, loads⟩

/-- `MediaDefinedDownloadOperationImpl::request`. -/
def request (cfg : Configuration) (files : List Str) (userDefinedData : RawData) : Handler :=
  sendFile cfg .mediaDefinedDownloadRequest fun protocolVersion =>
    DownloadOperationRequestFile.encode ⟨protocolVersion, files, userDefinedData⟩

/-- `OperatorDefinedDownloadOperationImpl::answer`. -/
def answer (cfg : Configuration) (files : List Str) : Handler :=
  sendFile cfg .operatorDefinedDownloadAnswer fun protocolVersion =>
    DownloadOperationAnswerFile.encode ⟨protocolVersion, files⟩

/-! ## Effects -/

/-- The state with a new transfer. -/
def State.withTransfer (s : State) (kind : TransferKind) : State :=
  { s with
    transfers := ⟨s.nextTransfer, kind, false⟩ :: s.transfers
    nextTransfer := s.nextTransfer + 1 }

/-- The state with a status file in reception. -/
def State.withStatusFile (s : State) : State :=
  { s.withTransfer .statusFile with
    statusFileOperations := s.nextTransfer :: s.statusFileOperations }

/-- The state with the active list transfer aborted. -/
def State.withListAborted (s : State) : State :=
  match s.listFileOperation with
  | none => s
  | some operation => { s with transfers := abortTransfer operation s.transfers }

/-- The aborts of the active list transfer. -/
def listAborts (s : State) : List Output :=
  match s.listFileOperation with
  | none => []
  | some operation => [.gracefulAbort operation .notDefined (str "New list file received")]

/-- The state with a list file in reception. -/
def State.withListFile (s : State) (checkValue : CheckValue) : State :=
  { s.withListAborted.withTransfer (.listFile checkValue) with
    listFileOperation := some s.nextTransfer }

/-- The state without a transfer that completed. -/
def State.withoutTransfer (s : State) (operation : TransferId) : State :=
  { s with transfers := s.transfers.filter (·.id ≠ operation) }

@[simp] theorem endTransfer_bind {α : Type} (operation : TransferId)
    (f : Unit → Action State Output α) (s : State) (out : List Output) :
    (endTransfer operation >>= f) s out = f () (s.withoutTransfer operation) out := rfl

/-- The state without the transfer of a sent file. -/
def State.withoutSentFile (s : State) : State :=
  match s.sentFileOperation with
  | none => s
  | some operation => s.withoutTransfer operation

/-- The abort of the transfer of a sent file. -/
def sentFileAborts (s : State) : List Output :=
  match s.sentFileOperation with
  | none => []
  | some operation => [.abortTransfer operation]

theorem nextTransfer_withoutSentFile (s : State) :
    s.withoutSentFile.nextTransfer = s.nextTransfer := by
  unfold State.withoutSentFile
  split <;> rfl

/-- A file that is in flight is replaced only where this is defined. -/
def Replaceable (cfg : Configuration) (s : State) : Prop :=
  s.sentFileOperation.isSome → cfg.completesDestroyed = false

instance (cfg : Configuration) (s : State) : Decidable (Replaceable cfg s) :=
  inferInstanceAs (Decidable (_ → _))

@[simp] theorem destroySentFileOperation_bind {α : Type} (cfg : Configuration)
    (f : Unit → Action State Output α) (s : State) (out : List Output) :
    (destroySentFileOperation cfg >>= f) s out =
      if Replaceable cfg s then f () s.withoutSentFile (out ++ sentFileAborts s) else none := by
  simp only [destroySentFileOperation, bind_bind, get_bind]
  cases h : s.sentFileOperation with
  | none => simp [Replaceable, State.withoutSentFile, sentFileAborts, h]
  | some operation =>
    simp only [Replaceable, State.withoutSentFile, sentFileAborts, h, Option.isSome_some,
      true_imp_iff, bind_bind, require_bind]
    split <;> rfl

/-- The state behind the ABORT of a pending abort. -/
def State.withAbortSent (cfg : Configuration) (s : State) : State :=
  { s with abortReason := .noAbort, timer := s.timer.start (dlpDeadline cfg s 0) }

theorem statusFileRequest_apply (cfg : Configuration) (remote : Endpoint) (s : State)
    (out : List Output) :
    statusFileRequest cfg remote s out =
      if s.abortReason = .noAbort then
        some ((), s.withStatusFile, out ++ [.writeOperation remote s.nextTransfer .statusFile])
      else
        some ((), s.withAbortSent cfg, out ++
          [.abortOperation remote s.abortReason.statusCode,
            .timerArmed (dlpDeadline cfg s 0)]) := by
  simp only [statusFileRequest, isAborted_bind, startTransfer_bind, if_apply, modify_bind,
    emit_apply, Bool.false_eq_true, if_false, if_true, pure_apply, List.append_assoc]
  rfl

@[simp] theorem abortListFileOperation_apply (s : State) (out : List Output) :
    abortListFileOperation s out = some ((), s.withListAborted, out ++ listAborts s) := by
  cases h : s.listFileOperation <;>
    simp [abortListFileOperation, State.withListAborted, listAborts, h]

theorem nextTransfer_withListAborted (s : State) :
    s.withListAborted.nextTransfer = s.nextTransfer := by
  unfold State.withListAborted
  split <;> rfl

theorem listFileRequest_apply (remote : Endpoint) (checkValue : CheckValue) (s : State)
    (out : List Output) :
    listFileRequest remote checkValue s out =
      some ((), s.withListFile checkValue, out ++ listAborts s ++
        [.writeOperation remote s.nextTransfer (.listFile checkValue)]) := by
  rw [listFileRequest, bind_of_eq_some (abortListFileOperation_apply s out)]
  simp only [startTransfer_bind, modify_bind, emit_apply, State.withListFile,
    State.withTransfer, nextTransfer_withListAborted]

end Arinc615a.Host
