import Arinc615a.Target.Reports

/-!
# The files of the target operations

How the four operation classes go on when a status file was sent, send the
target information and the list of downloadable files, and receive the load
request, the download request and the download answer. Where the classes
repeat a function, it is one definition with what they differ in as its
parameters.
-/

namespace Arinc615a.Target

open Actions Actions.Action Readers
open Files Information Tftp

/-! ## Status files -/

/-- `statusFileCompleted` of the four classes, up to the call of the
application's handler. -/
def statusFileCompleted (sentStatus : OperationStatus) (transferStatus : TransferStatus) :
    Handler := do
  modify fun s => { s with statusOperation := none }
  match transferStatus with
  | .successful => do
    emit (.status sentStatus)
    modify fun s => { s with callback := some (.status sentStatus) }
  -- The answer of the host was an ABORT: the application is told, and is to finish.
  | .operationAbortedByDlp => emit (.abortRequest .abortByDlp)
  | .operationAbortedByOperator => emit (.abortRequest .abortByOperator)
  | _ => finalise .abortedByTargetHardware (str "Status transmission failed")

/-- `statusFileCompleted`, behind the call: what is done when the status was the
first one, and a final status ends the operation. -/
def statusReturnedWith (cfg : Configuration) (accepted : Handler)
    (sentStatus : OperationStatus) : Handler :=
  match sentStatus.status.code with
  | .operationAccepted => accepted
  | .operationInProgress | .operationInProgressAdditionalInfo =>
    triggerStatusTransmissionTimer cfg
  -- The status that was sent decides, not the one that is stored by now.
  | code => finalise (finalStatusOfStatusCode code) sentStatus.status.description

/-- Behind the first status an information operation is in progress, and says so
at once. -/
def InformationOperation.statusReturned (cfg : Configuration) : OperationStatus → Handler :=
  statusReturnedWith cfg (InformationOperation.inProgress cfg true (-1) [])

def UploadOperation.statusReturned (cfg : Configuration) : OperationStatus → Handler :=
  statusReturnedWith cfg (triggerStatusTransmissionTimer cfg)

def DownloadOperation.statusReturned (cfg : Configuration) : OperationStatus → Handler :=
  statusReturnedWith cfg (triggerStatusTransmissionTimer cfg)

/-! ## List files -/

/-- Send a list. The encoder may throw out of the call. -/
def sendListFile (cfg : Configuration) (fileType : ProtocolFileType)
    (encoded : Except Arinc615aException RawData) (checkValue : RawData → CheckValue) :
    Handler := do
  let s ← get
  match encoded with
  | .error e => emit (.thrown e)
  | .ok file => do
    destroyOperation cfg s.listOperation
    let operation ← startTransfer .listFile
    modify fun s => { s with listOperation := some operation }
    emit (.listFile s.remote operation (protocolFilename cfg fileType) file (checkValue file))

/-- `InformationOperationImpl::targetInformation`. -/
def InformationOperation.targetInformation (cfg : Configuration)
    (targetsHardware : List TargetHardware) (checkValueType : CheckValueType) : Handler :=
  sendListFile cfg .loadConfigurationList
    (LoadConfigurationListFile.encode ⟨cfg.protocolVersion, targetsHardware⟩)
    (cfg.checkValue checkValueType)

/-- `OperatorDefinedDownloadOperationImpl::downloadingList`. -/
def OperatorDefinedDownloadOperation.downloadingList (cfg : Configuration)
    (files : List DownloadFileInformation) : Handler :=
  sendListFile cfg .operatorDefinedDownloadList
    (DownloadOperationListFile.encode ⟨cfg.protocolVersion, files⟩) fun _ => {}

/-- `InformationOperationImpl::targetInformationCompleted`. An operation that has
sent no status ends, else it sends its final status. -/
def InformationOperation.targetInformationCompleted (cfg : Configuration)
    (transferStatus : TransferStatus) : Handler := do
  modify fun s => { s with listOperation := none }
  if transferStatus ≠ .successful then
    InformationOperation.finished cfg .abortedByTargetHardware
      (str "Target Information transmission failed")
  else do
    let s ← get
    if s.code = .invalid then finalise .completed []
    else do
      -- Whatever the status is by now, also a final one.
      updateStatus (reported .operationCompleted [] 0)
      statusFile cfg

/-- `OperatorDefinedDownloadOperationImpl::downloadingListCompleted`. -/
def OperatorDefinedDownloadOperation.downloadingListCompleted
    (transferStatus : TransferStatus) : Handler := do
  modify fun s => { s with listOperation := none }
  if transferStatus ≠ .successful then
    DownloadOperation.finished .abortedByTargetHardware
      (str "Target Information transmission failed")
  else pure ()

/-! ## Request files -/

/-- `requestFileRequest` and `answerFileRequest`. -/
def requestFileRequest (remote : Endpoint) : Handler := do
  let operation ← startTransfer .requestFile
  modify fun s => { s with requestFileOperation := some operation }
  emit (.writeOperation remote operation)

/-- `tftpRequest` of the classes that receive a file: only from the host, only
written, and only of this type. -/
def tftpRequestWith (fileType : ProtocolFileType) (addressNotExpected : Str)
    (request : Request) : Handler := do
  let s ← get
  -- The target ID of the filename is not looked at.
  if s.hostAddress ≠ request.remote.address then
    emit (.errorOperation request.remote .illegalTftpOperation addressNotExpected)
  else if request.requestType ≠ .write then
    emit (.errorOperation request.remote .illegalTftpOperation (str "Only WRQ allowed"))
  else if (ProtocolFilename.ofString request.filename).fileType ≠ fileType then
    emit (.errorOperation request.remote .fileNotFound (str "Wrong filename"))
  else requestFileRequest request.remote

/-- The texts for a file that was not received, that has another protocol version
and that cannot be read. -/
structure FailureTexts where
  transmissionFailed : Str
  protocolVersionInvalid : Str
  formatError : Str

/-- `requestFileCompleted` and `answerFileCompleted`, up to the call of the
application's handler with what was received. -/
def requestFileCompletedWith (cfg : Configuration) (finished : FinalStatus → Str → Handler)
    (texts : FailureTexts)
    (decode : RawData → Outcome Arinc615aException ((Arinc615aVersion × Received) × RawData))
    (rawFile : RawData) (transferStatus : LibraryTransferStatus) : Handler := do
  modify fun s => { s with requestFileOperation := none }
  if transferStatus ≠ .successful then
    finished .abortedByTargetHardware texts.transmissionFailed
  else
    match decode rawFile with
    | .overrun => undefined
    | .thrown _ => finished .abortedByTargetHardware texts.formatError
    | .done ((protocolVersion, received), _) =>
      if protocolVersion ≠ cfg.protocolVersion then
        finished .abortedByTargetHardware texts.protocolVersionInvalid
      else do
        emit (.received received)
        modify fun s => { s with callback := some .receivedFile }

/-- `InformationOperationImpl::tftpRequest`. -/
def InformationOperation.tftpRequest (request : Request) : Handler :=
  emit (.errorOperation request.remote .fileNotFound (str "RRQ/WRQ not expected"))

namespace UploadOperation

def tftpRequest : Request → Handler :=
  tftpRequestWith .uploadRequest (str "Request from this address isn't expected")

def texts : FailureTexts :=
  ⟨str "Request file transmission failed", str "Request file protocol version invalid",
    str "Request file format error"⟩

def decodeRequest (rawFile : RawData) :
    Outcome Arinc615aException ((Arinc615aVersion × Received) × RawData) :=
  (UploadOperationRequestFile.decode {} rawFile).bind fun (file, rest) =>
    .done ((file.protocolVersion, .loadList file.loads), rest)

def requestFileCompleted (cfg : Configuration) : RawData → LibraryTransferStatus → Handler :=
  requestFileCompletedWith cfg finished texts decodeRequest

end UploadOperation

namespace MediaDefinedDownloadOperation

def tftpRequest : Request → Handler :=
  tftpRequestWith .mediaDefinedDownloadRequest (str "Request from this address not expected")

def texts : FailureTexts :=
  ⟨str "Receive dowmload request file failed", str "Request file protocol version invalid",
    str "Request file format error"⟩

def decodeRequest (rawFile : RawData) :
    Outcome Arinc615aException ((Arinc615aVersion × Received) × RawData) :=
  (DownloadOperationRequestFile.decode {} rawFile).bind fun (file, rest) =>
    .done ((file.protocolVersion, .downloadingRequest file.files file.userDefinedData), rest)

def requestFileCompleted (cfg : Configuration) : RawData → LibraryTransferStatus → Handler :=
  requestFileCompletedWith cfg DownloadOperation.finished texts decodeRequest

end MediaDefinedDownloadOperation

namespace OperatorDefinedDownloadOperation

def tftpRequest : Request → Handler :=
  tftpRequestWith .operatorDefinedDownloadAnswer (str "Request from this address not expected")

def texts : FailureTexts :=
  ⟨str "Receive download answer file failed", str "Answer file protocol version invalid",
    str "Answer file format error"⟩

def decodeAnswer (rawFile : RawData) :
    Outcome Arinc615aException ((Arinc615aVersion × Received) × RawData) :=
  (DownloadOperationAnswerFile.decode {} rawFile).bind fun (file, rest) =>
    .done ((file.protocolVersion, .downloadingAnswer file.files), rest)

def answerFileCompleted (cfg : Configuration) : RawData → LibraryTransferStatus → Handler :=
  requestFileCompletedWith cfg DownloadOperation.finished texts decodeAnswer

end OperatorDefinedDownloadOperation

end Arinc615a.Target
