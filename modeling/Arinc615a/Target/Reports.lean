import Arinc615a.Target.Operation

/-!
# The reports of the application

`accepted`, `inProgress`, `finished` and the calls for single loads and files
in the four operation classes. The classes differ in how they force a
transmission: an information operation sends the status file within the call,
the others let the status transmission timer expire at once.
-/

namespace Arinc615a.Target

open Actions Actions.Action
open Information

/-! ## The status they set -/

/-- The code of a report of progress. An argument that is moved out of before it
is checked is empty. -/
def inProgressCode (cfg : Configuration) (description : Str) : StatusCode :=
  if description = [] ∨ cfg.argumentsLeftToRight = false then .operationInProgress
  else .operationInProgressAdditionalInfo

/-- Change the status of an upload. -/
def onUpload (f : UploadStatus → UploadStatus) : OperationStatus → OperationStatus
  | .upload status => .upload (f status)
  | status => status

/-- Change the status of a download. -/
def onDownload (f : DownloadStatus → DownloadStatus) : OperationStatus → OperationStatus
  | .download status => .download (f status)
  | status => status

/-- The list ratio of an upload or a download. -/
def setListRatio (listRatio : Ratio) : OperationStatus → OperationStatus
  | .upload status => .upload { status with listRatio := listRatio }
  | .download status => .download { status with listRatio := listRatio }
  | status => status

/-- The codes that `loadsFinished` and `filesFinished` leave alone. -/
def keepsFileStatus : StatusCode → Bool
  | .operationNotAccepted | .operationNotSupported | .operationCompleted
  | .operationAbortedByTargetHw | .operationAbortedByDlp | .operationAbortedByOperator
  | .loadPartNumberOrDownloadFileFailed => true
  | _ => false

@[simp] theorem operationClass_onUpload (f : UploadStatus → UploadStatus)
    (status : OperationStatus) : (onUpload f status).operationClass = status.operationClass := by
  cases status <;> rfl

@[simp] theorem operationClass_onDownload (f : DownloadStatus → DownloadStatus)
    (status : OperationStatus) :
    (onDownload f status).operationClass = status.operationClass := by
  cases status <;> rfl

@[simp] theorem operationClass_setListRatio (listRatio : Ratio) (status : OperationStatus) :
    (setListRatio listRatio status).operationClass = status.operationClass := by
  cases status <;> rfl

@[simp] theorem status_setListRatio (listRatio : Ratio) (status : OperationStatus) :
    (setListRatio listRatio status).status = status.status := by
  cases status <;> rfl

/-- Changes of the table of loads leave the status of the operation alone. -/
theorem status_onUpload {f : UploadStatus → UploadStatus}
    (hf : ∀ upload, (f upload).toStatus = upload.toStatus) (status : OperationStatus) :
    (onUpload f status).status = status.status := by
  cases status with
  | upload upload => exact hf upload
  | _ => rfl

theorem status_onDownload {f : DownloadStatus → DownloadStatus}
    (hf : ∀ download, (f download).toStatus = download.toStatus) (status : OperationStatus) :
    (onDownload f status).status = status.status := by
  cases status with
  | download download => exact hf download
  | _ => rfl

/-! ## What the classes share -/

def acceptedWith (transmit : Handler) : Handler := do
  updateStatus (reported .operationAccepted [] 0)
  transmit

def inProgressWith (cfg : Configuration) (transmit : Handler) (immediateTransmission : Bool)
    (estimatedTime : Int16) (description : Str) : Handler := do
  updateStatus (reported (inProgressCode cfg description) description estimatedTime)
  if immediateTransmission then transmit else pure ()

def finishedWith (transmit : Handler) (finalStatus : FinalStatus) (description : Str) :
    Handler := do
  updateStatus (reported (statusCodeOfFinalStatus finalStatus) description 0)
  transmit

/-- `inProgress` with the ratio of the list. -/
def inProgressListWith (cfg : Configuration) (immediateTransmission : Bool)
    (estimatedTime : Int16) (description : Str) (listRatio : Ratio) : Handler := do
  updateStatus fun status =>
    setListRatio listRatio
      (reported (inProgressCode cfg description) description estimatedTime status)
  if immediateTransmission then triggerStatusTransmission else pure ()

/-! ## The four classes -/

namespace InformationOperation

def accepted (cfg : Configuration) : Handler := acceptedWith (statusFile cfg)

def inProgress (cfg : Configuration) : Bool → Int16 → Str → Handler :=
  inProgressWith cfg (statusFile cfg)

def finished (cfg : Configuration) : FinalStatus → Str → Handler := finishedWith (statusFile cfg)

end InformationOperation

namespace UploadOperation

def accepted : Handler := acceptedWith triggerStatusTransmission

def inProgress (cfg : Configuration) : Bool → Int16 → Str → Handler :=
  inProgressWith cfg triggerStatusTransmission

def inProgressList (cfg : Configuration) : Bool → Int16 → Str → Ratio → Handler :=
  inProgressListWith cfg

def finished : FinalStatus → Str → Handler := finishedWith triggerStatusTransmission

def withLoadAccepted (headerFilename partNumber : Str) (status : UploadStatus) : UploadStatus :=
  status.addLoad headerFilename partNumber (·.set .zero .operationAccepted [])

def withLoadInProgress (cfg : Configuration) (headerFilename : Str) (ratio : Ratio)
    (description : Str) (status : UploadStatus) : UploadStatus :=
  status.setLoad headerFilename (·.set ratio (inProgressCode cfg description) description)

def withLoadFinished (headerFilename : Str) (finalStatus : FinalStatus) (description : Str)
    (status : UploadStatus) : UploadStatus :=
  status.setLoad headerFilename fun load =>
    load.set load.ratio (statusCodeOfFinalStatus finalStatus) description

def withLoadsFinished (finalStatus : FinalStatus) (description : Str) (status : UploadStatus) :
    UploadStatus :=
  { status with loads := status.loads.map fun load =>
      if keepsFileStatus load.code then load
      else load.set load.ratio (statusCodeOfFinalStatus finalStatus) description }

def loadAccepted (headerFilename partNumber : Str) : Handler :=
  updateStatus (onUpload (withLoadAccepted headerFilename partNumber))

def loadInProgress (cfg : Configuration) (headerFilename : Str) (ratio : Ratio)
    (description : Str) : Handler :=
  updateStatus (onUpload (withLoadInProgress cfg headerFilename ratio description))

def loadFinished (headerFilename : Str) (finalStatus : FinalStatus) (description : Str) :
    Handler :=
  updateStatus (onUpload (withLoadFinished headerFilename finalStatus description))

def loadsFinished (finalStatus : FinalStatus) (description : Str) : Handler :=
  updateStatus (onUpload (withLoadsFinished finalStatus description))

end UploadOperation

/-! `MediaDefinedDownloadOperationImpl` and `OperatorDefinedDownloadOperationImpl`
have the same calls. -/

namespace DownloadOperation

def accepted : Handler := acceptedWith triggerStatusTransmission

def inProgress (cfg : Configuration) : Bool → Int16 → Str → Handler :=
  inProgressWith cfg triggerStatusTransmission

def inProgressList (cfg : Configuration) : Bool → Int16 → Str → Ratio → Handler :=
  inProgressListWith cfg

def finished : FinalStatus → Str → Handler := finishedWith triggerStatusTransmission

def withFileAccepted (filename : Str) (status : DownloadStatus) : DownloadStatus :=
  status.addFile filename (·.set .operationAccepted [])

def withFileInProgress (cfg : Configuration) (filename description : Str)
    (status : DownloadStatus) : DownloadStatus :=
  status.setFile filename (·.set (inProgressCode cfg description) description)

def withFileFinished (filename : Str) (finalStatus : FinalStatus) (description : Str)
    (status : DownloadStatus) : DownloadStatus :=
  status.setFile filename (·.set (statusCodeOfFinalStatus finalStatus) description)

def withFilesFinished (finalStatus : FinalStatus) (description : Str)
    (status : DownloadStatus) : DownloadStatus :=
  { status with files := status.files.map fun file =>
      if keepsFileStatus file.code then file
      else file.set (statusCodeOfFinalStatus finalStatus) description }

def fileAccepted (filename : Str) : Handler :=
  updateStatus (onDownload (withFileAccepted filename))

def fileInProgress (cfg : Configuration) (filename description : Str) : Handler :=
  updateStatus (onDownload (withFileInProgress cfg filename description))

def fileFinished (filename : Str) (finalStatus : FinalStatus) (description : Str) : Handler :=
  updateStatus (onDownload (withFileFinished filename finalStatus description))

def filesFinished (finalStatus : FinalStatus) (description : Str) : Handler :=
  updateStatus (onDownload (withFilesFinished finalStatus description))

end DownloadOperation

end Arinc615a.Target
