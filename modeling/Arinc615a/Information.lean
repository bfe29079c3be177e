import Arinc615a.Lib.Table
import Arinc615a.StatusCode

/-!
# The information the protocol files carry

The records of `arinc_615a/information`: the status of an operation and of its
loads and files, the response to an initialisation, and the entries of the
lists.
-/

namespace Arinc615a.Information

/-- `Ratio`: a value in percent. -/
structure Ratio where
  value : Nat
  in_range : value ≤ 100
  deriving DecidableEq

/-- A default constructed ratio. -/
def Ratio.zero : Ratio := ⟨0, Nat.zero_le _⟩

/-- `Status`. -/
structure Status where
  counter : UInt16 := 0
  exceptionTimer : UInt16 := 0
  estimatedTime : Int16 := 0
  code : StatusCode := .invalid
  description : Str := []
  deriving DecidableEq

/-- `Status::incrementCounter`. -/
def Status.incrementCounter (status : Status) : Status :=
  { status with counter := status.counter + 1 }

/-- `Status::code`: a new code resets the description. -/
def Status.setCode (status : Status) (code : StatusCode) : Status :=
  { status with code := code, description := [] }

/-- `Status::set`. -/
def Status.set (status : Status) (code : StatusCode) (description : Str) : Status :=
  { status with code := code, description := description }

/-- `UploadLoadStatus`. -/
structure UploadLoadStatus where
  headerFilename : Str
  partNumber : Str
  ratio : Ratio := .zero
  code : StatusCode := .invalid
  description : Str := []
  deriving DecidableEq

/-- `UploadLoadStatus::set`. -/
def UploadLoadStatus.set (load : UploadLoadStatus) (ratio : Ratio) (code : StatusCode)
    (description : Str) : UploadLoadStatus :=
  { load with ratio := ratio, code := code, description := description }

/-- `UploadStatus`. -/
structure UploadStatus extends Status where
  listRatio : Ratio := .zero
  loads : List UploadLoadStatus := []
  deriving DecidableEq

/-- `DownloadFileStatus`. -/
structure DownloadFileStatus where
  filename : Str
  code : StatusCode := .invalid
  description : Str := []
  deriving DecidableEq

/-- `DownloadFileStatus::set`. -/
def DownloadFileStatus.set (file : DownloadFileStatus) (code : StatusCode)
    (description : Str) : DownloadFileStatus :=
  { file with code := code, description := description }

/-- `DownloadStatus`. -/
structure DownloadStatus extends Status where
  listRatio : Ratio := .zero
  files : List DownloadFileStatus := []
  deriving DecidableEq

/-- `UploadStatus::load( std::string, std::string )`: a new entry, which is then
set. -/
def UploadStatus.addLoad (status : UploadStatus) (headerFilename partNumber : Str)
    (set : UploadLoadStatus → UploadLoadStatus) : UploadStatus :=
  { status with loads := status.loads ++
    [set { headerFilename := headerFilename, partNumber := partNumber }] }

/-- `UploadStatus::load( std::string_view )`: the first entry of the header file,
or a new one, which is then set. -/
def UploadStatus.setLoad (status : UploadStatus) (headerFilename : Str)
    (set : UploadLoadStatus → UploadLoadStatus) : UploadStatus :=
  match status.loads.findIdx? (·.headerFilename = headerFilename) with
  | none => status.addLoad headerFilename [] set
  | some i => { status with loads := status.loads.modify i set }

/-- `DownloadStatus::file( std::string )`: a new entry, which is then set. -/
def DownloadStatus.addFile (status : DownloadStatus) (filename : Str)
    (set : DownloadFileStatus → DownloadFileStatus) : DownloadStatus :=
  { status with files := status.files ++ [set { filename := filename }] }

/-- `DownloadStatus::file( std::string_view )`: the first entry of the file, or a
new one, which is then set. -/
def DownloadStatus.setFile (status : DownloadStatus) (filename : Str)
    (set : DownloadFileStatus → DownloadFileStatus) : DownloadStatus :=
  match status.files.findIdx? (·.filename = filename) with
  | none => status.addFile filename set
  | some i => { status with files := status.files.modify i set }

/-- The loads are a table with the header files as its keys. -/
theorem UploadStatus.loads_setLoad (status : UploadStatus) (headerFilename : Str)
    (set : UploadLoadStatus → UploadLoadStatus) :
    (status.setLoad headerFilename set).loads =
      Tables.upsert (·.headerFilename) headerFilename
        { headerFilename := headerFilename, partNumber := [] } set status.loads := by
  rw [Tables.upsert_eq]
  unfold setLoad addLoad
  cases status.loads.findIdx? _ <;> rfl

/-- So are the files. -/
theorem DownloadStatus.files_setFile (status : DownloadStatus) (filename : Str)
    (set : DownloadFileStatus → DownloadFileStatus) :
    (status.setFile filename set).files =
      Tables.upsert (·.filename) filename { filename := filename } set status.files := by
  rw [Tables.upsert_eq]
  unfold setFile addFile
  cases status.files.findIdx? _ <;> rfl

/-- Entries of the table leave the status of the operation alone. -/
@[simp] theorem UploadStatus.toStatus_setLoad (status : UploadStatus) (headerFilename : Str)
    (set : UploadLoadStatus → UploadLoadStatus) :
    (status.setLoad headerFilename set).toStatus = status.toStatus := by
  unfold setLoad
  split <;> rfl

@[simp] theorem DownloadStatus.toStatus_setFile (status : DownloadStatus) (filename : Str)
    (set : DownloadFileStatus → DownloadFileStatus) :
    (status.setFile filename set).toStatus = status.toStatus := by
  unfold setFile
  split <;> rfl

/-- The status of an operation, by its class. -/
inductive OperationStatus where
  | information (status : Status)
  | upload (status : UploadStatus)
  | download (status : DownloadStatus)
  deriving DecidableEq

namespace OperationStatus

/-- The part that all operations share. -/
def status : OperationStatus → Status
  | information status => status
  | upload status => status.toStatus
  | download status => status.toStatus

/-- Change the part that all operations share. -/
def update (f : Status → Status) : OperationStatus → OperationStatus
  | information status => information (f status)
  | upload status => upload { status with toStatus := f status.toStatus }
  | download status => download { status with toStatus := f status.toStatus }

/-- The class of the operation that has the status. -/
def operationClass : OperationStatus → OperationClass
  | information _ => .information
  | upload _ => .upload
  | download _ => .download

@[simp] theorem operationClass_update (f : Status → Status) (s : OperationStatus) :
    (s.update f).operationClass = s.operationClass := by
  cases s <;> rfl

@[simp] theorem status_update (f : Status → Status) (s : OperationStatus) :
    (s.update f).status = f s.status := by
  cases s <;> rfl

end OperationStatus

/-- `InitializationResponse`. -/
structure InitializationResponse where
  code : OperationAcceptanceStatusCode := .operationAccepted
  description : Str := []
  deriving DecidableEq

/-- `PartNumber`. -/
structure PartNumber where
  partNumber : Str
  amendment : Str
  partDesignation : Str
  deriving DecidableEq

/-- `TargetHardware`. -/
structure TargetHardware where
  literalName : Str
  serialNumber : Str
  partNumbers : List PartNumber
  deriving DecidableEq

/-- `UploadLoad`. -/
structure UploadLoad where
  headerFilename : Str
  partNumber : Str
  deriving DecidableEq

/-- `DownloadFileInformation`. -/
structure DownloadFileInformation where
  filename : Str
  description : Str
  deriving DecidableEq

end Arinc615a.Information
