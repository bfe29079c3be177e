import Arinc615a.TargetId

/-!
# Protocol filenames

`files/ProtocolFilename.cpp`: target ID, a point and the extension of the file
type. `isProtocolFilename` checks the whole string; the constructor takes any
string apart and keeps what it finds.
-/

namespace Arinc615a.Files

/-- `ProtocolFileType`. -/
inductive ProtocolFileType where
  | invalid
  | loadConfigurationInitialization
  | loadConfigurationList
  | loadConfigurationStatus
  | uploadInitialization
  | uploadRequest
  | uploadStatus
  | mediaDefinedDownloadInitialization
  | mediaDefinedDownloadRequest
  | operatorDefinedDownloadInitialization
  | operatorDefinedDownloadList
  | operatorDefinedDownloadAnswer
  | downloadStatus
  deriving DecidableEq

/-- `ProtocolFilename::extensionTypeInfoIndex`. -/
def extensionTypeInfoIndex : List (Str × ProtocolFileType) :=
  [(str "LCI", .loadConfigurationInitialization),
   (str "LCL", .loadConfigurationList),
   (str "LCS", .loadConfigurationStatus),
   (str "LUI", .uploadInitialization),
   (str "LUR", .uploadRequest),
   (str "LUS", .uploadStatus),
   (str "LND", .mediaDefinedDownloadInitialization),
   (str "LNR", .mediaDefinedDownloadRequest),
   (str "LNO", .operatorDefinedDownloadInitialization),
   (str "LNL", .operatorDefinedDownloadList),
   (str "LNA", .operatorDefinedDownloadAnswer),
   (str "LNS", .downloadStatus)]

/-- `ProtocolFilename`. -/
structure ProtocolFilename where
  targetId : TargetId
  fileType : ProtocolFileType
  deriving DecidableEq

namespace ProtocolFilename

/-- `ProtocolFilename::split`: at the first point. -/
def split (filename : Str) : Str × Str := (splitAt? 46 filename).getD ([], [])

/-- `ProtocolFilename::extension`. -/
def extension (fileType : ProtocolFileType) : Str :=
  match extensionTypeInfoIndex.find? (·.2 = fileType) with
  | none => []
  | some element => element.1

/-- `ProtocolFilename::fileType`. -/
def fileTypeOf (extension : Str) : ProtocolFileType :=
  match extensionTypeInfoIndex.find? (·.1 = extension) with
  | none => .invalid
  | some element => element.2

/-- `ProtocolFilename::isProtocolFilename`. -/
def isProtocolFilename (filename : Str) : Bool :=
  let (targetId, extension) := split filename
  TargetId.isTargetId targetId && fileTypeOf extension ≠ .invalid

/-- `ProtocolFilename( std::string_view )`: no check. -/
def ofString (filename : Str) : ProtocolFilename :=
  let (targetId, extension) := split filename
  ⟨.ofString targetId, fileTypeOf extension⟩

/-- The conversion to `std::string`. -/
def toString (filename : ProtocolFilename) : Str :=
  filename.targetId.toString ++ 46 :: extension filename.fileType

/-- `ProtocolFilename::operator bool`. -/
def isValid (filename : ProtocolFilename) : Bool :=
  filename.targetId.isValid && filename.fileType ≠ .invalid

end ProtocolFilename

end Arinc615a.Files
