import Arinc615a.Files.ProtocolFile

/-!
# Initialisation and status files

`files/InitializationFile.cpp`, `files/information/InformationOperationStatusFile.cpp`,
`files/upload/UploadOperationStatusFile.cpp` and
`files/download/DownloadOperationStatusFile.cpp`. The status files of uploads
and downloads start with the same fields (`decodeStatusFront`); each record of
a load or a file is read by a loop of the decoder.
-/

namespace Arinc615a.Files

open Readers Readers.Reader
open Information

/-! ## The initialisation file -/

/-- `InitializationFile`. -/
structure InitializationFile where
  protocolVersion : Arinc615aVersion := .arinc615a34
  response : InitializationResponse := {}
  deriving DecidableEq

/-- `InitializationFile::encode`. -/
def InitializationFile.encode (file : InitializationFile) :
    Except Arinc615aException RawData := do
  let rawMessage ← stringEncode file.response.description 0
  .ok (insertHeader file.protocolVersion (setUInt16 file.response.code.toUInt16 ++ rawMessage))

/-- `InitializationFile::decode`, `MinFileSize` being 9. -/
def InitializationFile.decode (self : InitializationFile) : Decoder InitializationFile :=
  decodeFile (headerSize + 3) "Protocol file to small" fun protocolVersion => do
    let intStatusCode ← getUInt16
    let code ← ofExcept (operationAcceptanceStatusCode intStatusCode)
    let statusDescription ← stringDecode
    noMoreData "More data then expected"
    pure { self with
      protocolVersion := protocolVersion
      response := { self.response with code := code, description := statusDescription } }

/-! ## The status of an information operation -/

/-- `InformationOperationStatusFile`. -/
structure InformationOperationStatusFile where
  protocolVersion : Arinc615aVersion := .arinc615a34
  status : Status := {}
  deriving DecidableEq

/-- `InformationOperationStatusFile::encode`. -/
def InformationOperationStatusFile.encode (file : InformationOperationStatusFile) :
    Except Arinc615aException RawData := do
  let rawStatusDescription ← stringEncode file.status.description 0
  .ok (insertHeader file.protocolVersion (setUInt16 file.status.counter ++
    setUInt16 file.status.code.toUInt16 ++ setUInt16 file.status.exceptionTimer ++
    setInt16 file.status.estimatedTime ++ rawStatusDescription))

/-- `InformationOperationStatusFile::decode`. -/
def InformationOperationStatusFile.decode (self : InformationOperationStatusFile) :
    Decoder InformationOperationStatusFile :=
  decodeFile (headerSize + 9) "Protocol file to small" fun protocolVersion => do
    let counter ← getUInt16
    let intStatusCode ← getUInt16
    let code ← ofExcept (statusCode intStatusCode)
    let exceptionTimer ← getUInt16
    let estimatedTime ← getInt16
    let statusDescription ← stringDecode
    noMoreData "More data than expected"
    pure { self with
      protocolVersion := protocolVersion
      status := { self.status with
        counter := counter, code := code, exceptionTimer := exceptionTimer
        estimatedTime := estimatedTime, description := statusDescription } }

/-! ## What the upload and download status share -/

/-- Status code, description, counter, timers and list ratio. -/
def encodeStatusFront (status : Status) (listRatio : Ratio) :
    Except Arinc615aException RawData := do
  let rawDescription ← stringEncode status.description 0
  .ok (setUInt16 status.code.toUInt16 ++ rawDescription ++ setUInt16 status.counter ++
    setUInt16 status.exceptionTimer ++ setInt16 status.estimatedTime ++
    ratioEncode listRatio)

/-- The reads of both decoders up to the list ratio, into the status of the
object. -/
def decodeStatusFront (status : Status) : Decoder (Status × Ratio) := do
  let intStatusCode ← getUInt16
  let code ← ofExcept (statusCode intStatusCode)
  let statusDescription ← stringDecode
  -- The minimum size does not cover what stands behind the description.
  let counter ← getUInt16
  let exceptionTimer ← getUInt16
  let estimatedTime ← getInt16
  let listRatio ← ratioDecode
  pure ({ status with
    code := code, description := statusDescription, counter := counter
    exceptionTimer := exceptionTimer, estimatedTime := estimatedTime }, listRatio)

/-! ## The status of an upload -/

/-- `UploadOperationStatusFile`. -/
structure UploadOperationStatusFile where
  protocolVersion : Arinc615aVersion := .arinc615a34
  status : UploadStatus := {}
  deriving DecidableEq

/-- A header file of the encoder's loop. -/
def encodeUploadLoadStatus (headerFile : UploadLoadStatus) :
    Except Arinc615aException RawData := do
  let rawHeaderFilename ← stringEncode headerFile.headerFilename 0
  let rawLoadPartNumber ← stringEncode headerFile.partNumber 0
  let rawLoadDescription ← stringEncode headerFile.description 0
  .ok (rawHeaderFilename ++ rawLoadPartNumber ++ ratioEncode headerFile.ratio ++
    setUInt16 headerFile.code.toUInt16 ++ rawLoadDescription)

/-- `UploadOperationStatusFile::encode`. -/
def UploadOperationStatusFile.encode (file : UploadOperationStatusFile) :
    Except Arinc615aException RawData := do
  let rawFront ← encodeStatusFront file.status.toStatus file.status.listRatio
  if 65535 < file.status.loads.length then
    .error ⟨"More Load Headers than allowed"⟩
  else do
    let rawLoads ← writeEach encodeUploadLoadStatus file.status.loads
    .ok (insertHeader file.protocolVersion
      (rawFront ++ setUInt16 (UInt16.ofNat file.status.loads.length) ++ rawLoads))

/-- A header file of the decoder's loop. Its status code is checked when the
record is complete. -/
def decodeUploadLoadStatus : Decoder UploadLoadStatus := do
  let headerFilename ← stringDecode
  let loadPartNumber ← stringDecode
  let loadRatio ← ratioDecode
  let intLoadStatusCode ← getUInt16
  let loadStatusDescription ← stringDecode
  let code ← ofExcept (statusCode intLoadStatusCode)
  pure ⟨headerFilename, loadPartNumber, loadRatio, code, loadStatusDescription⟩

/-- `UploadOperationStatusFile::decode`. -/
def UploadOperationStatusFile.decode (self : UploadOperationStatusFile) :
    Decoder UploadOperationStatusFile :=
  decodeFile (headerSize + 9) "Protocol file to small" fun protocolVersion => do
    let (status, loadListRatio) ← decodeStatusFront self.status.toStatus
    let numberOfHeaderFiles ← getUInt16
    let loadsStatus ← times numberOfHeaderFiles.toNat decodeUploadLoadStatus
    noMoreData "More data then expected"
    pure { self with
      protocolVersion := protocolVersion
      status := { self.status with
        toStatus := status, listRatio := loadListRatio, loads := loadsStatus } }

/-! ## The status of a download -/

/-- `DownloadOperationStatusFile`. -/
structure DownloadOperationStatusFile where
  protocolVersion : Arinc615aVersion := .arinc615a34
  status : DownloadStatus := {}
  deriving DecidableEq

/-- A file of the encoder's loop. -/
def encodeDownloadFileStatus (file : DownloadFileStatus) :
    Except Arinc615aException RawData := do
  let rawFilename ← stringEncode file.filename 0
  let rawStatusDescription ← stringEncode file.description 0
  .ok (rawFilename ++ setUInt16 file.code.toUInt16 ++ rawStatusDescription)

/-- `DownloadOperationStatusFile::encode`. -/
def DownloadOperationStatusFile.encode (file : DownloadOperationStatusFile) :
    Except Arinc615aException RawData := do
  let rawFront ← encodeStatusFront file.status.toStatus file.status.listRatio
  if 65535 < file.status.files.length then
    .error ⟨"More files than allowed"⟩
  else do
    let rawFiles ← writeEach encodeDownloadFileStatus file.status.files
    .ok (insertHeader file.protocolVersion
      (rawFront ++ setUInt16 (UInt16.ofNat file.status.files.length) ++ rawFiles))

/-- A file of the decoder's loop. -/
def decodeDownloadFileStatus : Decoder DownloadFileStatus := do
  let filename ← stringDecode
  let intFileStatusCode ← getUInt16
  let fileStatusDescription ← stringDecode
  let code ← ofExcept (statusCode intFileStatusCode)
  pure ⟨filename, code, fileStatusDescription⟩

/-- `DownloadOperationStatusFile::decode`. -/
def DownloadOperationStatusFile.decode (self : DownloadOperationStatusFile) :
    Decoder DownloadOperationStatusFile :=
  decodeFile (headerSize + 9) "Protocol file to small" fun protocolVersion => do
    let (status, downloadListRatio) ← decodeStatusFront self.status.toStatus
    let numberOfFiles ← getUInt16
    let fileStatusList ← times numberOfFiles.toNat decodeDownloadFileStatus
    noMoreData "More data then expected"
    pure { self with
      protocolVersion := protocolVersion
      status := { self.status with
        toStatus := status, listRatio := downloadListRatio, files := fileStatusList } }

end Arinc615a.Files
