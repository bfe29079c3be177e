import Arinc615a.Files.ProtocolFile

/-!
# Request, list and answer files

`files/upload/UploadOperationRequestFile.cpp` and the request, list and answer
files of `files/download`: a count and that many records of strings. Their
decoders append what they read to the list of the object. The download request
ends with user defined data behind a length byte.
-/

namespace Arinc615a.Files

open Readers Readers.Reader
open Information

/-! ## The load request -/

/-- `UploadOperationRequestFile`. -/
structure UploadOperationRequestFile where
  protocolVersion : Arinc615aVersion := .arinc615a34
  loads : List UploadLoad := []
  deriving DecidableEq

/-- A load of the encoder's loop. -/
def encodeUploadLoad (load : UploadLoad) : Except Arinc615aException RawData := do
  let headerFilename ← stringEncode load.headerFilename 0
  let loadPartNumberName ← stringEncode load.partNumber 0
  .ok (headerFilename ++ loadPartNumberName)

/-- `UploadOperationRequestFile::encode`. -/
def UploadOperationRequestFile.encode (file : UploadOperationRequestFile) :
    Except Arinc615aException RawData :=
  if 65535 < file.loads.length then
    .error ⟨"More loads than allowed"⟩
  else do
    let rawLoads ← writeEach encodeUploadLoad file.loads
    .ok (insertHeader file.protocolVersion
      (setUInt16 (UInt16.ofNat file.loads.length) ++ rawLoads))

/-- A load of the decoder's loop. -/
def decodeUploadLoad : Decoder UploadLoad := do
  let headerFilename ← stringDecode
  let loadPartNumber ← stringDecode
  pure ⟨headerFilename, loadPartNumber⟩

/-- `UploadOperationRequestFile::decode`, `MinimumSize` being 8. -/
def UploadOperationRequestFile.decode (self : UploadOperationRequestFile) :
    Decoder UploadOperationRequestFile :=
  decodeFile (headerSize + 2) "Protocol file to small" fun protocolVersion => do
    let numberOfHeaderFiles ← getUInt16
    let loads ← times numberOfHeaderFiles.toNat decodeUploadLoad
    noMoreData "More data then expected"
    pure ⟨protocolVersion, self.loads ++ loads⟩

/-! ## The download request -/

/-- `DownloadOperationRequestFile`. -/
structure DownloadOperationRequestFile where
  protocolVersion : Arinc615aVersion := .arinc615a34
  files : List Str := []
  userDefinedData : RawData := []
  deriving DecidableEq

/-- `DownloadOperationRequestFile::encode`. -/
def DownloadOperationRequestFile.encode (file : DownloadOperationRequestFile) :
    Except Arinc615aException RawData :=
  if 65535 < file.files.length then
    .error ⟨"More files than allowed"⟩
  else do
    let rawFiles ← writeEach (stringEncode · 0) file.files
    if 255 < file.userDefinedData.length then
      .error ⟨"User defined data do big"⟩
    else
      .ok (insertHeader file.protocolVersion
        (setUInt16 (UInt16.ofNat file.files.length) ++ rawFiles ++
          UInt8.ofNat file.userDefinedData.length :: file.userDefinedData))

/-- `DownloadOperationRequestFile::decode`, `MinimumSize` being 9. The check of
the user defined data takes the place of the check for additional data. -/
def DownloadOperationRequestFile.decode (self : DownloadOperationRequestFile) :
    Decoder DownloadOperationRequestFile :=
  decodeFile (headerSize + 3) "Protocol file to small" fun protocolVersion => do
    let numberOfFiles ← getUInt16
    let files ← times numberOfFiles.toNat stringDecode
    -- Nothing checks that a byte is left for the length.
    let userDefinedDataLength ← getUInt8
    let remainingData ← remaining
    if remainingData.length ≠ userDefinedDataLength.toNat then
      throw ⟨"user defined data length"⟩
    else
      pure ⟨protocolVersion, self.files ++ files, remainingData⟩

/-! ## The list of downloadable files -/

/-- `DownloadOperationListFile`. -/
structure DownloadOperationListFile where
  protocolVersion : Arinc615aVersion := .arinc615a34
  files : List DownloadFileInformation := []
  deriving DecidableEq

/-- A file of the encoder's loop. -/
def encodeDownloadFileInformation (downloadInfo : DownloadFileInformation) :
    Except Arinc615aException RawData := do
  let filename ← stringEncode downloadInfo.filename 0
  let description ← stringEncode downloadInfo.description 0
  .ok (filename ++ description)

/-- `DownloadOperationListFile::encode`. -/
def DownloadOperationListFile.encode (file : DownloadOperationListFile) :
    Except Arinc615aException RawData :=
  if 65535 < file.files.length then
    .error ⟨"More files than allowed"⟩
  else do
    let rawFiles ← writeEach encodeDownloadFileInformation file.files
    .ok (insertHeader file.protocolVersion
      (setUInt16 (UInt16.ofNat file.files.length) ++ rawFiles))

/-- A file of the decoder's loop. -/
def decodeDownloadFileInformation : Decoder DownloadFileInformation := do
  let filename ← stringDecode
  let description ← stringDecode
  pure ⟨filename, description⟩

/-- `DownloadOperationListFile::decode`, `MinimumSize` being 8. -/
def DownloadOperationListFile.decode (self : DownloadOperationListFile) :
    Decoder DownloadOperationListFile :=
  decodeFile (headerSize + 2) "Data packet to small" fun protocolVersion => do
    let numberOfFiles ← getUInt16
    let files ← times numberOfFiles.toNat decodeDownloadFileInformation
    noMoreData "More data then expected"
    pure ⟨protocolVersion, self.files ++ files⟩

/-! ## The download answer -/

/-- `DownloadOperationAnswerFile`. -/
structure DownloadOperationAnswerFile where
  protocolVersion : Arinc615aVersion := .arinc615a34
  files : List Str := []
  deriving DecidableEq

/-- `DownloadOperationAnswerFile::encode`. -/
def DownloadOperationAnswerFile.encode (file : DownloadOperationAnswerFile) :
    Except Arinc615aException RawData :=
  if 65535 < file.files.length then
    .error ⟨"More files than allowed"⟩
  else do
    let rawFiles ← writeEach (stringEncode · 0) file.files
    .ok (insertHeader file.protocolVersion
      (setUInt16 (UInt16.ofNat file.files.length) ++ rawFiles))

/-- `DownloadOperationAnswerFile::decode`, `MinimumSize` being 8. -/
def DownloadOperationAnswerFile.decode (self : DownloadOperationAnswerFile) :
    Decoder DownloadOperationAnswerFile :=
  decodeFile (headerSize + 2) "Protocol file to small" fun protocolVersion => do
    let numberOfFiles ← getUInt16
    let files ← times numberOfFiles.toNat stringDecode
    noMoreData "More data then expected"
    pure ⟨protocolVersion, self.files ++ files⟩

end Arinc615a.Files
