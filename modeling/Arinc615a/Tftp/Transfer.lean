import Arinc615a.StatusCode

/-!
# TFTP transfers

The vocabulary the operations share with the TFTP library: how transfers end,
what an error packet carries, and what a request asks for.
-/

namespace Arinc615a.Tftp

/-- `::Tftp::TransferStatus`: how a transfer of the TFTP library ends. -/
inductive LibraryTransferStatus where
  | successful
  | communicationError
  | requestError
  | optionNegotiationError
  | transferError
  | aborted
  deriving DecidableEq

/-- `Arinc615a::Tftp::TransferStatus`. -/
inductive TransferStatus where
  | successful
  | communicationError
  | requestError
  | optionNegotiationError
  | transferError
  | aborted
  | operationAbortedByDlp
  | operationAbortedByOperator
  | invalid
  deriving DecidableEq

/-- `::Tftp::Packets::ErrorCode`. -/
inductive ErrorCode where
  | notDefined
  | fileNotFound
  | accessViolation
  | diskFull
  | illegalTftpOperation
  | unknownTransferId
  | fileAlreadyExists
  | noSuchUser
  | tftpOptionRefused
  deriving DecidableEq

/-- `::Tftp::Packets::ErrorInformation`: code and message of an error packet,
where there was one. -/
abbrev ErrorInformation := Option (ErrorCode × Str)

/-- `boost::asio::ip::udp::endpoint`. -/
structure Endpoint where
  address : Nat
  port : UInt16
  deriving DecidableEq

/-- `::Tftp::RequestType`. -/
inductive RequestType where
  | invalid
  | read
  | write
  deriving DecidableEq

/-- `Arinc649::CheckValueType`. -/
inductive CheckValueType where
  | notUsed
  | crc8
  | crc16
  | crc32
  | md5
  | sha1
  | sha256
  | sha512
  | crc64
  deriving DecidableEq

/-- `Arinc649::CheckValue`. -/
structure CheckValue where
  type : CheckValueType := .notUsed
  value : RawData := []
  deriving DecidableEq

/-- `Arinc615aOptions`. -/
structure Arinc615aOptions where
  port : Option UInt16 := none
  partNumber : Str := []
  checksum : CheckValue := {}
  deriving DecidableEq

/-- The TFTP options of a client, by name. -/
abbrev TftpOptions := List (Str × Str)

/-- What a TFTP server hands to its request handler. -/
structure Request where
  remote : Endpoint
  requestType : RequestType
  filename : Str
  clientTftpOptions : TftpOptions := []
  clientArinc615aOptions : Arinc615aOptions := {}
  deriving DecidableEq

end Arinc615a.Tftp
