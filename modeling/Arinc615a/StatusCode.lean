import Mathlib.Tactic.Common

/-!
# Versions, status codes and their conversions

The enumerations of `arinc_615a/Arinc615a.hpp` and the conversions of
`arinc_615a/StatusCode.cpp`. A `std::string` is a list of bytes: the strings
of the protocol come from the network and may hold any byte.
-/

namespace Arinc615a

/-- A `std::string`: any bytes. -/
abbrev Str := List UInt8

/-- `Helper::RawData`. -/
abbrev RawData := List UInt8

/-- The bytes of an ASCII literal of the source. -/
def str (s : String) : Str := s.toList.map fun c => c.toNat.toUInt8

/-- `Arinc615aException`, with its `Helper::AdditionalInfo`. -/
structure Arinc615aException where
  additionalInfo : String
  deriving DecidableEq

/-- `Arinc615aVersion`, with the value that a member holds before a version is
known: `Arinc615aVersion{}`. -/
inductive Arinc615aVersion where
  | undetermined
  | arinc615a1
  | arinc615a2
  | arinc615a34
  deriving DecidableEq

/-- The two bytes of the version on the wire. -/
def Arinc615aVersion.toUInt16 : Arinc615aVersion → UInt16
  | undetermined => 0
  | arinc615a1 => 0x4132
  | arinc615a2 => 0x4133
  | arinc615a34 => 0x4134

/-- The versions that the decoders accept. -/
def Arinc615aVersion.Supported (version : Arinc615aVersion) : Prop :=
  version = .arinc615a2 ∨ version = .arinc615a34

/-- `OperationClass`. -/
inductive OperationClass where
  | information
  | upload
  | download
  deriving DecidableEq

/-- `OperationType`, without its invalid value: the operations there are. -/
inductive OperationType where
  | information
  | upload
  | mediaDefinedDownload
  | operatorDefinedDownload
  deriving DecidableEq

/-- `StatusCode`. -/
inductive StatusCode where
  | operationAccepted
  | operationNotAccepted
  | operationNotSupported
  | operationInProgress
  | operationCompleted
  | operationInProgressAdditionalInfo
  | operationAbortedByTargetHw
  | operationAbortedByDlp
  | operationAbortedByOperator
  | loadPartNumberOrDownloadFileFailed
  | operationDeferred
  | invalid
  deriving DecidableEq

/-- `std::to_underlying` of a status code. -/
def StatusCode.toUInt16 : StatusCode → UInt16
  | operationAccepted => 0x0001
  | operationNotAccepted => 0x1000
  | operationNotSupported => 0x1002
  | operationInProgress => 0x0002
  | operationCompleted => 0x0003
  | operationInProgressAdditionalInfo => 0x0004
  | operationAbortedByTargetHw => 0x1003
  | operationAbortedByDlp => 0x1004
  | operationAbortedByOperator => 0x1005
  | loadPartNumberOrDownloadFileFailed => 0x1007
  | operationDeferred => 0xFFFE
  | invalid => 0xFFFF

/-- `OperationAcceptanceStatusCode`. -/
inductive OperationAcceptanceStatusCode where
  | operationAccepted
  | operationDenied
  | operationNotSupported
  | operationDeferred
  deriving DecidableEq

/-- `std::to_underlying` of an acceptance status code. -/
def OperationAcceptanceStatusCode.toUInt16 : OperationAcceptanceStatusCode → UInt16
  | operationAccepted => StatusCode.operationAccepted.toUInt16
  | operationDenied => StatusCode.operationNotAccepted.toUInt16
  | operationNotSupported => StatusCode.operationNotSupported.toUInt16
  | operationDeferred => StatusCode.operationDeferred.toUInt16

/-- `FinalStatus`. -/
inductive FinalStatus where
  | completed
  | abortedByTargetHardware
  | abortedByDlp
  | abortedByOperator
  | loadPartNumberOrDownloadFileFailed
  deriving DecidableEq

/-- `AbortRequest`. -/
inductive AbortRequest where
  | abortByDlp
  | abortByOperator
  deriving DecidableEq

/-- `statusCode( FinalStatus )`. A status without a case of its own is taken
for an abort by the target. -/
def statusCodeOfFinalStatus : FinalStatus → StatusCode
  | .completed => .operationCompleted
  | .abortedByDlp => .operationAbortedByDlp
  | .abortedByOperator => .operationAbortedByOperator
  | .abortedByTargetHardware => .operationAbortedByTargetHw
  | .loadPartNumberOrDownloadFileFailed => .operationAbortedByTargetHw

/-- `finalStatus( StatusCode )`. -/
def finalStatusOfStatusCode : StatusCode → FinalStatus
  | .operationCompleted => .completed
  | .operationAbortedByDlp => .abortedByDlp
  | .operationAbortedByOperator => .abortedByOperator
  | .operationAbortedByTargetHw => .abortedByTargetHardware
  | .loadPartNumberOrDownloadFileFailed => .loadPartNumberOrDownloadFileFailed
  | _ => .abortedByTargetHardware

/-- `statusCode( uint16_t )`: the codes a file may carry. -/
def statusCode (code : UInt16) : Except Arinc615aException StatusCode :=
  match code with
  | 0x0001 => .ok .operationAccepted
  | 0x1000 => .ok .operationNotAccepted
  | 0x1002 => .ok .operationNotSupported
  | 0x0002 => .ok .operationInProgress
  | 0x0003 => .ok .operationCompleted
  | 0x0004 => .ok .operationInProgressAdditionalInfo
  | 0x1003 => .ok .operationAbortedByTargetHw
  | 0x1004 => .ok .operationAbortedByDlp
  | 0x1005 => .ok .operationAbortedByOperator
  | 0x1007 => .ok .loadPartNumberOrDownloadFileFailed
  | _ => .error ⟨"Invalid status code"⟩

/-- `operationAcceptanceStatusCode( uint16_t )`. -/
def operationAcceptanceStatusCode (code : UInt16) :
    Except Arinc615aException OperationAcceptanceStatusCode :=
  match code with
  | 0x0001 => .ok .operationAccepted
  | 0x1000 => .ok .operationDenied
  | 0x1002 => .ok .operationNotSupported
  | _ => .error ⟨"Invalid status code"⟩

/-- The codes that travel in a file: all but the two internal values. -/
def StatusCode.Transmissible (code : StatusCode) : Prop :=
  code ≠ .operationDeferred ∧ code ≠ .invalid

/-- A transmissible code is read back as itself. -/
theorem statusCode_toUInt16 {code : StatusCode} (h : code.Transmissible) :
    statusCode code.toUInt16 = .ok code := by
  obtain ⟨hd, hi⟩ := h
  cases code with
  | operationDeferred => exact absurd rfl hd
  | invalid => exact absurd rfl hi
  | _ => rfl

/-- And so are all answers to an initialisation but the internal deferred one. -/
theorem operationAcceptanceStatusCode_toUInt16 {code : OperationAcceptanceStatusCode}
    (h : code ≠ .operationDeferred) :
    operationAcceptanceStatusCode code.toUInt16 = .ok code := by
  cases code with
  | operationDeferred => exact absurd rfl h
  | _ => rfl

/-- The final status an application reports with one of the four values that
have a code arrives as itself. -/
theorem finalStatus_statusCode {status : FinalStatus}
    (h : status ≠ .loadPartNumberOrDownloadFileFailed) :
    finalStatusOfStatusCode (statusCodeOfFinalStatus status) = status := by
  cases status with
  | loadPartNumberOrDownloadFileFailed => exact absurd rfl h
  | _ => rfl

end Arinc615a
