import Arinc615a.Text
import Arinc615a.Tftp.Transfer

/-!
# ABORT and WAIT messages

`arinc_615a/tftp/ErrorMessage.cpp`: the texts that ARINC 615A puts into TFTP
error packets.
-/

namespace Arinc615a.Tftp

/-- `ErrorMessageType`. -/
inductive ErrorMessageType where
  | abort
  | wait
  | invalid
  deriving DecidableEq

/-- `WaitErrorString`. -/
def waitErrorString : Str := str "WAIT:"

/-- `AbortErrorString`. -/
def abortErrorString : Str := str "ABORT:"

/-- `ErrorMessage_type`: by the start of the message, with something behind it. -/
def errorMessageType : ErrorInformation → ErrorMessageType
  | some (.notDefined, errorMessage) =>
    if waitErrorString.isPrefixOf errorMessage then
      if errorMessage.length ≤ waitErrorString.length then .invalid else .wait
    else if abortErrorString.isPrefixOf errorMessage then
      if errorMessage.length ≤ abortErrorString.length then .invalid else .abort
    else .invalid
  | _ => .invalid

/-- The status codes that an ABORT message may carry. -/
def abortStatusCode (statusCode : Nat) : StatusCode :=
  if statusCode = 0x0001 then .operationAccepted
  else if statusCode = 0x1000 then .operationNotAccepted
  else if statusCode = 0x1002 then .operationNotSupported
  else if statusCode = 0x0002 then .operationInProgress
  else if statusCode = 0x0003 then .operationCompleted
  else if statusCode = 0x1003 then .operationAbortedByTargetHw
  else if statusCode = 0x1004 then .operationAbortedByDlp
  else if statusCode = 0x1005 then .operationAbortedByOperator
  else if statusCode = 0x1007 then .loadPartNumberOrDownloadFileFailed
  else .invalid

/-- `ErrorMessage_abort( std::string_view )`. -/
def errorMessageAbort (errorMessage : Str) : StatusCode :=
  if abortErrorString.isPrefixOf errorMessage then
    match fromChars 16 16 (errorMessage.drop 6) with
    | none => .invalid
    | some statusCode => abortStatusCode statusCode
  else .invalid

/-- `ErrorMessage_abort( StatusCode )`. -/
def abortErrorMessage (statusCode : StatusCode) : Str :=
  abortErrorString ++ hexadecimalWidth 4 statusCode.toUInt16.toNat

/-- `ErrorMessage_wait( std::chrono::seconds )`. -/
def waitErrorMessage (waitTime : Int) : Except Arinc615aException Str :=
  if 0 ≤ waitTime ∧ waitTime < 2 ^ 16 then .ok (waitErrorString ++ decimal waitTime.toNat)
  else .error ⟨"Value out of range"⟩

/-- `ErrorMessage_wait( std::string_view )`, in seconds. -/
def errorMessageWait (errorMessage : Str) : Option Nat :=
  if waitErrorString.isPrefixOf errorMessage then
    fromChars 10 16 (errorMessage.drop 5)
  else none

end Arinc615a.Tftp
