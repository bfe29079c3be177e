import Arinc615a.Find.Packet
import Arinc615a.Tftp.Transfer

/-!
# Handlers of FIND packets

`find/packets/PacketHandler.cpp` decides which handler a received datagram
goes to; the FIND server and the FIND query implement the handlers. What the
query needs of `find/TargetInformation.hpp` and of the server stands here.
-/

namespace Arinc615a.Find

open Tftp

/-- `Packet::MaxPacketSize`, the size of the receive buffers. -/
def maxPacketSize : Nat := 1024

/-- `Packets::ParameterList`. -/
inductive ParameterList where
  | thwId
  | thwTypeName
  | thwPosition
  | literalName
  | manufacturerCode
  | last
  deriving DecidableEq

/-- `std::to_underlying` of an entry. -/
def ParameterList.toNat : ParameterList → Nat
  | thwId => 0
  | thwTypeName => 1
  | thwPosition => 2
  | literalName => 3
  | manufacturerCode => 4
  | last => 5

/-- `TargetInformation`. -/
structure TargetInformation where
  thwId : Str
  thwTypeName : Str
  thwPosition : Str
  literalName : Str
  manufacturerCode : Str
  deriving DecidableEq

/-- What `PacketHandler::packet` calls. -/
inductive HandlerCall where
  | informationRequestPacket (remote : Endpoint) (request : Packet)
  | informationAnswerPacket (remote : Endpoint) (answer : Packet)
  | invalidPacket (remote : Endpoint) (rawPacket : RawData)
  deriving DecidableEq

/-- `PacketHandler::packet`. The handlers throw no `InvalidFindPacket`, so that
the `catch` is for the constructor of the packet. -/
def packetHandler (remote : Endpoint) (rawPacket : RawData) : HandlerCall :=
  match packetType rawPacket with
  | .informationRequest =>
    match Packet.decode rawPacket with
    | .ok request => .informationRequestPacket remote request
    | .error _ => .invalidPacket remote rawPacket
  | .informationAnswer =>
    match Packet.decode rawPacket with
    | .ok answer => .informationAnswerPacket remote answer
    | .error _ => .invalidPacket remote rawPacket
  | .invalid => .invalidPacket remote rawPacket

/-! ## The answer of a server -/

/-- `ServerImpl::response` up to `send_to`. -/
def answerPacket (findInformation : TargetInformation) : Packet :=
  ⟨.informationAnswer,
    [findInformation.thwId, findInformation.thwTypeName, findInformation.thwPosition,
      findInformation.literalName, findInformation.manufacturerCode]⟩

/-- A datagram on its way. -/
structure Datagram where
  remote : Endpoint
  rawPacket : RawData
  deriving DecidableEq

/-- `ServerImpl::response`. `send_to` sends the data it accepts and throws a
`system_error` for other. -/
def response (sendTo : RawData → Bool) (remote : Endpoint)
    (findInformation : TargetInformation) : Except String Datagram :=
  let rawPacket := (answerPacket findInformation).encode
  if sendTo rawPacket then .ok ⟨remote, rawPacket⟩
  else .error "send_to"

/-! ## The answer at the query -/

/-- `Packet::parameter`, at a position that exists. -/
def Packet.parameter (packet : Packet) (position : Fin packet.parameters.length) : Str :=
  packet.parameters.get position

/-- `QueryImpl::informationAnswerPacket`: the target information that the
response handler is called with. The check of the number of parameters keeps
the positions within bounds. -/
def targetInformation (answer : Packet) : Option TargetInformation :=
  if h : answer.parameters.length = ParameterList.last.toNat then
    let parameter (position : Fin ParameterList.last.toNat) : Str :=
      answer.parameter (position.cast h.symm)
    some
      { thwId := parameter ⟨ParameterList.thwId.toNat, by decide⟩
        thwTypeName := parameter ⟨ParameterList.thwTypeName.toNat, by decide⟩
        thwPosition := parameter ⟨ParameterList.thwPosition.toNat, by decide⟩
        literalName := parameter ⟨ParameterList.literalName.toNat, by decide⟩
        manufacturerCode := parameter ⟨ParameterList.manufacturerCode.toNat, by decide⟩ }
  else none

/-- The parameters that give a target information are those that the server
sends for it. -/
theorem targetInformation_eq_some_iff {answer : Packet} {t : TargetInformation} :
    targetInformation answer = some t ↔ answer.parameters = (answerPacket t).parameters := by
  obtain ⟨opcode, parameters⟩ := answer
  by_cases h : (Packet.mk opcode parameters).parameters.length = ParameterList.last.toNat
  · have hfive : parameters.length = 5 := h
    obtain ⟨a, b, c, d, e, rfl⟩ : ∃ a b c d e, parameters = [a, b, c, d, e] := by
      match parameters, hfive with
      | [a, b, c, d, e], _ => exact ⟨a, b, c, d, e, rfl⟩
    obtain ⟨thwId, thwTypeName, thwPosition, literalName, manufacturerCode⟩ := t
    show some (TargetInformation.mk a b c d e) = _ ↔ _
    simp [answerPacket]
  · constructor
    · intro hinfo
      rw [targetInformation, dif_neg h] at hinfo
      cases hinfo
    · intro hparameters
      exact absurd (congrArg List.length hparameters) h

/-- The response handler is called with what a well-formed answer says. -/
def packetResponse (remote : Endpoint) (rawPacket : RawData) :
    Option (Nat × TargetInformation) :=
  match packetHandler remote rawPacket with
  | .informationAnswerPacket remote answer =>
    (targetInformation answer).map fun t => (remote.address, t)
  | .informationRequestPacket .. => none
  | .invalidPacket .. => none

/-- Only answers that were encoded reach the handler of answers. -/
theorem packetHandler_answer_iff {remote source : Endpoint} {rawPacket : RawData}
    {answer : Packet} :
    packetHandler remote rawPacket = .informationAnswerPacket source answer ↔
      source = remote ∧ answer.WellFormed ∧ answer.opcode = .informationAnswer ∧
        rawPacket = answer.encode := by
  constructor
  · intro h
    rw [packetHandler] at h
    cases htype : packetType rawPacket with
    | informationRequest =>
      rw [htype] at h
      cases hdecode : Packet.decode rawPacket <;> simp [hdecode] at h
    | informationAnswer =>
      rw [htype] at h
      cases hdecode : Packet.decode rawPacket with
      | error e => simp [hdecode] at h
      | ok packet =>
        simp only [hdecode, HandlerCall.informationAnswerPacket.injEq] at h
        obtain ⟨rfl, rfl⟩ := h
        obtain ⟨hwell, rfl⟩ := Packet.decode_eq_ok_iff.mp hdecode
        exact ⟨rfl, hwell, (packetType_encode hwell).symm.trans htype, rfl⟩
    | invalid => simp [htype] at h
  · intro h
    rcases h with ⟨rfl, hwell, hopcode, rfl⟩
    have hdecode := Packet.decode_eq_ok_iff.mpr ⟨hwell, rfl⟩
    simp only [packetHandler, packetType_encode hwell, hopcode, hdecode]

/-- **A response** is made of a datagram exactly if it is the answer for a
target information of strings without terminator. -/
theorem packetResponse_eq_some_iff {remote : Endpoint} {rawPacket : RawData} {address : Nat}
    {t : TargetInformation} :
    packetResponse remote rawPacket = some (address, t) ↔
      address = remote.address ∧ (answerPacket t).WellFormed ∧
        rawPacket = (answerPacket t).encode := by
  constructor
  · intro h
    rw [packetResponse] at h
    cases hcall : packetHandler remote rawPacket with
    | informationRequestPacket source request => simp [hcall] at h
    | invalidPacket source raw => simp [hcall] at h
    | informationAnswerPacket source answer =>
      obtain ⟨rfl, hwell, hopcode, rfl⟩ := packetHandler_answer_iff.mp hcall
      simp only [hcall, Option.map_eq_some_iff, Prod.mk.injEq] at h
      obtain ⟨t', hinfo, rfl, rfl⟩ := h
      have hanswer : answer = answerPacket t' := by
        obtain ⟨opcode, parameters⟩ := answer
        rw [targetInformation_eq_some_iff] at hinfo
        exact congrArg₂ Packet.mk hopcode hinfo
      rw [hanswer] at hwell ⊢
      exact ⟨rfl, hwell, rfl⟩
  · intro h
    rcases h with ⟨rfl, hwell, rfl⟩
    have hcall : packetHandler remote (answerPacket t).encode =
        .informationAnswerPacket remote (answerPacket t) :=
      packetHandler_answer_iff.mpr ⟨rfl, hwell, rfl, rfl⟩
    have hinfo : targetInformation (answerPacket t) = some t :=
      targetInformation_eq_some_iff.mpr rfl
    rw [packetResponse, hcall]
    simp [hinfo]

end Arinc615a.Find
