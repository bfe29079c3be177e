import Arinc615a.Find.Query

/-!
# The answer to a FIND query

A target information on its way from `ServerImpl::response` to the response
handler of a query. The server sends what its socket takes; the query receives
into a buffer of `Packet::MaxPacketSize` bytes, and what does not fit is no
packet any more.
-/

namespace Arinc615a.Find

open Actions Actions.Action Machines
open Tftp Terminated Query

/-- The strings of a target information have no terminator in them. -/
def TargetInformation.Free (t : TargetInformation) : Prop :=
  ∀ parameter ∈ (answerPacket t).parameters, stringTerminator ∉ parameter

/-- The size of the answer: opcode, five strings with their terminators, packet
terminator. -/
def answerSize (t : TargetInformation) : Nat :=
  t.thwId.length + t.thwTypeName.length + t.thwPosition.length + t.literalName.length +
    t.manufacturerCode.length + 8

/-- The calls of the response handler. -/
def responses (out : List Output) : List (Nat × TargetInformation) :=
  out.filterMap fun
    | .response address t => some (address, t)
    | _ => none

/-- The server refuses the target information, or a query that waits for a
datagram calls its response handler with it, once and with its sender. -/
def AnswerDelivered (cfg : Configuration) (sendTo : RawData → Bool) (server remote : Endpoint)
    (t : TargetInformation) : Prop :=
  match response sendTo remote t with
  | .error _ => True
  | .ok datagram => ∀ s : State, s.receive = .waiting → s.responding = false →
    ∃ s' out, (machine { cfg with responseHandler := true }).exec s
      [.datagramReceived server datagram.rawPacket, .receiveHandler] = some (s', out) ∧
      responses out = [(server.address, t)]

theorem length_encode_answerPacket (t : TargetInformation) :
    (answerPacket t).encode.length = answerSize t := by
  simp only [Packet.encode_eq, answerPacket, List.length_append, BigEndian.length_beBytes,
    joined_cons, joined_nil, List.length_cons, List.length_nil, answerSize]
  omega

theorem wellFormed_answerPacket {t : TargetInformation} (h : t.Free) :
    (answerPacket t).WellFormed :=
  ⟨by simp [answerPacket], by simp [answerPacket], h⟩

/-- What the query makes of a datagram that it waits for. -/
theorem datagram_run (cfg : Configuration) {s : State} (server : Endpoint) (datagram : RawData)
    (hwaiting : s.receive = .waiting) (hidle : s.responding = false) :
    ∃ s' out, (machine { cfg with responseHandler := true }).exec s
        [.datagramReceived server datagram, .receiveHandler] = some (s', out) ∧
      responses out = (packetResponse server (datagram.take maxPacketSize)).toList := by
  have hreceived : (machine { cfg with responseHandler := true }).step s
      (.datagramReceived server datagram) = some ({ s with
        receive := .queued (.received server (datagram.take maxPacketSize)) }, []) := by
    rw [step_eq_some]
    simp only [react, get_bind, require_bind, hwaiting, if_true, modify_apply]
  have hhandled : ∃ s' out, (machine { cfg with responseHandler := true }).step
      { s with receive := .queued (.received server (datagram.take maxPacketSize)) }
        .receiveHandler = some (s', out) ∧
      responses out = (packetResponse server (datagram.take maxPacketSize)).toList := by
    simp only [step_eq_some, react, get_bind, require_bind, hidle, if_true, modify_bind,
      receiveHandler]
    cases packetResponse server (datagram.take maxPacketSize) with
    | none => exact ⟨_, _, rfl, rfl⟩
    | some response => exact ⟨_, _, rfl, rfl⟩
  obtain ⟨s', out, hstep, hout⟩ := hhandled
  exact ⟨s', out, Machine.exec_cons.mpr ⟨_, _, _, hreceived, Machine.exec_singleton.mpr hstep,
    rfl⟩, hout⟩

/-- What is cut off is no answer. -/
theorem packetResponse_truncated {t : TargetInformation} (server : Endpoint)
    (h : maxPacketSize < answerSize t) :
    packetResponse server ((answerPacket t).encode.take maxPacketSize) ≠
      some (server.address, t) := by
  intro hresponse
  obtain ⟨-, -, hencode⟩ := packetResponse_eq_some_iff.mp hresponse
  have hlength := congrArg List.length hencode
  rw [List.length_take, length_encode_answerPacket] at hlength
  omega

/-- What fits the buffer is the answer. -/
theorem packetResponse_fits {t : TargetInformation} (server : Endpoint) (hfree : t.Free)
    (h : answerSize t ≤ maxPacketSize) :
    packetResponse server ((answerPacket t).encode.take maxPacketSize) =
      some (server.address, t) := by
  rw [List.take_of_length_le (by rwa [length_encode_answerPacket])]
  exact packetResponse_eq_some_iff.mpr ⟨rfl, wellFormed_answerPacket hfree, rfl⟩

/-- An answer that is sent and does not fit is lost. -/
theorem not_answerDelivered {cfg : Configuration} {sendTo : RawData → Bool}
    {server remote : Endpoint} {t : TargetInformation}
    (hsend : sendTo (answerPacket t).encode = true) (h : maxPacketSize < answerSize t) :
    ¬ AnswerDelivered cfg sendTo server remote t := by
  intro hdelivered
  simp only [AnswerDelivered, response, hsend, if_true] at hdelivered
  obtain ⟨s', out, hrun, hout⟩ := hdelivered started rfl rfl
  obtain ⟨s₁, out₁, hrun₁, hout₁⟩ :=
    datagram_run cfg (s := started) server (answerPacket t).encode rfl rfl
  rw [hrun, Option.some.injEq, Prod.mk.injEq] at hrun₁
  rw [← hrun₁.2, hout] at hout₁
  exact packetResponse_truncated server h (Option.toList_eq_singleton_iff.mp hout₁.symm)

/-- **The answer end to end**: it arrives, or is refused, exactly if it fits the
buffer of the query or the socket of the server refuses it. -/
theorem answer_delivered_iff (cfg : Configuration) (sendTo : RawData → Bool)
    (server remote : Endpoint) {t : TargetInformation} (hfree : t.Free) :
    AnswerDelivered cfg sendTo server remote t ↔
      answerSize t ≤ maxPacketSize ∨ sendTo (answerPacket t).encode = false := by
  cases hsend : sendTo (answerPacket t).encode with
  | false => simp [AnswerDelivered, response, hsend]
  | true =>
    rw [or_iff_left (by simp)]
    constructor
    · intro hdelivered
      by_contra hlarge
      exact not_answerDelivered hsend (Nat.lt_of_not_le hlarge) hdelivered
    · intro hfits
      simp only [AnswerDelivered, response, hsend, if_true]
      intro s hwaiting hidle
      obtain ⟨s', out, hrun, hout⟩ :=
        datagram_run cfg server (answerPacket t).encode hwaiting hidle
      refine ⟨s', out, hrun, ?_⟩
      rw [hout, packetResponse_fits server hfree hfits]
      rfl

/-- The answer of a target arrives. -/
theorem answer_delivered_short :
    AnswerDelivered ⟨true, true, ⟨0, 1001⟩⟩ (fun _ => true) ⟨7, 1001⟩ ⟨9, 50000⟩
      ⟨str "HNPFMS", str "FMS", str "L", str "LITERAL", str "XYZ"⟩ :=
  (answer_delivered_iff _ _ _ _ (by unfold TargetInformation.Free; decide)).mpr
    (.inl (by decide))

/-- A target hardware identifier of 1017 bytes is sent and does not arrive. -/
theorem answer_truncated :
    ¬ ∀ (cfg : Configuration) (sendTo : RawData → Bool) (server remote : Endpoint)
      (t : TargetInformation), t.Free → AnswerDelivered cfg sendTo server remote t := by
  intro h
  have hfree : ∀ n, TargetInformation.Free ⟨List.replicate n 65, [], [], [], []⟩ := by
    intro n parameter hparameter hterminator
    have hcases : parameter = List.replicate n 65 ∨ parameter = [] := by
      simpa [answerPacket] using hparameter
    rcases hcases with rfl | rfl
    · exact absurd (List.eq_of_mem_replicate hterminator) (by decide)
    · cases hterminator
  have hsize : ∀ n, answerSize ⟨List.replicate n 65, [], [], [], []⟩ = n + 8 := by
    intro n
    simp [answerSize]
  have hdelivered :=
    h ⟨true, true, ⟨0, 1001⟩⟩ (fun _ => true) ⟨7, 1001⟩ ⟨9, 50000⟩ _ (hfree 1017)
  apply not_answerDelivered rfl ?_ hdelivered
  rw [hsize]
  decide

end Arinc615a.Find
