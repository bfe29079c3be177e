import Arinc615a.Find.Answer
import Arinc615a.Find.Server
import Arinc615a.Lib.Network

/-!
# FIND queries and servers

A query and any number of servers as one system. UDP carries the request to the
servers and their answers back; datagrams are lost, repeated and overtake each other,
but none is made up. So the servers are asked by the query only, and what its response
handler is told was answered by the server at that address (`discovery_origins`). In the
other direction a server that waits can always be asked, and its answer can reach the
query (`discovery_answers`).
-/

namespace Arinc615a.Find

open Actions Actions.Action Machines
open Tftp Terminated

/-! ## The steps of a query -/

namespace Query

variable {cfg : Configuration} {s s' : State} {e : Event} {out : List Output}

/-- What is queued behind a cancellation, but its own handler, was queued before. -/
theorem Asynchronous.eq_of_cancel {ρ : Type} {aborted result : ρ} {operation : Asynchronous ρ}
    (h : operation.cancel aborted = queued result) (hne : result ≠ aborted) :
    operation = queued result := by
  cases operation with
  | idle => cases h
  | waiting =>
    cases h
    exact absurd rfl hne
  | queued result' => exact h

/-- What the receive handler is queued with was received, as far as the buffer holds it. -/
theorem queued_of_step {remote : Endpoint} {rawPacket : RawData}
    (h : (machine cfg).step s e = some (s', out))
    (hqueued : s'.receive = .queued (.received remote rawPacket)) :
    s.receive = .queued (.received remote rawPacket) ∨
      ∃ datagram, e = .datagramReceived remote datagram ∧
        rawPacket = datagram.take maxPacketSize := by
  have hposted : posted s ≠ .queued (.received remote rawPacket) := by
    unfold posted
    split <;> nofun
  cases taken_of_step h with
  | @received remote' datagram hwaiting =>
    cases hqueued
    exact .inr ⟨datagram, rfl, rfl⟩
  | receiveFailed hwaiting => cases hqueued
  | receiveAborted hidle haborted => cases hqueued
  | receiveAgain hidle hdue => exact absurd hqueued hposted
  | response hidle hdue => cases hqueued
  | returned hresponding => exact absurd hqueued hposted
  | timerCompletes hidle hdue hopen => exact .inl (Asynchronous.eq_of_cancel hqueued nofun)
  | aborts hopen => exact .inl (Asynchronous.eq_of_cancel hqueued nofun)
  | _ => exact .inl hqueued

theorem out_of_receive {t t' : State} (h : receive t [] = some ((), t', out)) :
    out = [.receivePosted] := by
  cases h
  rfl

/-- The response handler is called with what the receive handler is queued with. -/
theorem response_of_step {address : Nat} {t : TargetInformation}
    (h : (machine cfg).step s e = some (s', out)) (ho : .response address t ∈ out) :
    ∃ remote rawPacket, s.receive = .queued (.received remote rawPacket) ∧
      packetResponse remote rawPacket = some (address, t) := by
  have hposts : ∀ {t t' : State}, receive t [] = some ((), t', out) → False := by
    intro t t' hreceive
    rw [out_of_receive hreceive] at ho
    simp at ho
  have hcompletion : .response address t ∉ completion cfg := by
    unfold completion
    split <;> simp
  cases e with
  | receiveHandler =>
    rw [step_eq_some] at h
    simp only [react, get_bind, require_bind_eq_some] at h
    obtain ⟨hidle, h⟩ := h
    cases hreceive : s.receive with
    | idle => simp [hreceive] at h
    | waiting => simp [hreceive] at h
    | queued result =>
      simp only [hreceive, modify_bind] at h
      cases result with
      | operationAborted =>
        cases h
        cases ho
      | failure => exact (hposts h).elim
      | received remote rawPacket =>
        rw [receiveHandler] at h
        cases hresponse : packetResponse remote rawPacket with
        | none =>
          rw [hresponse] at h
          exact (hposts h).elim
        | some response =>
          obtain ⟨address', t'⟩ := response
          simp only [hresponse, if_apply] at h
          split at h
          · cases h
            cases List.mem_singleton.mp ho
            exact ⟨remote, rawPacket, rfl, hresponse⟩
          · exact (hposts h).elim
  | timerHandler =>
    cases taken_of_step h with
    | timerAborted hidle haborted => cases ho
    | timerCompletes hidle hdue hopen => exact absurd ho hcompletion
    | timerThrows hidle hdue hclosed => simp [hcompletion] at ho
  | abort =>
    cases taken_of_step h with
    | aborts hopen => exact absurd ho hcompletion
    | abortThrows hclosed => simp [hcompletion] at ho
  | _ =>
    cases taken_of_step h
    simp at ho

/-- The request was sent by the start. -/
theorem send_of_step {datagram : Datagram} (h : (machine cfg).step s e = some (s', out)) :
    .send datagram ∉ out := by
  have hcompletion : .send datagram ∉ completion cfg := by
    unfold completion
    split <;> simp
  cases taken_of_step h with
  | timerThrows hidle hdue hclosed => simp [hcompletion]
  | abortThrows hclosed => simp [hcompletion]
  | timerCompletes hidle hdue hopen => exact hcompletion
  | aborts hopen => exact hcompletion
  | _ => simp

end Query

/-! ## The steps of a server -/

namespace Server

variable {cfg : Configuration} {s s' : State} {e : Event} {out : List Output}

theorem queued_of_step {remote : Endpoint} {datagram : RawData}
    (h : (machine cfg).step s e = some (s', out))
    (hqueued : s'.receive = .queued (.received remote datagram)) :
    s.receive = .queued (.received remote datagram) ∨ e = .datagramReceived remote datagram := by
  have hposted : posted s ≠ .queued (.received remote datagram) := by
    unfold posted
    split <;> nofun
  cases taken_of_step h with
  | received hwaiting =>
    cases hqueued
    exact .inr rfl
  | receiveFailed hwaiting => cases hqueued
  | receiveAborted hidle haborted => cases hqueued
  | receiveAgain hidle hfailure => exact absurd hqueued hposted
  | ignored hidle hreceived hignored => exact absurd hqueued hposted
  | request hidle hreceived hset hpasses => cases hqueued
  | returned hhandling => exact absurd hqueued hposted
  | stops hopen => exact .inl (Query.Asynchronous.eq_of_cancel hqueued nofun)
  | _ => exact .inl hqueued

/-- An answer is sent where the socket takes it. -/
theorem response_step {remote : Endpoint} {t : TargetInformation} :
    (machine cfg).step s (.response remote t) = some (s', out) ↔ s' = s ∧ out =
      [if s.socketOpen && cfg.sendTo (answerPacket t).encode then
        .send ⟨remote, (answerPacket t).encode⟩ else .responseThrew] := by
  rw [step_eq_some]
  simp only [react, response, get_bind, Find.response]
  by_cases hsends : (s.socketOpen && cfg.sendTo (answerPacket t).encode) = true
  · simp only [if_pos hsends, emit_apply, Option.some.injEq, Prod.mk.injEq, true_and,
      List.nil_append]
    exact and_congr eq_comm eq_comm
  · simp only [if_neg hsends, emit_apply, Option.some.injEq, Prod.mk.injEq, true_and,
      List.nil_append]
    exact and_congr eq_comm eq_comm

/-- The request handler is called for a datagram that passes. -/
theorem request_of_step {remote : Endpoint} (h : (machine cfg).step s e = some (s', out))
    (ho : .request remote ∈ out) :
    ∃ datagram, s.receive = .queued (.received remote datagram) ∧ Passes datagram := by
  cases e with
  | response remote' t =>
    obtain ⟨-, rfl⟩ := response_step.mp h
    split at ho <;> simp at ho
  | receiveHandler =>
    cases taken_of_step h with
    | request hidle hreceived hset hpasses =>
      cases List.mem_singleton.mp ho
      exact ⟨_, hreceived, hpasses⟩
    | _ => simp at ho
  | _ => cases taken_of_step h <;> simp at ho

/-- A server sends the answers that it is called with. -/
theorem send_of_step {datagram : Datagram} (h : (machine cfg).step s e = some (s', out))
    (ho : .send datagram ∈ out) :
    ∃ t, e = .response datagram.remote t ∧ datagram.rawPacket = (answerPacket t).encode := by
  cases e with
  | response remote t =>
    obtain ⟨-, rfl⟩ := response_step.mp h
    split at ho
    · cases List.mem_singleton.mp ho
      exact ⟨t, rfl, rfl⟩
    · simp at ho
  | _ => cases taken_of_step h <;> simp at ho

end Server

/-! ## Queries and servers -/

/-- The query, and a server for each index. -/
inductive Node (ι : Type) where
  | query
  | server (i : ι)
  deriving DecidableEq

variable {ι : Type}

abbrev Node.State : Node ι → Type
  | query => Query.State
  | server _ => Server.State

abbrev Node.Event : Node ι → Type
  | query => Query.Event
  | server _ => Server.Event

abbrev Node.Output : Node ι → Type
  | query => Query.Output
  | server _ => Server.Output

/-- A datagram and the socket it was sent from. -/
structure SentDatagram where
  source : Endpoint
  datagram : Datagram
  deriving DecidableEq

/-- A query and servers with their sockets. The request of the query goes to all of the
servers, or to the one at its remote endpoint. -/
structure Discovery (ι : Type) where
  query : Query.Configuration
  source : Endpoint
  server : ι → Server.Configuration
  endpoint : ι → Endpoint

namespace Discovery

variable (discovery : Discovery ι)

def querySends : Query.Output → Option SentDatagram
  | .send datagram => some ⟨discovery.source, datagram⟩
  | _ => none

def serverSends (i : ι) : Server.Output → Option SentDatagram
  | .send datagram => some ⟨discovery.endpoint i, datagram⟩
  | _ => none

/-- The datagram is received as it was sent, by the node that it was sent to. -/
def arrives (sentTo : Endpoint → Bool) (remote : Endpoint) (datagram : RawData)
    (sent : SentDatagram) : Bool :=
  sent.source = remote ∧ sentTo sent.datagram.remote = true ∧ sent.datagram.rawPacket = datagram

def queryTakes : Query.Event → Option (SentDatagram → Bool)
  | .datagramReceived remote datagram => some (arrives (· = discovery.source) remote datagram)
  | _ => none

def serverTakes (i : ι) : Server.Event → Option (SentDatagram → Bool)
  | .datagramReceived remote datagram =>
    some (arrives (fun e => e = discovery.query.remote ∨ e = discovery.endpoint i) remote datagram)
  | _ => none

abbrev network : Network (Node ι) SentDatagram where
  State := Node.State
  Event := Node.Event
  Output := Node.Output
  machine
    | .query => Query.machine discovery.query
    | .server i => Server.machine (discovery.server i)
  sends
    | .query => discovery.querySends
    | .server i => discovery.serverSends i
  takes
    | .query => fun _ => discovery.queryTakes
    | .server i => fun _ => discovery.serverTakes i

/-- The request of the query. -/
def request : SentDatagram :=
  ⟨discovery.source, ⟨discovery.query.remote, Packet.encode ⟨.informationRequest, [[]]⟩⟩⟩

/-- All of them have started, and the request is under way. -/
def start : discovery.network.Snapshot where
  party
    | .query => Query.started
    | .server _ => Server.started
  sent := [discovery.request]

/-- The system as one machine. -/
abbrev system [DecidableEq ι] := discovery.network.system

end Discovery

variable {discovery : Discovery ι} {c c' : discovery.network.Snapshot}
  {es : List (Σ i : Node ι, i.Event)} {tr out : List (Σ i : Node ι, i.Output)}
  {e : Σ i : Node ι, i.Event}

/-! ## What was sent and received -/

/-- A datagram under way: the request, or the answer that a server was called with. -/
inductive Sent (discovery : Discovery ι) (es : List (Σ i : Node ι, i.Event)) :
    SentDatagram → Prop where
  | request : Sent discovery es discovery.request
  | answer {i : ι} {remote : Endpoint} {t : TargetInformation}
    (h : ⟨.server i, .response remote t⟩ ∈ es) :
    Sent discovery es ⟨discovery.endpoint i, remote, (answerPacket t).encode⟩

theorem Sent.append {m : SentDatagram} (h : Sent discovery es m)
    (es' : List (Σ i : Node ι, i.Event)) : Sent discovery (es ++ es') m := by
  cases h with
  | request => exact .request
  | answer h => exact .answer (List.mem_append_left _ h)

/-- What is under way, and what the receive handlers are queued with. -/
structure Received (discovery : Discovery ι) (es : List (Σ i : Node ι, i.Event))
    (c : discovery.network.Snapshot) : Prop where
  sent : ∀ m ∈ c.sent, Sent discovery es m
  query : ∀ remote rawPacket,
    (c.party .query).receive = .queued (.received remote rawPacket) →
      ∃ datagram, Sent discovery es ⟨remote, discovery.source, datagram⟩ ∧
        rawPacket = datagram.take maxPacketSize
  server : ∀ i remote datagram,
    (c.party (.server i)).receive = .queued (.received remote datagram) →
      ∃ destination, Sent discovery es ⟨remote, destination, datagram⟩

/-- What a step puts into the network. -/
theorem sent_of_step {i : Node ι} {s s' : discovery.network.State i} {f : i.Event}
    {os : List i.Output} (h : (discovery.network.machine i).step s f = some (s', os))
    {m : SentDatagram} (hm : m ∈ os.filterMap (discovery.network.sends i)) :
    Sent discovery [⟨i, f⟩] m := by
  obtain ⟨o, ho, hsends⟩ := List.mem_filterMap.mp hm
  cases i with
  | query =>
    cases o with
    | send datagram => exact absurd ho (Query.send_of_step h)
    | _ => cases hsends
  | server i =>
    cases o with
    | send datagram =>
      cases hsends
      obtain ⟨t, rfl, hencode⟩ := Server.send_of_step h ho
      obtain ⟨remote, rawPacket⟩ := datagram
      cases hencode
      exact .answer (List.mem_singleton_self _)
    | _ => cases hsends

/-- What a datagram that is received was sent as. -/
theorem exists_sent {sentTo : Endpoint → Bool} {remote : Endpoint} {datagram : RawData}
    (hsent : ∀ m ∈ c.sent, Sent discovery es m)
    (h : c.sent.any (Discovery.arrives sentTo remote datagram) = true) :
    ∃ destination, sentTo destination = true ∧
      Sent discovery es ⟨remote, destination, datagram⟩ := by
  obtain ⟨⟨source, destination, rawPacket⟩, hm, harrives⟩ := List.any_eq_true.mp h
  obtain ⟨rfl, hto, rfl⟩ := of_decide_eq_true harrives
  exact ⟨destination, hto, hsent _ hm⟩

section Runs

variable [DecidableEq ι]

theorem received_step (h : Received discovery es c)
    (hstep : discovery.system.step c e = some (c', out)) : Received discovery (es ++ [e]) c' := by
  obtain ⟨i, f⟩ := e
  obtain ⟨hsupplied, s', os, hparty, rfl, rfl⟩ := Network.step_iff.mp hstep
  constructor
  · intro m hm
    rcases List.mem_append.mp hm with hbefore | hnew
    · exact (h.sent m hbefore).append _
    · cases sent_of_step hparty hnew with
      | request => exact .request
      | answer hmem => exact .answer (List.mem_append_right _ hmem)
  · intro remote rawPacket hqueued
    have hbefore : (c.party .query).receive = .queued (.received remote rawPacket) →
        ∃ datagram, Sent discovery (es ++ [⟨i, f⟩]) ⟨remote, discovery.source, datagram⟩ ∧
          rawPacket = datagram.take maxPacketSize := by
      intro hreceive
      obtain ⟨datagram, hsent, hcut⟩ := h.query remote rawPacket hreceive
      exact ⟨datagram, hsent.append _, hcut⟩
    cases i with
    | query =>
      rw [Network.party_after_self] at hqueued
      rcases Query.queued_of_step hparty hqueued with hreceive | ⟨datagram, rfl, hcut⟩
      · exact hbefore hreceive
      · obtain ⟨destination, hto, hsent⟩ := exists_sent h.sent hsupplied
        rw [of_decide_eq_true hto] at hsent
        exact ⟨datagram, hsent.append _, hcut⟩
    | server j =>
      have hne : Node.query ≠ .server j := nofun
      rw [Network.party_after_of_ne hne] at hqueued
      exact hbefore hqueued
  · intro j remote datagram hqueued
    have hbefore : (c.party (.server j)).receive = .queued (.received remote datagram) →
        ∃ destination, Sent discovery (es ++ [⟨i, f⟩]) ⟨remote, destination, datagram⟩ := by
      intro hreceive
      obtain ⟨destination, hsent⟩ := h.server j remote datagram hreceive
      exact ⟨destination, hsent.append _⟩
    by_cases hsame : Node.server j = i
    · subst hsame
      rw [Network.party_after_self] at hqueued
      rcases Server.queued_of_step hparty hqueued with hreceive | rfl
      · exact hbefore hreceive
      · obtain ⟨destination, -, hsent⟩ := exists_sent h.sent hsupplied
        exact ⟨destination, hsent.append _⟩
    · rw [Network.party_after_of_ne hsame] at hqueued
      exact hbefore hqueued

/-- **Datagrams**: in every run, what is received was sent. -/
theorem received_run (h : discovery.system.exec discovery.start es = some (c, tr)) :
    Received discovery es c := by
  refine Machine.exec_history (m := discovery.system)
    (fun es c _ => Received discovery es c) ?_ ?_ h
  · refine ⟨fun m hm => ?_, fun _ _ hqueued => ?_, fun _ _ _ hqueued => ?_⟩
    · obtain rfl := List.mem_singleton.mp hm
      exact .request
    · cases hqueued
    · cases hqueued
  · intro es c tr e c' out _ ih hstep
    exact received_step ih hstep

end Runs

/-! ## Where requests and responses come from -/

/-- An answer is told from the other answers by any part of it that is an answer. -/
theorem eq_of_prefix {t t' : TargetInformation} (hfree : t.Free) (hfree' : t'.Free)
    (h : (answerPacket t).encode <+: (answerPacket t').encode) : t = t' := by
  obtain ⟨rest, h⟩ := h
  simp only [Packet.encode_eq, List.append_assoc] at h
  obtain ⟨-, h⟩ := List.append_inj h rfl
  obtain ⟨hparameters, -⟩ := joined_append_inj hfree hfree' rfl h
  obtain ⟨thwId, thwTypeName, thwPosition, literalName, manufacturerCode⟩ := t
  obtain ⟨thwId', thwTypeName', thwPosition', literalName', manufacturerCode'⟩ := t'
  simp only [answerPacket, List.cons.injEq, and_true] at hparameters
  obtain ⟨rfl, rfl, rfl, rfl, rfl⟩ := hparameters
  rfl

/-- The request is no answer. -/
theorem request_ne {t : TargetInformation} (hwell : (answerPacket t).WellFormed) :
    (Packet.encode ⟨.informationRequest, [[]]⟩).take maxPacketSize ≠ (answerPacket t).encode := by
  intro h
  have htype : Opcode.informationRequest = .informationAnswer :=
    (congrArg packetType h).trans (packetType_encode hwell)
  cases htype

/-- The calls of handlers that tell of the other side. -/
def isCall : (Σ i : Node ι, i.Output) → Bool
  | ⟨.query, .response _ _⟩ => true
  | ⟨.server _, .request _⟩ => true
  | _ => false

inductive CallOrigin (discovery : Discovery ι) (es : List (Σ i : Node ι, i.Event)) :
    (Σ i : Node ι, i.Output) → Prop where
  /-- The query sent its request. -/
  | request {i : ι} : CallOrigin discovery es ⟨.server i, .request discovery.source⟩
  /-- The server at this address was called with the answer. Texts with a terminator in
  them arrive as others, if at all. -/
  | response {i : ι} {t t' : TargetInformation}
    (h : ⟨.server i, .response discovery.source t⟩ ∈ es)
    (hencode : (answerPacket t').encode = (answerPacket t).encode.take maxPacketSize)
    (heq : t.Free → t' = t) :
    CallOrigin discovery es ⟨.query, .response (discovery.endpoint i).address t'⟩

theorem origin_of_response {s' : Query.State} {f : Query.Event} {os : List Query.Output}
    (hreceived : Received discovery es c)
    (hstep : (Query.machine discovery.query).step (c.party .query) f = some (s', os))
    {address : Nat} {t : TargetInformation} (ho : .response address t ∈ os) :
    CallOrigin discovery es ⟨.query, .response address t⟩ := by
  obtain ⟨remote, rawPacket, hreceive, hresponse⟩ := Query.response_of_step hstep ho
  obtain ⟨datagram, hsent, rfl⟩ := hreceived.query remote rawPacket hreceive
  obtain ⟨rfl, hwell, hencode⟩ := packetResponse_eq_some_iff.mp hresponse
  generalize hm : SentDatagram.mk remote ⟨discovery.source, datagram⟩ = m at hsent
  cases hsent with
  | request =>
    obtain rfl : datagram = Packet.encode ⟨.informationRequest, [[]]⟩ :=
      congrArg (·.datagram.rawPacket) hm
    exact absurd hencode (request_ne hwell)
  | answer hmem =>
    cases hm
    refine .response hmem hencode.symm fun hfree => eq_of_prefix hwell.free hfree ?_
    rw [← hencode]
    exact List.take_prefix _ _

/-- A packet starts with its opcode. -/
theorem take_encode (packet : Packet) :
    packet.encode.take 2 = BigEndian.beBytes 2 packet.opcode.toUInt16.toNat := by
  rw [Packet.encode_eq, List.append_assoc, List.take_left' (BigEndian.length_beBytes ..)]

/-- The answers are no requests. -/
theorem not_passes_answer (t : TargetInformation) : ¬ Server.Passes (answerPacket t).encode := by
  rintro ⟨⟨opcode, parameters⟩, hdecode, rfl, -⟩
  have hfront := congrArg (List.take 2) (Packet.decode_eq_ok_iff.mp hdecode).2
  rw [List.take_take, show min 2 maxPacketSize = 2 from rfl, take_encode, take_encode] at hfront
  have hopcode : BigEndian.beBytes 2 2 = BigEndian.beBytes 2 1 := hfront
  exact absurd hopcode (by decide)

theorem origin_of_request {i : ι} {s' : Server.State} {f : Server.Event}
    {os : List Server.Output} (hreceived : Received discovery es c)
    (hstep : (Server.machine (discovery.server i)).step (c.party (.server i)) f = some (s', os))
    {remote : Endpoint} (ho : .request remote ∈ os) :
    CallOrigin discovery es ⟨.server i, .request remote⟩ := by
  obtain ⟨datagram, hreceive, hpasses⟩ := Server.request_of_step hstep ho
  obtain ⟨destination, hsent⟩ := hreceived.server i remote datagram hreceive
  generalize hm : SentDatagram.mk remote ⟨destination, datagram⟩ = m at hsent
  cases hsent with
  | request =>
    cases hm
    exact .request
  | answer hmem =>
    cases hm
    exact absurd hpasses (not_passes_answer _)

/-- **Origins**: behind every run, a server that is asked is asked by the query, and what
the response handler is told was answered by the server at its address. -/
theorem discovery_origins [DecidableEq ι]
    (hrun : discovery.system.exec discovery.start es = some (c, tr))
    (hstep : discovery.system.step c e = some (c', out)) {o : Σ i : Node ι, i.Output}
    (ho : o ∈ out) (hcall : isCall o = true) : CallOrigin discovery es o := by
  have hreceived := received_run hrun
  obtain ⟨i, o⟩ := o
  obtain ⟨f, s', os, -, -, hparty, -, hos⟩ := Network.exists_step_of_mem hstep ho
  cases i with
  | query =>
    cases o with
    | response address t => exact origin_of_response hreceived hparty hos
    | _ => cases hcall
  | server i =>
    cases o with
    | request remote => exact origin_of_request hreceived hparty hos
    | _ => cases hcall

/-- A query and two servers. -/
def exampleDiscovery : Discovery Bool where
  query := ⟨true, true, ⟨255, 1001⟩⟩
  source := ⟨9, 50000⟩
  server _ := ⟨true, fun _ => true⟩
  endpoint i := if i then ⟨1, 1001⟩ else ⟨2, 1001⟩

/-- The answer of the first server is told with its address. -/
theorem discovery_origins_answer : ∃ t,
    CallOrigin exampleDiscovery
      [⟨.server true, .response exampleDiscovery.source ⟨str "MCU1", [], str "L", [], []⟩⟩,
        ⟨.query, .datagramReceived ⟨1, 1001⟩
          (answerPacket ⟨str "MCU1", [], str "L", [], []⟩).encode⟩]
      ⟨.query, .response 1 t⟩ :=
  ⟨⟨str "MCU1", [], str "L", [], []⟩, @discovery_origins _ exampleDiscovery _ _ _ _ _
    ⟨.query, .receiveHandler⟩ _ rfl rfl _ (.head _) rfl⟩

/-! ## A server can be asked, and be heard -/

/-- The query and the server wait for datagrams, and have their handlers set. -/
structure Listening (discovery : Discovery ι) (c : discovery.network.Snapshot) (i : ι) : Prop where
  queryWaiting : (c.party .query).receive = .waiting
  queryIdle : (c.party .query).responding = false
  responseHandler : discovery.query.responseHandler = true
  serverWaiting : (c.party (.server i)).receive = .waiting
  serverIdle : (c.party (.server i)).handling = false
  serverOpen : (c.party (.server i)).socketOpen = true
  requestHandler : (discovery.server i).requestHandler = true

/-- The request is sent to the server, which is called with an answer to its sender, and
the answer is sent to the query. -/
def exchange (discovery : Discovery ι) (i : ι) (t : TargetInformation) :
    List (Σ i : Node ι, i.Event) :=
  [⟨.server i, .datagramReceived discovery.source discovery.request.datagram.rawPacket⟩,
    ⟨.server i, .receiveHandler⟩, ⟨.server i, .response discovery.source t⟩,
    ⟨.query, .datagramReceived (discovery.endpoint i) (answerPacket t).encode⟩,
    ⟨.query, .receiveHandler⟩]

theorem Query.response_run {cfg : Query.Configuration} {s : Query.State} {remote : Endpoint}
    {datagram : RawData} {address : Nat} {t : TargetInformation} (hwaiting : s.receive = .waiting)
    (hidle : s.responding = false) (hset : cfg.responseHandler = true)
    (hresponse : packetResponse remote (datagram.take maxPacketSize) = some (address, t)) :
    (Query.machine cfg).exec s [.datagramReceived remote datagram, .receiveHandler] =
      some ({ s with receive := .idle, responding := true }, [.response address t]) := by
  have hreceived : (Query.machine cfg).step s (.datagramReceived remote datagram) = some ({ s with
      receive := .queued (.received remote (datagram.take maxPacketSize)) }, []) := by
    rw [Query.step_eq_some]
    simp only [Query.react, get_bind, require_bind, hwaiting, if_true, modify_apply]
  have hhandled : (Query.machine cfg).step
      { s with receive := .queued (.received remote (datagram.take maxPacketSize)) }
        .receiveHandler =
      some ({ s with receive := .idle, responding := true }, [.response address t]) := by
    simp only [Query.step_eq_some, Query.react, get_bind, require_bind, hidle, if_true,
      modify_bind, Query.receiveHandler, hresponse, hset]
    rfl
  exact Machine.exec_cons.mpr ⟨_, _, _, hreceived, Machine.exec_singleton.mpr hhandled, rfl⟩

theorem Server.request_run {cfg : Server.Configuration} {s : Server.State} {remote : Endpoint}
    {datagram : RawData} {t : TargetInformation} (hwaiting : s.receive = .waiting)
    (hidle : s.handling = false) (hopen : s.socketOpen = true) (hset : cfg.requestHandler = true)
    (hpasses : Server.Passes datagram) (hsend : cfg.sendTo (answerPacket t).encode = true) :
    (Server.machine cfg).exec s
        [.datagramReceived remote datagram, .receiveHandler, .response remote t] =
      some ({ s with receive := .idle, handling := true },
        [.request remote, .send ⟨remote, (answerPacket t).encode⟩]) := by
  have hreceived : (Server.machine cfg).step s (.datagramReceived remote datagram) =
      some ({ s with receive := .queued (.received remote datagram) }, []) := by
    rw [Server.step_eq_some]
    simp only [Server.react, get_bind, require_bind, hwaiting, if_true, modify_apply]
  have hhandled : (Server.machine cfg).step
      { s with receive := .queued (.received remote datagram) } .receiveHandler =
      some ({ s with receive := .idle, handling := true }, [.request remote]) := by
    simp only [Server.step_eq_some, Server.react, get_bind, require_bind, hidle, if_true,
      modify_bind, Server.receiveHandler_passes remote _ hset hpasses]
  have hanswered : (Server.machine cfg).step { s with receive := .idle, handling := true }
      (.response remote t) = some ({ s with receive := .idle, handling := true },
        [.send ⟨remote, (answerPacket t).encode⟩]) :=
    Server.response_step.mpr ⟨rfl, by simp [hopen, hsend]⟩
  exact Machine.exec_cons.mpr ⟨_, _, _, hreceived, Machine.exec_cons.mpr
    ⟨_, _, _, hhandled, Machine.exec_singleton.mpr hanswered, rfl⟩, rfl⟩

/-- The request passes the check of the servers. -/
theorem passes_request : Server.Passes discovery.request.datagram.rawPacket :=
  Server.passes_iff.mpr (.inl rfl)

/-- A node that waits for a datagram that was sent to it takes it. -/
theorem any_arrives {sentTo : Endpoint → Bool} {source destination : Endpoint}
    {datagram : RawData} (hsent : ⟨source, destination, datagram⟩ ∈ c.sent)
    (hto : sentTo destination = true) :
    c.sent.any (Discovery.arrives sentTo source datagram) = true :=
  List.any_eq_true.mpr ⟨_, hsent, decide_eq_true ⟨rfl, hto, rfl⟩⟩

section Exchange

variable [DecidableEq ι]

/-- The server is asked, and its answer is under way. -/
theorem server_exchange (hrequest : discovery.request ∈ c.sent) {i : ι}
    (hlisten : Listening discovery c i) {t : TargetInformation}
    (hsend : (discovery.server i).sendTo (answerPacket t).encode = true) :
    ∃ c', discovery.system.exec c ((exchange discovery i t).take 3) = some (c',
        [⟨.server i, .request discovery.source⟩,
          ⟨.server i, .send ⟨discovery.source, (answerPacket t).encode⟩⟩]) ∧
      c'.party .query = c.party .query ∧
      ⟨discovery.endpoint i, discovery.source, (answerPacket t).encode⟩ ∈ c'.sent := by
  have hserver := @Server.request_run _ _ discovery.source _ _ hlisten.serverWaiting
    hlisten.serverIdle hlisten.serverOpen hlisten.requestHandler (@passes_request _ discovery) hsend
  have hasked := @Network.exec_party _ _ discovery.network c _ (.server i) _ _ _ hserver (by
    intro e he s
    simp only [List.mem_cons, List.not_mem_nil, or_false] at he
    obtain rfl | rfl | rfl := he
    · exact any_arrives hrequest (by simp)
    · rfl
    · rfl)
  have hne : Node.query ≠ .server i := nofun
  exact ⟨_, hasked, Network.party_after_of_ne hne _ _,
    List.mem_append_right _ (List.mem_singleton_self _)⟩

/-- The query hears the answer. -/
theorem query_exchange {i : ι} {t : TargetInformation}
    (hsent : ⟨discovery.endpoint i, discovery.source, (answerPacket t).encode⟩ ∈ c.sent)
    (hwaiting : (c.party .query).receive = .waiting)
    (hidle : (c.party .query).responding = false)
    (hset : discovery.query.responseHandler = true) (hfree : t.Free)
    (hsize : answerSize t ≤ maxPacketSize) :
    ∃ c', discovery.system.exec c ((exchange discovery i t).drop 3) = some (c',
      [⟨.query, .response (discovery.endpoint i).address t⟩]) := by
  have hquery := Query.response_run hwaiting hidle hset
    (packetResponse_fits (discovery.endpoint i) hfree hsize)
  exact ⟨_, @Network.exec_party _ _ discovery.network c _ .query _ _ _ hquery (by
    intro e he s
    simp only [List.mem_cons, List.not_mem_nil, or_false] at he
    obtain rfl | rfl := he
    · exact any_arrives hsent (by simp)
    · rfl)⟩

/-- **Discovery**: in every run, where the query and a server listen, the server can be
asked, and an answer of free texts that fits the buffer and that its socket takes reaches
the response handler with the address of the server. -/
theorem discovery_answers
    (hrun : discovery.system.exec discovery.start es = some (c, tr)) {i : ι}
    (hlisten : Listening discovery c i) {t : TargetInformation} (hfree : t.Free)
    (hsize : answerSize t ≤ maxPacketSize)
    (hsend : (discovery.server i).sendTo (answerPacket t).encode = true) :
    ∃ c', discovery.system.exec c (exchange discovery i t) = some (c',
      [⟨.server i, .request discovery.source⟩,
        ⟨.server i, .send ⟨discovery.source, (answerPacket t).encode⟩⟩,
        ⟨.query, .response (discovery.endpoint i).address t⟩]) := by
  have hrequest : discovery.request ∈ c.sent := by
    rw [Network.sent_exec hrun]
    exact List.mem_append_left _ (List.mem_singleton_self _)
  obtain ⟨c₁, hasked, hsame, hsent⟩ := server_exchange hrequest hlisten hsend
  obtain ⟨c₂, hheard⟩ := query_exchange hsent (hsame ▸ hlisten.queryWaiting)
    (hsame ▸ hlisten.queryIdle) hlisten.responseHandler hfree hsize
  rw [← List.take_append_drop 3 (exchange discovery i t)]
  exact ⟨c₂, Machine.exec_append.mpr ⟨_, _, _, hasked, hheard, rfl⟩⟩

/-- The second server is found. -/
theorem discovery_answers_second : ∃ c',
    exampleDiscovery.system.exec exampleDiscovery.start
        (exchange exampleDiscovery false ⟨str "MCU1", [], str "R", [], []⟩) = some (c',
      [⟨.server false, .request ⟨9, 50000⟩⟩,
        ⟨.server false, .send ⟨⟨9, 50000⟩,
          (answerPacket ⟨str "MCU1", [], str "R", [], []⟩).encode⟩⟩,
        ⟨.query, .response 2 ⟨str "MCU1", [], str "R", [], []⟩⟩]) :=
  @discovery_answers _ exampleDiscovery _ [] _ _ rfl false ⟨rfl, rfl, rfl, rfl, rfl, rfl, rfl⟩
    ⟨str "MCU1", [], str "R", [], []⟩ (by unfold TargetInformation.Free; decide) (by decide) rfl

end Exchange

end Arinc615a.Find
