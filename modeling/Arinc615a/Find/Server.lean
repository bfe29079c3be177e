import Arinc615a.Find.Query

/-!
# The FIND server

`find/servers/implementation/ServerImpl.cpp`: a socket with a loop of receives.
A received datagram goes through the packet handler to
`informationRequestPacket`, which calls the request handler; behind each
datagram the next receive is posted.

`find_requests_iff` says for which datagrams the request handler is called as
`find/packets/Packet.hpp` fixes the request: the check joins its two conditions
with `&&`, so that a request passes if only one of them holds.
-/

namespace Arinc615a.Find.Server

open Actions Actions.Action Machines
open Tftp Query

/-! ## The object -/

/-- What the handler of a receive is called with. Of the datagram, the buffer
holds the first `maxPacketSize` bytes. -/
inductive ReceiveResult where
  | received (remote : Endpoint) (datagram : RawData)
  | operationAborted
  | failure
  deriving DecidableEq

/-- Whether a request handler is set, and the data that the socket sends. -/
structure Configuration where
  requestHandler : Bool
  sendTo : RawData → Bool

structure State where
  socketOpen : Bool := false
  receive : Asynchronous ReceiveResult := .idle
  /-- The request handler is being called. -/
  handling : Bool := false
  deriving DecidableEq

inductive Output where
  | receivePosted
  | request (remote : Endpoint)
  | send (datagram : Datagram)
  /-- An exception leaves the receive handler, or a call of the server. -/
  | handlerThrew
  | responseThrew
  | stopThrew
  deriving DecidableEq

abbrev Handler := Action State Output Unit

/-! ## The functions -/

/-- `ServerImpl::receive`. On a closed socket the operation fails at once. -/
def receive : Handler := do
  modify fun s =>
    { s with receive := if s.socketOpen then .waiting else .queued .failure }
  emit .receivePosted

/-- `ServerImpl::start`, every system call succeeding. -/
def start : Handler := do
  modify fun s => { s with socketOpen := true }
  receive

/-- `ServerImpl::stop`. On a closed socket its `cancel` throws. -/
def stop : Handler := do
  let s ← get
  if s.socketOpen then
    modify fun s =>
      { s with
        receive := s.receive.cancel .operationAborted
        socketOpen := false }
  else emit .stopThrew

/-- `ServerImpl::response`. On a closed socket its `send_to` throws. -/
def response (cfg : Configuration) (remote : Endpoint) (findInformation : TargetInformation) :
    Handler := do
  let s ← get
  match Find.response (fun rawPacket => s.socketOpen && cfg.sendTo rawPacket) remote
      findInformation with
  | .ok datagram => emit (.send datagram)
  | .error _ => emit .responseThrew

/-- The check of `ServerImpl::informationRequestPacket`: is the request
ignored? `parameter( 0 )` throws where there is none. -/
def invalidRequest (request : Packet) : Option Bool :=
  if request.parameters.length ≠ 1 then
    (request.parameters[0]?).map fun parameter => !parameter.isEmpty
  else some false

/-- `ServerImpl::informationRequestPacket` and what is behind it in the receive
handler, up to the return of the request handler where it is called. -/
def informationRequestPacket (cfg : Configuration) (remote : Endpoint) (request : Packet) :
    Handler :=
  match invalidRequest request with
  | none => emit .handlerThrew
  | some true => receive
  | some false =>
    if cfg.requestHandler then do
      emit (.request remote)
      modify fun s => { s with handling := true }
    else receive

/-- `ServerImpl::receiveHandler`. -/
def receiveHandler (cfg : Configuration) : ReceiveResult → Handler
  | .operationAborted => pure ()
  | .failure => receive
  | .received remote datagram =>
    match packetHandler remote (datagram.take maxPacketSize) with
    | .informationRequestPacket remote request => informationRequestPacket cfg remote request
    | .informationAnswerPacket .. => receive
    | .invalidPacket .. => receive

/-! ## Events -/

inductive Event where
  /-- The receive completes, with a datagram or with an error. -/
  | datagramReceived (remote : Endpoint) (datagram : RawData)
  | receiveFailed
  /-- The queued handler runs. -/
  | receiveHandler
  /-- The request handler ends. -/
  | requestHandlerReturned
  | requestHandlerThrew
  /-- The calls of the server, from the request handler or from elsewhere. -/
  | response (remote : Endpoint) (findInformation : TargetInformation)
  | stop
  deriving DecidableEq

/-- The reaction to an event, where it can happen. While the request handler
is called, no other handler runs. -/
def react (cfg : Configuration) : Event → Handler
  | .datagramReceived remote datagram => do
    let s ← get
    require (s.receive = .waiting)
    modify fun s => { s with receive := .queued (.received remote datagram) }
  | .receiveFailed => do
    let s ← get
    require (s.receive = .waiting)
    modify fun s => { s with receive := .queued .failure }
  | .receiveHandler => do
    let s ← get
    require (s.handling = false)
    match s.receive with
    | .queued result => do
      modify fun s => { s with receive := .idle }
      receiveHandler cfg result
    | .idle => undefined
    | .waiting => undefined
  | .requestHandlerReturned => do
    let s ← get
    require (s.handling = true)
    modify fun s => { s with handling := false }
    receive
  | .requestHandlerThrew => do
    let s ← get
    require (s.handling = true)
    modify fun s => { s with handling := false }
    emit .handlerThrew
  | .response remote findInformation => response cfg remote findInformation
  | .stop => stop

/-- The server as a machine. -/
def machine (cfg : Configuration) : Machine State Event Output where
  step s e := (react cfg e).run s

/-- The state that a successful `start()` leaves. -/
def started : State := { socketOpen := true, receive := .waiting }

theorem start_run : start.run {} = some (started, [.receivePosted]) := rfl

theorem step_eq_some {cfg : Configuration} {s s' : State} {e : Event} {out : List Output} :
    (machine cfg).step s e = some (s', out) ↔ react cfg e s [] = some ((), s', out) :=
  run_eq_some

/-! ## What a datagram is -/

/-- The datagram is the information request: its one parameter is empty. -/
def IsRequest (datagram : RawData) : Prop :=
  Packet.decode datagram = .ok ⟨.informationRequest, [[]]⟩

/-- What is received of the datagram is another information request: with one
parameter, which is not empty, or with several, of which the first is empty. -/
def Slipped (datagram : RawData) : Prop :=
  ∃ parameter parameters,
    Packet.decode (datagram.take maxPacketSize) =
      .ok ⟨.informationRequest, parameter :: parameters⟩ ∧
    (parameter = [] ↔ parameters ≠ [])

/-- What is received of the datagram is an information request that passes the
check. -/
def Passes (datagram : RawData) : Prop :=
  ∃ request, Packet.decode (datagram.take maxPacketSize) = .ok request ∧
    request.opcode = .informationRequest ∧ invalidRequest request = some false

/-- The packets of the request handler are those of the decoder. -/
theorem packetHandler_request_iff {remote source : Endpoint} {rawPacket : RawData}
    {request : Packet} :
    packetHandler remote rawPacket = .informationRequestPacket source request ↔
      source = remote ∧ request.opcode = .informationRequest ∧
        Packet.decode rawPacket = .ok request := by
  constructor
  · intro h
    rw [packetHandler] at h
    cases htype : packetType rawPacket with
    | informationRequest =>
      rw [htype] at h
      cases hdecode : Packet.decode rawPacket with
      | error e => simp [hdecode] at h
      | ok packet =>
        simp only [hdecode, HandlerCall.informationRequestPacket.injEq] at h
        obtain ⟨rfl, rfl⟩ := h
        obtain ⟨hwell, rfl⟩ := Packet.decode_eq_ok_iff.mp hdecode
        exact ⟨rfl, (packetType_encode hwell).symm.trans htype, rfl⟩
    | informationAnswer =>
      rw [htype] at h
      cases hdecode : Packet.decode rawPacket <;> simp [hdecode] at h
    | invalid => simp [htype] at h
  · intro h
    obtain ⟨rfl, hopcode, hdecode⟩ := h
    obtain ⟨hwell, rfl⟩ := Packet.decode_eq_ok_iff.mp hdecode
    simp only [packetHandler, packetType_encode hwell, hopcode, hdecode]

/-- A decoded request has a parameter that the check looks at. -/
theorem invalidRequest_of_decode {rawPacket : RawData} {request : Packet}
    (h : Packet.decode rawPacket = .ok request) :
    ∃ parameter parameters, request.parameters = parameter :: parameters ∧
      invalidRequest request = some (!parameters.isEmpty && !parameter.isEmpty) := by
  obtain ⟨hwell, -⟩ := Packet.decode_eq_ok_iff.mp h
  obtain ⟨opcode, parameters⟩ := request
  cases parameters with
  | nil => exact absurd rfl hwell.nonempty
  | cons parameter parameters =>
    refine ⟨parameter, parameters, rfl, ?_⟩
    cases parameters with
    | nil => simp [invalidRequest]
    | cons next parameters => simp [invalidRequest]

/-- The information request is received as a whole. -/
theorem isRequest_iff {datagram : RawData} :
    IsRequest datagram ↔
      Packet.decode (datagram.take maxPacketSize) = .ok ⟨.informationRequest, [[]]⟩ := by
  have hwhole : ∀ rawPacket : RawData,
      Packet.decode rawPacket = .ok ⟨.informationRequest, [[]]⟩ → rawPacket.length = 4 := by
    intro rawPacket h
    rw [(Packet.decode_eq_ok_iff.mp h).2]
    rfl
  constructor
  · intro h
    rwa [List.take_of_length_le (by rw [hwhole _ h]; decide)]
  · intro h
    have hlength := hwhole _ h
    rw [List.length_take] at hlength
    rwa [List.take_of_length_le (by unfold maxPacketSize at hlength ⊢; omega)] at h

/-- The check lets the request pass, and what it should not. -/
theorem passes_iff {datagram : RawData} :
    Passes datagram ↔ IsRequest datagram ∨ Slipped datagram := by
  constructor
  · intro h
    obtain ⟨request, hdecode, hopcode, hvalid⟩ := h
    obtain ⟨parameter, parameters, hparameters, hcheck⟩ := invalidRequest_of_decode hdecode
    obtain rfl : request = ⟨.informationRequest, parameter :: parameters⟩ :=
      congrArg₂ Packet.mk hopcode hparameters
    rw [hcheck, Option.some.injEq] at hvalid
    by_cases hempty : parameter = []
    · subst hempty
      by_cases hone : parameters = []
      · subst hone
        exact .inl (isRequest_iff.mpr hdecode)
      · exact .inr ⟨[], parameters, hdecode, by simp [hone]⟩
    · have hone : parameters = [] := by simpa [hempty] using hvalid
      exact .inr ⟨parameter, parameters, hdecode, by simp [hempty, hone]⟩
  · have hpasses : ∀ parameter parameters, Packet.decode (datagram.take maxPacketSize) =
        .ok ⟨.informationRequest, parameter :: parameters⟩ →
        (parameter = [] ∨ parameters = []) → Passes datagram := by
      intro parameter parameters hdecode hone
      obtain ⟨parameter', parameters', hparameters, hcheck⟩ := invalidRequest_of_decode hdecode
      obtain ⟨rfl, rfl⟩ := List.cons.inj hparameters
      refine ⟨_, hdecode, rfl, ?_⟩
      rw [hcheck]
      rcases hone with rfl | rfl
      · simp
      · simp
    intro h
    rcases h with h | ⟨parameter, parameters, hdecode, hslip⟩
    · exact hpasses _ _ (isRequest_iff.mp h) (.inl rfl)
    · by_cases hempty : parameter = []
      · exact hpasses _ _ hdecode (.inl hempty)
      · exact hpasses _ _ hdecode (.inr (by simpa [hempty] using hslip))

/-- What passes goes to the handler of requests. -/
theorem packetHandler_of_passes {datagram : RawData} (remote : Endpoint) (h : Passes datagram) :
    ∃ request, packetHandler remote (datagram.take maxPacketSize) =
      .informationRequestPacket remote request ∧ invalidRequest request = some false := by
  obtain ⟨request, hdecode, hopcode, hvalid⟩ := h
  exact ⟨request, packetHandler_request_iff.mpr ⟨rfl, hopcode, hdecode⟩, hvalid⟩

theorem not_slipped_of_isRequest {datagram : RawData} (h : IsRequest datagram) :
    ¬ Slipped datagram := by
  intro hslipped
  obtain ⟨parameter, parameters, hdecode, hslip⟩ := hslipped
  rw [isRequest_iff.mp h] at hdecode
  cases hdecode
  simp at hslip

/-! ## What a step does -/

/-- The receive that is posted in a state. -/
def posted (s : State) : Asynchronous ReceiveResult :=
  if s.socketOpen then .waiting else .queued .failure

/-- The steps: what each needs of the state, and what it makes of it. -/
inductive Taken (cfg : Configuration) : State → Event → State → List Output → Prop where
  | received {s : State} {remote : Endpoint} {datagram : RawData} (h : s.receive = .waiting) :
    Taken cfg s (.datagramReceived remote datagram)
      { s with receive := .queued (.received remote datagram) } []
  | receiveFailed {s : State} (h : s.receive = .waiting) :
    Taken cfg s .receiveFailed { s with receive := .queued .failure } []
  | receiveAborted {s : State} (hidle : s.handling = false)
      (h : s.receive = .queued .operationAborted) :
    Taken cfg s .receiveHandler { s with receive := .idle } []
  | receiveAgain {s : State} (hidle : s.handling = false) (h : s.receive = .queued .failure) :
    Taken cfg s .receiveHandler { s with receive := posted s } [.receivePosted]
  | ignored {s : State} {remote : Endpoint} {datagram : RawData} (hidle : s.handling = false)
      (h : s.receive = .queued (.received remote datagram))
      (hignored : cfg.requestHandler = true → ¬ Passes datagram) :
    Taken cfg s .receiveHandler { s with receive := posted s } [.receivePosted]
  | request {s : State} {remote : Endpoint} {datagram : RawData} (hidle : s.handling = false)
      (h : s.receive = .queued (.received remote datagram)) (hset : cfg.requestHandler = true)
      (hpasses : Passes datagram) :
    Taken cfg s .receiveHandler { s with receive := .idle, handling := true } [.request remote]
  | returned {s : State} (h : s.handling = true) :
    Taken cfg s .requestHandlerReturned { s with handling := false, receive := posted s }
      [.receivePosted]
  | threw {s : State} (h : s.handling = true) :
    Taken cfg s .requestHandlerThrew { s with handling := false } [.handlerThrew]
  | response {s : State} {remote : Endpoint} {t : TargetInformation} {out : List Output}
      (h : .receivePosted ∉ out ∧ .handlerThrew ∉ out) :
    Taken cfg s (.response remote t) s out
  | stops {s : State} (hopen : s.socketOpen = true) :
    Taken cfg s .stop
      { s with
        receive := s.receive.cancel .operationAborted
        socketOpen := false } []
  | stopThrows {s : State} (hclosed : s.socketOpen = false) :
    Taken cfg s .stop s [.stopThrew]

private theorem receive_apply (s : State) (out : List Output) :
    receive s out = some ((), { s with receive := posted s }, out ++ [.receivePosted]) := by
  simp [receive, posted]

/-- What passes is told to the request handler. -/
theorem receiveHandler_passes {cfg : Configuration} {datagram : RawData} (remote : Endpoint)
    (s : State) (hset : cfg.requestHandler = true) (h : Passes datagram) :
    receiveHandler cfg (.received remote datagram) s [] =
      some ((), { s with handling := true }, [.request remote]) := by
  obtain ⟨request, hcall, hvalid⟩ := packetHandler_of_passes remote h
  rw [receiveHandler, hcall]
  simp only [informationRequestPacket, hvalid, hset, if_true]
  rfl

/-- Behind everything else, the next receive is posted. -/
theorem receiveHandler_ignored {cfg : Configuration} {datagram : RawData} (remote : Endpoint)
    (s : State) (h : cfg.requestHandler = true → ¬ Passes datagram) :
    receiveHandler cfg (.received remote datagram) s [] =
      some ((), { s with receive := posted s }, [.receivePosted]) := by
  have hagain : receive s [] = some ((), { s with receive := posted s }, [.receivePosted]) :=
    receive_apply s []
  rw [receiveHandler]
  cases hcall : packetHandler remote (datagram.take maxPacketSize) with
  | informationRequestPacket source request =>
    obtain ⟨rfl, hopcode, hdecode⟩ := packetHandler_request_iff.mp hcall
    obtain ⟨parameter, parameters, -, hcheck⟩ := invalidRequest_of_decode hdecode
    show informationRequestPacket cfg source request s [] = _
    rw [informationRequestPacket, hcheck]
    cases hinvalid : !parameters.isEmpty && !parameter.isEmpty with
    | true => exact hagain
    | false =>
      have hunset : ¬ cfg.requestHandler = true := fun hset =>
        h hset ⟨request, hdecode, hopcode, by rw [hcheck, hinvalid]⟩
      simp only [if_neg hunset]
      exact hagain
  | informationAnswerPacket source answer => exact hagain
  | invalidPacket source rawPacket => exact hagain

/-- Every step is one of these. -/
theorem taken_of_step {cfg : Configuration} {s s' : State} {e : Event} {out : List Output}
    (h : (machine cfg).step s e = some (s', out)) : Taken cfg s e s' out := by
  rw [step_eq_some] at h
  cases e with
  | datagramReceived remote datagram =>
    simp only [react, get_bind, require_bind_eq_some, modify_apply] at h
    obtain ⟨hwaiting, h⟩ := h
    cases h
    exact .received hwaiting
  | receiveFailed =>
    simp only [react, get_bind, require_bind_eq_some, modify_apply] at h
    obtain ⟨hwaiting, h⟩ := h
    cases h
    exact .receiveFailed hwaiting
  | receiveHandler =>
    simp only [react, get_bind, require_bind_eq_some] at h
    obtain ⟨hidle, h⟩ := h
    cases hreceive : s.receive with
    | idle => simp [hreceive] at h
    | waiting => simp [hreceive] at h
    | queued result =>
      simp only [hreceive, modify_bind] at h
      cases result with
      | operationAborted =>
        cases h
        exact .receiveAborted hidle hreceive
      | failure =>
        rw [receiveHandler, receive_apply] at h
        cases h
        exact .receiveAgain hidle hreceive
      | received remote datagram =>
        by_cases hcalls : cfg.requestHandler = true ∧ Passes datagram
        · rw [receiveHandler_passes remote _ hcalls.1 hcalls.2] at h
          cases h
          exact .request hidle hreceive hcalls.1 hcalls.2
        · rw [receiveHandler_ignored remote _ fun hset hpasses => hcalls ⟨hset, hpasses⟩] at h
          cases h
          exact .ignored hidle hreceive fun hset hpasses => hcalls ⟨hset, hpasses⟩
  | requestHandlerReturned =>
    simp only [react, get_bind, require_bind_eq_some, modify_bind, receive_apply] at h
    obtain ⟨hhandling, h⟩ := h
    cases h
    exact .returned hhandling
  | requestHandlerThrew =>
    simp only [react, get_bind, require_bind_eq_some, modify_bind, emit_apply] at h
    obtain ⟨hhandling, h⟩ := h
    cases h
    exact .threw hhandling
  | response remote t =>
    simp only [react, response, get_bind] at h
    cases hresponse : Find.response (fun rawPacket => s.socketOpen && cfg.sendTo rawPacket)
        remote t with
    | ok datagram =>
      rw [hresponse] at h
      cases h
      exact .response ⟨by simp, by simp⟩
    | error e =>
      rw [hresponse] at h
      cases h
      exact .response ⟨by simp, by simp⟩
  | stop =>
    simp only [react, stop, get_bind, if_apply, modify_apply, emit_apply] at h
    split at h
    · rename_i hopen
      cases h
      exact .stops hopen
    · rename_i hclosed
      cases h
      exact .stopThrows (Bool.eq_false_iff.mpr hclosed)

/-! ## The loop of receives -/

/-- A receive is under way, or the request handler is called, behind which the
next one is posted. -/
def Receiving (s : State) : Prop :=
  s.receive ≠ .idle ∨ s.handling = true

theorem receiving_posted {s s' : State} (h : s'.receive = posted s) : Receiving s' := by
  left
  rw [h, posted]
  split
  · simp
  · simp

/-- On an open socket no receive was aborted, and if no exception left a handler
the server is receiving. -/
def Live (s : State) (tr : List Output) : Prop :=
  s.socketOpen = true → s.receive ≠ .queued .operationAborted ∧ (.handlerThrew ∉ tr → Receiving s)

theorem live_step {cfg : Configuration} {s s' : State} {e : Event} {tr out : List Output}
    (hs : Live s tr) (h : (machine cfg).step s e = some (s', out)) : Live s' (tr ++ out) := by
  have hposted : posted s ≠ .queued .operationAborted := by
    unfold posted
    split
    · simp
    · simp
  intro hopen
  cases taken_of_step h with
  | received hwaiting => exact ⟨by simp, fun _ => .inl (by simp)⟩
  | receiveFailed hwaiting => exact ⟨by simp, fun _ => .inl (by simp)⟩
  | receiveAborted hidle haborted => exact absurd haborted (hs hopen).1
  | receiveAgain hidle hfailure => exact ⟨hposted, fun _ => receiving_posted rfl⟩
  | ignored hidle hreceived hignored => exact ⟨hposted, fun _ => receiving_posted rfl⟩
  | request hidle hreceived hset hpasses => exact ⟨by simp, fun _ => .inr rfl⟩
  | returned hhandling => exact ⟨hposted, fun _ => receiving_posted rfl⟩
  | threw hhandling => exact ⟨(hs hopen).1, fun hthrew => by simp at hthrew⟩
  | response hout =>
    obtain ⟨haborted, hreceiving⟩ := hs hopen
    exact ⟨haborted, fun hthrew => hreceiving fun hmem => hthrew (List.mem_append_left _ hmem)⟩
  | stops hopen' => cases hopen
  | stopThrows hclosed =>
    obtain ⟨haborted, hreceiving⟩ := hs hopen
    exact ⟨haborted, fun hthrew => hreceiving fun hmem => hthrew (List.mem_append_left _ hmem)⟩

/-- **The loop of receives** goes on in every run. -/
theorem live_run {cfg : Configuration} {es : List Event} {s : State} {tr : List Output}
    (h : (machine cfg).exec started es = some (s, tr)) : Live s tr := by
  refine Machine.exec_history (fun _ s tr => Live s tr) ?_ ?_ h
  · intro _
    exact ⟨by simp [started], fun _ => .inl (by simp [started])⟩
  · intro es s tr e s' out _ hs hstep
    exact live_step hs hstep

/-! ## The requests -/

/-- In a run, the receive handler is called with a datagram. -/
def Handles (cfg : Configuration) (es : List Event) (s : State) (remote : Endpoint)
    (datagram : RawData) (s' : State) (out : List Output) : Prop :=
  s.receive = .queued (.received remote datagram) ∧
    ∃ pre tr, (machine cfg).HasStep started es pre tr s .receiveHandler s' out

/-- The request handler is called for the information request and no other
datagram; another one is not answered, and the server goes on receiving. -/
def Meets (cfg : Configuration) (remote : Endpoint) (datagram : RawData) (s' : State)
    (out : List Output) : Prop :=
  (∀ source, .request source ∈ out ↔
    source = remote ∧ IsRequest datagram ∧ cfg.requestHandler = true) ∧
  (¬ IsRequest datagram → (∀ answer, .send answer ∉ out) ∧ .receivePosted ∈ out ∧
    (s'.socketOpen = true → s'.receive = .waiting))

/-- What a datagram gets, by whether it is the request or slips through. -/
theorem meets_iff {cfg : Configuration} {s s' : State} {remote : Endpoint} {datagram : RawData}
    {out : List Output} (hreceive : s.receive = .queued (.received remote datagram))
    (h : (machine cfg).step s .receiveHandler = some (s', out)) :
    Meets cfg remote datagram s' out ↔ (cfg.requestHandler = true → ¬ Slipped datagram) := by
  cases taken_of_step h with
  | receiveAborted hidle haborted => simp [hreceive] at haborted
  | receiveAgain hidle hfailure => simp [hreceive] at hfailure
  | ignored hidle hreceived hignored =>
    obtain ⟨rfl, rfl⟩ : _ ∧ _ := by simpa [hreceive] using hreceived
    constructor
    · intro _ hset hslipped
      exact hignored hset (passes_iff.mpr (.inr hslipped))
    · intro _
      refine ⟨fun source => ⟨by simp, ?_⟩, fun _ => ⟨by simp, by simp, ?_⟩⟩
      · intro hrequest
        exact absurd (passes_iff.mpr (.inl hrequest.2.1)) (hignored hrequest.2.2)
      · intro hopen
        have hwaiting : s.socketOpen = true := hopen
        simp [posted, hwaiting]
  | request hidle hreceived hset hpasses =>
    obtain ⟨rfl, rfl⟩ : _ ∧ _ := by simpa [hreceive] using hreceived
    constructor
    · intro hmeets _ hslipped
      have hrequest := ((hmeets.1 remote).mp (by simp)).2.1
      exact not_slipped_of_isRequest hrequest hslipped
    · intro hslipped
      have hrequest : IsRequest datagram :=
        (passes_iff.mp hpasses).resolve_right (hslipped hset)
      refine ⟨fun source => ?_, fun hne => absurd hrequest hne⟩
      simp [hrequest, hset]

/-- **The FIND server** calls its request handler exactly for the information
requests, and otherwise goes on receiving, as long as no other request slips
through the check; and it does not stop receiving by itself. -/
theorem find_requests_iff (cfg : Configuration) {es : List Event} {s : State}
    {tr : List Output} (h : (machine cfg).exec started es = some (s, tr)) :
    ((∀ t remote datagram t' out, Handles cfg es t remote datagram t' out →
        Meets cfg remote datagram t' out) ↔
      (cfg.requestHandler = true → ∀ t remote datagram t' out,
        Handles cfg es t remote datagram t' out → ¬ Slipped datagram)) ∧
    (s.socketOpen = true → s.handling = false → .handlerThrew ∉ tr → s.receive ≠ .idle) := by
  have hmeets : ∀ {t remote datagram t' out}, Handles cfg es t remote datagram t' out →
      (Meets cfg remote datagram t' out ↔
        (cfg.requestHandler = true → ¬ Slipped datagram)) := by
    intro t remote datagram t' out hhandles
    obtain ⟨hreceive, pre, tr', post, -, -, hstep⟩ := hhandles
    exact meets_iff hreceive hstep
  refine ⟨⟨?_, ?_⟩, ?_⟩
  · intro hall hset t remote datagram t' out hhandles
    exact (hmeets hhandles).mp (hall _ _ _ _ _ hhandles) hset
  · intro hslips t remote datagram t' out hhandles
    exact (hmeets hhandles).mpr fun hset => hslips hset _ _ _ _ _ hhandles
  · intro hopen hidle hthrew
    have hreceiving := ((live_run h) hopen).2 hthrew
    exact hreceiving.resolve_right (by simp [hidle])

/-- A run with one request, which is told to the request handler. -/
def exampleRequest : List Event :=
  [.datagramReceived ⟨9, 50000⟩ [0, 1, 0, 0x10], .receiveHandler, .requestHandlerReturned]

/-- It is met, and the server goes on receiving. -/
theorem find_requests_fixed :
    (machine ⟨true, fun _ => true⟩).exec started exampleRequest =
        some (started, [.request ⟨9, 50000⟩, .receivePosted]) ∧
      (∀ t remote datagram t' out,
        Handles ⟨true, fun _ => true⟩ exampleRequest t remote datagram t' out →
          Meets ⟨true, fun _ => true⟩ remote datagram t' out) ∧
      started.receive ≠ .idle := by
  have hrun : (machine ⟨true, fun _ => true⟩).exec started exampleRequest =
      some (started, [.request ⟨9, 50000⟩, .receivePosted]) := rfl
  have hslips : ∀ t remote datagram t' out,
      Handles ⟨true, fun _ => true⟩ exampleRequest t remote datagram t' out →
        ¬ Slipped datagram := by
    intro t remote datagram t' out hhandles hslipped
    obtain ⟨hreceive, pre, tr, hhas⟩ := hhandles
    obtain ⟨parameter, parameters, hdecode, hempty⟩ := hslipped
    -- The handler runs once, with the request.
    have hqueued : ∀ step ∈ (machine ⟨true, fun _ => true⟩).steps started exampleRequest,
        step.2 = .receiveHandler →
          step.1.receive = .queued (.received ⟨9, 50000⟩ [0, 1, 0, 0x10]) := by
      decide
    have hone := hqueued _ hhas.mem_steps rfl
    rw [hreceive] at hone
    cases hone
    cases hdecode
    simp at hempty
  exact ⟨hrun, (find_requests_iff _ hrun).1.mpr fun _ => hslips,
    (find_requests_iff _ hrun).2 rfl rfl (by decide)⟩

/-- `00 01 'A' 00 10` is told to the request handler. -/
theorem find_requests_slip :
    ¬ ∀ (cfg : Configuration) (es : List Event) (s : State) (tr : List Output),
      (machine cfg).exec started es = some (s, tr) →
      ∀ t remote datagram t' out, Handles cfg es t remote datagram t' out →
        Meets cfg remote datagram t' out := by
  intro h
  have hstep : (machine ⟨true, fun _ => true⟩).step
      { started with receive := .queued (.received ⟨9, 50000⟩ [0, 1, 65, 0, 0x10]) }
      .receiveHandler = some ({ started with receive := .idle, handling := true },
        [.request ⟨9, 50000⟩]) := rfl
  have hmeets := h ⟨true, fun _ => true⟩
    [.datagramReceived ⟨9, 50000⟩ [0, 1, 65, 0, 0x10], .receiveHandler] _ _ rfl _ ⟨9, 50000⟩
    [0, 1, 65, 0, 0x10] _ _ ⟨rfl, [.datagramReceived ⟨9, 50000⟩ [0, 1, 65, 0, 0x10]], [], [],
      rfl, rfl, hstep⟩
  exact (meets_iff rfl hstep).mp hmeets rfl ⟨[65], [], rfl, by simp⟩

end Arinc615a.Find.Server
