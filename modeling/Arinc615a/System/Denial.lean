import Arinc615a.Host.Completed
import Arinc615a.System.Origins
import Arinc615a.Target.ErrorOperation

/-!
# An operation that the target does not take

The host operation against the error operation of a target. Whatever TFTP loses, repeats
or cuts short, the user of the host is told the response of the target at most, and
an end of the operation that the host has not decided on itself has the code and the text
of the response (`session_denied`). A response that arrives ends the operation
(`denial_finishes`).
-/

namespace Arinc615a.System

open Machines
open Files Information Tftp

abbrev Party.DenialState : Party → Type
  | host => Host.State
  | target => Target.ErrorOperation.State

abbrev Party.DenialEvent : Party → Type
  | host => Host.Event
  | target => Target.ErrorOperation.Event

abbrev Party.DenialOutput : Party → Type
  | host => Host.Output
  | target => Target.ErrorOperation.Output

/-- The messages of the error operation. -/
def errorOperationSends : Target.ErrorOperation.Output → Option Message
  | .readOperation _ _ file _ _ => some (.initialisationFile file)
  | _ => none

/-- A host operation, and the response of a target that does not take it. -/
structure Denial where
  host : Host.Configuration
  target : Target.ErrorOperation.Configuration
  denied : target.status ≠ .operationAccepted

namespace Denial

abbrev network (denial : Denial) : Network Party Message where
  State := Party.DenialState
  Event := Party.DenialEvent
  Output := Party.DenialOutput
  machine
    | .host => Host.machine denial.host
    | .target => Target.ErrorOperation.machine denial.target
  sends
    | .host => hostSends
    | .target => errorOperationSends
  takes
    | .host => hostTakes
    | .target => fun _ _ => none

abbrev system (denial : Denial) :=
  denial.network.system

/-- The host has started, and the error operation is started by requests for its file. -/
def start (denial : Denial) : denial.network.Snapshot where
  party
    | .host => Host.started
    | .target => {}
  sent := []

/-- The response as it arrives: its description ends at the first NUL. -/
def response (denial : Denial) : InitializationResponse :=
  ⟨denial.target.status, cut denial.target.description⟩

end Denial

variable {denial : Denial} {c c' : denial.network.Snapshot}
  {es : List (Σ i : Party, i.DenialEvent)} {tr out : List (Σ i : Party, i.DenialOutput)}

/-- What the host does is a run of the host. -/
theorem Denial.host_run (h : denial.system.exec denial.start es = some (c, tr)) :
    (Host.machine denial.host).exec Host.started (own .host es) =
      some (c.party .host, own .host tr) :=
  Network.exec_own h .host

/-! ## The response -/

/-- The target sends nothing but the response. -/
theorem sent_of_denial (hrun : denial.system.exec denial.start es = some (c, tr)) {m : Message}
    (hm : m ∈ c.sent) :
    (∃ data, m = .initialisationFile data ∧ denial.target.initialisationFile.encode = .ok data) ∨
      ∃ o, ⟨.host, o⟩ ∈ tr ∧ hostSends o = some m := by
  obtain ⟨i, o, ho, hsends⟩ := Network.exists_sender hrun hm (by simp [Denial.start])
  cases i with
  | host => exact .inr ⟨o, ho, hsends⟩
  | target =>
    left
    cases o with
    | readOperation remote operation file clientTftpOptions port =>
      cases hsends
      obtain ⟨pre, post, htr⟩ := List.append_of_mem ho
      obtain ⟨es₁, e, es₂, c₁, tr₁, c₂, out, -, -, hstep, hout, -⟩ :=
        Machine.exists_step_of_output hrun htr
      obtain ⟨f, s, os, -, -, hparty, -, hos⟩ :=
        Network.exists_step_of_mem (i := .target) hstep hout
      exact ⟨file, rfl, Target.ErrorOperation.response_of_step hparty hos⟩
    | _ => cases hsends

/-- The host sends none of the files that it receives. -/
theorem hostSends_ne_of_delivery {kind : Host.TransferKind} {data : RawData} {m : Message}
    (h : hostDelivery kind data = some m) (o : Host.Output) : hostSends o ≠ some m := by
  intro hsends
  cases kind with
  | sentFile => cases h
  | _ =>
    cases h
    cases o <;> cases hsends

/-- A file that the host can receive is the response. -/
theorem response_of_supplied (hrun : denial.system.exec denial.start es = some (c, tr))
    {f : Host.Event} {operation : Host.TransferId} {t : Host.Transfer} {data : RawData}
    {m : Message} (hsupplied : denial.network.supplied c ⟨.host, f⟩ = true)
    (hf : f = .clientCompleted operation .successful data ∨
      f = .serverCompleted operation .successful data)
    (ht : Host.transfer? (c.party .host) operation = some t)
    (hdelivery : hostDelivery t.kind data = some m) :
    ∃ data', m = .initialisationFile data' ∧
      denial.target.initialisationFile.encode = .ok data' := by
  have htakes : hostTakes (c.party .host) f = some fun m' => decide (m' = m) := by
    rcases hf with rfl | rfl <;> simp only [hostTakes, ht, Option.bind_some, hdelivery,
      Option.map_some]
  obtain ⟨m', hmem, hm'⟩ := Network.exists_of_supplied hsupplied htakes
  obtain rfl := of_decide_eq_true hm'
  rcases sent_of_denial hrun hmem with hresponse | ⟨o, -, hsends⟩
  · exact hresponse
  · exact absurd hsends (hostSends_ne_of_delivery hdelivery o)

/-- The response that was written, where the host can read it. -/
theorem denial_of_decode {data rest : RawData} {file : InitializationFile}
    (hencode : denial.target.initialisationFile.encode = .ok data)
    (hdecode : InitializationFile.decode {} data = .done (file, rest)) :
    file.response = denial.response := by
  have hversion := ProtocolFileClass.supported_of_decode (T := .initialization) {} hencode hdecode
  have hcode := ProtocolFileClass.ne_operationDeferred_of_decode hencode hdecode
  rw [InitializationFile.arrives_written hversion hcode hencode] at hdecode
  cases hdecode
  rfl

/-- The user of the host is told the response. -/
theorem response_of_deliveredBy (hrun : denial.system.exec denial.start es = some (c, tr))
    {call : Host.Call} {f : Host.Event}
    (hsupplied : denial.network.supplied c ⟨.host, f⟩ = true)
    (h : Host.DeliveredBy denial.host (c.party .host) call f) :
    ∃ file, call = .initialisationResponse file ∧ file.response = denial.response := by
  cases h with
  | @initialisation operation data rest t file ht hkind hdecode =>
    obtain ⟨data', heq, hencode⟩ :=
      response_of_supplied hrun hsupplied (.inl rfl) ht (by rw [hkind]; rfl)
    cases heq
    exact ⟨file, rfl, denial_of_decode hencode hdecode⟩
  | status ht hkind hdecode =>
    obtain ⟨_, heq, -⟩ := response_of_supplied hrun hsupplied (.inr rfl) ht (by rw [hkind]; rfl)
    cases heq
  | targetInformation ht hkind hop hdecode =>
    obtain ⟨_, heq, -⟩ := response_of_supplied hrun hsupplied (.inr rfl) ht (by rw [hkind]; rfl)
    cases heq
  | downloadingList ht hkind hop hdecode =>
    obtain ⟨_, heq, -⟩ := response_of_supplied hrun hsupplied (.inr rfl) ht (by rw [hkind]; rfl)
    cases heq

/-! ## What the host knows -/

/-- The host has agreed on no version, and is in no call of the handler but the one with
the response. -/
structure Denied (denial : Denial) (s : Host.State) : Prop where
  version : s.protocolVersion = .undetermined
  callback : ∀ k, s.callback = some k →
    ∃ file, k = .initialisationResponse file ∧ file.response = denial.response

/-- What a step of the host may tell its user. -/
def Tells (denial : Denial) : Host.Output → Prop
  | .finished status description =>
    status = .operationAbortedByDlp ∨ status = .operationAbortedByOperator ∨
      (status.toUInt16 = denial.target.status.toUInt16 ∧
        description = cut denial.target.description)
  | .initialisationResponse response => response = denial.response
  | .status _ => False
  | .targetInformation _ _ => False
  | .downloadingList _ => False
  | _ => True

theorem denied_step (hrun : denial.system.exec denial.start es = some (c, tr))
    (h : Denied denial (c.party .host)) {f : Host.Event} {s : Host.State}
    {os : List Host.Output} (hsupplied : denial.network.supplied c ⟨.host, f⟩ = true)
    (hstep : (Host.machine denial.host).step (c.party .host) f = some (s, os)) :
    Denied denial s := by
  have hs := Host.consistent_run (Denial.host_run hrun)
  constructor
  · rcases Host.protocolVersion_step hs hstep with hsame | ⟨file, hcallback, hcode, -⟩
    · rw [hsame]
      exact h.version
    · obtain ⟨file', heq, hresponse⟩ := h.callback _ hcallback
      cases heq
      rw [hresponse] at hcode
      exact absurd hcode denial.denied
  · intro k hk
    rcases Host.callback_step hs hstep hk with ⟨call, hr, rfl, -⟩ | ⟨hbefore, -⟩
    · obtain ⟨file, rfl, hresponse⟩ :=
        response_of_deliveredBy hrun hsupplied (Host.deliveredBy_of_reaction hr)
      exact ⟨file, rfl, hresponse⟩
    · exact h.callback k hbefore

/-- The end that the response leads to. -/
theorem tells_of_returnReaction {s : Host.State} {file : InitializationFile} {status : StatusCode}
    {description : Str} (hresponse : file.response = denial.response)
    (h : Host.returnReaction s (.initialisationResponse file) = .finish status description) :
    Tells denial (.finished status description) := by
  simp only [Host.returnReaction, hresponse, Denial.response] at h
  split at h <;> cases h
  · exact .inr (.inr ⟨by rw [‹denial.target.status = _›]; rfl, rfl⟩)
  · exact .inr (.inr ⟨by rw [‹denial.target.status = _›]; rfl, rfl⟩)
  · exact .inl rfl

theorem tells_step (hrun : denial.system.exec denial.start es = some (c, tr))
    (h : Denied denial (c.party .host)) {f : Host.Event} {s : Host.State}
    {os : List Host.Output} (hsupplied : denial.network.supplied c ⟨.host, f⟩ = true)
    (hstep : (Host.machine denial.host).step (c.party .host) f = some (s, os))
    {o : Host.Output} (ho : o ∈ os) : Tells denial o := by
  have hs := Host.consistent_run (Denial.host_run hrun)
  by_cases hdelivers : o.delivers = true
  · obtain ⟨call, rfl, hdelivered⟩ := Host.deliveredBy_of_step hs hstep ho hdelivers
    obtain ⟨file, rfl, hresponse⟩ := response_of_deliveredBy hrun hsupplied hdelivered
    exact hresponse
  · cases o with
    | finished status description =>
      rcases Host.end_of_step hs hstep ho with hdlp | hoperator | ⟨k, hk, hfinish⟩
      · exact .inl hdlp
      · exact .inr (.inl hoperator)
      · obtain ⟨file, rfl, hresponse⟩ := h.callback k hk
        exact tells_of_returnReaction hresponse hfinish
    | initialisationResponse | status | targetInformation | downloadingList =>
      exact absurd rfl hdelivers
    | _ => trivial

/-- **Denials**: in every run against a target that does not take the operation, the user
of the host is told the response at most, and the host agrees on no version. -/
theorem session_denied (hrun : denial.system.exec denial.start es = some (c, tr)) :
    Denied denial (c.party .host) ∧ ∀ o, ⟨.host, o⟩ ∈ tr → Tells denial o := by
  refine Machine.exec_history (m := denial.system)
    (fun _ c tr => Denied denial (c.party .host) ∧ ∀ o, ⟨.host, o⟩ ∈ tr → Tells denial o)
    ⟨⟨rfl, fun _ hk => by cases hk⟩, nofun⟩ ?_ hrun
  intro es c tr e c' out hrun ih hstep
  obtain ⟨hdenied, htold⟩ := ih
  obtain ⟨i, f⟩ := e
  obtain ⟨hsupplied, s, os, hparty, rfl, rfl⟩ := Network.step_iff.mp hstep
  cases i with
  | host =>
    rw [Network.party_after_self]
    refine ⟨denied_step hrun hdenied hsupplied hparty, fun o ho => ?_⟩
    rcases List.mem_append.mp ho with hbefore | hnow
    · exact htold o hbefore
    · obtain ⟨o', ho', heq⟩ := List.mem_map.mp hnow
      cases heq
      exact tells_step hrun hdenied hsupplied hparty ho'
  | target =>
    have hne : Party.host ≠ .target := nofun
    rw [Network.party_after_of_ne hne]
    refine ⟨hdenied, fun o ho => ?_⟩
    rcases List.mem_append.mp ho with hbefore | hnow
    · exact htold o hbefore
    · obtain ⟨o', -, heq⟩ := List.mem_map.mp hnow
      cases heq

/-- An upload that the target denies. -/
def exampleDenial : Denial where
  host := Host.exampleConfiguration .upload
  target := ⟨.arinc615a34, .operationDenied, str "Busy", true, false⟩
  denied := nofun

/-- The target sends its response. -/
def exampleDenied : List (Σ i : Party, i.DenialEvent) :=
  [⟨.target, .start ⟨0, 59⟩ [] none⟩]

/-- The host has received it. -/
def exampleTold : List (Σ i : Party, i.DenialEvent) :=
  [⟨.host, .clientCompleted 0 .successful
      (insertHeader .arinc615a34 ([0x10, 0, 5] ++ str "Busy" ++ [0]))⟩,
    ⟨.host, .callbackReturned⟩]

theorem session_denied_upload : ∃ c tr,
    exampleDenial.system.exec exampleDenial.start (exampleDenied ++ exampleTold) = some (c, tr) ∧
      Denied exampleDenial (c.party .host) ∧
      ∀ o, ⟨.host, o⟩ ∈ tr → Tells exampleDenial o :=
  ⟨_, _, rfl, @session_denied exampleDenial _ (exampleDenied ++ exampleTold) _ rfl⟩

/-! ## The end -/

/-- A step of the host. -/
theorem host_denied {f : Host.Event} {r : Host.Reaction}
    (hs : Host.Consistent (c.party .host))
    (hsupplied : denial.network.supplied c ⟨.host, f⟩ = true)
    (hr : Host.reaction denial.host (c.party .host) f = some r) :
    denial.system.step c ⟨.host, f⟩ =
      some (c.after .host (r.state denial.host (Host.taken (c.party .host) f))
          (r.out denial.host (Host.taken (c.party .host) f)),
        (r.out denial.host (Host.taken (c.party .host) f)).map (⟨.host, ·⟩)) :=
  Network.step_iff.mpr ⟨hsupplied, _, _, (Host.step_iff hs).mpr ⟨r, hr, rfl, rfl⟩, rfl, rfl⟩

/-- The response ends the operation, with its own code. -/
theorem returnReaction_denied {s : Host.State} {file : InitializationFile}
    (hstatus : file.response.code ≠ .operationDeferred)
    (hdenied : file.response.code ≠ .operationAccepted) :
    ∃ status, Host.returnReaction s (.initialisationResponse file) =
        .finish status file.response.description ∧
      status.toUInt16 = file.response.code.toUInt16 := by
  cases hcode : file.response.code with
  | operationAccepted => exact absurd hcode hdenied
  | operationDeferred => exact absurd hcode hstatus
  | operationDenied =>
    exact ⟨.operationNotAccepted, by simp only [Host.returnReaction, hcode], rfl⟩
  | operationNotSupported =>
    exact ⟨.operationNotSupported, by simp only [Host.returnReaction, hcode], rfl⟩

/-- **The end**: behind every run, a response that arrives is told to the user and, where
the call returns, ends the operation with the code and the text of the target. -/
theorem denial_finishes (hrun : denial.system.exec denial.start es = some (c, tr))
    (hversion : denial.target.protocolVersion.Supported)
    (hstatus : denial.target.status ≠ .operationDeferred)
    {data : RawData} (hm : .initialisationFile data ∈ c.sent) {operation : Host.TransferId}
    {t : Host.Transfer} (hidle : (c.party .host).callback = none)
    (ht : Host.transfer? (c.party .host) operation = some t)
    (hkind : t.kind = .initialisation) :
    ∃ c' status, denial.system.exec c [⟨.host, .clientCompleted operation .successful data⟩,
        ⟨.host, .callbackReturned⟩] =
          some (c', [⟨.host, .initialisationResponse denial.response⟩,
            ⟨.host, .finished status (cut denial.target.description)⟩]) ∧
      status.toUInt16 = denial.target.status.toUInt16 := by
  have hs := Host.consistent_run (Denial.host_run hrun)
  have hresponse : ∃ data', Message.initialisationFile data = .initialisationFile data' ∧ _ :=
    (sent_of_denial hrun hm).resolve_right (by rintro ⟨o, -, ho⟩; cases o <;> cases ho)
  obtain ⟨_, heq, hencode⟩ := hresponse
  cases heq
  -- The transfer completes.
  have hdecode := InitializationFile.arrives_written hversion hstatus hencode {}
  have hr : Host.reaction denial.host (c.party .host)
      (.clientCompleted operation .successful data) =
        some (.call (.initialisationResponse denial.target.initialisationFile.arrived)) := by
    simp [Host.reaction, hidle, ht, hkind, Host.initialisationReaction, hdecode]
  have hsupplied : denial.network.supplied c
      ⟨.host, .clientCompleted operation .successful data⟩ = true := by
    rw [Network.supplied]
    simp [hostTakes, ht, hkind, hostDelivery, hm]
  have hstep := host_denied hs hsupplied hr
  -- The call returns.
  have hnext := Machine.exec_append_singleton.mpr ⟨_, _, _, hrun, hstep, rfl⟩
  obtain ⟨status, hreturn, hcode⟩ := @returnReaction_denied (c.party .host)
    denial.target.initialisationFile.arrived hstatus denial.denied
  have hreturned := host_denied (f := .callbackReturned)
    (Host.consistent_run (Denial.host_run hnext)) rfl
    (by rw [Network.party_after_self]; exact congrArg some hreturn)
  have hend := Machine.exec_cons.mpr
    ⟨_, _, _, hstep, Machine.exec_cons.mpr
      ⟨_, _, _, hreturned, Machine.exec_nil .., rfl⟩, rfl⟩
  exact ⟨_, status, hend, hcode⟩

theorem denial_finishes_upload : ∃ c tr c' status,
    exampleDenial.system.exec exampleDenial.start exampleDenied = some (c, tr) ∧
      exampleDenial.system.exec c exampleTold =
        some (c', [⟨.host, .initialisationResponse ⟨.operationDenied, str "Busy"⟩⟩,
          ⟨.host, .finished status (str "Busy")⟩]) ∧
      status.toUInt16 = OperationAcceptanceStatusCode.operationDenied.toUInt16 := by
  obtain ⟨c', status, hend⟩ := @denial_finishes exampleDenial _ exampleDenied _ rfl (.inr rfl)
    nofun _ (.head _) 0 ⟨0, .initialisation, false⟩ rfl rfl rfl
  exact ⟨_, _, c', status, rfl, hend⟩

end Arinc615a.System
