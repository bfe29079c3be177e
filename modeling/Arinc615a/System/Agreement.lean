import Arinc615a.System.Origins

/-!
# What the parties agree on

The host takes the version of the protocol from the initialisation file, and sends its
files in that version. Where the user sends nothing before the version is agreed, no
file of either party is refused by the other: in every run, a transfer that delivers one
that was sent makes exactly the call of the handler that it is for, with what the
other party put into it (`session_accepts`).
-/

namespace Arinc615a.System

open Machines Readers
open Files Information Tftp

variable {session : Session} {c c' : session.network.Snapshot}
  {es : List (Σ i : Party, i.Event)} {tr out : List (Σ i : Party, i.Output)}
  {e : Σ i : Party, i.Event}

open Session

/-! ## The version -/

/-- The host knows no version yet, or that of the target. -/
structure Agreed (session : Session) (s : Host.State) : Prop where
  version : s.protocolVersion = .undetermined ∨
    s.protocolVersion = session.target.protocolVersion
  response : ∀ file, s.callback = some (.initialisationResponse file) →
    file.protocolVersion = session.target.protocolVersion

theorem agreed_step (hrun : session.system.exec session.start es = some (c, tr))
    (h : Agreed session (c.party .host)) {f : Host.Event} {s : Host.State}
    {os : List Host.Output} (hsupplied : session.network.supplied c ⟨.host, f⟩ = true)
    (hstep : (Host.machine session.host).step (c.party .host) f = some (s, os)) :
    Agreed session s := by
  have hs := Host.consistent_run (host_run hrun)
  constructor
  · rcases Host.protocolVersion_step hs hstep with hsame | ⟨file, hcallback, -, hnew⟩
    · rw [hsame]
      exact h.version
    · exact .inr (hnew.trans (h.response file hcallback))
  · intro file hcallback
    rcases Host.callback_step hs hstep hcallback with ⟨call, hr, hcall, -⟩ | ⟨hbefore, -⟩
    · cases Host.deliveredBy_of_reaction hr with
      | initialisation ht hkind hdecode =>
        cases hcall
        have hsent := (supplied_clientCompleted ht (by rw [hkind]; rfl)).mp hsupplied
        rw [response_of_decode (sent_initialisationFile hrun hsent) hdecode]
      | _ => cases hcall
    · exact h.response file hbefore

/-- **The version**: in every run the host knows the version of the target, if any. -/
theorem agreed_run (hrun : session.system.exec session.start es = some (c, tr)) :
    Agreed session (c.party .host) := by
  refine Machine.exec_history (m := session.system)
    (fun _ c _ => Agreed session (c.party .host)) ⟨.inl rfl, fun _ h => by cases h⟩ ?_ hrun
  intro es c tr e c' out hrun ih hstep
  obtain ⟨i, f⟩ := e
  obtain ⟨hsupplied, s, os, hparty, rfl, -⟩ := Network.step_iff.mp hstep
  cases i with
  | host =>
    rw [Network.party_after_self]
    exact agreed_step hrun ih hsupplied hparty
  | target =>
    have hne : Party.host ≠ .target := nofun
    rwa [Network.party_after_of_ne hne]

/-! ## Files that are awaited -/

/-- A transfer of one party waits for the file, and its completion delivers it. -/
inductive Awaits (session : Session) (c : session.network.Snapshot) :
    Message → (Σ i : Party, i.Event) → Prop where
  | initialisationFile {operation : Host.TransferId} {t : Host.Transfer} {data : RawData}
    (hidle : (c.party .host).callback = none)
    (ht : Host.transfer? (c.party .host) operation = some t) (hkind : t.kind = .initialisation) :
    Awaits session c (.initialisationFile data)
      ⟨.host, .clientCompleted operation .successful data⟩
  | statusFile {operation : Host.TransferId} {t : Host.Transfer} {data : RawData}
    (hidle : (c.party .host).callback = none)
    (ht : Host.transfer? (c.party .host) operation = some t) (hkind : t.kind = .statusFile)
    (hkept : t.aborted = false) :
    Awaits session c (.statusFile data) ⟨.host, .serverCompleted operation .successful data⟩
  /-- The decoder of the load configuration list has bounds on the size of the file. -/
  | listFile {operation : Host.TransferId} {t : Host.Transfer} {data : RawData}
    {checkValue : CheckValue} (hidle : (c.party .host).callback = none)
    (ht : Host.transfer? (c.party .host) operation = some t)
    (hkind : t.kind = .listFile checkValue) (hkept : t.aborted = false)
    (hsize : session.host.operation = .information → 19 ≤ data.length ∧ data.length < 2 ^ 32) :
    Awaits session c (.listFile data checkValue)
      ⟨.host, .serverCompleted operation .successful data⟩
  | requestFile {operation : Target.TransferId} {t : Target.Transfer} {data : RawData}
    (hidle : (c.party .target).callback = none)
    (ht : Target.transfer? (c.party .target) operation = some t)
    (hkind : t.kind = .requestFile) :
    Awaits session c (.requestFile data) ⟨.target, .serverCompleted operation .successful data⟩

/-- The user sends its files where the version is agreed. -/
def SentAgreed (session : Session) (es : List (Σ i : Party, i.Event)) : Prop :=
  ∀ pre tr c e c' out, session.system.HasStep session.start es pre tr c e c' out →
    ∀ operation filename file, ⟨.host, .clientWriteOperation operation filename file⟩ ∈ out →
      (c.party .host).protocolVersion ≠ .undetermined

/-- The outputs of a session, with the one that its start made. -/
def outputs (session : Session) (tr : List (Σ i : Party, i.Output)) :
    List (Σ i : Party, i.Output) :=
  session.initialisationOutputs.map (⟨.target, ·⟩) ++ tr

/-- An output that sends a file, and the call of the handler that the file is for, with
what the sender put into it. Texts arrive up to their first NUL. -/
inductive Delivery (session : Session) (es : List (Σ i : Party, i.Event)) :
    (Σ i : Party, i.Output) → (Σ i : Party, i.Output) → Prop where
  | initialisationResponse {remote : Endpoint} {operation : Target.TransferId} {file : RawData} :
    Delivery session es ⟨.target, .readOperation remote operation file⟩
      ⟨.host, .initialisationResponse ⟨.operationAccepted, []⟩⟩
  | status {remote : Endpoint} {operation : Target.TransferId} {filename : Str}
    {status : OperationStatus} {file : RawData} :
    Delivery session es ⟨.target, .statusFile remote operation filename status file⟩
      ⟨.host, .status (arrivedStatus status)⟩
  | targetInformation {remote : Endpoint} {operation : Target.TransferId} {filename : Str}
    {file : RawData} {targetsHardware : List TargetHardware} {type : CheckValueType}
    (hcall : ⟨.target, .application (.targetInformation targetsHardware type)⟩ ∈ es)
    (hencode : LoadConfigurationListFile.encode
      ⟨session.target.protocolVersion, targetsHardware⟩ = .ok file) :
    Delivery session es
      ⟨.target, .listFile remote operation filename file (session.target.checkValue type file)⟩
      ⟨.host, .targetInformation (targetsHardware.map cutTargetHardware) true⟩
  | downloadingList {remote : Endpoint} {operation : Target.TransferId} {filename : Str}
    {file : RawData} {files : List DownloadFileInformation}
    (hcall : ⟨.target, .application (.downloadingList files)⟩ ∈ es)
    (hencode : DownloadOperationListFile.encode
      ⟨session.target.protocolVersion, files⟩ = .ok file) :
    Delivery session es ⟨.target, .listFile remote operation filename file {}⟩
      ⟨.host, .downloadingList (files.map cutDownloadFileInformation)⟩
  | received {s : Host.State} {operation : Host.TransferId} {filename : Str} {file : RawData}
    {call : Host.Event} {received : Target.Received} (hcall : ⟨.host, call⟩ ∈ es)
    (hsent : Host.SentBy session.host s file filename call) (hgiven : given call = some received) :
    Delivery session es ⟨.host, .clientWriteOperation operation filename file⟩
      ⟨.target, .received received⟩

/-- A file was sent, and the output is the call of the handler that it is for: with the
content of each output that has sent it. -/
structure Delivered (session : Session) (es : List (Σ i : Party, i.Event))
    (tr : List (Σ i : Party, i.Output)) (m : Message) (o : Σ i : Party, i.Output) : Prop where
  sent : ∃ sent ∈ outputs session tr, session.network.message sent = some m
  content : ∀ sent ∈ outputs session tr, session.network.message sent = some m →
    Delivery session es sent o

/-! ## Files are accepted -/

/-- What was sent was put out. -/
theorem mem_sent_iff (hrun : session.system.exec session.start es = some (c, tr)) {m : Message} :
    m ∈ c.sent ↔ ∃ sent ∈ outputs session tr, session.network.message sent = some m := by
  rw [Network.sent_exec hrun, ← List.mem_filterMap, outputs, List.filterMap_append,
    List.filterMap_map]
  rfl

/-- A reaction of the host, as a step of the session. -/
theorem host_reacts (hrun : session.system.exec session.start es = some (c, tr))
    {f : Host.Event} {r : Host.Reaction} (hsupplied : session.network.supplied c ⟨.host, f⟩ = true)
    (hr : Host.reaction session.host (c.party .host) f = some r) :
    session.system.step c ⟨.host, f⟩ =
      some (c.after .host (r.state session.host (Host.taken (c.party .host) f))
          (r.out session.host (Host.taken (c.party .host) f)),
        (r.out session.host (Host.taken (c.party .host) f)).map (⟨.host, ·⟩)) :=
  Network.step_iff.mpr ⟨hsupplied, _, _,
    (Host.step_iff (Host.consistent_run (host_run hrun))).mpr ⟨r, hr, rfl, rfl⟩, rfl, rfl⟩

/-- A call of the user's handler. -/
theorem host_accepts (hrun : session.system.exec session.start es = some (c, tr))
    {f : Host.Event} {call : Host.Call} (hsupplied : session.network.supplied c ⟨.host, f⟩ = true)
    (hr : Host.reaction session.host (c.party .host) f = some (.call call)) :
    ∃ c', session.system.step c ⟨.host, f⟩ = some (c', [⟨.host, call.output⟩]) :=
  ⟨_, host_reacts hrun hsupplied hr⟩

/-- The initialisation file of the target. -/
theorem accepts_initialisationFile (hversion : session.target.protocolVersion.Supported)
    (hrun : session.system.exec session.start es = some (c, tr)) {data : RawData}
    (hm : .initialisationFile data ∈ c.sent) :
    Host.initialisationReaction .successful data = some (.call (.initialisationResponse
      ⟨session.target.protocolVersion, ⟨.operationAccepted, []⟩⟩)) := by
  have hdecode := initialisation_arrives hversion (sent_initialisationFile hrun hm)
  simp [Host.initialisationReaction, hdecode]

/-- A status file that was sent. -/
theorem accepts_statusFile (hversion : session.target.protocolVersion.Supported)
    (hrun : session.system.exec session.start es = some (c, tr)) {remote : Endpoint}
    {operation : Target.TransferId} {filename : Str} {status : OperationStatus} {data : RawData}
    (hmem : ⟨.target, .statusFile remote operation filename status data⟩ ∈ tr) :
    Host.statusFileReaction session.host.operation .successful data =
      some (.call (.status (arrivedStatus status))) := by
  have hdecode := decodeStatus_arrived hversion (sentStatus_of_mem hrun hmem)
  simp [Host.statusFileReaction, session.operation_eq, hdecode]

/-- A list that was sent, with its check value. -/
theorem accepts_listFile (hversion : session.target.protocolVersion.Supported)
    (hrun : session.system.exec session.start es = some (c, tr)) {remote : Endpoint}
    {operation : Target.TransferId} {filename : Str} {data : RawData} {checkValue : CheckValue}
    (hmem : ⟨.target, .listFile remote operation filename data checkValue⟩ ∈ tr)
    (hsize : session.host.operation = .information → 19 ≤ data.length ∧ data.length < 2 ^ 32)
    (s : Host.State) :
    ∃ call, Host.listFileReaction session.host s checkValue .successful data =
        some (.call call) ∧
      Delivery session es ⟨.target, .listFile remote operation filename data checkValue⟩
        ⟨.host, call.output⟩ := by
  obtain ⟨_, f, hf, hpassed⟩ := passedBy_of_mem hrun hmem
  cases hpassed with
  | @targetInformation targetsHardware type _ hop hencode =>
    rw [← session.operation_eq] at hop
    obtain ⟨hmin, hmax⟩ := hsize hop
    have hdecode := LoadConfigurationListFile.decode_encode hversion hencode
    rw [if_neg (by omega), if_neg (by omega)] at hdecode
    -- The host generates the check value that the target has generated.
    have hvalue : session.host.checkValue (session.target.checkValue type data).type data =
        session.target.checkValue type data := by
      rw [session.checkValue_eq, session.type_checkValue]
    refine ⟨.targetInformation (targetsHardware.map cutTargetHardware) true, ?_,
      .targetInformation hf hencode⟩
    simp only [Host.listFileReaction, Host.listCall, hop, hdecode, hvalue, decide_true]
    rfl
  | @downloadingList files _ hop hencode =>
    rw [← session.operation_eq] at hop
    have hdecode := DownloadOperationListFile.arrives hversion hencode
    refine ⟨.downloadingList (files.map cutDownloadFileInformation), ?_,
      .downloadingList hf hencode⟩
    simp only [Host.listFileReaction, Host.listCall, hop, hdecode]
    rfl

/-- A file of the user was sent in the version of the target. -/
theorem accepts_requestFile (hversion : session.target.protocolVersion.Supported)
    (hagreed : SentAgreed session es)
    (hrun : session.system.exec session.start es = some (c, tr)) {operation : Host.TransferId}
    {filename : Str} {data : RawData}
    (hmem : ⟨.host, .clientWriteOperation operation filename data⟩ ∈ tr) :
    ∃ received, Target.requestFileReaction session.target .successful data =
        some (.call (.received received)) ∧
      Delivery session es ⟨.host, .clientWriteOperation operation filename data⟩
        ⟨.target, .received received⟩ := by
  obtain ⟨pre, post, htr⟩ := List.append_of_mem hmem
  obtain ⟨es₁, e, es₂, c₁, tr₁, c₂, out, hes, hpre, hstep, ho, -⟩ :=
    Machine.exists_step_of_output hrun htr
  have hknown := hagreed es₁ tr₁ c₁ e c₂ out ⟨es₂, hes, hpre, hstep⟩ operation filename data ho
  have hsame := (agreed_run hpre).version.resolve_left hknown
  obtain ⟨f, s, os, he, -, hhost, hos⟩ := host_step hstep ho
  have hsent := Host.sentBy_of_step (Host.consistent_run (host_run hpre)) hhost hos
  rw [← hsame] at hversion
  obtain ⟨received, rest, hgiven, hdecode⟩ := decodeRequest_given hversion hsent
  rw [session.operation_eq, hsame] at hdecode
  have hop : session.target.operation ≠ .information := by
    intro hinformation
    rw [hinformation] at hdecode
    cases hdecode
  have hcall : ⟨.host, f⟩ ∈ es := by
    rw [hes, he]
    simp
  exact ⟨received, by simp [Target.requestFileReaction, hop, hdecode],
    .received hcall hsent hgiven⟩

/-- An output with a message is the one that sends it. -/
theorem mem_run_of_message {sent : Σ i : Party, i.Output} {m : Message}
    (hsent : sent ∈ outputs session tr) (hmessage : session.network.message sent = some m)
    (hm : ∀ data, m ≠ .initialisationFile data) : sent ∈ tr := by
  rcases List.mem_append.mp hsent with hstart | hmem
  · obtain ⟨o, ho, rfl⟩ := List.mem_map.mp hstart
    unfold initialisationOutputs at ho
    split at ho
    · cases ho
    · obtain rfl := List.mem_singleton.mp ho
      exact absurd (Option.some.inj hmessage).symm (hm _)
  · exact hmem

/-- The completion of a transfer that waits for a file calls the handler with what was
sent in it. -/
theorem accepts_sent (hversion : session.target.protocolVersion.Supported)
    (hagreed : SentAgreed session es)
    (hrun : session.system.exec session.start es = some (c, tr)) {m : Message}
    (hawaits : Awaits session c m e) {sent : Σ i : Party, i.Output}
    (hsent : sent ∈ outputs session tr) (hmessage : session.network.message sent = some m) :
    ∃ c' o, session.system.step c e = some (c', [o]) ∧ Delivery session es sent o := by
  have hm : m ∈ c.sent := (mem_sent_iff hrun).mpr ⟨sent, hsent, hmessage⟩
  obtain ⟨i, sent⟩ := sent
  cases hawaits with
  | @initialisationFile operation t data hidle ht hkind =>
    have hsupplied := (supplied_clientCompleted ht (by rw [hkind]; rfl)).mpr hm
    have hreaction : Host.reaction session.host (c.party .host)
        (.clientCompleted operation .successful data) =
          Host.initialisationReaction .successful data := by
      simp [Host.reaction, hidle, ht, hkind]
    obtain ⟨c', hstep⟩ := host_accepts hrun hsupplied
      (hreaction.trans (accepts_initialisationFile hversion hrun hm))
    refine ⟨c', _, hstep, ?_⟩
    cases i with
    | host => cases sent <;> cases hmessage
    | target =>
      cases sent <;> cases hmessage
      exact .initialisationResponse
  | @statusFile operation t data hidle ht hkind hkept =>
    have hmem := mem_run_of_message hsent hmessage (by simp)
    have hsupplied := (supplied_serverCompleted ht (by rw [hkind]; rfl)).mpr hm
    have hreaction : Host.reaction session.host (c.party .host)
        (.serverCompleted operation .successful data) =
          Host.statusFileReaction session.host.operation .successful data := by
      simp [Host.reaction, hidle, ht, hkind, hkept]
    cases i with
    | host => cases sent <;> cases hmessage
    | target =>
      cases sent <;> cases hmessage
      obtain ⟨c', hstep⟩ := host_accepts hrun hsupplied
        (hreaction.trans (accepts_statusFile hversion hrun hmem))
      exact ⟨c', _, hstep, .status⟩
  | @listFile operation t data checkValue hidle ht hkind hkept hsize =>
    have hmem := mem_run_of_message hsent hmessage (by simp)
    have hsupplied := (supplied_serverCompleted ht (by rw [hkind]; rfl)).mpr hm
    have hreaction : Host.reaction session.host (c.party .host)
        (.serverCompleted operation .successful data) =
          Host.listFileReaction session.host (c.party .host) checkValue .successful data := by
      simp [Host.reaction, hidle, ht, hkind, hkept]
    cases i with
    | host => cases sent <;> cases hmessage
    | target =>
      cases sent <;> cases hmessage
      obtain ⟨call, hr, hdelivery⟩ := accepts_listFile hversion hrun hmem hsize (c.party .host)
      obtain ⟨c', hstep⟩ := host_accepts hrun hsupplied (hreaction.trans hr)
      exact ⟨c', _, hstep, hdelivery⟩
  | @requestFile operation t data hidle ht hkind =>
    have hmem := mem_run_of_message hsent hmessage (by simp)
    have hsupplied := (supplied_target ht (by rw [hkind]; rfl)).mpr hm
    cases i with
    | target => cases sent <;> cases hmessage
    | host =>
      cases sent <;> cases hmessage
      obtain ⟨received, hr, hdelivery⟩ := accepts_requestFile hversion hagreed hrun hmem
      have hreaction : Target.reaction session.target (c.party .target)
          (.serverCompleted operation .successful data) =
            Target.requestFileReaction session.target .successful data := by
        simp [Target.reaction, hidle, ht, hkind]
      have hstep := Target.step_iff.mpr ⟨_, hreaction.trans hr, rfl⟩
      exact ⟨_, _, Network.step_iff.mpr ⟨hsupplied, _, _, hstep, rfl, rfl⟩, hdelivery⟩

/-- The completion of a transfer that waits for a file that was sent calls the handler. -/
theorem accepts_awaited (hversion : session.target.protocolVersion.Supported)
    (hagreed : SentAgreed session es)
    (hrun : session.system.exec session.start es = some (c, tr)) {m : Message}
    (hm : m ∈ c.sent) (hawaits : Awaits session c m e) :
    ∃ c' o, session.system.step c e = some (c', [o]) ∧ Delivered session es tr m o := by
  obtain ⟨sent, hsent, hmessage⟩ := (mem_sent_iff hrun).mp hm
  obtain ⟨c', o, hstep, -⟩ := accepts_sent hversion hagreed hrun hawaits hsent hmessage
  refine ⟨c', o, hstep, ⟨sent, hsent, hmessage⟩, ?_⟩
  -- However often the file was sent, the step makes one call.
  intro sent' hsent' hmessage'
  obtain ⟨c'', o', hstep', hdelivery⟩ :=
    accepts_sent hversion hagreed hrun hawaits hsent' hmessage'
  rw [hstep] at hstep'
  cases hstep'
  exact hdelivery

/-- What is delivered was sent. -/
theorem sent_of_awaits {m : Message} (hsupplied : session.network.supplied c e = true)
    (hawaits : Awaits session c m e) : m ∈ c.sent := by
  cases hawaits with
  | initialisationFile hidle ht hkind =>
    exact (supplied_clientCompleted ht (by rw [hkind]; rfl)).mp hsupplied
  | statusFile hidle ht hkind hkept =>
    exact (supplied_serverCompleted ht (by rw [hkind]; rfl)).mp hsupplied
  | listFile hidle ht hkind hkept hsize =>
    exact (supplied_serverCompleted ht (by rw [hkind]; rfl)).mp hsupplied
  | requestFile hidle ht hkind =>
    exact (supplied_target ht (by rw [hkind]; rfl)).mp hsupplied

/-- **Acceptance**: no file is refused. In every run of a session whose user sends its files
where the version is agreed, a step that completes a transfer with a file of the other
party makes the call of the handler that the file is for, with what the other party put
into it, and nothing else. -/
theorem session_accepts (hversion : session.target.protocolVersion.Supported)
    (hagreed : SentAgreed session es)
    (hrun : session.system.exec session.start es = some (c, tr)) {m : Message}
    (hawaits : Awaits session c m e) (hstep : session.system.step c e = some (c', out)) :
    ∃ o, out = [o] ∧ Delivered session es tr m o := by
  obtain ⟨i, f⟩ := e
  obtain ⟨hsupplied, -⟩ := Network.step_iff.mp hstep
  obtain ⟨c'', o, haccepts, hdelivered⟩ :=
    accepts_awaited hversion hagreed hrun (sent_of_awaits hsupplied hawaits) hawaits
  rw [haccepts, Option.some.injEq, Prod.mk.injEq] at hstep
  exact ⟨o, hstep.2.symm, hdelivered⟩

/-- A user who sends nothing sends nothing too early. -/
theorem sentAgreed_of_not_sends (h : ∀ f, ⟨.host, f⟩ ∈ es → f.sends = false) :
    SentAgreed session es := by
  rintro pre tr c e c' out ⟨post, rfl, hpre, hstep⟩ operation filename file ho
  obtain ⟨f, s, os, rfl, -, hhost, hos⟩ := host_step hstep ho
  have hnot := h f (by simp)
  cases Host.sentBy_of_step (Host.consistent_run (host_run hpre)) hhost hos <;> cases hnot

/-- The first status of an upload is sent, and its transfer is in flight. -/
def exampleStatus : List (Σ i : Party, i.Event) :=
  exampleStart ++
    [⟨.target, .advance Timers.second⟩, ⟨.target, .timerExpired⟩, ⟨.target, .timerHandler .success⟩,
      ⟨.host, .tftpRequest (Host.exampleRequest .write "HNPFMS_L.LUS")⟩]

theorem not_sends_exampleStatus : ∀ f, ⟨.host, f⟩ ∈ exampleStatus → f.sends = false := by
  simp [exampleStatus, exampleStart, Host.Event.sends]

/-- The status is accepted, and the user is told it. -/
theorem session_accepts_status : ∃ c tr c',
    (exampleSession .upload).system.exec (exampleSession .upload).start exampleStatus =
        some (c, tr) ∧
      (exampleSession .upload).system.step c ⟨.host, .serverCompleted 1 .successful
          (insertHeader .arinc615a34 [0, 1, 0, 0, 0, 0, 0, 0, 0, 32, 32, 48, 0, 0])⟩ =
        some (c', [⟨.host, .status (.upload ⟨⟨0, 0, 0, .operationAccepted, []⟩, .zero, []⟩)⟩]) ∧
      Delivered (exampleSession .upload) exampleStatus tr
        (.statusFile (insertHeader .arinc615a34 [0, 1, 0, 0, 0, 0, 0, 0, 0, 32, 32, 48, 0, 0]))
        ⟨.host, .status (.upload ⟨⟨0, 0, 0, .operationAccepted, []⟩, .zero, []⟩)⟩ := by
  obtain ⟨o, heq, hdelivered⟩ := @session_accepts (exampleSession .upload) _ _ exampleStatus _ _
    ⟨.host, .serverCompleted 1 .successful (insertHeader .arinc615a34
      [0, 1, 0, 0, 0, 0, 0, 0, 0, 32, 32, 48, 0, 0])⟩ (.inr rfl)
    (sentAgreed_of_not_sends not_sends_exampleStatus) rfl _ (.statusFile rfl rfl rfl rfl) rfl
  cases heq
  exact ⟨_, _, _, rfl, rfl, hdelivered⟩

end Arinc615a.System
