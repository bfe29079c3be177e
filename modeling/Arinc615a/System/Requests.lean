import Arinc615a.System.Agreement
import Arinc615a.Files.FilenameGrammar

/-!
# Requests between the parties

The requests that the parties make of each other. With a valid target ID the filename
of each passes the checks of the party that is asked, and names the file that it waits
for: the request is served, and the transfer that it starts delivers the file that the
other party sent (`session_delivers`).
-/

namespace Arinc615a.System

open Machines Readers
open Files Information Tftp

variable {session : Session} {c c' : session.network.Snapshot}
  {es : List (Σ i : Party, i.Event)} {tr out : List (Σ i : Party, i.Output)}

open Session

/-- The other party was asked to take a file, under its name. -/
inductive Asked (tr : List (Σ i : Party, i.Output)) : Message → Str → Prop where
  | statusFile {remote : Endpoint} {operation : Target.TransferId} {filename : Str}
    {status : OperationStatus} {file : RawData}
    (h : ⟨.target, .statusFile remote operation filename status file⟩ ∈ tr) :
    Asked tr (.statusFile file) filename
  | listFile {remote : Endpoint} {operation : Target.TransferId} {filename : Str} {file : RawData}
    {checkValue : CheckValue}
    (h : ⟨.target, .listFile remote operation filename file checkValue⟩ ∈ tr) :
    Asked tr (.listFile file checkValue) filename
  | requestFile {operation : Host.TransferId} {filename : Str} {file : RawData}
    (h : ⟨.host, .clientWriteOperation operation filename file⟩ ∈ tr) :
    Asked tr (.requestFile file) filename

/-- The party that is asked. -/
def requestEvent (request : Request) : Message → (Σ i : Party, i.Event)
  | .requestFile _ => ⟨.target, .tftpRequest request⟩
  | _ => ⟨.host, .tftpRequest request⟩

/-- The check value that comes with a file. -/
def Message.checkValue : Message → CheckValue
  | listFile _ checkValue => checkValue
  | _ => {}

/-- The party that is asked waits for requests, and no abort is pending in the host. -/
inductive Ready (session : Session) (c : session.network.Snapshot) (request : Request) :
    Message → Prop where
  | statusFile {data : RawData} (hidle : (c.party .host).callback = none)
    (hserver : (c.party .host).serverRunning = true)
    (hpending : (c.party .host).abortReason = .noAbort) : Ready session c request (.statusFile data)
  | listFile {data : RawData} {checkValue : CheckValue}
    (hidle : (c.party .host).callback = none) (hserver : (c.party .host).serverRunning = true)
    (hsize : session.host.operation = .information → 19 ≤ data.length ∧ data.length < 2 ^ 32) :
    Ready session c request (.listFile data checkValue)
  | requestFile {data : RawData} (hidle : (c.party .target).callback = none)
    (haddress : request.remote.address = session.hostAddress.address) :
    Ready session c request (.requestFile data)

/-! ## What was asked for was sent -/

theorem sent_of_mem (hrun : session.system.exec session.start es = some (c, tr)) {i : Party}
    {o : i.Output} {m : Message} (ho : ⟨i, o⟩ ∈ tr) (hsends : session.network.sends i o = some m) :
    m ∈ c.sent := by
  rw [Network.sent_exec hrun]
  exact List.mem_append_right _ (List.mem_filterMap.mpr ⟨_, ho, hsends⟩)

theorem sent_of_asked (hrun : session.system.exec session.start es = some (c, tr)) {m : Message}
    {filename : Str} (h : Asked tr m filename) : m ∈ c.sent := by
  cases h with
  | statusFile ho => exact sent_of_mem hrun ho rfl
  | listFile ho => exact sent_of_mem hrun ho rfl
  | requestFile ho => exact sent_of_mem hrun ho rfl

/-! ## Requests of the target -/

/-- The filename of the target passes the check of the host, with its file type. -/
theorem checksRequest_toString {cfg : Host.Configuration} {fileType : ProtocolFileType}
    (hvalid : cfg.targetId.isValid = true) (htype : fileType ≠ .invalid) :
    Host.checksRequest cfg (ProtocolFilename.toString ⟨cfg.targetId, fileType⟩) = true ∧
      (ProtocolFilename.ofString (ProtocolFilename.toString ⟨cfg.targetId, fileType⟩)).fileType =
        fileType := by
  have hread := @ProtocolFilename.ofString_toString ⟨cfg.targetId, fileType⟩
    (ProtocolFilename.isValid_iff.mpr ⟨hvalid, htype⟩)
  rw [Host.checksRequest, hread]
  simp

/-- A write request that passed the check, as a step of the session. -/
theorem host_serves (hrun : session.system.exec session.start es = some (c, tr))
    {request : Request} (hidle : (c.party .host).callback = none)
    (hserver : (c.party .host).serverRunning = true) (hwrite : request.requestType = .write)
    (hchecks : Host.checksRequest session.host request.filename = true) :
    ∃ out, session.system.step c ⟨.host, .tftpRequest request⟩ = some
      (c.after .host (Host.actionState session.host (c.party .host)
        (Host.writeAction session.host.operation request))
        (Host.actionOutputs session.host request (c.party .host)
          (Host.writeAction session.host.operation request)), out) := by
  have haction : Host.requestAction session.host.operation request =
      Host.writeAction session.host.operation request := by
    simp [Host.requestAction, hwrite]
  have hreaction : Host.reaction session.host (c.party .host) (.tftpRequest request) =
      some (.request request) := by
    simp [Host.reaction, hidle, hserver]
  have hstep := host_reacts hrun rfl hreaction
  simp only [Host.Reaction.state, Host.Reaction.out, Host.taken, hchecks, if_true, haction,
    Host.onlyWrites, hwrite, ne_eq, not_true_eq_false, and_false, if_false, List.nil_append]
    at hstep
  exact ⟨_, hstep⟩

/-- The status of the target passes the check under the name that the host expects. -/
theorem writes_statusFile (hvalid : session.target.targetId.isValid = true)
    (hrun : session.system.exec session.start es = some (c, tr)) {request : Request}
    {remote : Endpoint} {operation : Target.TransferId} {status : OperationStatus} {file : RawData}
    (hasked : ⟨.target, .statusFile remote operation request.filename status file⟩ ∈ tr) :
    Host.checksRequest session.host request.filename = true ∧
      Host.writeAction session.host.operation request = .statusFile := by
  have hname : request.filename = ProtocolFilename.toString ⟨session.host.targetId,
      Host.statusFileType session.host.operation⟩ := by
    rw [(sentStatus_of_mem hrun hasked).filename_eq, session.targetId_eq, session.operation_eq]
    cases session.target.operation <;> rfl
  have hinvalid : Host.statusFileType session.host.operation ≠ .invalid := by
    cases session.host.operation <;> nofun
  obtain ⟨hchecks, htype⟩ := checksRequest_toString (session.targetId_eq ▸ hvalid) hinvalid
  rw [← hname] at hchecks htype
  exact ⟨hchecks, by simp [Host.writeAction, htype]⟩

/-- The host takes the status of the target. -/
theorem serves_statusFile (hvalid : session.target.targetId.isValid = true)
    (hrun : session.system.exec session.start es = some (c, tr)) {request : Request}
    (hwrite : request.requestType = .write) {remote : Endpoint} {operation : Target.TransferId}
    {status : OperationStatus} {file : RawData}
    (hasked : ⟨.target, .statusFile remote operation request.filename status file⟩ ∈ tr)
    (hidle : (c.party .host).callback = none)
    (hserver : (c.party .host).serverRunning = true)
    (hpending : (c.party .host).abortReason = .noAbort) :
    ∃ c' out e, session.system.step c ⟨.host, .tftpRequest request⟩ = some (c', out) ∧
      Awaits session c' (.statusFile file) e := by
  obtain ⟨hchecks, haction⟩ := writes_statusFile hvalid hrun hasked
  obtain ⟨out, hstep⟩ := host_serves hrun hidle hserver hwrite hchecks
  rw [haction, Host.actionState, if_pos hpending] at hstep
  refine ⟨_, out, _, hstep, @Awaits.statusFile _ _ (c.party .host).nextTransfer
    ⟨(c.party .host).nextTransfer, .statusFile, false⟩ _ ?_ ?_ rfl rfl⟩
  · rw [Network.party_after_self]
    exact hidle
  · rw [Network.party_after_self]
    simp [Host.transfer?, Host.State.withStatusFile, Host.State.withTransfer]

/-- The list of the target is the list of the operation of the host. -/
theorem listFile_of_passedBy {s : Target.State} {f : Target.Event} {remote : Endpoint}
    {operation : Target.TransferId} {filename : Str} {file : RawData} {checkValue : CheckValue}
    (h : Target.PassedBy session.target s
      (.listFile remote operation filename file checkValue) f) :
    ∃ fileType, filename = ProtocolFilename.toString ⟨session.host.targetId, fileType⟩ ∧
      fileType ≠ .invalid ∧ fileType ≠ Host.statusFileType session.host.operation ∧
      some fileType = Host.listFileType session.host.operation ∧
      (session.host.operation ≠ .information → checkValue = {}) := by
  rw [session.targetId_eq, session.operation_eq]
  cases h with
  | targetInformation hop hencode =>
    rw [hop]
    exact ⟨.loadConfigurationList, rfl, nofun, nofun, rfl, fun h => absurd rfl h⟩
  | downloadingList hop hencode =>
    rw [hop]
    exact ⟨.operatorDefinedDownloadList, rfl, nofun, nofun, rfl, fun _ => rfl⟩

/-- The host takes the list of the target, with its check value. -/
theorem serves_listFile (hvalid : session.target.targetId.isValid = true)
    (hrun : session.system.exec session.start es = some (c, tr)) {request : Request}
    (hwrite : request.requestType = .write) {remote : Endpoint} {operation : Target.TransferId}
    {file : RawData} {checkValue : CheckValue}
    (hasked : ⟨.target, .listFile remote operation request.filename file checkValue⟩ ∈ tr)
    (hidle : (c.party .host).callback = none)
    (hserver : (c.party .host).serverRunning = true)
    (hchecksum : request.clientArinc615aOptions.checksum = checkValue)
    (hsize : session.host.operation = .information → 19 ≤ file.length ∧ file.length < 2 ^ 32) :
    ∃ c' out e, session.system.step c ⟨.host, .tftpRequest request⟩ = some (c', out) ∧
      Awaits session c' (.listFile file checkValue) e := by
  obtain ⟨s, f, -, hpassed⟩ := passedBy_of_mem hrun hasked
  obtain ⟨fileType, hname, hinvalid, hstatus, hlist, hvalue⟩ := listFile_of_passedBy hpassed
  obtain ⟨hchecks, htype⟩ := checksRequest_toString (session.targetId_eq ▸ hvalid) hinvalid
  rw [← hname] at hchecks htype
  obtain ⟨out, hstep⟩ := host_serves hrun hidle hserver hwrite hchecks
  have hcheckValue : Host.listCheckValue session.host.operation request = checkValue := by
    unfold Host.listCheckValue
    split
    · exact hchecksum
    · exact (hvalue ‹_›).symm
  have haction : Host.writeAction session.host.operation request = .listFile checkValue := by
    simp [Host.writeAction, htype, hstatus, hlist, hcheckValue]
  rw [haction, Host.actionState, Host.withListFile_eq] at hstep
  refine ⟨_, out, _, hstep, @Awaits.listFile _ _ (c.party .host).nextTransfer
    ⟨(c.party .host).nextTransfer, .listFile checkValue, false⟩ _ _ ?_ ?_ rfl rfl hsize⟩
  · rw [Network.party_after_self]
    exact hidle
  · rw [Network.party_after_self]
    simp [Host.transfer?]

/-! ## Requests of the host -/

/-- The file of the host is the one that the target waits for. -/
theorem requestFile_of_sentBy {s : Host.State} {f : Host.Event} {filename : Str} {file : RawData}
    (h : Host.SentBy session.host s file filename f) :
    ∃ fileType addressNotExpected,
      filename = ProtocolFilename.toString ⟨session.target.targetId, fileType⟩ ∧
        fileType ≠ .invalid ∧ ∀ s request, Target.tftpReaction session.target s request =
          Target.requestReaction fileType addressNotExpected s request := by
  rw [← session.targetId_eq]
  cases h with
  | loadList hop hencode =>
    rw [session.operation_eq] at hop
    exact ⟨.uploadRequest, _, rfl, by decide, fun s request => by rw [Target.tftpReaction, hop]⟩
  | request hop hencode =>
    rw [session.operation_eq] at hop
    exact ⟨.mediaDefinedDownloadRequest, _, rfl, by decide,
      fun s request => by rw [Target.tftpReaction, hop]⟩
  | answer hop hencode =>
    rw [session.operation_eq] at hop
    exact ⟨.operatorDefinedDownloadAnswer, _, rfl, by decide,
      fun s request => by rw [Target.tftpReaction, hop]⟩

/-- The target takes the file of the user. -/
theorem serves_requestFile (hvalid : session.target.targetId.isValid = true)
    (hrun : session.system.exec session.start es = some (c, tr)) {request : Request}
    (hwrite : request.requestType = .write) {operation : Host.TransferId} {file : RawData}
    (hasked : ⟨.host, .clientWriteOperation operation request.filename file⟩ ∈ tr)
    (hidle : (c.party .target).callback = none)
    (haddress : request.remote.address = session.hostAddress.address) :
    ∃ c' out e, session.system.step c ⟨.target, .tftpRequest request⟩ = some (c', out) ∧
      Awaits session c' (.requestFile file) e := by
  obtain ⟨_, f, s, _, _, os, -, -, hexec, hhost, hos⟩ := host_output hrun hasked
  obtain ⟨fileType, addressNotExpected, hname, hinvalid, hexpects⟩ :=
    requestFile_of_sentBy (Host.sentBy_of_step (Host.consistent_run hexec) hhost hos)
  have hread := @ProtocolFilename.ofString_toString ⟨session.target.targetId, fileType⟩
    (ProtocolFilename.isValid_iff.mpr ⟨hvalid, hinvalid⟩)
  have hremote : (c.party .target).hostAddress = session.hostAddress.address :=
    congrArg Endpoint.address (Target.remote_run (target_run hrun))
  have hreaction : Target.reaction session.target (c.party .target) (.tftpRequest request) =
      some (.receive request.remote) := by
    simp [Target.reaction, hidle, hexpects, Target.requestReaction, hremote, haddress, hwrite,
      hname, hread]
  have hstep := Target.step_iff.mpr ⟨_, hreaction, rfl⟩
  refine ⟨_, _, _, Network.step_iff.mpr ⟨rfl, _, _, hstep, rfl, rfl⟩,
    @Awaits.requestFile _ _ (c.party .target).nextTransfer
      ⟨(c.party .target).nextTransfer, .requestFile⟩ _ ?_ ?_ rfl⟩
  · rw [Network.party_after_self]
    exact hidle
  · rw [Network.party_after_self]
    simp [Target.transfer?, Target.State.withTransfer, Target.taken]

/-! ## Files are delivered -/

/-- **Requests**: in every run of a session with a valid target ID, a ready party serves
the request for a file of the other one, if it brings the check value of the file along,
and then waits for the file. -/
theorem serves_asked (hvalid : session.target.targetId.isValid = true)
    (hrun : session.system.exec session.start es = some (c, tr)) {m : Message} {request : Request}
    (hwrite : request.requestType = .write)
    (hchecksum : request.clientArinc615aOptions.checksum = m.checkValue)
    (hasked : Asked tr m request.filename) (hready : Ready session c request m) :
    ∃ c' out e, session.system.step c (requestEvent request m) = some (c', out) ∧
      Awaits session c' m e := by
  cases hready with
  | statusFile hidle hserver hpending =>
    cases hasked with
    | statusFile ho => exact serves_statusFile hvalid hrun hwrite ho hidle hserver hpending
  | listFile hidle hserver hsize =>
    cases hasked with
    | listFile ho => exact serves_listFile hvalid hrun hwrite ho hidle hserver hchecksum hsize
  | requestFile hidle haddress =>
    cases hasked with
    | requestFile ho => exact serves_requestFile hvalid hrun hwrite ho hidle haddress

/-- A request sends no file of the user. -/
theorem SentAgreed.request (h : SentAgreed session es) {request : Request} {m : Message} :
    SentAgreed session (es ++ [requestEvent request m]) := by
  intro pre tr c e c' out hstep operation filename file ho
  rcases hstep.of_append with hbefore | ⟨rfl, rfl⟩
  · exact h pre tr c e c' out hbefore operation filename file ho
  · obtain ⟨_, -, hpre, hlast⟩ := hstep
    obtain ⟨f, s, os, he, -, hhost, hos⟩ := host_step hlast ho
    have hsent := Host.sentBy_of_step (Host.consistent_run (host_run hpre)) hhost hos
    cases m <;> cases he <;> cases hsent

/-- Nor is it a call that gives a file. -/
theorem Delivery.request {request : Request} {m : Message} {sent o : Σ i : Party, i.Output}
    (h : Delivery session (es ++ [requestEvent request m]) sent o) :
    Delivery session es sent o := by
  have hmem {e : Σ i : Party, i.Event} (he : e ∈ es ++ [requestEvent request m])
      (hne : e ≠ requestEvent request m) : e ∈ es := by
    rcases List.mem_append.mp he with he | he
    · exact he
    · exact absurd (List.mem_singleton.mp he) hne
  cases h with
  | initialisationResponse => exact .initialisationResponse
  | status => exact .status
  | targetInformation hcall hencode =>
    exact .targetInformation (hmem hcall (by cases m <;> simp [requestEvent])) hencode
  | downloadingList hcall hencode =>
    exact .downloadingList (hmem hcall (by cases m <;> simp [requestEvent])) hencode
  | received hcall hsent hgiven =>
    refine .received (hmem hcall ?_) hsent hgiven
    cases hsent <;> cases m <;> simp [requestEvent]

/-- **Delivery**: in every run of a session with a valid target ID whose user sends its
files where the version is agreed, a file that either party asked the ready other one to
take can be delivered: the request with its check value is served, and the completion of
the transfer that it started makes exactly the call of the handler that the file is for,
with what the other party put into it. -/
theorem session_delivers (hvalid : session.target.targetId.isValid = true)
    (hversion : session.target.protocolVersion.Supported) (hagreed : SentAgreed session es)
    (hrun : session.system.exec session.start es = some (c, tr)) {m : Message} {request : Request}
    (hwrite : request.requestType = .write)
    (hchecksum : request.clientArinc615aOptions.checksum = m.checkValue)
    (hasked : Asked tr m request.filename) (hready : Ready session c request m) :
    ∃ c' out e c'' o, session.system.step c (requestEvent request m) = some (c', out) ∧
      Awaits session c' m e ∧ session.system.step c' e = some (c'', [o]) ∧
        Delivered session es tr m o := by
  obtain ⟨c', out, e, hstep, hawaits⟩ := serves_asked hvalid hrun hwrite hchecksum hasked hready
  have hrun' := Machine.exec_append_singleton.mpr ⟨_, _, _, hrun, hstep, rfl⟩
  have hsent : m ∈ c'.sent := Network.sent_of_step hstep (sent_of_asked hrun hasked)
  obtain ⟨c'', o, hlast, hdelivered⟩ :=
    accepts_awaited hversion hagreed.request hrun' hsent hawaits
  refine ⟨c', out, e, c'', o, hstep, hawaits, hlast, (mem_sent_iff hrun).mp ?_, ?_⟩
  · exact sent_of_asked hrun hasked
  · intro sent hmem hmessage
    refine (hdelivered.content sent ?_ hmessage).request
    rw [outputs, ← List.append_assoc]
    exact List.mem_append_left _ hmem

/-- The target sends the first status of an upload. -/
def exampleSent : List (Σ i : Party, i.Event) :=
  exampleStart ++
    [⟨.target, .advance Timers.second⟩, ⟨.target, .timerExpired⟩, ⟨.target, .timerHandler .success⟩]

theorem not_sends_exampleSent : ∀ f, ⟨.host, f⟩ ∈ exampleSent → f.sends = false := by
  simp [exampleSent, exampleStart, Host.Event.sends]

/-- The status can be delivered. -/
theorem session_delivers_status : ∃ c tr data,
    (exampleSession .upload).system.exec (exampleSession .upload).start exampleSent =
        some (c, tr) ∧
      ∃ c' out e c'' o,
        (exampleSession .upload).system.step c
            ⟨.host, .tftpRequest (Host.exampleRequest .write "HNPFMS_L.LUS")⟩ = some (c', out) ∧
          Awaits (exampleSession .upload) c' (.statusFile data) e ∧
          (exampleSession .upload).system.step c' e = some (c'', [o]) ∧
            Delivered (exampleSession .upload) exampleSent tr (.statusFile data) o :=
  ⟨_, _, insertHeader .arinc615a34 [0, 1, 0, 0, 0, 0, 0, 0, 0, 32, 32, 48, 0, 0], rfl,
    @session_delivers (exampleSession .upload) _ exampleSent _ rfl (.inr rfl)
      (sentAgreed_of_not_sends not_sends_exampleSent) rfl _
      (Host.exampleRequest .write "HNPFMS_L.LUS") rfl rfl
      (.statusFile (.tail _ (.tail _ (.tail _ (.tail _ (.head _))))))
      (.statusFile rfl rfl rfl)⟩

end Arinc615a.System
