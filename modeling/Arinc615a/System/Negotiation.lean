import Arinc615a.System.Requests
import Arinc615a.Target.Protocol
import Arinc615a.Tftp.Exchange

/-!
# Option negotiation between host and target

Each party asks the other one for files with ARINC 615A options, acknowledges the options of
the requests that it serves, and decides on what the other one acknowledged. The handlers of
the two sides are written apart from each other, in five classes. They fit together: what a
party acknowledges of a request in a session passes the handler of the party that asked
(`session_negotiates`), with one exception that is there by design: the port option, which
takes a target in ARINC 615A-3/4 mode (`port_negotiated`).
-/

namespace Arinc615a

open Machines
open Files Tftp

/-! ## The host -/

namespace Host

/-- The port of the server address that `OperationImpl::OperationImpl` gives its TFTP server:
with the port option the system chooses one. -/
def serverPort (portOption : Bool) (tftpServerPort : UInt16) : UInt16 :=
  if portOption then 0 else tftpServerPort

/-- What a socket is bound to: the port of its address, or any where that is 0. -/
def BoundTo (port localPort : UInt16) : Prop := port ≠ 0 → localPort = port

/-- `OperationImpl::initialisationFileOptionsNegotiation`, for a host whose TFTP server is
bound to the port. The part number is not looked at. -/
def initialisationFileOptionsNegotiation (portOption : Bool) (localPort : UInt16)
    (options : Arinc615aOptions) : Bool :=
  if options.checksum ≠ {} then false
  else
    match options.port with
    | some port =>
      if ¬ portOption then false
      else if port ≠ localPort then false
      else true
    | none => if portOption then false else true

/-- The handler for the files that the host sends: no option is expected. -/
def sentFileOptionsNegotiation (serverOptions : Arinc615aOptions) : Bool :=
  if serverOptions.anySet then false else true

/-- `UploadOperationImpl::loadListOptionNegotiation`. -/
def UploadOperation.loadListOptionNegotiation := sentFileOptionsNegotiation

/-- `MediaDefinedDownloadOperationImpl::requestOptionsNegotiation`. -/
def MediaDefinedDownloadOperation.requestOptionsNegotiation := sentFileOptionsNegotiation

/-- `OperatorDefinedDownloadOperationImpl::answerOptionsNegotiation`. -/
def OperatorDefinedDownloadOperation.answerOptionsNegotiation := sentFileOptionsNegotiation

/-- The handler for the file that the host sends. The information operation sends none. -/
def optionNegotiationHandler : OperationType → OptionNegotiationHandler
  | .information => none
  | .upload => some UploadOperation.loadListOptionNegotiation
  | .mediaDefinedDownload => some MediaDefinedDownloadOperation.requestOptionsNegotiation
  | .operatorDefinedDownload => some OperatorDefinedDownloadOperation.answerOptionsNegotiation

/-- The `negotiatedArinc615aOptions` of the transfers that the host takes: set by
`InformationOperationImpl::listFileRequest`, with the check value that the transfer keeps,
and by no other. -/
def negotiatedArinc615aOptions : TransferKind → Arinc615aOptions
  | .listFile checkValue => { checksum := checkValue }
  | _ => {}

/-- The port that `OperationImpl::initialise` asks for. -/
def requestedPort (portOption : Bool) (localPort : UInt16) : Option UInt16 :=
  if portOption then some localPort else none

theorem initialisationFileOptionsNegotiation_iff {portOption : Bool} {localPort : UInt16}
    {options : Arinc615aOptions} :
    initialisationFileOptionsNegotiation portOption localPort options = true ↔
      options.checksum = {} ∧ options.port = requestedPort portOption localPort := by
  obtain ⟨port, partNumber, checksum⟩ := options
  by_cases hchecksum : checksum = {}
  · cases port with
    | none =>
      cases portOption <;>
        simp [initialisationFileOptionsNegotiation, requestedPort, hchecksum]
    | some port =>
      cases portOption <;>
        simp [initialisationFileOptionsNegotiation, requestedPort, hchecksum]
  · simp [initialisationFileOptionsNegotiation, hchecksum]

/-- The `negotiatedArinc615aOptions` of `fileTransfer`, in `UploadOperationImpl` and in
`DownloadOperationImpl`: those that the user acknowledges. -/
def fileTransferOptions (partNumber : Str) (checkValue : CheckValue) : Arinc615aOptions :=
  let options : Arinc615aOptions := {}
  let options :=
    if ¬ partNumber.isEmpty then { options with partNumber := partNumber } else options
  if CheckValueType.notUsed ≠ checkValue.type then { options with checksum := checkValue }
  else options

theorem fileTransferOptions_eq {lib : OptionLibrary} (hinverse : lib.Inverse) (partNumber : Str)
    {checkValue : CheckValue} (h : checkValue.Made lib) :
    fileTransferOptions partNumber checkValue = ⟨none, partNumber, checkValue⟩ := by
  have htype := h.eq_none_iff hinverse
  cases partNumber with
  | nil =>
    by_cases hnone : checkValue = {}
    · subst hnone
      rfl
    · simp [fileTransferOptions, eq_comm (a := CheckValueType.notUsed), htype, hnone]
  | cons c partNumber =>
    by_cases hnone : checkValue = {}
    · subst hnone
      rfl
    · simp [fileTransferOptions, eq_comm (a := CheckValueType.notUsed), htype, hnone]

/-- Exactly the acknowledgement without options passes. -/
theorem sentFileOptionsNegotiation_iff {lib : OptionLibrary} (hinverse : lib.Inverse)
    {options : Arinc615aOptions} (h : options.checksum.Made lib) :
    sentFileOptionsNegotiation options = true ↔ options = {} := by
  rw [← Arinc615aOptions.anySet_eq_false_iff hinverse h]
  simp [sentFileOptionsNegotiation]

end Host

/-! ## The target -/

namespace Target

/-- The `negotiatedArinc615aOptions` of `OperationImpl::sendInitFile` and of
`ErrorOperationImpl::start`. -/
def initialisationArinc615aOptions (port : Option UInt16) : Arinc615aOptions :=
  { port := port, partNumber := [], checksum := {} }

/-- `OperationImpl::protocolFileOptionsNegotiation`. -/
def protocolFileOptionsNegotiation (providedCheckValue : CheckValue)
    (serverOptions : Arinc615aOptions) : Bool :=
  if serverOptions.port.isSome then false
  else if ¬ serverOptions.partNumber.isEmpty then false
  else if {} = providedCheckValue then
    if {} ≠ serverOptions.checksum then false else true
  else if providedCheckValue ≠ serverOptions.checksum then false
  else true

/-- `fileOptionNegotiation` of the three classes that transfer data files: the port is
checked here, and the application decides on the rest. -/
def fileOptionNegotiation (optionNegotiationHandler : Str → CheckValue → Bool)
    (options : Arinc615aOptions) : Bool :=
  if options.port.isSome then false
  else optionNegotiationHandler options.partNumber options.checksum

/-- Of the acknowledgements exactly the one of the check value passes. -/
theorem protocolFileOptionsNegotiation_iff {checkValue : CheckValue}
    {options : Arinc615aOptions} :
    protocolFileOptionsNegotiation checkValue options = true ↔
      options = { checksum := checkValue } := by
  obtain ⟨port, partNumber, checksum⟩ := options
  simp only [protocolFileOptionsNegotiation, Arinc615aOptions.mk.injEq]
  cases port with
  | some port => simp
  | none =>
    cases partNumber with
    | cons c partNumber => simp
    | nil =>
      by_cases hnone : checkValue = {}
      · subst hnone
        simp [eq_comm]
      · simp [Ne.symm hnone, eq_comm]

end Target

namespace System

open Session

variable {lib : OptionLibrary}

/-! ## The port -/

/-- The request of `OperationImpl::initialise`, as the server of the target reads it. -/
def initialisationRequest (host : Host.Configuration) (portOption : Bool) (localPort : UInt16)
    (remote : Endpoint) (clientOptions : TftpOptions) : Request :=
  ⟨remote, .read,
    Host.protocolFilename host (Host.initialisationFileType host.operation), clientOptions,
    { port := Host.requestedPort portOption localPort }⟩

/-- The protocol of a target in ARINC 615A-3/4 mode hands the port on to the application. -/
theorem protocol_hands_port (cfg : Target.Protocol.Configuration) (s : Target.Protocol.State)
    (host : Host.Configuration) (hvalid : host.targetId.isValid = true) (portOption : Bool)
    (localPort : UInt16) (remote : Endpoint) (clientOptions : TftpOptions) :
    (Target.Protocol.machine cfg).step s (.receivedTftpRequest
        (initialisationRequest host portOption localPort remote clientOptions)) =
      some (s, [.newOperationRequest host.operation remote clientOptions
        (if cfg.protocolVersion = .arinc615a34 then Host.requestedPort portOption localPort
          else none) host.targetId]) := by
  have hread (fileType : ProtocolFileType) (htype : fileType ≠ .invalid) :
      ProtocolFilename.isProtocolFilename
          (ProtocolFilename.toString ⟨host.targetId, fileType⟩) = true ∧
        ProtocolFilename.ofString (ProtocolFilename.toString ⟨host.targetId, fileType⟩) =
          ⟨host.targetId, fileType⟩ := by
    have hname : (⟨host.targetId, fileType⟩ : ProtocolFilename).isValid = true :=
      ProtocolFilename.isValid_iff.mpr ⟨hvalid, htype⟩
    exact ⟨ProtocolFilename.isProtocolFilename_toString hname,
      ProtocolFilename.ofString_toString hname⟩
  obtain ⟨hgrammar, hfile⟩ := hread (Host.initialisationFileType host.operation)
    (by cases host.operation <;> nofun)
  have hrequested : Target.Protocol.requestedOperation
      (initialisationRequest host portOption localPort remote clientOptions) =
        some host.operation := by
    simp only [Target.Protocol.requestedOperation, initialisationRequest, if_true,
      Host.protocolFilename, hfile]
    cases host.operation <;> rfl
  have hchecked : ProtocolFilename.isProtocolFilename
      (initialisationRequest host portOption localPort remote clientOptions).filename = true :=
    hgrammar
  have htarget : (ProtocolFilename.ofString
      (initialisationRequest host portOption localPort remote clientOptions).filename).targetId =
        host.targetId := congrArg ProtocolFilename.targetId hfile
  apply Target.Protocol.receivedTftpRequest_step.mpr
  simp only [Target.Protocol.receivedTftpRequest, hchecked, not_true_eq_false, if_false,
    hrequested, Target.Protocol.handleInitialisationFile, htarget]
  rfl

/-- **The port**: the initialisation request of a host with a valid target ID reaches the
application of the target with the port that the target hands on, and the host accepts what
the operation or the error operation then acknowledges, exactly if it does not insist on the
port or the target is in ARINC 615A-3/4 mode. Then in every run of the operation all its
files go to the host, at the port of the option, or at the one of the target's configuration
without it. That is the port that the server of the host listens on, exactly if the option
is used or both sides are configured with one port. -/
theorem port_negotiated (hremoves : lib.Removes) (hinverse : lib.Inverse)
    (cfg : Target.Protocol.Configuration) (s : Target.Protocol.State)
    (host : Host.Configuration) (hvalid : host.targetId.isValid = true) (portOption : Bool)
    {tftpServerPort localPort : UInt16}
    (hbound : Host.BoundTo (Host.serverPort portOption tftpServerPort) localPort)
    (remote : Endpoint) (clientOptions : TftpOptions) {m m' : Options}
    (hm : Foreign m) (hm' : Foreign m') :
    ∃ request port,
      (tftpRequestHandler lib remote .read
          (Host.protocolFilename host (Host.initialisationFileType host.operation)) .octet
          clientOptions (m ∪ ReadOperation.additionalOptions lib
            (Host.requestedPort portOption localPort) [] {})).1 = .request request ∧
      (Target.Protocol.machine cfg).step s (.receivedTftpRequest request) =
        some (s, [.newOperationRequest host.operation remote clientOptions port
          host.targetId]) ∧
      (handleOptionNegotiation lib
          (some (Host.initialisationFileOptionsNegotiation portOption localPort))
          (m' ∪ (Target.initialisationArinc615aOptions port).options lib)).1 =
        .ok (decide (portOption = true → cfg.protocolVersion = .arinc615a34)) ∧
      ((portOption = true → cfg.protocolVersion = .arinc615a34) →
        ∀ target es t tr,
          (Target.machine target).exec (Target.started target remote port) es = some (t, tr) →
          ∀ o ∈ tr, ∀ endpoint filename, o.file? = some (endpoint, filename) →
            endpoint = ⟨remote.address,
              if portOption then localPort else target.tftpServerPort⟩ ∧
            (tftpServerPort ≠ 0 → (endpoint.port = localPort ↔
              portOption = true ∨ target.tftpServerPort = tftpServerPort))) := by
  refine ⟨initialisationRequest host portOption localPort remote clientOptions, _, ?_,
    protocol_hands_port cfg s host hvalid portOption localPort remote clientOptions, ?_, ?_⟩
  · rw [ReadOperation.additionalOptions_eq hinverse _ _ (.inl rfl)]
    exact request_of_written hremoves hinverse (.inl rfl) hm ..
  · rw [negotiation_of_acknowledged hremoves hinverse (.inl rfl) hm']
    refine congrArg Except.ok (Bool.eq_iff_iff.mpr ?_)
    rw [Host.initialisationFileOptionsNegotiation_iff, decide_eq_true_iff]
    cases portOption <;> simp [Target.initialisationArinc615aOptions, Host.requestedPort]
  · intro hport target es t tr hrun o ho endpoint filename hfile
    obtain ⟨rfl, -⟩ := Target.addressed_run hrun ho hfile
    cases portOption with
    | false =>
      refine ⟨by simp [Host.requestedPort], fun hconfigured => ?_⟩
      have hlocal : localPort = tftpServerPort := hbound hconfigured
      simp [Host.requestedPort, hlocal]
    | true => simp [Host.requestedPort, hport rfl]

/-- A host whose server the system has bound to port 1059, and a target in ARINC 615A-3/4
mode. -/
theorem port_negotiated_accepts : ∃ port,
    (handleOptionNegotiation hexLibrary
        (some (Host.initialisationFileOptionsNegotiation true 1059))
        (∅ ∪ (Target.initialisationArinc615aOptions port).options hexLibrary)).1 = .ok true ∧
      ∀ es t tr,
        (Target.machine (Target.exampleConfiguration .upload)).exec
            (Target.started (Target.exampleConfiguration .upload) ⟨1, 1025⟩ port) es =
          some (t, tr) →
        ∀ o ∈ tr, ∀ endpoint filename, o.file? = some (endpoint, filename) →
          endpoint = ⟨1, 1059⟩ := by
  obtain ⟨request, port, -, -, haccepted, hfiles⟩ :=
    @port_negotiated hexLibrary hexLibrary_removes hexLibrary_inverse
      Target.Protocol.exampleConfiguration {} (Host.exampleConfiguration .upload) rfl true 59 1059
      (fun hne => absurd rfl hne) ⟨1, 1025⟩ [] ∅ ∅ foreign_empty foreign_empty
  refine ⟨port, haccepted, fun es t tr hrun o ho endpoint filename hfile => ?_⟩
  exact (hfiles (fun _ => rfl) (Target.exampleConfiguration .upload) es t tr hrun o ho endpoint
    filename hfile).1

/-! ## Protocol files -/

variable {session : Session} {c c' : session.network.Snapshot}
  {es : List (Σ i : Party, i.Event)} {tr : List (Σ i : Party, i.Output)}

/-- The handler of the party that asks the other one to take a file. -/
def fileNegotiation (session : Session) : Message → OptionNegotiationHandler
  | .requestFile _ => Host.optionNegotiationHandler session.host.operation
  | m => some (Target.protocolFileOptionsNegotiation m.checkValue)

/-- What was acknowledged when the transfer began that completes. The target acknowledges
nothing of the files that it takes. -/
def acknowledged (c : session.network.Snapshot) : (Σ i : Party, i.Event) → Arinc615aOptions
  | ⟨.host, .serverCompleted operation _ _⟩ =>
    ((Host.transfer? (c.party .host) operation).map fun t =>
      Host.negotiatedArinc615aOptions t.kind).getD {}
  | _ => {}

/-- A party that waits for a file has acknowledged its check value. -/
theorem acknowledged_of_awaits {m : Message} {e : Σ i : Party, i.Event}
    (h : Awaits session c m e) : acknowledged c e = { checksum := m.checkValue } := by
  cases h with
  | initialisationFile => rfl
  | statusFile hidle ht hkind =>
    simp only [acknowledged, ht, Option.map_some, hkind]
    rfl
  | listFile hidle ht hkind =>
    simp only [acknowledged, ht, Option.map_some, hkind]
    rfl
  | requestFile => rfl

/-- A file of the host has no check value, and the host sends it with a handler. -/
theorem handler_of_requestFile (hrun : session.system.exec session.start es = some (c, tr))
    {operation : Host.TransferId} {filename : Str} {file : RawData}
    (ho : ⟨.host, .clientWriteOperation operation filename file⟩ ∈ tr) :
    Host.optionNegotiationHandler session.host.operation =
      some Host.sentFileOptionsNegotiation := by
  obtain ⟨_, f, s, _, _, os, -, -, hexec, hhost, hos⟩ := host_output hrun ho
  cases Host.sentBy_of_step (Host.consistent_run hexec) hhost hos with
  | loadList hop hencode => rw [hop]; rfl
  | request hop hencode => rw [hop]; rfl
  | answer hop hencode => rw [hop]; rfl

/-- The party that asks accepts exactly the acknowledgement of the check value. -/
theorem fileNegotiation_call (hinverse : lib.Inverse)
    (hrun : session.system.exec session.start es = some (c, tr)) {m : Message} {filename : Str}
    (hasked : Asked tr m filename) {o : Arinc615aOptions} (ho : o.checksum.Made lib) :
    (fileNegotiation session m).call o = .ok (decide (o = { checksum := m.checkValue })) := by
  cases hasked with
  | statusFile =>
    refine congrArg Except.ok (Bool.eq_iff_iff.mpr ?_)
    rw [Target.protocolFileOptionsNegotiation_iff, decide_eq_true_iff]
  | listFile =>
    refine congrArg Except.ok (Bool.eq_iff_iff.mpr ?_)
    rw [Target.protocolFileOptionsNegotiation_iff, decide_eq_true_iff]
  | requestFile hmem =>
    rw [fileNegotiation, handler_of_requestFile hrun hmem]
    refine congrArg Except.ok (Bool.eq_iff_iff.mpr ?_)
    rw [Host.sentFileOptionsNegotiation_iff hinverse ho, decide_eq_true_iff]
    rfl

/-- **Negotiation**: in every run of a session with a valid target ID, a file that either
party asks the other one to take passes the option negotiation. The options of the request
are read as they were written, the party that asked accepts them and no others, and they are
what the ready party acknowledges when it serves the request. -/
theorem session_negotiates (hremoves : lib.Removes) (hinverse : lib.Inverse)
    (hvalid : session.target.targetId.isValid = true)
    (hrun : session.system.exec session.start es = some (c, tr)) {f : Message} {filename : Str}
    (hasked : Asked tr f filename) (hmade : f.checkValue.Made lib) (remote : Endpoint)
    (clientOptions : TftpOptions) {m m' : Options} (hm : Foreign m) (hm' : Foreign m') :
    ∃ request,
      (tftpRequestHandler lib remote .write filename .octet clientOptions
        (m ∪ WriteOperation.additionalOptions lib [] f.checkValue)).1 = .request request ∧
      (∀ o : Arinc615aOptions, o.checksum.Made lib →
        (handleOptionNegotiation lib (fileNegotiation session f) (m' ∪ o.options lib)).1 =
          .ok (decide (o = request.clientArinc615aOptions))) ∧
      (Ready session c request f →
        ∃ c' out e, session.system.step c (requestEvent request f) = some (c', out) ∧
          Awaits session c' f e ∧
          (handleOptionNegotiation lib (fileNegotiation session f)
            (m' ∪ (acknowledged c' e).options lib)).1 = .ok true) := by
  have hdecides (o : Arinc615aOptions) (ho : o.checksum.Made lib) :
      (handleOptionNegotiation lib (fileNegotiation session f) (m' ∪ o.options lib)).1 =
        .ok (decide (o = { checksum := f.checkValue })) := by
    rw [negotiation_of_acknowledged hremoves hinverse ho hm',
      fileNegotiation_call hinverse hrun hasked ho]
  refine ⟨⟨remote, .write, filename, clientOptions, { checksum := f.checkValue }⟩, ?_, hdecides,
    ?_⟩
  · rw [WriteOperation.additionalOptions_eq hinverse _ hmade]
    exact request_of_written hremoves hinverse hmade hm ..
  · intro hready
    obtain ⟨c', out, e, hstep, hawaits⟩ := serves_asked hvalid hrun rfl rfl hasked hready
    refine ⟨c', out, e, hstep, hawaits, ?_⟩
    rw [acknowledged_of_awaits hawaits, hdecides { checksum := f.checkValue } hmade,
      decide_eq_true rfl]

/-- The status of the example, with an option of TFTP. -/
theorem session_negotiates_status : ∃ c tr data,
    (exampleSession .upload).system.exec (exampleSession .upload).start exampleSent =
        some (c, tr) ∧
      ∃ request c' out e,
        (exampleSession .upload).system.step c ⟨.host, .tftpRequest request⟩ = some (c', out) ∧
          Awaits (exampleSession .upload) c' (.statusFile data) e ∧
          (handleOptionNegotiation hexLibrary
            (some (Target.protocolFileOptionsNegotiation {}))
            (optionsOf [(str "key", str "value")] ∪
              (acknowledged c' e).options hexLibrary)).1 = .ok true := by
  have hkey : Foreign (optionsOf [(str "key", str "value")]) := by
    intro option
    cases option with
    | _ => decide
  have hrun : ∃ c tr remote operation status data,
      (exampleSession .upload).system.exec (exampleSession .upload).start exampleSent =
          some (c, tr) ∧
        ⟨.target, .statusFile remote operation (str "HNPFMS_L.LUS") status data⟩ ∈ tr ∧
        ∀ request, Ready (exampleSession .upload) c request (.statusFile data) :=
    ⟨_, _, _, _, _, _, rfl, .tail _ (.tail _ (.tail _ (.tail _ (.head _)))),
      fun _ => .statusFile rfl rfl rfl⟩
  obtain ⟨c, tr, remote, operation, status, data, hrun, hmem, hready⟩ := hrun
  obtain ⟨request, -, -, hserved⟩ := session_negotiates hexLibrary_removes hexLibrary_inverse rfl
    hrun (.statusFile hmem) (.inl rfl) ⟨0, 59⟩ [] hkey hkey
  obtain ⟨c', out, e, hstep, hawaits, hresult⟩ := hserved (hready request)
  exact ⟨c, tr, data, hrun, request, c', out, e, hstep, hawaits, hresult⟩

/-! ## Data files -/

/-- The type of the request for a data file: an upload reads it from the host. -/
def dataFileRequestType (operation : OperationType) : RequestType :=
  if operation = .upload then .read else .write

/-- The options of `tftpClientReadOperation` or of `tftpClientWriteOperation`. -/
def dataFileOptions (lib : OptionLibrary) (operation : OperationType) (partNumber : Str)
    (checkValue : CheckValue) : Options :=
  if operation = .upload then ReadOperation.additionalOptions lib none partNumber checkValue
  else WriteOperation.additionalOptions lib partNumber checkValue

/-- The host leaves the request for a data file to its user. -/
theorem host_hands_dataFile {host : Host.Configuration} {s : Host.State}
    (hop : host.operation ≠ .information) (hidle : s.callback = none)
    (hserver : s.serverRunning = true) {request : Request}
    (htype : request.requestType = dataFileRequestType host.operation)
    (hname : (ProtocolFilename.ofString request.filename).fileType = .invalid) :
    (Host.machine host).step s (.tftpRequest request) =
      some (s, [Host.fileRequestOutput request]) := by
  have hchecks : Host.checksRequest host request.filename = true := by
    have hgrammar : ProtocolFilename.isProtocolFilename request.filename = false := by
      rw [ProtocolFilename.isProtocolFilename_eq, ← Bool.not_eq_true,
        ProtocolFilename.isValid_iff]
      exact fun h => h.2 hname
    simp [Host.checksRequest, hgrammar]
  have haction : Host.requestAction host.operation request =
      .reply (Host.fileRequestOutput request) := by
    unfold dataFileRequestType at htype
    cases h : host.operation with
    | information => exact absurd h hop
    | _ =>
      simp [h, Host.requestAction, Host.writeAction, htype, hname, Host.statusFileType,
        Host.listFileType, Host.otherFileReply]
  have hwrites : Host.onlyWrites host.operation request = [] := by
    simp [Host.onlyWrites, hop]
  apply Host.step_eq_some.mpr
  simp only [Host.react, Actions.Action.get_bind, Actions.Action.require_bind, hidle, hserver,
    and_self, if_true, Host.tftpRequest_eq, hchecks, haction, hwrites]
  rfl

/-- **Data files**: what the target asks for along with a data file reaches the user of the
host as it was written, and what the user acknowledges by `fileTransfer` reaches the
application of the target as it was given: the transfer goes on if the application says so. -/
theorem dataFile_negotiated (hremoves : lib.Removes) (hinverse : lib.Inverse)
    {host : Host.Configuration} (hop : host.operation ≠ .information) {s : Host.State}
    (hidle : s.callback = none) (hserver : s.serverRunning = true) {filename : Str}
    (hname : (ProtocolFilename.ofString filename).fileType = .invalid) (partNumber : Str)
    {checkValue : CheckValue} (hmade : checkValue.Made lib) (remote : Endpoint)
    (clientOptions : TftpOptions) {m m' : Options} (hm : Foreign m) (hm' : Foreign m') :
    ∃ request,
      (tftpRequestHandler lib remote (dataFileRequestType host.operation) filename .octet
          clientOptions (m ∪ dataFileOptions lib host.operation partNumber checkValue)).1 =
        .request request ∧
      (Host.machine host).step s (.tftpRequest request) =
        some (s, [.fileRequest remote filename clientOptions partNumber checkValue]) ∧
      ∀ partNumber' checkValue', CheckValue.Made lib checkValue' → ∀ application,
        (handleOptionNegotiation lib (some (Target.fileOptionNegotiation application))
            (m' ∪ (Host.fileTransferOptions partNumber' checkValue').options lib)).1 =
          .ok (application partNumber' checkValue') := by
  refine ⟨⟨remote, dataFileRequestType host.operation, filename, clientOptions,
    ⟨none, partNumber, checkValue⟩⟩, ?_, ?_, ?_⟩
  · have hoptions : dataFileOptions lib host.operation partNumber checkValue =
        (⟨none, partNumber, checkValue⟩ : Arinc615aOptions).options lib := by
      unfold dataFileOptions
      split
      · exact ReadOperation.additionalOptions_eq hinverse _ _ hmade
      · exact WriteOperation.additionalOptions_eq hinverse _ hmade
    rw [hoptions]
    exact request_of_written hremoves hinverse hmade hm ..
  · exact host_hands_dataFile hop hidle hserver rfl hname
  · intro partNumber' checkValue' hmade' application
    rw [Host.fileTransferOptions_eq hinverse partNumber' hmade',
      negotiation_of_acknowledged hremoves hinverse hmade' hm']
    rfl

/-- The target reads a data file by its part number, and insists on it. -/
theorem dataFile_negotiated_partNumber :
    (handleOptionNegotiation hexLibrary
        (some (Target.fileOptionNegotiation fun partNumber _ => partNumber = str "PART"))
        (∅ ∪ (Host.fileTransferOptions (str "PART") {}).options hexLibrary)).1 = .ok true := by
  obtain ⟨request, -, -, haccepted⟩ := @dataFile_negotiated hexLibrary hexLibrary_removes
    hexLibrary_inverse (Host.exampleConfiguration .upload) nofun Host.started rfl rfl
    (str "DATA.BIN") (by decide) (str "PART") {} (.inl rfl) ⟨0, 59⟩ [] ∅ ∅ foreign_empty
    foreign_empty
  exact haccepted (str "PART") {} (.inl rfl) fun partNumber _ => partNumber = str "PART"

end System

end Arinc615a
