import Arinc615a.Host.Machine

/-!
# What a host operation does with a request

The four dispatchers in one equation (`tftpRequest_eq`): the check of the
target ID, and then the file type decides. From it, which requests are accepted
as files of the operation, and how often a request is answered.
-/

namespace Arinc615a.Host

open Actions Actions.Action Machines
open Files Tftp

/-! ## The dispatchers -/

/-- What an operation does with a request. -/
inductive RequestAction where
  | statusFile
  | listFile (checkValue : CheckValue)
  /-- An error, or a call of the user's `fileRequest`. -/
  | reply (output : Output)
  | ignored

/-- The status file of an operation. -/
def statusFileType : OperationType → ProtocolFileType
  | .information => .loadConfigurationStatus
  | .upload => .uploadStatus
  | .mediaDefinedDownload => .downloadStatus
  | .operatorDefinedDownload => .downloadStatus

/-- The list file of an operation, and the check value it is received with. -/
def listFileType : OperationType → Option ProtocolFileType
  | .information => some .loadConfigurationList
  | .operatorDefinedDownload => some .operatorDefinedDownloadList
  | _ => none

def listCheckValue (operation : OperationType) (request : Request) : CheckValue :=
  if operation = .information then request.clientArinc615aOptions.checksum else {}

/-- The call of the user's `fileRequest`. -/
def fileRequestOutput (request : Request) : Output :=
  .fileRequest request.remote request.filename request.clientTftpOptions
    request.clientArinc615aOptions.partNumber request.clientArinc615aOptions.checksum

/-- The reply to a write request of any other file: downloads take it for a
data file. -/
def otherFileReply (operation : OperationType) (request : Request) : Output :=
  match operation with
  | .information | .upload =>
    .errorOperation request.remote .fileNotFound (str "Wrong filename")
  | .mediaDefinedDownload | .operatorDefinedDownload => fileRequestOutput request

/-- A write request: the file type decides. -/
def writeAction (operation : OperationType) (request : Request) : RequestAction :=
  let fileType := (ProtocolFilename.ofString request.filename).fileType
  if fileType = statusFileType operation then .statusFile
  else if some fileType = listFileType operation then
    .listFile (listCheckValue operation request)
  else .reply (otherFileReply operation request)

/-- A request that passed the check. -/
def requestAction (operation : OperationType) (request : Request) : RequestAction :=
  -- The information operation dispatches whatever the request type is.
  if operation = .information then writeAction operation request
  else
    match request.requestType with
    | .write => writeAction operation request
    | .read =>
      .reply (if operation = .upload then fileRequestOutput request
        else .errorOperation request.remote .illegalTftpOperation
          (str "Unexpected read request"))
    | .invalid => .ignored

/-- What is replied without a transfer is an error, or calls the user. -/
theorem requestAction_reply {operation : OperationType} {request : Request} {output : Output}
    (h : requestAction operation request = .reply output) :
    (∃ errorCode errorMessage, output = .errorOperation request.remote errorCode errorMessage) ∨
      output = fileRequestOutput request := by
  -- The write requests are dispatched from two places.
  have hwrite : writeAction operation request = .reply output →
      (∃ errorCode errorMessage,
          output = .errorOperation request.remote errorCode errorMessage) ∨
        output = fileRequestOutput request := by
    intro h
    simp only [writeAction] at h
    split at h
    · cases h
    · split at h
      · cases h
      · rw [RequestAction.reply.injEq] at h
        subst h
        cases operation with
        | information => exact .inl ⟨_, _, rfl⟩
        | upload => exact .inl ⟨_, _, rfl⟩
        | mediaDefinedDownload => exact .inr rfl
        | operatorDefinedDownload => exact .inr rfl
  unfold requestAction at h
  split at h
  · exact hwrite h
  · split at h
    · exact hwrite h
    · rw [RequestAction.reply.injEq] at h
      subst h
      split
      · exact .inr rfl
      · exact .inl ⟨_, _, rfl⟩
    · cases h

/-- The error that an information operation sends before it goes on. -/
def onlyWrites (operation : OperationType) (request : Request) : List Output :=
  if operation = .information ∧ request.requestType ≠ .write then
    [.errorOperation request.remote .illegalTftpOperation (str "Only WRQ allowed")]
  else []

/-- Perform an action. -/
def perform (cfg : Configuration) (request : Request) : RequestAction → Handler
  | .statusFile => statusFileRequest cfg request.remote
  | .listFile checkValue => listFileRequest request.remote checkValue
  | .reply output => emit output
  | .ignored => pure ()

/-- **The dispatchers**: the check, and the action for the file type. -/
theorem tftpRequest_eq (cfg : Configuration) (request : Request) (s : State)
    (out : List Output) :
    tftpRequest cfg request s out =
      if checksRequest cfg request.filename then
        perform cfg request (requestAction cfg.operation request) s
          (out ++ onlyWrites cfg.operation request)
      else
        some ((), s, out ++ [.errorOperation request.remote .fileNotFound
          (str "Wrong target ID for protocol file")]) := by
  cases hop : cfg.operation with
  | information =>
    simp only [tftpRequest, hop, InformationOperation.tftpRequest, checkRequest_bind]
    cases checksRequest cfg request.filename with
    | false => simp
    | true =>
      cases htype : (ProtocolFilename.ofString request.filename).fileType <;>
        by_cases hwrite : request.requestType = .write <;>
        simp [requestAction, onlyWrites, writeAction, htype, hwrite, statusFileType,
          listFileType, listCheckValue, otherFileReply, perform]
  | upload =>
    simp only [tftpRequest, hop, UploadOperation.tftpRequest, checkRequest_bind]
    cases checksRequest cfg request.filename with
    | false => simp
    | true =>
      cases hrequest : request.requestType with
      | write =>
        cases htype : (ProtocolFilename.ofString request.filename).fileType <;>
          simp [requestAction, onlyWrites, writeAction, htype, hrequest, statusFileType,
            listFileType, otherFileReply, perform]
      | _ => simp [requestAction, onlyWrites, hrequest, perform, fileRequest, fileRequestOutput]
  | mediaDefinedDownload =>
    simp only [tftpRequest, hop, MediaDefinedDownloadOperation.tftpRequest, checkRequest_bind]
    cases checksRequest cfg request.filename with
    | false => simp
    | true =>
      cases hrequest : request.requestType with
      | write =>
        cases htype : (ProtocolFilename.ofString request.filename).fileType <;>
          simp [requestAction, onlyWrites, writeAction, htype, hrequest, statusFileType,
            listFileType, otherFileReply, perform, fileRequest, fileRequestOutput]
      | _ => simp [requestAction, onlyWrites, hrequest, perform]
  | operatorDefinedDownload =>
    simp only [tftpRequest, hop, OperatorDefinedDownloadOperation.tftpRequest, checkRequest_bind]
    cases checksRequest cfg request.filename with
    | false => simp
    | true =>
      cases hrequest : request.requestType with
      | write =>
        cases htype : (ProtocolFilename.ofString request.filename).fileType <;>
          simp [requestAction, onlyWrites, writeAction, htype, hrequest, statusFileType,
            listFileType, listCheckValue, otherFileReply, perform, fileRequest, fileRequestOutput]
      | _ => simp [requestAction, onlyWrites, hrequest, perform]

/-- The outputs of an action. -/
def actionOutputs (cfg : Configuration) (request : Request) (s : State) :
    RequestAction → List Output
  | .statusFile =>
    if s.abortReason = .noAbort then [.writeOperation request.remote s.nextTransfer .statusFile]
    else [.abortOperation request.remote s.abortReason.statusCode,
      .timerArmed (dlpDeadline cfg s 0)]
  | .listFile checkValue =>
    listAborts s ++ [.writeOperation request.remote s.nextTransfer (.listFile checkValue)]
  | .reply output => [output]
  | .ignored => []

/-- The state behind an action. -/
def actionState (cfg : Configuration) (s : State) : RequestAction → State
  | .statusFile => if s.abortReason = .noAbort then s.withStatusFile else s.withAbortSent cfg
  | .listFile checkValue => s.withListFile checkValue
  | .reply _ => s
  | .ignored => s

theorem perform_apply (cfg : Configuration) (request : Request) (action : RequestAction)
    (s : State) (out : List Output) :
    perform cfg request action s out =
      some ((), actionState cfg s action, out ++ actionOutputs cfg request s action) := by
  cases action with
  | statusFile =>
    simp only [perform, statusFileRequest_apply, actionState, actionOutputs]
    split <;> rfl
  | listFile checkValue =>
    simp only [perform, listFileRequest_apply, actionState, actionOutputs, List.append_assoc]
  | reply output => rfl
  | ignored => simp [perform, actionState, actionOutputs]

/-- **Requests**: what a request that is handed on does. -/
theorem request_step {cfg : Configuration} {request : Request} {s s' : State}
    {out : List Output} (h : (machine cfg).step s (.tftpRequest request) = some (s', out)) :
    s.callback = none ∧ s.serverRunning ∧
      if checksRequest cfg request.filename then
        s' = actionState cfg s (requestAction cfg.operation request) ∧
          out = onlyWrites cfg.operation request ++
            actionOutputs cfg request s (requestAction cfg.operation request)
      else
        s' = s ∧ out = [.errorOperation request.remote .fileNotFound
          (str "Wrong target ID for protocol file")] := by
  rw [step_eq_some] at h
  simp only [react, get_bind, require_bind_eq_some] at h
  obtain ⟨hready, h⟩ := h
  refine ⟨hready.1, hready.2, ?_⟩
  rw [tftpRequest_eq] at h
  split at h
  · rename_i hchecks
    rw [perform_apply, Option.some.injEq, Prod.mk.injEq, Prod.mk.injEq] at h
    rw [if_pos hchecks]
    exact ⟨h.2.1.symm, h.2.2.symm⟩
  · rename_i hchecks
    rw [Option.some.injEq, Prod.mk.injEq, Prod.mk.injEq] at h
    rw [if_neg hchecks]
    exact ⟨h.2.1.symm, h.2.2.symm⟩

/-! ## Authorisation -/

/-- The start of a server write operation that delivers a status or list file. -/
def isReception : Output → Bool
  | .writeOperation _ _ .statusFile => true
  | .writeOperation _ _ (.listFile _) => true
  | _ => false

/-- The filename is a protocol filename with the target ID of the operation. -/
def Authorised (cfg : Configuration) (filename : Str) : Prop :=
  ProtocolFilename.isProtocolFilename filename ∧
    (ProtocolFilename.ofString filename).targetId = cfg.targetId

/-- The requests that start a reception. -/
theorem any_isReception_iff {cfg : Configuration} {request : Request} {s s' : State}
    {out : List Output} (hwrite : request.requestType = .write)
    (h : (machine cfg).step s (.tftpRequest request) = some (s', out)) :
    out.any isReception ↔
      checksRequest cfg request.filename ∧
        let fileType := (ProtocolFilename.ofString request.filename).fileType
        (fileType = statusFileType cfg.operation ∧ s.abortReason = .noAbort) ∨
          (fileType ≠ statusFileType cfg.operation ∧
            some fileType = listFileType cfg.operation) := by
  obtain ⟨-, -, hstep⟩ := request_step h
  have haction : requestAction cfg.operation request = writeAction cfg.operation request := by
    simp [requestAction, hwrite]
  have hnone : onlyWrites cfg.operation request = [] := by simp [onlyWrites, hwrite]
  have hother : isReception (otherFileReply cfg.operation request) = false := by
    cases cfg.operation <;> rfl
  rw [haction, hnone, List.nil_append] at hstep
  split at hstep
  · rename_i hchecks
    rw [hstep.2]
    simp only [hchecks, true_and, writeAction]
    split
    · rename_i htype
      simp only [htype, actionOutputs, true_and, ne_eq, not_true_eq_false, false_and, or_false]
      -- A pending abort is answered in place of a reception.
      split <;> simp_all [isReception]
    · rename_i htype
      split
      · rename_i hlisted
        simp [htype, hlisted, actionOutputs, isReception]
      · rename_i hunlisted
        simp [htype, hunlisted, actionOutputs, hother]
  · rename_i hchecks
    rw [hstep.2]
    simp [hchecks, isReception]

/-- **Authorisation**: a write request is accepted for the target ID of the
operation only, exactly if its name is a protocol filename, or its extension is
none of the operation's, or an abort is answered instead. -/
theorem host_request_authorised_iff {cfg : Configuration} {request : Request} {s s' : State}
    {out : List Output} (hwrite : request.requestType = .write)
    (h : (machine cfg).step s (.tftpRequest request) = some (s', out)) :
    (out.any isReception → Authorised cfg request.filename) ↔
      let fileType := (ProtocolFilename.ofString request.filename).fileType
      ProtocolFilename.isProtocolFilename request.filename ∨
        (fileType ≠ statusFileType cfg.operation ∧
          some fileType ≠ listFileType cfg.operation) ∨
        (fileType = statusFileType cfg.operation ∧ s.abortReason ≠ .noAbort) := by
  rw [any_isReception_iff hwrite h]
  simp only [Authorised, checksRequest]
  by_cases hname : ProtocolFilename.isProtocolFilename request.filename
  · simp +contextual [hname]
  · by_cases htype : (ProtocolFilename.ofString request.filename).fileType =
      statusFileType cfg.operation
    · simp [hname, htype]
    · simp [hname, htype]

/-- The load status file of the target is accepted as authorised. -/
theorem host_request_authorised_upload :
    ∃ s' out, (machine (exampleConfiguration .upload)).step started
        (.tftpRequest (exampleRequest .write "HNPFMS_L.LUS")) = some (s', out) ∧
      out.any isReception ∧ Authorised (exampleConfiguration .upload)
        (exampleRequest .write "HNPFMS_L.LUS").filename :=
  have h : (machine (exampleConfiguration .upload)).step started
      (.tftpRequest (exampleRequest .write "HNPFMS_L.LUS"))
        = some (started.withStatusFile, [.writeOperation ⟨0, 59⟩ 1 .statusFile]) := rfl
  ⟨_, _, h, rfl, (host_request_authorised_iff rfl h).mpr (.inl rfl) rfl⟩

/-- A filename with nothing but the extension of a load status file is accepted
too. -/
theorem host_request_not_authorised :
    ∃ s' out, (machine (exampleConfiguration .upload)).step started
        (.tftpRequest (exampleRequest .write ".LUS")) = some (s', out) ∧
      out.any isReception ∧ ¬ Authorised (exampleConfiguration .upload) (str ".LUS") :=
  ⟨_, _, rfl, rfl, fun h => absurd h.1 (by decide)⟩

/-! ## Replies -/

/-- The replies to a requester: an error, an ABORT, a server operation or the
call of `fileRequest`. -/
def repliesTo (remote : Endpoint) : Output → Bool
  | .errorOperation requester _ _ => requester = remote
  | .abortOperation requester _ => requester = remote
  | .writeOperation requester _ _ => requester = remote
  | .fileRequest requester _ _ _ _ => requester = remote
  | _ => false

def replies (remote : Endpoint) (out : List Output) : Nat := out.countP (repliesTo remote)

@[simp] theorem replies_append (remote : Endpoint) (out out' : List Output) :
    replies remote (out ++ out') = replies remote out + replies remote out' :=
  List.countP_append

theorem replies_listAborts (remote : Endpoint) (s : State) :
    replies remote (listAborts s) = 0 := by
  unfold listAborts
  split <;> rfl

/-- Every action but ignoring the request replies once. -/
theorem replies_actionOutputs (cfg : Configuration) (request : Request) (s : State)
    (h : request.requestType ≠ .invalid) :
    replies request.remote
      (actionOutputs cfg request s (requestAction cfg.operation request)) = 1 := by
  have hwrite : replies request.remote
      (actionOutputs cfg request s (writeAction cfg.operation request)) = 1 := by
    simp only [writeAction]
    split
    · simp only [actionOutputs]
      split <;> simp [replies, repliesTo]
    · split
      · simp only [actionOutputs, replies_append, replies_listAborts]
        simp [replies, repliesTo]
      · simp only [actionOutputs]
        cases cfg.operation <;> simp [replies, repliesTo, otherFileReply, fileRequestOutput]
  unfold requestAction
  split
  · exact hwrite
  · cases hrequest : request.requestType with
    | write => exact hwrite
    | read =>
      simp only [actionOutputs]
      split <;> simp [replies, repliesTo, fileRequestOutput]
    | invalid => exact absurd hrequest h

theorem replies_onlyWrites (operation : OperationType) (request : Request) :
    replies request.remote (onlyWrites operation request) =
      if operation = .information ∧ request.requestType ≠ .write then 1 else 0 := by
  unfold onlyWrites
  split <;> simp [replies, repliesTo]

/-- **One reply**: a read or write request is replied to once, exactly if it is
no read request that an information operation takes past its error. -/
theorem host_oneReply_iff {cfg : Configuration} {request : Request} {s s' : State}
    {out : List Output} (hvalid : request.requestType ≠ .invalid)
    (h : (machine cfg).step s (.tftpRequest request) = some (s', out)) :
    replies request.remote out = 1 ↔
      cfg.operation ≠ .information ∨ request.requestType = .write ∨
        checksRequest cfg request.filename = false := by
  obtain ⟨-, -, hstep⟩ := request_step h
  split at hstep
  · rename_i hchecks
    rw [hstep.2, replies_append, replies_actionOutputs cfg request s hvalid,
      replies_onlyWrites]
    by_cases hop : cfg.operation = .information
    · by_cases hwrite : request.requestType = .write <;> simp [hop, hwrite, hchecks]
    · simp [hop]
  · rename_i hchecks
    rw [hstep.2]
    simp [replies, repliesTo, hchecks]

/-- A write request of an unknown file is replied to once. -/
theorem host_oneReply_unknown :
    ∃ s' out, (machine (exampleConfiguration .information)).step started
        (.tftpRequest (exampleRequest .write "UNKNOWN")) = some (s', out) ∧
      replies ⟨0, 59⟩ out = 1 :=
  have h : (machine (exampleConfiguration .information)).step started
      (.tftpRequest (exampleRequest .write "UNKNOWN"))
        = some (started, [.errorOperation ⟨0, 59⟩ .fileNotFound (str "Wrong filename")]) := rfl
  ⟨_, _, h, (host_oneReply_iff (by decide) h).mpr (.inr (.inl rfl))⟩

/-- A read request of the list file gets an error and a write operation. -/
theorem host_two_replies :
    ∃ s' out, (machine (exampleConfiguration .information)).step started
        (.tftpRequest (exampleRequest .read "HNPFMS_L.LCL")) = some (s', out) ∧
      replies ⟨0, 59⟩ out = 2 :=
  ⟨_, _, rfl, rfl⟩

end Arinc615a.Host
