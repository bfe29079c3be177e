import Arinc615a.Host.AbortDelivery
import Arinc615a.Host.Callbacks
import Arinc615a.Host.SentFiles

/-!
# What passes between the user of a host operation and the target

The user's handler gets the response to the initialisation, the status of the target,
and the lists. Each such call is made where a transfer completes with success, with
what the file that came with it decodes to. In the other direction a file is sent where
the user calls for it, encoded for the version that was agreed, and an ABORT by the
operator where the user has called for one.
-/

namespace Arinc615a.Host

open Actions Actions.Action Machines Readers
open Files Information Tftp

variable {cfg : Configuration} {s : State}

/-! ## The calls of the handler -/

/-- The calls of the user's handler with what the target sent. -/
def Output.delivers : Output → Bool
  | .initialisationResponse _ => true
  | .status _ => true
  | .targetInformation _ _ => true
  | .downloadingList _ => true
  | _ => false

theorem initialisationAborts_not_delivers (s : State) :
    ∀ o ∈ initialisationAborts s, o.delivers = false := by
  intro o ho
  unfold initialisationAborts at ho
  split at ho
  · cases ho
  · rw [List.mem_singleton.mp ho]
    rfl

/-- Only the reaction to call the handler makes one of these calls. -/
theorem call_of_delivers {r : Reaction} {o : Output} (ho : o ∈ r.out cfg s)
    (hdelivers : o.delivers = true) : ∃ call : Call, r = .call call ∧ call.output = o := by
  have hnot : o.delivers ≠ false := by simp [hdelivers]
  cases r with
  | call call => exact ⟨call, rfl, (List.mem_singleton.mp ho).symm⟩
  | request request =>
    exact absurd (request_outputs (P := fun o => o.delivers = false) request (fun _ _ => rfl)
      rfl rfl rfl rfl (fun _ => rfl) (fun _ => rfl) o ho) hnot
  | nothing => cases ho
  | sent => cases ho
  | terminate reason =>
    rcases List.mem_append.mp ho with hmem | hmem
    · exact absurd (initialisationAborts_not_delivers s o hmem) hnot
    · rw [List.mem_singleton.mp hmem] at hdelivers
      cases hdelivers
  | abort reason =>
    simp only [Reaction.out] at ho
    split at ho
    · exact absurd (initialisationAborts_not_delivers s o ho) hnot
    · cases ho
  | send filename file =>
    rcases List.mem_append.mp ho with hmem | hmem
    · unfold sentFileAborts at hmem
      split at hmem
      · cases hmem
      · rw [List.mem_singleton.mp hmem] at hdelivers
        cases hdelivers
    · rw [List.mem_singleton.mp hmem] at hdelivers
      cases hdelivers
  | _ =>
    rw [List.mem_singleton.mp ho] at hdelivers
    cases hdelivers

/-- The event completes the transfer of what a call of the handler tells. -/
inductive DeliveredBy (cfg : Configuration) (s : State) : Call → Event → Prop where
  | initialisation {operation : TransferId} {data rest : RawData} {t : Transfer}
    {file : InitializationFile} (ht : transfer? s operation = some t)
    (hkind : t.kind = .initialisation)
    (hdecode : InitializationFile.decode {} data = .done (file, rest)) :
    DeliveredBy cfg s (.initialisationResponse file) (.clientCompleted operation .successful data)
  | status {operation : TransferId} {data rest : RawData} {t : Transfer}
    {status : OperationStatus} (ht : transfer? s operation = some t)
    (hkind : t.kind = .statusFile)
    (hdecode : decodeStatus cfg.operation data = .done (status, rest)) :
    DeliveredBy cfg s (.status status) (.serverCompleted operation .successful data)
  | targetInformation {operation : TransferId} {data rest : RawData} {t : Transfer}
    {checkValue : CheckValue} {file : LoadConfigurationListFile}
    (ht : transfer? s operation = some t) (hkind : t.kind = .listFile checkValue)
    (hop : cfg.operation = .information)
    (hdecode : LoadConfigurationListFile.decode {} data = .done (file, rest)) :
    DeliveredBy cfg s
      (.targetInformation file.targetsHardware (cfg.checkValue checkValue.type data = checkValue))
      (.serverCompleted operation .successful data)
  | downloadingList {operation : TransferId} {data rest : RawData} {t : Transfer}
    {checkValue : CheckValue} {file : DownloadOperationListFile}
    (ht : transfer? s operation = some t) (hkind : t.kind = .listFile checkValue)
    (hop : cfg.operation = .operatorDefinedDownload)
    (hdecode : DownloadOperationListFile.decode {} data = .done (file, rest)) :
    DeliveredBy cfg s (.downloadingList file.files) (.serverCompleted operation .successful data)

/-- The call of a completed initialisation file. -/
theorem deliveredBy_initialisation {operation : TransferId} {status : TransferStatus}
    {data : RawData} {t : Transfer} {call : Call} (ht : transfer? s operation = some t)
    (hkind : t.kind = .initialisation)
    (h : initialisationReaction status data = some (.call call)) :
    DeliveredBy cfg s call (.clientCompleted operation status data) := by
  simp only [initialisationReaction] at h
  split at h
  · cases h
  · rename_i hstatus
    obtain rfl := not_not.mp hstatus
    cases hdecode : InitializationFile.decode {} data with
    | done r =>
      obtain ⟨file, rest⟩ := r
      simp only [hdecode, Option.some.injEq, Reaction.call.injEq] at h
      subst h
      exact .initialisation ht hkind hdecode
    | _ => simp [hdecode] at h

/-- The calls of a completed list file. -/
theorem deliveredBy_listFile {operation : TransferId} {data : RawData} {t : Transfer}
    {checkValue : CheckValue} {call : Call} (ht : transfer? s operation = some t)
    (hkind : t.kind = .listFile checkValue)
    (h : listCall cfg checkValue data = .done (.call call)) :
    DeliveredBy cfg s call (.serverCompleted operation .successful data) := by
  unfold listCall at h
  split at h
  · rename_i hop
    obtain ⟨⟨file, rest⟩, hdecode, hcall⟩ := Outcome.bind_eq_done.mp h
    simp only [Outcome.done.injEq, Reaction.call.injEq] at hcall
    subst hcall
    exact .targetInformation ht hkind hop hdecode
  · rename_i hop
    obtain ⟨⟨file, rest⟩, hdecode, hcall⟩ := Outcome.bind_eq_done.mp h
    simp only [Outcome.done.injEq, Reaction.call.injEq] at hcall
    subst hcall
    exact .downloadingList ht hkind hop hdecode
  · cases h

theorem deliveredBy_of_reaction {e : Event} {call : Call}
    (h : reaction cfg s e = some (.call call)) : DeliveredBy cfg s call e := by
  obtain ⟨r, hcall⟩ : ∃ r, r = Reaction.call call := ⟨_, rfl⟩
  rw [← hcall] at h
  cases reacts_of_reaction h with
  | initialisation hidle ht hkind hinit => exact deliveredBy_initialisation ht hkind (hcall ▸ hinit)
  | statusFile hidle ht hkind hstatus =>
    obtain ⟨rfl, status, rest, rfl, hdecode⟩ := statusFileReaction_call (hcall ▸ hstatus)
    exact .status ht hkind hdecode
  | listFile hidle ht hkind hlist =>
    obtain ⟨rfl, -, hread⟩ := listFileReaction_call (hcall ▸ hlist)
    exact deliveredBy_listFile ht hkind hread
  | sentFile hidle ht hkind => split at hcall <;> cases hcall
  | @timerHandler result hidle hhead => cases result <;> cases hcall
  | returned hcallback => exact absurd hcall (returnReaction_not_call _ call)
  | threw hcallback => exact absurd hcall (throwReaction_not_call _ call)
  | send he hsend =>
    rcases sendReaction_eq_some hsend with rfl | ⟨e, rfl⟩ | ⟨filename, file, rfl⟩ <;> cases hcall
  | _ => cases hcall

/-- **Deliveries**: the user is told what a transfer brought that completed with success. -/
theorem deliveredBy_of_step (hs : Consistent s) {s' : State} {e : Event} {out : List Output}
    (h : (machine cfg).step s e = some (s', out)) {o : Output} (ho : o ∈ out)
    (hdelivers : o.delivers = true) :
    ∃ call : Call, call.output = o ∧ DeliveredBy cfg s call e := by
  obtain ⟨r, hr, -, rfl⟩ := (step_iff hs).mp h
  obtain ⟨call, rfl, rfl⟩ := call_of_delivers ho hdelivers
  exact ⟨call, rfl, deliveredBy_of_reaction hr⟩

/-! ## Who decides -/

/-- What the operation does on its own. -/
inductive Reaction.Own : Reaction → Prop where
  | nothing : Own .nothing
  | deferred {waitTime : Nat} : Own (.deferred waitTime)
  | thrown {exception : Arinc615aException} : Own (.thrown exception)
  | request {request : Request} : Own (.request request)
  | call {call : Call} : Own (.call call)
  | send {filename : Str} {file : RawData} : Own (.send filename file)
  | sent : Own .sent
  | finish {description : Str} : Own (.finish .operationAbortedByDlp description)
  | abort : Own (.abort .protocol)

/-- What the operation does otherwise stands behind a call of the handler, or is what
the user calls for. -/
inductive Decides (s : State) : Event → Reaction → Prop where
  | own {e : Event} {r : Reaction} (h : r.Own) : Decides s e r
  | returned {k : Continuation} (h : s.callback = some k) :
    Decides s .callbackReturned (returnReaction s k)
  | abort {reason : AbortReason} : Decides s (.abort reason) (.abort reason)
  | terminate {reason : AbortReason} : Decides s (.terminate reason) (.terminate reason)

theorem own_initialisationReaction {status : TransferStatus} {data : RawData} {r : Reaction}
    (h : initialisationReaction status data = some r) : r.Own := by
  simp only [initialisationReaction] at h
  split at h
  · cases h
    exact .finish
  · split at h <;> cases h
    · exact .finish
    · exact .call

theorem own_statusFileReaction {operation : OperationType} {status : LibraryTransferStatus}
    {data : RawData} {r : Reaction} (h : statusFileReaction operation status data = some r) :
    r.Own := by
  simp only [statusFileReaction] at h
  split at h
  · cases h
    exact .finish
  · split at h <;> cases h
    · exact .nothing
    · exact .call

theorem own_listFileReaction {checkValue : CheckValue} {status : LibraryTransferStatus}
    {data : RawData} {r : Reaction} (h : listFileReaction cfg s checkValue status data = some r) :
    r.Own := by
  rcases listFileReaction_eq_some h with ⟨-, call, -, rfl⟩ | ⟨-, rfl⟩
  · exact .call
  · unfold listFailure
    split
    · exact .finish
    · exact .abort

theorem own_throwReaction (k : Continuation) : (throwReaction s k).Own := by
  cases k with
  | initialisationResponse initFile => exact .finish
  | status status => exact .nothing
  | targetInformation =>
    simp only [throwReaction]
    split
    · exact .abort
    · exact .finish
  | downloadingList => exact .abort

theorem decides_of_reaction {e : Event} {r : Reaction} (h : reaction cfg s e = some r) :
    Decides s e r := by
  cases reacts_of_reaction h with
  | request hidle hrunning => exact .own .request
  | deferred hidle => exact .own .deferred
  | initialisation hidle ht hkind hinit => exact .own (own_initialisationReaction hinit)
  | sentFile hidle ht hkind =>
    refine .own ?_
    split
    · exact .abort
    · exact .sent
  | statusFile hidle ht hkind hstatus => exact .own (own_statusFileReaction hstatus)
  | listFile hidle ht hkind hlist => exact .own (own_listFileReaction hlist)
  | timerExpired => exact .own .nothing
  | timerFailed => exact .own .nothing
  | @timerHandler result hidle hhead =>
    refine .own ?_
    cases result with
    | operationAborted => exact .nothing
    | failure => exact .finish
    | success => exact .finish
  | returned hcallback => exact .returned hcallback
  | @threw k hcallback => exact .own (own_throwReaction k)
  | abort => exact .abort
  | terminate => exact .terminate
  | send he hsend =>
    rcases sendReaction_eq_some hsend with rfl | ⟨e, rfl⟩ | ⟨filename, file, rfl⟩
    · exact .own .nothing
    · exact .own .thrown
    · exact .own .send
  | advance => exact .own .nothing

/-! ## The version that is agreed -/

theorem protocolVersion_taken (s : State) (e : Event) :
    (taken s e).protocolVersion = s.protocolVersion := by
  cases e with
  | clientCompleted operation status data =>
    show (s.afterCompletion operation).protocolVersion = _
    rw [afterCompletion_eq]
  | serverCompleted operation status data =>
    show (s.afterCompletion operation).protocolVersion = _
    rw [afterCompletion_eq]
  | _ => rfl

theorem protocolVersion_state (r : Reaction) :
    (r.state cfg s).protocolVersion =
      match r with
      | .accept protocolVersion => protocolVersion
      | _ => s.protocolVersion := by
  cases r with
  | request request =>
    refine request_state (P := fun t => t.protocolVersion = s.protocolVersion) request rfl
      (fun _ => rfl) (fun _ => rfl) ?_
    intro checkValue
    rw [withListFile_eq]
  | abort reason =>
    simp only [Reaction.state]
    split <;> rfl
  | send filename file =>
    show s.withoutSentFile.protocolVersion = s.protocolVersion
    rw [withoutSentFile_eq]
  | _ => rfl

/-- The version is that of the initialisation file, where the user's handler returns. -/
theorem accept_of_reaction {e : Event} {version : Arinc615aVersion}
    (h : reaction cfg s e = some (.accept version)) :
    ∃ file, s.callback = some (.initialisationResponse file) ∧
      file.response.code = .operationAccepted ∧ version = file.protocolVersion := by
  obtain ⟨r, hr⟩ : ∃ r, r = Reaction.accept version := ⟨_, rfl⟩
  rw [← hr] at h
  cases decides_of_reaction h with
  | own hown => cases hown <;> cases hr
  | @returned k hcallback =>
    cases k with
    | initialisationResponse file =>
      simp only [returnReaction] at hr
      split at hr <;> cases hr
      exact ⟨file, hcallback, ‹_›, rfl⟩
    | status status =>
      simp only [returnReaction, statusReaction] at hr
      split at hr <;> cases hr
    | targetInformation =>
      simp only [returnReaction] at hr
      split at hr <;> cases hr
    | downloadingList => cases hr
  | abort => cases hr
  | terminate => cases hr

theorem protocolVersion_step (hs : Consistent s) {s' : State} {e : Event} {out : List Output}
    (h : (machine cfg).step s e = some (s', out)) :
    s'.protocolVersion = s.protocolVersion ∨
      ∃ file, s.callback = some (.initialisationResponse file) ∧
        file.response.code = .operationAccepted ∧ s'.protocolVersion = file.protocolVersion := by
  obtain ⟨r, hr, rfl, -⟩ := (step_iff hs).mp h
  rw [protocolVersion_state]
  cases r with
  | accept version =>
    exact .inr (accept_of_reaction hr)
  | _ => exact .inl (protocolVersion_taken s e)

/-! ## The end -/

/-- An operation is ended by the host, or by what stands behind a call of the handler. -/
theorem end_of_step (hs : Consistent s) {s' : State} {e : Event} {out : List Output}
    {status : StatusCode} {description : Str} (h : (machine cfg).step s e = some (s', out))
    (ho : .finished status description ∈ out) :
    status = .operationAbortedByDlp ∨ status = .operationAbortedByOperator ∨
      ∃ k, s.callback = some k ∧ returnReaction s k = .finish status description := by
  obtain ⟨r, hr, -, rfl⟩ := (step_iff hs).mp h
  have hfinishes : r.finishes = true := by
    rw [← any_isFinished, List.any_eq_true]
    exact ⟨_, ho, rfl⟩
  cases r with
  | finish status' description' =>
    obtain ⟨rfl, rfl⟩ := Output.finished.inj (List.mem_singleton.mp ho)
    obtain ⟨r, heq⟩ : ∃ r, r = Reaction.finish status description := ⟨_, rfl⟩
    rw [← heq] at hr
    cases decides_of_reaction hr with
    | own hown =>
      cases hown <;> cases heq
      exact .inl rfl
    | returned hcallback => exact .inr (.inr ⟨_, hcallback, heq⟩)
    | abort => cases heq
    | terminate => cases heq
  | terminate reason =>
    rcases List.mem_append.mp ho with hmem | hmem
    · unfold initialisationAborts at hmem
      split at hmem
      · cases hmem
      · cases List.mem_singleton.mp hmem
    · obtain ⟨rfl, -⟩ := Output.finished.inj (List.mem_singleton.mp hmem)
      cases reason with
      | operator => exact .inr (.inl rfl)
      | _ => exact .inl rfl
  | _ => cases hfinishes

/-! ## The files that are sent -/

/-- The event is the call of the user that sends the file. -/
inductive SentBy (cfg : Configuration) (s : State) (file : RawData) : Str → Event → Prop where
  | loadList {loads : List UploadLoad} (hop : cfg.operation = .upload)
    (hencode : UploadOperationRequestFile.encode ⟨s.protocolVersion, loads⟩ = .ok file) :
    SentBy cfg s file (protocolFilename cfg .uploadRequest) (.loadList loads)
  | request {files : List Str} {userDefinedData : RawData}
    (hop : cfg.operation = .mediaDefinedDownload)
    (hencode : DownloadOperationRequestFile.encode
      ⟨s.protocolVersion, files, userDefinedData⟩ = .ok file) :
    SentBy cfg s file (protocolFilename cfg .mediaDefinedDownloadRequest)
      (.request files userDefinedData)
  | answer {files : List Str} (hop : cfg.operation = .operatorDefinedDownload)
    (hencode : DownloadOperationAnswerFile.encode ⟨s.protocolVersion, files⟩ = .ok file) :
    SentBy cfg s file (protocolFilename cfg .operatorDefinedDownloadAnswer) (.answer files)

/-- A call that sends a file sends what it encoded, under its protocol filename. -/
theorem sendReaction_send {fileType : ProtocolFileType}
    {encoded : Except Arinc615aException RawData} {filename : Str} {file : RawData}
    (h : sendReaction cfg s fileType encoded = some (.send filename file)) :
    encoded = .ok file ∧ filename = protocolFilename cfg fileType := by
  unfold sendReaction at h
  split at h
  · cases h
  · cases encoded with
    | error e => cases h
    | ok file' =>
      simp only at h
      split at h
      · cases h
        exact ⟨rfl, rfl⟩
      · cases h

/-- **Orders**: a file is sent by the call of the user that it was encoded for. -/
theorem sentBy_of_step (hs : Consistent s) {s' : State} {e : Event} {out : List Output}
    {operation : TransferId} {filename : Str} {file : RawData}
    (h : (machine cfg).step s e = some (s', out))
    (ho : .clientWriteOperation operation filename file ∈ out) : SentBy cfg s file filename e := by
  obtain ⟨r, hr, -, rfl⟩ := (step_iff hs).mp h
  obtain ⟨filename', file', rfl⟩ := send_of_startsSentFile ho rfl
  obtain ⟨rfl, rfl⟩ : filename' = filename ∧ file' = file := by
    rcases List.mem_append.mp ho with haborts | hlast
    · cases sentFileAborts_not_starts _ haborts
    · cases List.mem_singleton.mp hlast
      exact ⟨rfl, rfl⟩
  obtain ⟨he, -⟩ := causedBy_of_reaction hr
  cases e with
  | loadList loads =>
    simp only [reaction] at hr
    split at hr
    · obtain ⟨hencode, rfl⟩ := sendReaction_send hr
      exact .loadList ‹_› hencode
    · cases hr
  | request files userDefinedData =>
    simp only [reaction] at hr
    split at hr
    · obtain ⟨hencode, rfl⟩ := sendReaction_send hr
      exact .request ‹_› hencode
    · cases hr
  | answer files =>
    simp only [reaction] at hr
    split at hr
    · obtain ⟨hencode, rfl⟩ := sendReaction_send hr
      exact .answer ‹_› hencode
    · cases hr
  | _ => cases he

/-! ## The aborts of the operator -/

theorem returnReaction_not_abort (k : Continuation) {reason : AbortReason} :
    returnReaction s k ≠ .abort reason := by
  intro h
  cases k with
  | downloadingList => cases h
  | status status =>
    simp only [returnReaction, statusReaction] at h
    split at h <;> cases h
  | _ =>
    simp only [returnReaction] at h
    split at h <;> cases h

/-- The operation itself aborts by the protocol only. -/
theorem abort_operator_of_reaction {e : Event}
    (h : reaction cfg s e = some (.abort .operator)) : e = .abort .operator := by
  obtain ⟨r, hr⟩ : ∃ r, r = Reaction.abort .operator := ⟨_, rfl⟩
  rw [← hr] at h
  cases decides_of_reaction h with
  | own hown => cases hown <;> cases hr
  | returned hcallback => exact absurd hr (returnReaction_not_abort _)
  | abort =>
    cases hr
    rfl
  | terminate => cases hr

/-- **Operators**: an abort by the operator is pending only where the user called for it. -/
theorem abort_operator_run {es : List Event} {tr : List Output}
    (h : (machine cfg).exec started es = some (s, tr)) (hpending : s.abortReason = .operator) :
    .abort .operator ∈ es := by
  refine Machine.exec_history
    (fun es s _ => s.abortReason = .operator → Event.abort .operator ∈ es) ?_ ?_ h hpending
  · intro hstart
    cases hstart
  · intro es s tr e s' out hexec ih hstep hoperator
    cases abort_step (consistent_run hexec) hstep with
    | sent request he hrequest hwas hcleared hout =>
      rw [hcleared] at hoperator
      cases hoperator
    | effective reason hreason hstored hout =>
      obtain rfl : reason = .operator := hstored.symm.trans hoperator
      unfold effectiveAbort at hreason
      split at hreason
      · rename_i reason' hreaction
        split at hreason
        · obtain rfl := Option.some.inj hreason
          rw [abort_operator_of_reaction hreaction]
          simp
        · cases hreason
      · cases hreason
    | unchanged hsame hnone hrequest hout hquiet =>
      exact List.mem_append_left _ (ih (hsame.symm.trans hoperator))

/-- An ABORT carries the code of the abort that is pending. -/
theorem pending_of_abortOperation (hs : Consistent s) {s' : State} {e : Event}
    {out : List Output} {remote : Endpoint} {status : StatusCode}
    (h : (machine cfg).step s e = some (s', out)) (ho : .abortOperation remote status ∈ out) :
    s.abortReason ≠ .noAbort ∧ status = s.abortReason.statusCode := by
  cases abort_step hs h with
  | sent request he hrequest hpending hcleared hout =>
    refine ⟨hpending, ?_⟩
    rw [hout] at ho
    rcases List.mem_append.mp ho with hmem | hmem
    · cases (neither_of_not_answersStatus (onlyWrites_not_answer _ _ _ hmem)).1
    · rcases List.mem_pair.mp hmem with heq | heq
      · cases heq
        rfl
      · cases heq
  | effective reason hreason hstored hout =>
    cases (neither_of_not_answersRequest (hout _ ho)).1
  | unchanged hsame hnone hrequest hout hquiet => cases hout _ ho

/-! ## The other error packets -/

/-- Errors without a code of their own have one of two texts. -/
def Output.plain : Output → Bool
  | .errorOperation _ errorCode _ => errorCode ≠ .notDefined
  | .gracefulAbort _ _ errorMessage =>
    errorMessage = str "Abort" ∨ errorMessage = str "New list file received"
  | _ => true

theorem plain_reply {operation : OperationType} {request : Request} {output : Output}
    (h : requestAction operation request = .reply output) : output.plain = true := by
  have hwrite : writeAction operation request = .reply output → output.plain = true := by
    intro hreply
    simp only [writeAction] at hreply
    split at hreply
    · cases hreply
    split at hreply
    · cases hreply
    · cases hreply
      cases operation <;> rfl
  unfold requestAction at h
  split at h
  · exact hwrite h
  split at h
  · exact hwrite h
  · cases h
    split <;> rfl
  · cases h

theorem plain_request (request : Request) :
    ∀ o ∈ (Reaction.request request).out cfg s, o.plain = true := by
  intro o ho
  simp only [Reaction.out] at ho
  split at ho
  · rcases List.mem_append.mp ho with honly | haction
    · unfold onlyWrites at honly
      split at honly
      · rw [List.mem_singleton.mp honly]
        rfl
      · cases honly
    · cases hrequest : requestAction cfg.operation request with
      | statusFile =>
        simp only [hrequest, actionOutputs] at haction
        split at haction
        · rw [List.mem_singleton.mp haction]
          rfl
        · rcases List.mem_pair.mp haction with rfl | rfl <;> rfl
      | listFile checkValue =>
        simp only [hrequest, actionOutputs, listAborts] at haction
        rcases List.mem_append.mp haction with haborts | hwrite
        · split at haborts
          · cases haborts
          · rw [List.mem_singleton.mp haborts]
            rfl
        · rw [List.mem_singleton.mp hwrite]
          rfl
      | reply output =>
        simp only [hrequest, actionOutputs, List.mem_singleton] at haction
        rw [haction]
        exact plain_reply hrequest
      | ignored =>
        simp only [hrequest, actionOutputs] at haction
        cases haction
  · rw [List.mem_singleton.mp ho]
    rfl

theorem plain_initialisationAborts (s : State) : ∀ o ∈ initialisationAborts s, o.plain = true := by
  intro o ho
  unfold initialisationAborts at ho
  split at ho
  · cases ho
  · rw [List.mem_singleton.mp ho]
    rfl

theorem plain_out (r : Reaction) : ∀ o ∈ r.out cfg s, o.plain = true := by
  intro o ho
  cases r with
  | request request => exact plain_request request o ho
  | nothing => cases ho
  | sent => cases ho
  | terminate reason =>
    rcases List.mem_append.mp ho with hmem | hmem
    · exact plain_initialisationAborts s o hmem
    · rw [List.mem_singleton.mp hmem]
      rfl
  | abort reason =>
    simp only [Reaction.out] at ho
    split at ho
    · exact plain_initialisationAborts s o ho
    · cases ho
  | call call =>
    rw [List.mem_singleton.mp ho]
    cases call <;> rfl
  | send filename file =>
    rcases List.mem_append.mp ho with hmem | hmem
    · unfold sentFileAborts at hmem
      split at hmem
      · cases hmem
      · rw [List.mem_singleton.mp hmem]
        rfl
    · rw [List.mem_singleton.mp hmem]
      rfl
  | _ =>
    rw [List.mem_singleton.mp ho]
    rfl

/-- **Errors**: no error packet but an ABORT has the text of one. -/
theorem plain_of_step (hs : Consistent s) {s' : State} {e : Event} {out : List Output}
    (h : (machine cfg).step s e = some (s', out)) {o : Output} (ho : o ∈ out) :
    o.plain = true := by
  obtain ⟨r, -, -, rfl⟩ := (step_iff hs).mp h
  exact plain_out r o ho

end Arinc615a.Host
