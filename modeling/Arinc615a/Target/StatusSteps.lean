import Arinc615a.Target.Steps

/-!
# The status of a target operation

What a step makes of the status of the operation: the reactions that change it,
the reports the operation makes on its own, and the class of the status, which
nothing changes.
-/

namespace Arinc615a.Target

open Actions Machines Readers Timers
open Files Information Tftp

variable {cfg : Configuration} {s : State}

/-! ## The status behind a step -/

/-- The status behind a reaction, but for its counter. -/
def Reaction.updated (cfg : Configuration) : Reaction → OperationStatus → OperationStatus
  | update f => f
  | report f => fun status =>
    if cfg.operation = .information then statusToSend (f status) else f status
  | transmit => statusToSend
  | _ => id

/-- The status is sent, or its encoder throws. -/
theorem transmission_eq_some {s' : State} {out : List Output}
    (h : transmission cfg s = some (s', out)) :
    (∃ e, encodeStatus cfg.protocolVersion s.status = .error e ∧ s' = s ∧ out = [.thrown e]) ∨
      ∃ file, encodeStatus cfg.protocolVersion s.status = .ok file ∧
        s' = s.withStatusFile cfg ∧ out = statusFileOutputs cfg s file := by
  unfold transmission at h
  cases hencode : encodeStatus cfg.protocolVersion s.status with
  | error e =>
    simp only [hencode, Option.some.injEq, Prod.mk.injEq] at h
    exact .inl ⟨e, rfl, h.1.symm, h.2.symm⟩
  | ok file =>
    simp only [hencode] at h
    split at h
    · rw [Option.some.injEq, Prod.mk.injEq] at h
      exact .inr ⟨file, rfl, h.1.symm, h.2.symm⟩
    · cases h

theorem status_transmission {s' : State} {out : List Output}
    (h : transmission cfg s = some (s', out)) :
    s'.status = s.status ∨ s'.status = s.status.update Status.incrementCounter := by
  obtain ⟨e, -, rfl, -⟩ | ⟨file, -, rfl, -⟩ := transmission_eq_some h
  · exact .inl rfl
  · exact .inr rfl

/-- What is sent is the status of the operation. -/
theorem sent_transmission {s' : State} {out : List Output}
    (h : transmission cfg s = some (s', out)) {remote : Endpoint} {operation : TransferId}
    {filename : Str} {sentStatus : OperationStatus} {file : RawData}
    (hsent : .statusFile remote operation filename sentStatus file ∈ out) :
    sentStatus = s.status := by
  obtain ⟨e, -, -, rfl⟩ | ⟨file, -, -, rfl⟩ := transmission_eq_some h
  · simp at hsent
  · -- The other outputs are the abort of the file before and the timer.
    simp only [statusFileOutputs, transferAborts] at hsent
    cases hop : s.statusOperation <;> simp_all

variable {r : Reaction}

/-- A forced transmission sends the status at once, or arms the timer. -/
theorem forced_eq_some {s' : State} {out : List Output} (h : forced cfg s = some (s', out)) :
    (cfg.operation = .information ∧
        transmission cfg (s.withStatus (statusToSend s.status)) = some (s', out)) ∨
      (cfg.operation ≠ .information ∧ s' = s.armed 0 ∧ out = [.timerArmed (s.deadline 0)]) := by
  unfold forced at h
  cases hop : cfg.operation with
  | information => exact .inl ⟨rfl, by simpa [hop, operationClass] using h⟩
  | _ =>
    simp only [hop, operationClass, Option.some.injEq, Prod.mk.injEq] at h
    exact .inr ⟨by simp, h.1.symm, h.2.symm⟩

/-- The status behind a reaction, its counter counted on where it was sent. -/
theorem status_result {s' : State} {out : List Output}
    (h : r.result cfg s = some (s', out)) :
    s'.status = r.updated cfg s.status ∨
      s'.status = (r.updated cfg s.status).update Status.incrementCounter := by
  cases r with
  | transmit => exact status_transmission h
  | report f =>
    -- Only an information operation sends within the step.
    obtain ⟨hop, h⟩ | ⟨hop, rfl, -⟩ := forced_eq_some h
    · simpa only [Reaction.updated, hop, if_true, status_withStatus] using status_transmission h
    · exact .inl (if_neg hop).symm
  | sendList filename file checkValue =>
    simp only [Reaction.result] at h
    split at h
    · rw [Option.some.injEq, Prod.mk.injEq] at h
      exact .inl (congrArg State.status h.1).symm
    · cases h
  | _ =>
    simp only [Reaction.result, Option.some.injEq, Prod.mk.injEq] at h
    exact .inl (congrArg State.status h.1).symm

/-- What is sent is the status behind the reaction. -/
theorem sent_result {s' : State} {out : List Output} (h : r.result cfg s = some (s', out))
    {remote : Endpoint} {operation : TransferId} {filename : Str}
    {sentStatus : OperationStatus} {file : RawData}
    (hsent : .statusFile remote operation filename sentStatus file ∈ out) :
    sentStatus = r.updated cfg s.status := by
  cases r with
  | transmit => exact sent_transmission h hsent
  | report f =>
    obtain ⟨hop, h⟩ | ⟨hop, -, rfl⟩ := forced_eq_some h
    · simpa only [Reaction.updated, hop, if_true, status_withStatus] using
        sent_transmission h hsent
    · simp at hsent
  | sendList filename file checkValue =>
    simp only [Reaction.result, transferAborts] at h
    split at h
    · rw [Option.some.injEq, Prod.mk.injEq] at h
      obtain ⟨-, rfl⟩ := h
      cases hop : s.listOperation <;> simp_all
    · cases h
  | call c =>
    simp only [Reaction.result, Option.some.injEq, Prod.mk.injEq] at h
    obtain ⟨-, rfl⟩ := h
    cases c <;> simp [Call.output] at hsent
  | _ =>
    simp only [Reaction.result, Option.some.injEq, Prod.mk.injEq] at h
    obtain ⟨-, rfl⟩ := h
    simp at hsent

/-- The code behind a reaction. -/
theorem code_result {s' : State} {out : List Output} (h : r.result cfg s = some (s', out)) :
    s'.code = (r.updated cfg s.status).status.code := by
  obtain h | h := status_result h <;> rw [State.code, h]
  rw [OperationStatus.status_update]
  rfl

/-- What an event takes out of the state leaves the status alone. -/
@[simp] theorem status_taken (e : Event) : (taken s e).status = s.status := by
  have hcompleted : ∀ operation, (s.afterCompletion operation).status = s.status := by
    intro operation
    unfold State.afterCompletion
    split
    · rfl
    · rename_i t _
      cases t.kind <;> rfl
  cases e with
  | clientCompleted operation status => exact hcompleted operation
  | serverCompleted operation status data => exact hcompleted operation
  | _ => rfl

/-! ## Which reaction it is -/

/-- A transfer of the TFTP client that completes is a status file or a list. -/
theorem clientCompleted_eq_some {operation : TransferId} {status : TransferStatus}
    (h : reaction cfg s (.clientCompleted operation status) = some r) :
    ∃ t, transfer? s operation = some t ∧
      ((∃ sentStatus, t.kind = .statusFile sentStatus ∧
          r = statusFileReaction sentStatus status) ∨
        (t.kind = .listFile ∧ listFileReaction cfg s status = some r)) := by
  simp only [reaction] at h
  split at h
  · obtain ⟨t, ht, hr⟩ := Option.bind_eq_some_iff.mp h
    refine ⟨t, ht, ?_⟩
    cases hkind : t.kind with
    | statusFile sentStatus =>
      exact .inl ⟨sentStatus, rfl, by simpa [hkind, eq_comm] using hr⟩
    | listFile => exact .inr ⟨rfl, by simpa only [hkind] using hr⟩
    | _ => simp [hkind] at hr
  · cases h

/-- One of the TFTP server is the initialisation file or a request file. -/
theorem serverCompleted_eq_some {operation : TransferId} {status : LibraryTransferStatus}
    {data : RawData} (h : reaction cfg s (.serverCompleted operation status data) = some r) :
    ∃ t, transfer? s operation = some t ∧
      ((t.kind = .initialisation ∧ r = initialisationReaction status) ∨
        (t.kind = .requestFile ∧ requestFileReaction cfg status data = some r)) := by
  simp only [reaction] at h
  split at h
  · obtain ⟨t, ht, hr⟩ := Option.bind_eq_some_iff.mp h
    refine ⟨t, ht, ?_⟩
    cases hkind : t.kind with
    | initialisation => exact .inl ⟨rfl, by simpa [hkind, eq_comm] using hr⟩
    | requestFile => exact .inr ⟨rfl, by simpa only [hkind] using hr⟩
    | _ => simp [hkind] at hr
  · cases h

/-- A request is answered with an error, or its file is received. -/
theorem tftpRequest_eq_some {request : Request}
    (h : reaction cfg s (.tftpRequest request) = some r) :
    (∃ errorCode errorMessage, r = .reply request.remote errorCode errorMessage) ∨
      r = .receive request.remote := by
  -- The four classes differ in the texts and the file type only.
  simp only [reaction, tftpReaction, requestReaction] at h
  grind

/-- A status file that was sent, or was not, changes no status. -/
theorem statusFileReaction_cases (sentStatus : OperationStatus) (status : TransferStatus) :
    (∃ c, statusFileReaction sentStatus status = .call c) ∨
      ∃ request, statusFileReaction sentStatus status = .abortRequest request := by
  cases status with
  | operationAbortedByDlp => exact .inr ⟨_, rfl⟩
  | operationAbortedByOperator => exact .inr ⟨_, rfl⟩
  | _ => exact .inl ⟨_, rfl⟩

theorem initialisationReaction_cases (status : LibraryTransferStatus) :
    (∃ c, initialisationReaction status = .call c) ∨
      initialisationReaction status = .initialised := by
  unfold initialisationReaction
  split
  · exact .inl ⟨_, rfl⟩
  · exact .inr rfl

theorem timerHandler_eq_some {result : WaitResult}
    (h : reaction cfg s (.timerHandler result) = some r) : r = timerReaction result := by
  simp only [reaction] at h
  split at h
  · exact (Option.some.inj h).symm
  · cases h

/-- The expiry of the timer, and time, change nothing else. -/
theorem nothing_of_eq_some {e : Event} (he : e = .timerExpired ∨ e = .timerFailed ∨
    ∃ time, e = .advance time) (h : reaction cfg s e = some r) : r = .nothing := by
  obtain rfl | rfl | ⟨time, rfl⟩ := he
  all_goals
    simp only [reaction] at h
    grind

/-! ## Reports of the operation itself -/

/-- A request file is received, can be read, and has the protocol version of the
operation. -/
def Delivered (cfg : Configuration) (status : LibraryTransferStatus) (data : RawData) : Prop :=
  status = .successful ∧
    ∃ received rest,
      decodeRequest cfg.operation data = .done ((cfg.protocolVersion, received), rest)

/-- The events that are no calls of the application. -/
def Event.Internal (e : Event) : Prop := ∀ call, e ≠ .application call

theorem Event.exists_call {e : Event} (h : ¬ e.Internal) : ∃ call, e = .application call := by
  simpa [Event.Internal] using h

/-- What the operation reports on its own is a code with a text that can be sent. -/
def OwnReport (f : OperationStatus → OperationStatus) : Prop :=
  ∃ code description estimatedTime, f = reported code description estimatedTime ∧
    code ≠ .invalid ∧ StringAccepted description

theorem ownReport_failed {description : Str} (h : StringAccepted description) :
    OwnReport (failed description) := ⟨_, _, _, rfl, by decide, h⟩

/-- The reports there are: a failure, the completion behind a list, and the progress
behind the first status. -/
inductive OwnStatus : (OperationStatus → OperationStatus) → Prop where
  | failed {description : Str} (h : StringAccepted description) : OwnStatus (failed description)
  | completed : OwnStatus (reported .operationCompleted [] 0)
  | inProgress : OwnStatus (reported .operationInProgress [] (-1))

theorem OwnStatus.ownReport {f : OperationStatus → OperationStatus} (h : OwnStatus f) :
    OwnReport f := by
  cases h with
  | failed h => exact ownReport_failed h
  | completed => exact ⟨_, _, _, rfl, by decide, stringAccepted_nil⟩
  | inProgress => exact ⟨_, _, _, rfl, by decide, stringAccepted_nil⟩

theorem stringAccepted_texts (operation : OperationType) :
    StringAccepted (failureTexts operation).transmissionFailed ∧
      StringAccepted (failureTexts operation).protocolVersionInvalid ∧
        StringAccepted (failureTexts operation).formatError := by
  cases operation <;> refine ⟨?_, ?_, ?_⟩ <;> unfold StringAccepted <;> decide

/-- A reaction changes the status by such a report, or by sending it. -/
def Reaction.Own : Reaction → Prop
  | report f => OwnReport f
  | update _ => False
  | _ => True

/-- A reaction changes the status by one of the reports, or by sending it. -/
def Reaction.OwnStatus : Reaction → Prop
  | report f => Target.OwnStatus f
  | update _ => False
  | _ => True

theorem Reaction.OwnStatus.own (h : r.OwnStatus) : r.Own := by
  cases r with
  | report f => exact Target.OwnStatus.ownReport h
  | update f => exact h
  | _ => trivial

theorem own_listFile {status : TransferStatus} (h : listFileReaction cfg s status = some r) :
    r.OwnStatus := by
  have htext : StringAccepted (str "Target Information transmission failed") := by
    unfold StringAccepted
    decide
  unfold listFileReaction at h
  split at h
  · rw [Option.some.injEq] at h
    subst h
    split
    · exact .failed htext
    · split
      · trivial
      · exact .completed
  · rw [Option.some.injEq] at h
    subst h
    split
    · exact .failed htext
    · trivial
  · cases h

theorem own_requestFile {status : LibraryTransferStatus} {data : RawData}
    (h : requestFileReaction cfg status data = some r) : r.OwnStatus := by
  obtain ⟨htransmission, hversion, hformat⟩ := stringAccepted_texts cfg.operation
  unfold requestFileReaction at h
  split at h
  · cases h
  split at h
  · cases h
    exact .failed htransmission
  split at h
  · cases h
  · cases h
    exact .failed hformat
  · rw [Option.some.injEq] at h
    subst h
    split
    · exact .failed hversion
    · trivial

theorem own_status (sentStatus : OperationStatus) :
    (statusReaction cfg sentStatus).OwnStatus := by
  unfold statusReaction
  split
  · split
    · exact .inProgress
    · trivial
  all_goals trivial

/-- **Own reports**: without a call of the application, the status changes by a
report of the operation itself. -/
theorem ownStatus_reaction {e : Event} (he : e.Internal) (h : reaction cfg s e = some r) :
    r.OwnStatus := by
  cases e with
  | application call => exact absurd rfl (he call)
  | tftpRequest request =>
    obtain ⟨errorCode, errorMessage, rfl⟩ | rfl := tftpRequest_eq_some h <;> trivial
  | clientCompleted operation status =>
    obtain ⟨t, -, ⟨sentStatus, -, rfl⟩ | ⟨-, hr⟩⟩ := clientCompleted_eq_some h
    · obtain ⟨c, hc⟩ | ⟨request, hc⟩ := statusFileReaction_cases sentStatus status <;> rw [hc] <;>
        trivial
    · exact own_listFile hr
  | serverCompleted operation status data =>
    obtain ⟨t, -, ⟨-, rfl⟩ | ⟨-, hr⟩⟩ := serverCompleted_eq_some h
    · obtain ⟨c, hc⟩ | hc := initialisationReaction_cases status <;> rw [hc] <;> trivial
    · exact own_requestFile hr
  | callbackReturned =>
    obtain ⟨continuation, -, rfl⟩ := Option.map_eq_some_iff.mp h
    cases continuation with
    | status sentStatus => exact own_status sentStatus
    | _ => trivial
  | callbackThrew =>
    obtain ⟨continuation, -, rfl⟩ := Option.map_eq_some_iff.mp h
    cases continuation with
    | receivedFile => exact .failed (stringAccepted_texts cfg.operation).2.2
    | _ => trivial
  | timerHandler result =>
    obtain rfl := timerHandler_eq_some h
    cases result <;> trivial
  | timerExpired =>
    cases nothing_of_eq_some (.inl rfl) h
    trivial
  | timerFailed =>
    cases nothing_of_eq_some (.inr (.inl rfl)) h
    trivial
  | advance time =>
    cases nothing_of_eq_some (.inr (.inr ⟨time, rfl⟩)) h
    trivial

theorem own_reaction {e : Event} (he : e.Internal) (h : reaction cfg s e = some r) : r.Own :=
  (ownStatus_reaction he h).own

/-! ## The class of the status -/

theorem operationClass_callUpdate (call : ApplicationCall) (status : OperationStatus) :
    (callUpdate cfg call status).operationClass = status.operationClass := by
  cases call <;> simp [callUpdate]

/-- **The status behind a reaction**: the one before, a report of the operation itself
or what a call makes of it, which may be set to be sent. -/
theorem updated_cases {P : OperationStatus → Prop} {e : Event} {status : OperationStatus}
    (h : reaction cfg s e = some r) (hkept : P status)
    (hown : ∀ f, OwnStatus f → P (f status))
    (hcall : ∀ call, e = .application call → P (callUpdate cfg call status))
    (hsend : ∀ status, P status → P (statusToSend status)) :
    P (r.updated cfg status) := by
  have hreport : ∀ f : OperationStatus → OperationStatus, P (f status) →
      P ((Reaction.report f).updated cfg status) := by
    intro f hf
    simp only [Reaction.updated]
    split
    · exact hsend _ hf
    · exact hf
  by_cases he : e.Internal
  · cases r with
    | report f => exact hreport _ (hown f (ownStatus_reaction he h))
    | update f => exact (ownStatus_reaction he h).elim
    | transmit => exact hsend status hkept
    | _ => exact hkept
  · obtain ⟨call, rfl⟩ := Event.exists_call he
    cases callReaction_of_reaction h with
    | thrown hid => exact hkept
    | sendList hid => exact hkept
    | report htransmits => exact hreport _ (hcall call rfl)
    | update hkeeps => exact hcall call rfl

/-- What the reports, the calls and the transmission leave alone, every reaction leaves
alone. -/
theorem updated_keeps {α : Type} {p : OperationStatus → α}
    (hsend : ∀ status, p (statusToSend status) = p status)
    (hreported : ∀ code description estimatedTime status,
      p (reported code description estimatedTime status) = p status)
    (hcall : ∀ call status, p (callUpdate cfg call status) = p status)
    {e : Event} (h : reaction cfg s e = some r) (status : OperationStatus) :
    p (r.updated cfg status) = p status := by
  refine updated_cases (P := fun status' => p status' = p status) h rfl ?_ ?_ ?_
  · intro f hf
    obtain ⟨code, description, estimatedTime, rfl, -, -⟩ := hf.ownReport
    exact hreported ..
  · exact fun call _ => hcall call status
  · exact fun status' h => (hsend status').trans h

/-- No reaction changes the class of the status. -/
theorem operationClass_updated {e : Event} (h : reaction cfg s e = some r)
    (status : OperationStatus) :
    (r.updated cfg status).operationClass = status.operationClass :=
  updated_keeps operationClass_statusToSend operationClass_reported operationClass_callUpdate h
    status

/-- The status is the one of the class of the operation. -/
def InClass (cfg : Configuration) (s : State) : Prop :=
  s.status.operationClass = operationClass cfg.operation

theorem inClass_started (hostAddress : Endpoint) (port : Option UInt16) :
    InClass cfg (started cfg hostAddress port) := by
  show (initialStatus cfg.operation).operationClass = _
  cases cfg.operation <;> rfl

/-- Every step keeps the class of the status. -/
theorem inClass_step {s' : State} {e : Event} {out : List Output} (h : InClass cfg s)
    (hstep : (machine cfg).step s e = some (s', out)) : InClass cfg s' := by
  obtain ⟨r, hr, hresult⟩ := step_iff.mp hstep
  have hclass : (r.updated cfg s.status).operationClass = operationClass cfg.operation :=
    (operationClass_updated hr s.status).trans h
  unfold InClass
  obtain hs' | hs' := status_result hresult <;> rw [hs', status_taken]
  · exact hclass
  · rw [OperationStatus.operationClass_update, hclass]

end Arinc615a.Target
