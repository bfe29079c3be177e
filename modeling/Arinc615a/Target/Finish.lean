import Arinc615a.Target.StatusSteps

/-!
# The end of a target operation

`finalise` tells the application and cancels the timer when its handler has
returned. Nothing remembers that it was called: transfers in flight go on, and
their completions may end the operation again, send the status or arm the timer
(`target_finish_iff`).
-/

namespace Arinc615a.Target

open Actions Machines Readers Timers
open Files Information Tftp

/-! ## The law -/

/-- `OperationHandler::finished` is called. -/
def isFinished : Output → Bool
  | .finished _ _ => true
  | _ => false

/-- What may not happen behind the end: `finished`, the transmission of a status
file, and arming the timer. -/
def isLoud : Output → Bool
  | .finished _ _ => true
  | .statusFile _ _ _ _ _ => true
  | .timerArmed _ => true
  | _ => false

/-- A status file can be built from the status. -/
def Encodes (cfg : Configuration) (status : OperationStatus) : Prop :=
  ∃ file, encodeStatus cfg.protocolVersion status = .ok file

/-- A transfer of the TFTP client that completes behind the end is harmless: a
status file that was sent or that the host answers with an abort, and a list of
downloadable files that was sent. -/
def QuietClientTransfer (cfg : Configuration) (status : TransferStatus) : TransferKind → Prop
  | .statusFile _ => status = .successful ∨ status = .operationAbortedByDlp ∨
      status = .operationAbortedByOperator
  | .listFile => cfg.operation = .operatorDefinedDownload ∧ status = .successful
  | _ => True

/-- One of the TFTP server is harmless if it is a request file that is delivered. -/
def QuietServerTransfer (cfg : Configuration) (status : LibraryTransferStatus) (data : RawData) :
    TransferKind → Prop
  | .initialisation => False
  | .requestFile => Delivered cfg status data
  | _ => True

/-- An event that is harmless behind the end of the operation. A timer handler
is, if its wait was aborted or the status cannot be encoded. -/
def Quiet (cfg : Configuration) (s : State) : Event → Prop
  | .clientCompleted operation status =>
    ∀ t, transfer? s operation = some t → QuietClientTransfer cfg status t.kind
  | .serverCompleted operation status data =>
    ∀ t, transfer? s operation = some t → QuietServerTransfer cfg status data t.kind
  | .timerHandler result =>
    result = .operationAborted ∨ ¬ Encodes cfg (statusToSend s.status)
  | .callbackReturned => ∀ sentStatus, s.callback ≠ some (.status sentStatus)
  | .callbackThrew => s.callback ≠ some .receivedFile
  | _ => True

/-! ## Reactions -/

variable {cfg : Configuration} {s : State} {r : Reaction}

/-- The reactions that are loud. -/
def Reaction.Loud (cfg : Configuration) (s : State) : Reaction → Prop
  | initialised => True
  | call c => Target.isLoud c.output
  | arm _ => True
  | report f => cfg.operation = .information → Encodes cfg (statusToSend (f s.status))
  | transmit => Encodes cfg (statusToSend s.status)
  | _ => False

/-- A transmission is loud unless the encoder throws. -/
theorem transmission_silent {s' : State} {out : List Output}
    (h : transmission cfg s = some (s', out)) (b : Bool) :
    SilentFrom isFinished isLoud b out ↔ (b = true → ¬ Encodes cfg s.status) := by
  obtain ⟨e, hencode, -, rfl⟩ | ⟨file, hencode, -, rfl⟩ := transmission_eq_some h
  · simp [SilentFrom, isLoud, Encodes, hencode]
  · simp only [statusFileOutputs, transferAborts, Encodes, hencode]
    cases s.statusOperation <;> simp [SilentFrom, isLoud, isFinished]

/-- A reaction is silent behind the end unless it is loud. -/
theorem result_silent {s' : State} {out : List Output} (h : r.result cfg s = some (s', out))
    (b : Bool) : SilentFrom isFinished isLoud b out ↔ (b = true → ¬ r.Loud cfg s) := by
  cases r with
  | transmit => exact transmission_silent h b
  | report f =>
    obtain ⟨hop, h⟩ | ⟨hop, -, rfl⟩ := forced_eq_some h
    · simpa [Reaction.Loud, hop] using transmission_silent h b
    · simp [SilentFrom, isLoud, Reaction.Loud, hop]
  | sendList filename file checkValue =>
    simp only [Reaction.result, transferAborts] at h
    split at h
    · rw [Option.some.injEq, Prod.mk.injEq] at h
      obtain ⟨-, rfl⟩ := h
      cases s.listOperation <;> simp [SilentFrom, isLoud, Reaction.Loud]
    · cases h
  | _ =>
    simp only [Reaction.result, Option.some.injEq, Prod.mk.injEq] at h
    obtain ⟨-, rfl⟩ := h
    simp [SilentFrom, isLoud, isFinished, Reaction.Loud]

/-- The status of an information operation is encoded if its text can be. -/
theorem encodes_information {status : OperationStatus}
    (hclass : status.operationClass = .information)
    (htext : StringAccepted status.status.description) : Encodes cfg status := by
  cases status with
  | information status =>
    have hencode := stringEncode_ok htext
    simp only [OperationStatus.status] at hencode
    simp only [Encodes, encodeStatus, InformationOperationStatusFile.encode, hencode]
    exact ⟨_, rfl⟩
  | _ => cases hclass

/-- A report of the operation itself is loud: its text can be sent. -/
theorem loud_ownReport (hs : InClass cfg s) {f : OperationStatus → OperationStatus}
    (hf : OwnReport f) : (Reaction.report f).Loud cfg s := by
  intro hop
  obtain ⟨code, description, estimatedTime, rfl, -, htext⟩ := hf
  apply encodes_information
  · rw [operationClass_statusToSend, operationClass_reported, hs, hop]
    rfl
  · unfold statusToSend
    split
    -- A status that was never set has no text.
    · rw [OperationStatus.status_update]
      exact stringAccepted_nil
    · rw [status_reported]
      exact htext

/-! ## Quiet events -/

theorem statusFile_quiet {sentStatus : OperationStatus} (status : TransferStatus) :
    QuietClientTransfer cfg status (.statusFile sentStatus) ↔
      ¬ (statusFileReaction sentStatus status).Loud cfg s := by
  cases status <;>
    simp [QuietClientTransfer, statusFileReaction, Reaction.Loud, Call.output, isLoud]

/-- A list that was sent or was not lets an information operation send its
status or end. -/
theorem listFile_quiet {t : State} (ht : InClass cfg t) {status : TransferStatus}
    (h : listFileReaction cfg s status = some r) :
    QuietClientTransfer cfg status .listFile ↔ ¬ r.Loud cfg t := by
  have hown : ∀ f, r = .report f → r.Loud cfg t := by
    intro f hr
    subst hr
    exact loud_ownReport ht (own_listFile h).own
  cases hop : cfg.operation with
  | information =>
    simp only [listFileReaction, hop, Option.some.injEq] at h
    simp only [QuietClientTransfer, hop, reduceCtorEq, false_and, false_iff, not_not]
    split at h
    · exact hown _ h.symm
    · split at h
      · subst h
        exact rfl
      · exact hown _ h.symm
  | operatorDefinedDownload =>
    simp only [listFileReaction, hop, Option.some.injEq] at h
    simp only [QuietClientTransfer, hop, true_and]
    split at h
    · rename_i hstatus
      exact iff_of_false hstatus (not_not.mpr (hown _ h.symm))
    · rename_i hstatus
      subst h
      exact iff_of_true (not_not.mp hstatus) id
  | _ => simp [listFileReaction, hop] at h

theorem requestFile_quiet (hs : InClass cfg s) {status : LibraryTransferStatus} {data : RawData}
    (h : requestFileReaction cfg status data = some r) :
    QuietServerTransfer cfg status data .requestFile ↔ ¬ r.Loud cfg s := by
  have hown : ∀ f, r = .report f → r.Loud cfg s := by
    intro f hr
    subst hr
    exact loud_ownReport hs (own_requestFile h).own
  unfold requestFileReaction at h
  simp only [QuietServerTransfer, Delivered]
  split at h
  · cases h
  split at h
  · rename_i hstatus
    exact iff_of_false (fun hd => hstatus hd.1) (not_not.mpr (hown _ (Option.some.inj h).symm))
  rename_i hstatus
  split at h
  · cases h
  · rename_i hdecode
    refine iff_of_false ?_ (not_not.mpr (hown _ (Option.some.inj h).symm))
    simp [hdecode]
  · rename_i protocolVersion received rest hdecode
    rw [Option.some.injEq] at h
    split at h
    · rename_i hversion
      refine iff_of_false ?_ (not_not.mpr (hown _ h.symm))
      simp [hdecode, hversion]
    · rename_i hversion
      subst h
      rw [not_not.mp hversion] at hdecode
      exact iff_of_true ⟨not_not.mp hstatus, received, rest, hdecode⟩
        (by simp [Reaction.Loud, Call.output, isLoud])

theorem statusReturned_loud (hs : InClass cfg s) (sentStatus : OperationStatus) :
    (statusReaction cfg sentStatus).Loud cfg s := by
  have hown : (statusReaction cfg sentStatus).Own := (own_status sentStatus).own
  unfold statusReaction at hown ⊢
  split
  · split
    · rename_i hcode hop
      rw [hcode, if_pos hop] at hown
      exact loud_ownReport hs hown
    · trivial
  all_goals trivial

/-- **Quiet events**: the reaction to an event of the environment is not loud
exactly if the event is quiet. -/
theorem quiet_iff (hs : InClass cfg s) {e : Event} (he : e.Internal)
    (h : reaction cfg s e = some r) : Quiet cfg s e ↔ ¬ r.Loud cfg (taken s e) := by
  have htaken : InClass cfg (taken s e) := by
    unfold InClass
    rw [status_taken]
    exact hs
  cases e with
  | application call => exact absurd rfl (he call)
  | tftpRequest request =>
    obtain ⟨errorCode, errorMessage, rfl⟩ | rfl := tftpRequest_eq_some h <;>
      simp [Quiet, Reaction.Loud]
  | clientCompleted operation status =>
    obtain ⟨t, ht, ⟨sentStatus, hkind, rfl⟩ | ⟨hkind, hr⟩⟩ := clientCompleted_eq_some h
    · simp only [Quiet, ht, Option.some.injEq, forall_eq', hkind]
      exact statusFile_quiet status
    · simp only [Quiet, ht, Option.some.injEq, forall_eq', hkind]
      exact listFile_quiet htaken hr
  | serverCompleted operation status data =>
    obtain ⟨t, ht, ⟨hkind, rfl⟩ | ⟨hkind, hr⟩⟩ := serverCompleted_eq_some h
    · simp only [Quiet, ht, Option.some.injEq, forall_eq', hkind, QuietServerTransfer, false_iff,
        not_not, initialisationReaction]
      split
      · exact rfl
      · trivial
    · simp only [Quiet, ht, Option.some.injEq, forall_eq', hkind]
      exact requestFile_quiet htaken hr
  | callbackReturned =>
    obtain ⟨continuation, hcallback, rfl⟩ := Option.map_eq_some_iff.mp h
    cases continuation with
    | status sentStatus =>
      simp only [Quiet, hcallback, ne_eq, Option.some.injEq, Continuation.status.injEq]
      exact iff_of_false (fun hq => hq sentStatus rfl)
        (not_not.mpr (statusReturned_loud htaken sentStatus))
    | _ => simp [Quiet, hcallback, returnReaction, Reaction.Loud]
  | callbackThrew =>
    obtain ⟨continuation, hcallback, rfl⟩ := Option.map_eq_some_iff.mp h
    cases continuation with
    | receivedFile =>
      simp only [Quiet, hcallback, ne_eq, not_true_eq_false, false_iff, not_not]
      exact loud_ownReport htaken
        (ownReport_failed (stringAccepted_texts cfg.operation).2.2)
    | _ => simp [Quiet, hcallback, throwReaction, Reaction.Loud]
  | timerHandler result =>
    obtain rfl := timerHandler_eq_some h
    cases result <;> simp [Quiet, timerReaction, Reaction.Loud, taken]
  | timerExpired =>
    cases nothing_of_eq_some (.inl rfl) h
    simp [Quiet, Reaction.Loud]
  | timerFailed =>
    cases nothing_of_eq_some (.inr (.inl rfl)) h
    simp [Quiet, Reaction.Loud]
  | advance time =>
    cases nothing_of_eq_some (.inr (.inr ⟨time, rfl⟩)) h
    simp [Quiet, Reaction.Loud]

/-! ## The end -/

/-- **The end of the operation**: where the application makes no call behind the
end, `finished` is called once and nothing is loud behind it, exactly if every
event behind it is quiet. -/
theorem target_finish_iff {hostAddress : Endpoint} {port : Option UInt16} {es : List Event}
    {s' : State} {tr : List Output}
    (h : (machine cfg).exec (started cfg hostAddress port) es = some (s', tr))
    (hcalls : (machine cfg).Along isFinished (fun ended _ e => ended = true → e.Internal) false
      (started cfg hostAddress port) es) :
    SilentAfter isFinished isLoud tr ↔
      (machine cfg).Along isFinished (fun ended s e => ended = true → Quiet cfg s e) false
        (started cfg hostAddress port) es := by
  have hinv : ∀ (b : Bool) (s : State) (e : Event) (s' : State) (o : List Output),
      InClass cfg s → (machine cfg).step s e = some (s', o) → InClass cfg s' :=
    fun _ _ _ _ _ hs hstep => inClass_step hs hstep
  rw [silentAfter_iff]
  refine silentFrom_iff_along_of hinv ?_ (inClass_started hostAddress port) hcalls h
  intro b s e s' out hs hinternal hstep
  obtain ⟨r, hr, hresult⟩ := step_iff.mp hstep
  rw [result_silent hresult]
  cases b with
  | true => simp [quiet_iff hs (hinternal rfl) hr]
  -- Before the end a single step is not loud behind its own `finished`.
  | false => simp

/-- An operation whose initialisation fails ends, and the return from the
application's handler is quiet. -/
theorem target_finish_notInitialised :
    ∃ s' tr, (machine (exampleConfiguration .upload)).exec
        (started (exampleConfiguration .upload) exampleHost none)
        [.serverCompleted 0 .communicationError [], .callbackReturned] = some (s', tr) ∧
      SilentAfter isFinished isLoud tr := by
  have hrun : ∃ s' tr, (machine (exampleConfiguration .upload)).exec
      (started (exampleConfiguration .upload) exampleHost none)
      [.serverCompleted 0 .communicationError [], .callbackReturned] = some (s', tr) :=
    ⟨_, _, rfl⟩
  obtain ⟨s', tr, h⟩ := hrun
  refine ⟨s', tr, h, (target_finish_iff h ?_).mpr ?_⟩
  · exact (Machine.along_cons rfl).mpr ⟨fun _ _ => nofun, (Machine.along_cons rfl).mpr
      ⟨fun _ _ => nofun, trivial⟩⟩
  · exact (Machine.along_cons rfl).mpr ⟨by simp, (Machine.along_cons rfl).mpr
      ⟨fun _ _ => nofun, trivial⟩⟩

/-- The transmission of the status fails while the target information is in
transmission: the operation ends, and sends its status when that is done. -/
theorem target_transmits_behind_end :
    ∃ s' tr, (machine (exampleConfiguration .information)).exec
        (started (exampleConfiguration .information) exampleHost none)
        [.serverCompleted 0 .successful [], .application (.targetInformation [] .notUsed),
          .advance second, .timerExpired, .timerHandler .success,
          .clientCompleted 2 .communicationError, .callbackReturned,
          .clientCompleted 1 .successful] = some (s', tr) ∧
      (machine (exampleConfiguration .information)).Along isFinished
        (fun ended _ e => ended = true → e.Internal) false
        (started (exampleConfiguration .information) exampleHost none)
        [.serverCompleted 0 .successful [], .application (.targetInformation [] .notUsed),
          .advance second, .timerExpired, .timerHandler .success,
          .clientCompleted 2 .communicationError, .callbackReturned,
          .clientCompleted 1 .successful] ∧
      ¬ SilentAfter isFinished isLoud tr := by
  refine ⟨_, _, rfl, ?_, by decide⟩
  refine (Machine.along_cons rfl).mpr ⟨fun _ _ => nofun, ?_⟩
  refine (Machine.along_cons rfl).mpr ⟨fun h => absurd h (by decide), ?_⟩
  refine (Machine.along_cons rfl).mpr ⟨fun _ _ => nofun, ?_⟩
  refine (Machine.along_cons rfl).mpr ⟨fun _ _ => nofun, ?_⟩
  refine (Machine.along_cons rfl).mpr ⟨fun _ _ => nofun, ?_⟩
  refine (Machine.along_cons rfl).mpr ⟨fun _ _ => nofun, ?_⟩
  refine (Machine.along_cons rfl).mpr ⟨fun _ _ => nofun, ?_⟩
  exact (Machine.along_cons rfl).mpr ⟨fun _ _ => nofun, trivial⟩

end Arinc615a.Target
