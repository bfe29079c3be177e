import Arinc615a.Host.Steps

/-!
# The end of a host operation

`finished` tells the user, stops the TFTP server and cancels the timer. Nothing
remembers that it was called, and transfers in flight go on: the operation
stays silent exactly if what still completes behind the end is harmless
(`host_finish_iff`).
-/

namespace Arinc615a.Host

open Actions Machines Timers
open Files Tftp

/-! ## The law -/

/-- `OperationHandler::finished` is called. -/
def isFinished : Output → Bool
  | .finished _ _ => true
  | _ => false

/-- What may not happen behind the end: `finished`, the status and list
callbacks, and arming the DLP timer. -/
def isLoud : Output → Bool
  | .finished _ _ => true
  | .status _ => true
  | .targetInformation _ _ => true
  | .downloadingList _ => true
  | .timerArmed _ => true
  | _ => false

/-- A transfer that completes behind the end is harmless: an initialisation
file or a sent file, but the initialisation file only if it can be read; a
status file only if it cannot; a list only if it cannot be read, and an
information operation waits for the final status. -/
def QuietTransfer (cfg : Configuration) (s : State) (data : RawData) (successful : Prop) :
    TransferKind → Prop
  | .initialisation => successful ∧ (InitializationFile.decode {} data).isDone
  | .statusFile => successful ∧ ¬ (decodeStatus cfg.operation data).isDone
  | .listFile _ => ¬ (successful ∧ listDecodes cfg.operation data) ∧
      (cfg.operation = .information → s.waitForFinalStatus)
  | .sentFile => True

/-- An event that is harmless behind the end of the operation. -/
def Quiet (cfg : Configuration) (s : State) : Event → Prop
  | .clientCompleted operation status data =>
    ∀ t, transfer? s operation = some t →
      QuietTransfer cfg s data (status = .successful) t.kind
  | .serverCompleted operation status data =>
    ∀ t, transfer? s operation = some t →
      QuietTransfer cfg s data (status = .successful) t.kind
  | .timerHandler result => result = .operationAborted
  | .callbackReturned => s.callback = some .downloadingList
  | .callbackThrew =>
    match s.callback with
    | some (.initialisationResponse _) => False
    | some .targetInformation => s.waitForFinalStatus
    | _ => True
  | .terminate _ => False
  | _ => True

/-! ## Reactions -/

variable {cfg : Configuration} {s : State}

/-- The reactions that are loud, for those that are no request. -/
def Reaction.isLoud : Reaction → Bool
  | .finish _ _ => true
  | .terminate _ => true
  | .accept _ => true
  | .goOn _ => true
  | .rearm => true
  | .call c => Host.isLoud c.output
  | _ => false

/-- The abort of an initialisation is not loud itself. -/
theorem initialisationAborts_silent (b : Bool) (o : Output) :
    SilentFrom isFinished isLoud b (initialisationAborts s ++ [o]) ↔
      (b = true → isLoud o = false) := by
  unfold initialisationAborts
  split <;> simp [SilentFrom, isLoud, isFinished]

/-- A reaction that is no request is silent behind the end unless it is loud. -/
theorem reaction_silent {r : Reaction} (hr : ∀ request, r ≠ .request request) (b : Bool) :
    SilentFrom isFinished isLoud b (r.out cfg s) ↔ (b = true → r.isLoud = false) := by
  cases r with
  | request request => exact absurd rfl (hr request)
  | terminate reason =>
    simp only [Reaction.out, initialisationAborts_silent]
    rfl
  | abort reason =>
    simp only [Reaction.out, Reaction.isLoud, implies_true, iff_true]
    split
    · unfold initialisationAborts
      split <;> simp [SilentFrom, isLoud]
    · trivial
  | call c => simp [Reaction.out, Reaction.isLoud, SilentFrom]
  | send filename file =>
    simp only [Reaction.out, Reaction.isLoud, implies_true, iff_true, sentFileAborts]
    split <;> simp [SilentFrom, Host.isLoud]
  | _ => simp [Reaction.out, Reaction.isLoud, SilentFrom, Host.isLoud]

/-- Requests do not finish the operation. -/
theorem request_not_finished (request : Request) :
    ∀ o ∈ (Reaction.request request).out cfg s, isFinished o = false :=
  request_outputs (P := fun o => isFinished o = false) request (fun _ _ => rfl) rfl rfl rfl rfl
    (fun _ => rfl) (fun _ => rfl)

/-! ## Quiet events -/

theorem initialisation_quiet {status : TransferStatus} {data : RawData} {r : Reaction}
    (h : initialisationReaction status data = some r) :
    QuietTransfer cfg s data (status = .successful) .initialisation ↔ r.isLoud = false := by
  simp only [initialisationReaction] at h
  split at h
  · rename_i hstatus
    cases h
    simp [QuietTransfer, hstatus, Reaction.isLoud]
  · rename_i hstatus
    cases hdecode : InitializationFile.decode {} data with
    | overrun => simp [hdecode] at h
    | thrown e =>
      simp only [hdecode, Option.some.injEq] at h
      subst h
      simp [QuietTransfer, hdecode, Reaction.isLoud]
    | done initFile =>
      simp only [hdecode, Option.some.injEq] at h
      subst h
      simp [QuietTransfer, hdecode, not_not.mp hstatus, Reaction.isLoud, Call.output, isLoud]

theorem statusFile_quiet {status : LibraryTransferStatus} {data : RawData} {r : Reaction}
    (h : statusFileReaction cfg.operation status data = some r) :
    QuietTransfer cfg s data (status = .successful) .statusFile ↔ r.isLoud = false := by
  simp only [statusFileReaction] at h
  split at h
  · rename_i hstatus
    cases h
    simp [QuietTransfer, hstatus, Reaction.isLoud]
  · rename_i hstatus
    cases hdecode : decodeStatus cfg.operation data with
    | overrun => simp [hdecode] at h
    | thrown e =>
      simp only [hdecode, Option.some.injEq] at h
      subst h
      simp [QuietTransfer, hdecode, not_not.mp hstatus, Reaction.isLoud]
    | done statusFile =>
      simp only [hdecode, Option.some.injEq] at h
      subst h
      simp [QuietTransfer, hdecode, Reaction.isLoud, Call.output, isLoud]

theorem listFile_quiet {status : LibraryTransferStatus} {data : RawData} {r : Reaction}
    {checkValue : CheckValue}
    (h : listFileReaction cfg s checkValue status data = some r) :
    QuietTransfer cfg s data (status = .successful) (.listFile checkValue) ↔
      r.isLoud = false := by
  rcases listFileReaction_eq_some h with ⟨hdelivered, c, hc, rfl⟩ | ⟨hfailed, rfl⟩
  · have hloud : isLoud c.output = true := by
      cases c <;> first | rfl | cases hc
    simp only [Reaction.isLoud, hloud, Bool.true_eq_false, iff_false]
    exact fun hquiet => hquiet.1 hdelivered
  · have hquiet : QuietTransfer cfg s data (status = .successful) (.listFile checkValue) ↔
        (cfg.operation = .information → s.waitForFinalStatus) :=
      ⟨fun hq => hq.2, fun hwait => ⟨hfailed, hwait⟩⟩
    rw [hquiet]
    unfold listFailure
    split
    · rename_i hends
      simp [Reaction.isLoud, hends]
    · rename_i hgoes
      simpa [Reaction.isLoud] using hgoes

theorem send_quiet {p : Prop} [Decidable p] {fileType : ProtocolFileType}
    {encoded : Except Arinc615aException RawData} {r : Reaction}
    (h : (if p then sendReaction cfg s fileType encoded else none) = some r) :
    True ↔ r.isLoud = false := by
  split at h
  · rcases sendReaction_eq_some h with rfl | ⟨e, rfl⟩ | ⟨filename, file, rfl⟩ <;>
      simp [Reaction.isLoud]
  · cases h

/-- **Quiet events**: the reaction to an event that is no request is not loud
exactly if the event is quiet. -/
theorem quiet_iff {e : Event} {r : Reaction} (h : reaction cfg s e = some r)
    (hr : ∀ request, r ≠ .request request) : Quiet cfg s e ↔ r.isLoud = false := by
  cases e with
  | tftpRequest request =>
    simp only [reaction] at h
    split at h
    · cases h
      exact absurd rfl (hr request)
    · cases h
  | clientCompleted operation status data =>
    simp only [reaction] at h
    split at h
    · cases ht : transfer? s operation with
      | none => simp [ht] at h
      | some t =>
        simp only [ht, Option.bind_some] at h
        simp only [Quiet, ht, Option.some.injEq, forall_eq']
        cases hkind : t.kind with
        | initialisation => exact initialisation_quiet (by simpa [hkind] using h)
        | sentFile =>
          simp only [hkind, Option.some.injEq] at h
          subst h
          simp only [QuietTransfer, true_iff]
          split <;> rfl
        | _ => simp [hkind] at h
    · cases h
  | serverCompleted operation status data =>
    simp only [reaction] at h
    split at h
    · cases ht : transfer? s operation with
      | none => simp [ht] at h
      | some t =>
        simp only [ht, Option.bind_some] at h
        simp only [Quiet, ht, Option.some.injEq, forall_eq']
        split at h
        · cases hkind : t.kind with
          | statusFile => exact statusFile_quiet (by simpa [hkind] using h)
          | listFile checkValue => exact listFile_quiet (by simpa [hkind] using h)
          | _ => simp [hkind] at h
        · cases h
    · cases h
  | timerHandler result =>
    simp only [reaction] at h
    split at h
    · cases h
      cases result <;> simp [Quiet, timerReaction, Reaction.isLoud]
    · cases h
  | callbackReturned =>
    simp only [reaction, Option.map_eq_some_iff] at h
    obtain ⟨continuation, hcallback, rfl⟩ := h
    simp only [Quiet, hcallback]
    cases continuation with
    | initialisationResponse initFile =>
      simp only [returnReaction]
      cases initFile.response.code <;> simp [Reaction.isLoud]
    | status status =>
      simp only [returnReaction, statusReaction]
      cases status.code <;> simp [Reaction.isLoud]
    | targetInformation =>
      simp only [returnReaction]
      split <;> simp [Reaction.isLoud]
    | downloadingList => simp [returnReaction, Reaction.isLoud]
  | callbackThrew =>
    simp only [reaction, Option.map_eq_some_iff] at h
    obtain ⟨continuation, hcallback, rfl⟩ := h
    simp only [Quiet, hcallback]
    cases continuation with
    | targetInformation =>
      -- The exception is handled like a list that could not be received.
      simp only [throwReaction]
      split <;> simp_all [Reaction.isLoud]
    | _ => simp [throwReaction, Reaction.isLoud]
  | terminate reason =>
    cases h
    simp [Quiet, Reaction.isLoud]
  | loadList loads => exact send_quiet h
  | request files userDefinedData => exact send_quiet h
  | answer files => exact send_quiet h
  | abort reason =>
    cases h
    simp [Quiet, Reaction.isLoud]
  | initialisationDeferred waitTime =>
    simp only [reaction] at h
    split at h
    · cases h
      simp [Quiet, Reaction.isLoud]
    · cases h
  | timerExpired =>
    simp only [reaction] at h
    split at h
    · cases h
      simp [Quiet, Reaction.isLoud]
    · cases h
  | timerFailed =>
    simp only [reaction] at h
    split at h
    · cases h
      simp [Quiet, Reaction.isLoud]
    · cases h
  | advance time =>
    cases h
    simp [Quiet, Reaction.isLoud]

/-! ## The end -/

/-- Behind the end the server is stopped. -/
structure Ended (b : Bool) (s : State) : Prop where
  consistent : Consistent s
  stopped : b = true → s.serverRunning = false

/-- The reactions that finish the operation. -/
def Reaction.finishes : Reaction → Bool
  | .finish _ _ => true
  | .terminate _ => true
  | _ => false

theorem any_isFinished (r : Reaction) : (r.out cfg s).any isFinished = r.finishes := by
  have haborts : (initialisationAborts s).any isFinished = false := by
    unfold initialisationAborts
    split <;> rfl
  cases r with
  | request request =>
    exact List.any_eq_false.mpr fun o ho => by simp [request_not_finished request o ho]
  | terminate reason =>
    simp only [Reaction.out, List.any_append, haborts]
    rfl
  | abort reason =>
    simp only [Reaction.out]
    split
    · exact haborts
    · rfl
  | call c => cases c <;> rfl
  | send filename file =>
    simp only [Reaction.out, sentFileAborts]
    split <;> rfl
  | _ => rfl

/-- No reaction starts the server, and those that finish stop it. -/
theorem serverRunning_state (r : Reaction) :
    (r.state cfg s).serverRunning = (s.serverRunning && !r.finishes) := by
  cases r with
  | finish status description => simp [Reaction.state, State.ended, Reaction.finishes]
  | terminate reason => simp [Reaction.state, State.ended, Reaction.finishes]
  | request request =>
    show _ = (s.serverRunning && !false)
    rw [Bool.not_false, Bool.and_true]
    refine request_state (P := fun t => t.serverRunning = s.serverRunning) request rfl
      (fun _ => rfl) (fun _ => rfl) ?_
    intro checkValue
    rw [withListFile_eq]
  | abort reason =>
    simp only [Reaction.state, Reaction.finishes, Bool.not_false, Bool.and_true]
    split <;> rfl
  | send filename file =>
    simp only [Reaction.state, Reaction.finishes, Bool.not_false, Bool.and_true,
      State.withoutSentFile]
    split <;> rfl
  | _ => exact (Bool.and_true _).symm

theorem serverRunning_taken (e : Event) : (taken s e).serverRunning = s.serverRunning := by
  rw [taken_eq]

/-- The stopped server hands on no request. -/
theorem not_request {e : Event} {r : Reaction} (h : reaction cfg s e = some r)
    (hstopped : s.serverRunning = false) (request : Request) : r ≠ .request request := by
  intro heq
  subst heq
  have hrunning := (causedBy_of_reaction h).2
  rw [hstopped] at hrunning
  cases hrunning

theorem ended_step {b : Bool} {e : Event} {s' : State} {out : List Output} (h : Ended b s)
    (hstep : (machine cfg).step s e = some (s', out)) : Ended (b || out.any isFinished) s' := by
  refine ⟨consistent_step h.consistent hstep, fun hend => ?_⟩
  obtain ⟨r, -, rfl, rfl⟩ := (step_iff h.consistent).mp hstep
  rw [any_isFinished] at hend
  rw [serverRunning_state, serverRunning_taken]
  cases b with
  | true => simp [h.stopped rfl]
  | false =>
    rw [Bool.false_or] at hend
    simp [hend]

/-- **One step**: it is silent exactly if it is quiet behind the end. -/
theorem silent_step_iff {b : Bool} {e : Event} {s' : State} {out : List Output}
    (h : Ended b s) (hstep : (machine cfg).step s e = some (s', out)) :
    SilentFrom isFinished isLoud b out ↔ (b = true → Quiet cfg s e) := by
  obtain ⟨r, hr, -, rfl⟩ := (step_iff h.consistent).mp hstep
  cases b with
  | true =>
    have hnone := not_request hr (h.stopped rfl)
    rw [reaction_silent hnone, quiet_iff hr hnone]
  | false =>
    -- Before the end, only what a step does behind its own `finished` counts.
    simp only [Bool.false_eq_true, false_imp_iff, iff_true]
    by_cases hrequest : ∃ request, r = .request request
    · obtain ⟨request, rfl⟩ := hrequest
      exact silentFrom_false (request_not_finished request)
    · exact (reaction_silent (fun request heq => hrequest ⟨request, heq⟩) false).mpr (by simp)

/-- **The end of the operation**: `finished` is called once and nothing is loud
behind it, exactly if every event behind it is quiet. -/
theorem host_finish_iff {es : List Event} {s' : State} {tr : List Output}
    (h : (machine cfg).exec started es = some (s', tr)) :
    SilentAfter isFinished isLoud tr ↔
      (machine cfg).Along isFinished (fun ended s e => ended = true → Quiet cfg s e) false
        started es := by
  rw [silentAfter_iff]
  exact silentFrom_iff_along (fun _ _ _ _ _ hs hstep => ended_step hs hstep)
    (fun _ _ _ _ _ hs hstep => silent_step_iff hs hstep)
    ⟨consistent_started, by simp⟩ h

/-- An abort behind the end is quiet. -/
theorem host_finish_terminated :
    ∃ s' tr, (machine (exampleConfiguration .upload)).exec started
        [.terminate .operator, .abort .operator] = some (s', tr) ∧
      SilentAfter isFinished isLoud tr := by
  have hrun : ∃ s' tr, (machine (exampleConfiguration .upload)).exec started
      [.terminate .operator, .abort .operator] = some (s', tr) := ⟨_, _, rfl⟩
  obtain ⟨s', tr, h⟩ := hrun
  exact ⟨s', tr, h, (host_finish_iff h).mpr
    ⟨by simp, fun _ _ _ => ⟨fun _ => trivial, fun _ _ _ => trivial⟩⟩⟩

/-- Two status files in reception that fail: each of them finishes the operation. -/
theorem host_finishes_twice :
    ∃ s', (machine (exampleConfiguration .upload)).exec started
        [.clientCompleted 0 .successful [0, 0, 0, 9, 0x41, 0x34, 0, 1, 0], .callbackReturned,
          .tftpRequest (exampleRequest .write "HNPFMS_L.LUS"),
          .tftpRequest (exampleRequest .write "HNPFMS_L.LUS"),
          .serverCompleted 1 .communicationError [], .serverCompleted 2 .communicationError []]
        = some (s',
          [.initialisationResponse ⟨.operationAccepted, []⟩, .timerArmed (13 * second),
            .writeOperation ⟨0, 59⟩ 1 .statusFile, .writeOperation ⟨0, 59⟩ 2 .statusFile,
            .finished .operationAbortedByDlp (str "Status file could not be received"),
            .finished .operationAbortedByDlp (str "Status file could not be received")]) ∧
      ¬ SilentAfter isFinished isLoud
        [.initialisationResponse ⟨.operationAccepted, []⟩, .timerArmed (13 * second),
          .writeOperation ⟨0, 59⟩ 1 .statusFile, .writeOperation ⟨0, 59⟩ 2 .statusFile,
          .finished .operationAbortedByDlp (str "Status file could not be received"),
          .finished .operationAbortedByDlp (str "Status file could not be received")] := by
  refine ⟨_, rfl, ?_⟩
  simp [silentAfter_iff, SilentFrom, isFinished, isLoud]

end Arinc615a.Host
