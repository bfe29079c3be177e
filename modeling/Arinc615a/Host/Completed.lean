import Arinc615a.Host.Callbacks
import Arinc615a.Host.Finish

/-!
# No false completion

`finished` is called with `OperationCompleted` only where the call of the
user's handler returns, for a status file with that code, or for the list of an
information operation that has not been told to wait for a final status. What
the call was made for is read off the history of the run.
-/

namespace Arinc615a.Host

open Actions Actions.Action Machines Readers
open Files Information Tftp

/-! ## The law -/

/-- The target goes on, and will send a final status. -/
def goesOn (status : Status) : Bool :=
  match status.code with
  | .operationAccepted => true
  | .operationInProgress => true
  | .operationInProgressAdditionalInfo => true
  | _ => false

/-- The step processes a status of a target that goes on: `statusFileCompleted`
reaches its status switch with it. -/
def ProcessesStatus (s : State) (e : Event) : Prop :=
  e = .callbackReturned ∧ ∃ status, s.callback = some (.status status) ∧ goesOn status

/-- What a run must have seen before the operation completes: as its last step,
but for what the user did since, a status file with that code, or the list of an
information operation that was not told to wait. -/
def Completable (cfg : Configuration) (es : List Event) : Prop :=
  ∃ pre tr s e s' out mid, es = pre ++ e :: mid ∧
    (machine cfg).HasStep started es pre tr s e s' out ∧
    (∀ f ∈ mid, Event.duringCallback f) ∧
    ((∃ statusFile, StatusFileCompleted cfg s e statusFile ∧
        statusFile.status.code = .operationCompleted) ∨
      (cfg.operation = .information ∧
        (∀ pre tr s e s' out, (machine cfg).HasStep started es pre tr s e s' out →
          ¬ ProcessesStatus s e) ∧
        ∃ listFile integrityInformation, ListFileCompleted s e listFile ∧
          out = [.targetInformation listFile.targetsHardware integrityInformation]))

/-! ## The callers of `finished` -/

variable {cfg : Configuration} {s : State}

/-- Only the reaction that finishes so makes the call. -/
theorem finish_of_mem {r : Reaction} {description : Str}
    (h : .finished .operationCompleted description ∈ r.out cfg s) :
    r = .finish .operationCompleted description := by
  have hfinishes : r.finishes = true := by
    rw [← any_isFinished, List.any_eq_true]
    exact ⟨_, h, rfl⟩
  cases r with
  | finish status description' =>
    obtain ⟨rfl, rfl⟩ := Output.finished.inj (List.mem_singleton.mp h)
    rfl
  | terminate reason =>
    -- A terminate has a code of its own.
    rcases List.mem_append.mp h with hmem | hmem
    · unfold initialisationAborts at hmem
      split at hmem
      · cases hmem
      · cases List.mem_singleton.mp hmem
    · obtain ⟨hcode, -⟩ := Output.finished.inj (List.mem_singleton.mp hmem)
      cases reason <;> cases hcode
  | _ => cases hfinishes

/-- A status finishes the operation as completed if its code says so. -/
theorem statusReaction_completed {status : Status} {description : Str}
    (h : statusReaction status = .finish .operationCompleted description) :
    status.code = .operationCompleted := by
  cases hcode : status.code <;> simp_all [statusReaction]

/-- The end of a call completes the operation for a status with that code, or for
a list where no status is waited for. -/
theorem returnReaction_completed {c : Continuation} {description : Str}
    (h : returnReaction s c = .finish .operationCompleted description) :
    (∃ status, c = .status status ∧ status.code = .operationCompleted) ∨
      (c = .targetInformation ∧ s.waitForFinalStatus = false) := by
  cases c with
  | initialisationResponse initFile =>
    cases hcode : initFile.response.code <;> simp [returnReaction, hcode] at h
  | status status => exact .inl ⟨status, rfl, statusReaction_completed h⟩
  | targetInformation =>
    simp only [returnReaction] at h
    split at h
    · cases h
    · rename_i hwait
      exact .inr ⟨rfl, by simpa using hwait⟩
  | downloadingList => cases h

theorem throwReaction_not_completed {c : Continuation} {description : Str} :
    throwReaction s c ≠ .finish .operationCompleted description := by
  intro h
  cases c with
  | targetInformation =>
    simp only [throwReaction] at h
    split at h <;> cases h
  | _ => cases h

theorem initialisationReaction_not_completed {status : TransferStatus} {data : RawData}
    {description : Str} :
    initialisationReaction status data ≠ some (.finish .operationCompleted description) := by
  intro h
  simp only [initialisationReaction] at h
  split at h
  · cases h
  · cases hdecode : InitializationFile.decode {} data <;> simp [hdecode] at h

theorem statusFileReaction_not_completed {operation : OperationType}
    {status : LibraryTransferStatus} {data : RawData} {description : Str} :
    statusFileReaction operation status data
      ≠ some (.finish .operationCompleted description) := by
  intro h
  simp only [statusFileReaction] at h
  split at h
  · cases h
  · cases hdecode : decodeStatus operation data <;> simp [hdecode] at h

theorem listFailure_not_completed {description : Str} :
    listFailure cfg s ≠ .finish .operationCompleted description := by
  intro h
  unfold listFailure at h
  split at h <;> cases h

/-- **Callers**: no completion, timeout or call of the user finishes the operation
as completed; the end of a call of its handler does. -/
theorem reaction_completed {e : Event} {description : Str}
    (h : reaction cfg s e = some (.finish .operationCompleted description)) :
    e = .callbackReturned ∧
      ((∃ status, s.callback = some (.status status) ∧ status.code = .operationCompleted) ∨
        (s.callback = some .targetInformation ∧ s.waitForFinalStatus = false)) := by
  obtain ⟨r, hr⟩ : ∃ r, r = Reaction.finish .operationCompleted description := ⟨_, rfl⟩
  rw [← hr] at h
  cases reacts_of_reaction h with
  | returned hcallback =>
    refine ⟨rfl, ?_⟩
    rcases returnReaction_completed hr with ⟨status, rfl, hcode⟩ | ⟨rfl, hwait⟩
    · exact .inl ⟨status, hcallback, hcode⟩
    · exact .inr ⟨hcallback, hwait⟩
  | threw hcallback => exact absurd hr throwReaction_not_completed
  | initialisation hidle ht hkind hinit =>
    exact absurd (hr ▸ hinit) initialisationReaction_not_completed
  | sentFile hidle ht hkind => split at hr <;> cases hr
  | statusFile hidle ht hkind hstatus =>
    exact absurd (hr ▸ hstatus) statusFileReaction_not_completed
  | listFile hidle ht hkind hlist =>
    rcases listFileReaction_eq_some hlist with ⟨-, call, -, rfl⟩ | ⟨-, rfl⟩
    · cases hr
    · exact absurd hr listFailure_not_completed
  | @timerHandler result hidle hhead => cases result <;> cases hr
  | send he hsend =>
    rcases sendReaction_eq_some hsend with rfl | ⟨e, rfl⟩ | ⟨filename, file, rfl⟩ <;> cases hr
  | _ => cases hr

/-! ## Waiting for the final status -/

theorem waitForFinalStatus_taken (s : State) (e : Event) :
    (taken s e).waitForFinalStatus = s.waitForFinalStatus := by
  rw [taken_eq]

/-- Only a status of a target that goes on lets the operation wait. -/
theorem waitForFinalStatus_state (r : Reaction) :
    (r.state cfg s).waitForFinalStatus =
      match r with
      | .goOn _ => s.waitForFinalStatus || cfg.operation = .information
      | _ => s.waitForFinalStatus := by
  cases r with
  | request request =>
    refine request_state (P := fun t => t.waitForFinalStatus = s.waitForFinalStatus) request
      rfl (fun _ => rfl) (fun _ => rfl) ?_
    intro checkValue
    rw [withListFile_eq]
  | abort reason =>
    simp only [Reaction.state]
    split <;> rfl
  | send filename file =>
    show s.withoutSentFile.waitForFinalStatus = s.waitForFinalStatus
    rw [withoutSentFile_eq]
  | _ => rfl

theorem waitForFinalStatus_step (hs : Consistent s) {s' : State} {e : Event}
    {out : List Output} (h : (machine cfg).step s e = some (s', out))
    (hwait : s.waitForFinalStatus = true) : s'.waitForFinalStatus = true := by
  obtain ⟨r, -, rfl, -⟩ := (step_iff hs).mp h
  rw [waitForFinalStatus_state, waitForFinalStatus_taken]
  cases r <;> simp [hwait]

/-- A status of a target that goes on is answered with going on. -/
theorem statusReaction_goesOn {status : Status} (h : goesOn status = true) :
    ∃ exceptionTime, statusReaction status = .goOn exceptionTime := by
  simp only [goesOn] at h
  split at h
  · rename_i hcode
    exact ⟨0, by simp [statusReaction, hcode]⟩
  · rename_i hcode
    exact ⟨status.exceptionTimer.toNat, by simp [statusReaction, hcode]⟩
  · rename_i hcode
    exact ⟨status.exceptionTimer.toNat, by simp [statusReaction, hcode]⟩
  · cases h

/-- It lets an information operation wait. -/
theorem waits_of_processes (hs : Consistent s) {s' : State} {e : Event} {out : List Output}
    (hop : cfg.operation = .information) (h : (machine cfg).step s e = some (s', out))
    (hprocesses : ProcessesStatus s e) : s'.waitForFinalStatus = true := by
  obtain ⟨rfl, status, hcallback, hgoes⟩ := hprocesses
  obtain ⟨r, hr, rfl, -⟩ := (step_iff hs).mp h
  obtain ⟨exceptionTime, hreaction⟩ := statusReaction_goesOn hgoes
  simp only [reaction, hcallback, Option.map_some, Option.some.injEq, returnReaction,
    hreaction] at hr
  subst r
  rw [waitForFinalStatus_state]
  simp [hop]

/-- **Waiting**: an information operation that has processed such a status waits. -/
theorem waits_run {es : List Event} {tr : List Output} (hop : cfg.operation = .information)
    (h : (machine cfg).exec started es = some (s, tr)) {pre : List Event} {tr₁ : List Output}
    {s₁ : State} {e : Event} {s₂ : State} {out : List Output}
    (htaken : (machine cfg).HasStep started es pre tr₁ s₁ e s₂ out)
    (hprocesses : ProcessesStatus s₁ e) : s.waitForFinalStatus = true := by
  refine Machine.exec_history (fun es s _ => ∀ pre tr₁ s₁ e s₂ out,
    (machine cfg).HasStep started es pre tr₁ s₁ e s₂ out → ProcessesStatus s₁ e →
      s.waitForFinalStatus = true) ?_ ?_ h pre tr₁ s₁ e s₂ out htaken hprocesses
  · intro pre tr₁ s₁ e s₂ out hnone
    obtain ⟨post, hnil, -⟩ := hnone
    exact absurd hnil (by simp)
  · intro es s tr e s' out hexec ih hstep pre tr₁ s₁ f s₂ out₁ htaken hprocesses
    have hs := consistent_run hexec
    rcases htaken.of_append with hbefore | ⟨rfl, rfl⟩
    · exact waitForFinalStatus_step hs hstep (ih _ _ _ _ _ _ hbefore hprocesses)
    · obtain ⟨rfl, -⟩ := htaken.exec_eq hexec
      exact waits_of_processes hs hop hstep hprocesses

/-! ## The law along a run -/

/-- The status file of a completed upload, for examples. -/
def completedStatus : RawData :=
  [0, 0, 0, 20, 0x41, 0x34, 0, 3, 0, 0, 0, 0, 0, 0, 0, 0x31, 0x30, 0x30, 0, 0]

/-- **No false completion**: in every run, a step that calls `finished` with
`OperationCompleted` is the return of the user's handler, and the run before it
was completable. -/
theorem host_completed {es pre : List Event} {tr : List Output} {s' : State} {e : Event}
    {out : List Output} {description : Str}
    (h : (machine cfg).HasStep started es pre tr s e s' out)
    (hcompleted : .finished .operationCompleted description ∈ out) :
    e = .callbackReturned ∧ Completable cfg pre := by
  obtain ⟨post, -, hpre, hstep⟩ := h
  obtain ⟨r, hr, -, rfl⟩ := (step_iff (consistent_run hpre)).mp hstep
  rw [finish_of_mem hcompleted] at hr
  obtain ⟨he, hcause⟩ := reaction_completed hr
  refine ⟨he, ?_⟩
  rcases hcause with ⟨status, hcallback, hcode⟩ | ⟨hcallback, hwait⟩
  · obtain ⟨pre₁, tr₁, s₁, e₁, s₂, call, mid, hes, htaken, hcall, hcontinuation, hmid⟩ :=
      called_of_callback hpre hcallback
    cases call with
    | status statusFile =>
      obtain rfl := Continuation.status.inj hcontinuation
      exact ⟨pre₁, tr₁, s₁, e₁, s₂, _, mid, hes, htaken, hmid,
        .inl ⟨statusFile, statusFileCompleted_of_call hcall, hcode⟩⟩
    | _ => cases hcontinuation
  · obtain ⟨pre₁, tr₁, s₁, e₁, s₂, call, mid, hes, htaken, hcall, hcontinuation, hmid⟩ :=
      called_of_callback hpre hcallback
    cases call with
    | targetInformation targetsHardware integrityInformation =>
      obtain ⟨hop, listFile, hlist, rfl⟩ := listFileCompleted_of_call hcall
      refine ⟨pre₁, tr₁, s₁, e₁, s₂, _, mid, hes, htaken, hmid,
        .inr ⟨hop, ?_, listFile, integrityInformation, hlist, rfl⟩⟩
      intro pre' tr' s₀ e₀ s₀' out' hearlier hprocesses
      have hwaits := waits_run hop hpre hearlier hprocesses
      rw [hwait] at hwaits
      cases hwaits
    | _ => cases hcontinuation

/-- A status file with `OperationCompleted` completes an upload. -/
theorem host_completed_upload :
    ∃ tr s s' out, (machine (exampleConfiguration .upload)).HasStep started
        [.tftpRequest (exampleRequest .write "HNPFMS_L.LUS"),
          .serverCompleted 1 .successful completedStatus, .callbackReturned]
        [.tftpRequest (exampleRequest .write "HNPFMS_L.LUS"),
          .serverCompleted 1 .successful completedStatus]
        tr s .callbackReturned s' out ∧
      .finished .operationCompleted [] ∈ out ∧
      Completable (exampleConfiguration .upload)
        [.tftpRequest (exampleRequest .write "HNPFMS_L.LUS"),
          .serverCompleted 1 .successful completedStatus] := by
  have htaken : ∃ tr s s', (machine (exampleConfiguration .upload)).HasStep started
      [.tftpRequest (exampleRequest .write "HNPFMS_L.LUS"),
        .serverCompleted 1 .successful completedStatus, .callbackReturned]
      [.tftpRequest (exampleRequest .write "HNPFMS_L.LUS"),
        .serverCompleted 1 .successful completedStatus]
      tr s .callbackReturned s' [.finished .operationCompleted []] :=
    ⟨_, _, _, [], rfl, rfl, rfl⟩
  obtain ⟨tr, s, s', htaken⟩ := htaken
  exact ⟨tr, s, s', _, htaken, List.mem_singleton_self _,
    (host_completed htaken (List.mem_singleton_self _)).2⟩

end Arinc615a.Host
