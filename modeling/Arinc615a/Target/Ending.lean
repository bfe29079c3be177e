import Arinc615a.Target.StatusTransfers

/-!
# How an application ends an operation

Where the timer of an operation waits, its status is sent once time has passed, whatever
handlers are queued from before (`exists_sent`). Where the application calls `finished`,
the status of the end is sent at once, and when its transfer completes, the application
is told the end itself (`exists_ending`). A status in flight was sent in the run
(`started_of_inFlight`), and its transfer can end with an abort (`passes_abort`).
-/

namespace Arinc615a.Target

open Machines Timers
open Files Information Tftp

variable {cfg : Configuration} {s : State}

/-- The events that need neither the application nor the host. -/
def Event.ofTimer : Event → Bool
  | timerExpired => true
  | timerHandler _ => true
  | advance _ => true
  | _ => false

/-- **Handlers**: those that are queued run in order, and the first one whose wait was not
taken back sends the status. -/
theorem exists_transmission {queue : List WaitResult} (hidle : s.callback = none)
    (hqueue : s.timer.queue = queue) (hmem : .success ∈ queue) :
    ∃ es timer, (∀ e ∈ es, e.ofTimer = true) ∧
      ∀ s' out, transmission cfg ({ s with timer := timer }.withStatus (statusToSend s.status)) =
        some (s', out) → (machine cfg).exec s es = some (s', out) := by
  induction queue generalizing s with
  | nil => cases hmem
  | cons result queue ih =>
    have hhead : s.callback = none ∧ s.timer.queue.head? = some result :=
      ⟨hidle, by rw [hqueue]; rfl⟩
    have htail : s.timer.queue.tail = queue := by rw [hqueue]; rfl
    by_cases hresult : result = .operationAborted
    · subst hresult
      have hmem' : .success ∈ queue := (List.mem_cons.mp hmem).resolve_left nofun
      obtain ⟨es, timer, hes, hexec⟩ :=
        @ih { s with timer := { s.timer with queue := queue } } hidle rfl hmem'
      have hstep : (machine cfg).step s (.timerHandler .operationAborted) =
          some ({ s with timer := { s.timer with queue := queue } }, []) :=
        step_iff.mpr ⟨.nothing, by simp [reaction, hhead, timerReaction],
          by simp [Reaction.result, taken, htail]⟩
      refine ⟨.timerHandler .operationAborted :: es, timer, ?_, fun s' out h => ?_⟩
      · intro e he
        rcases List.mem_cons.mp he with rfl | he
        · rfl
        · exact hes e he
      · exact Machine.exec_cons.mpr ⟨_, _, _, hstep, hexec s' out h, rfl⟩
    · refine ⟨[.timerHandler result], { s.timer with queue := queue }, ?_, fun s' out h => ?_⟩
      · intro e he
        rw [List.mem_singleton.mp he]
        rfl
      · have hstep : (machine cfg).step s (.timerHandler result) = some (s', out) := by
          refine step_iff.mpr ⟨.transmit, ?_, ?_⟩
          · cases result with
            | operationAborted => exact absurd rfl hresult
            | _ => simp [reaction, hhead, timerReaction]
          · simpa [Reaction.result, taken, htail] using h
        exact Machine.exec_cons.mpr ⟨_, _, _, hstep, rfl, (List.append_nil out).symm⟩

/-- A wait that is pending ends where time passes, and its handler runs. -/
theorem exists_due (hidle : s.callback = none) {deadline : Nat}
    (hdeadline : s.timer.deadline = some deadline) :
    ∃ es timer now, (∀ e ∈ es, e.ofTimer = true) ∧
      ∀ s' out, transmission cfg
          ({ s with timer := timer, now := now }.withStatus (statusToSend s.status)) =
        some (s', out) → (machine cfg).exec s es = some (s', out) := by
  have hdue : s.timer.due (s.now + deadline) = true := by simp [Timer.due, hdeadline]
  have hadvance : (machine cfg).step s (.advance deadline) =
      some ({ s with now := s.now + deadline }, []) := step_iff.mpr ⟨.nothing, rfl, rfl⟩
  have hexpired : (machine cfg).step { s with now := s.now + deadline } .timerExpired =
      some ({ s with now := s.now + deadline, timer := s.timer.complete .success }, []) :=
    step_iff.mpr ⟨.nothing, if_pos hdue, rfl⟩
  obtain ⟨es, timer, hes, hexec⟩ := @exists_transmission cfg
    { s with now := s.now + deadline, timer := s.timer.complete .success } _ hidle rfl
    (List.mem_append_right _ (List.mem_singleton_self _))
  refine ⟨.advance deadline :: .timerExpired :: es, timer, s.now + deadline, ?_,
    fun s' out h => ?_⟩
  · intro e he
    rcases List.mem_cons.mp he with rfl | he
    · rfl
    rcases List.mem_cons.mp he with rfl | he
    · rfl
    · exact hes e he
  · exact Machine.exec_cons.mpr ⟨_, _, _, hadvance, Machine.exec_cons.mpr
      ⟨_, _, _, hexpired, hexec s' out h, rfl⟩, rfl⟩

/-- The status of the end. -/
def finalReport (finalStatus : FinalStatus) (description : Str) :
    OperationStatus → OperationStatus :=
  reported (statusCodeOfFinalStatus finalStatus) description 0

@[simp] theorem code_finalReport (finalStatus : FinalStatus) (description : Str)
    (status : OperationStatus) :
    (finalReport finalStatus description status).status.code =
      statusCodeOfFinalStatus finalStatus := by
  rw [finalReport, status_reported]
  rfl

@[simp] theorem description_finalReport (finalStatus : FinalStatus) (description : Str)
    (status : OperationStatus) :
    (finalReport finalStatus description status).status.description = description := by
  rw [finalReport, status_reported]
  rfl

theorem reaction_finished {finalStatus : FinalStatus} {description : Str} :
    reaction cfg s (.application (.finished finalStatus description)) =
      some (.report (finalReport finalStatus description)) := rfl

/-- The state behind the report of an end, whatever its timer is. -/
def State.reporting (s : State) (timer : Timer) (status : OperationStatus) : State :=
  { s with timer := timer, status := status }

/-- What is sent behind the call is sent from such a state. -/
theorem exists_reported (hidle : s.callback = none) (finalStatus : FinalStatus)
    (description : Str) :
    ∃ es timer pre, (∀ e ∈ es, e.ofTimer = true) ∧
      ∀ s' out, transmission cfg
          (s.reporting timer (finalReport finalStatus description s.status)) = some (s', out) →
      (machine cfg).exec s (.application (.finished finalStatus description) :: es) =
        some (s', pre ++ out) := by
  have hset : (finalReport finalStatus description s.status).status.code ≠ .invalid := by
    rw [code_finalReport]
    cases finalStatus <;> nofun
  by_cases hop : cfg.operation = .information
  · -- The status is sent in the call.
    refine ⟨[], s.timer, [], nofun, fun s' out h => ?_⟩
    have hstep : (machine cfg).step s (.application (.finished finalStatus description)) =
        some (s', out) := by
      refine step_iff.mpr ⟨_, reaction_finished, ?_⟩
      simp only [Reaction.result, forced, hop, operationClass, State.withStatus, taken,
        statusToSend_eq hset]
      exact h
    exact Machine.exec_cons.mpr ⟨_, _, _, hstep, rfl, (List.append_nil out).symm⟩
  · -- The timer expires at once.
    have hcall : (machine cfg).step s (.application (.finished finalStatus description)) =
        some ((s.withStatus (finalReport finalStatus description s.status)).armed 0,
          [.timerArmed (s.deadline 0)]) := by
      refine step_iff.mpr ⟨_, reaction_finished, ?_⟩
      cases h : cfg.operation with
      | information => exact absurd h hop
      | _ =>
        simp only [Reaction.result, forced, h, operationClass, taken]
        rfl
    have hexpired : (machine cfg).step
        ((s.withStatus (finalReport finalStatus description s.status)).armed 0) .timerExpired =
          some ({ s.withStatus (finalReport finalStatus description s.status) with
            timer := (s.timer.start (s.deadline 0)).complete .success }, []) := by
      refine step_iff.mpr ⟨.nothing, ?_, rfl⟩
      have hdue : (s.timer.start (s.deadline 0)).due s.now = true := by
        simp [Timer.due, State.deadline]
      exact if_pos hdue
    obtain ⟨es, timer, hes, hexec⟩ := @exists_transmission cfg
      { s.withStatus (finalReport finalStatus description s.status) with
        timer := (s.timer.start (s.deadline 0)).complete .success } _ hidle rfl
      (List.mem_append_right _ (List.mem_singleton_self _))
    refine ⟨.timerExpired :: es, timer, [.timerArmed (s.deadline 0)], ?_, fun s' out h => ?_⟩
    · intro e he
      rcases List.mem_cons.mp he with rfl | he
      · rfl
      · exact hes e he
    · refine Machine.exec_cons.mpr ⟨_, _, _, hcall, Machine.exec_cons.mpr
        ⟨_, _, _, hexpired, hexec s' out ?_, rfl⟩, rfl⟩
      simp only [State.withStatus, statusToSend_eq hset]
      exact h

theorem transfer?_withStatusFile (s : State) :
    transfer? (s.withStatusFile cfg) s.nextTransfer =
      some ⟨s.nextTransfer, .statusFile s.status⟩ := by
  simp [transfer?, State.withStatusFile, State.armed, State.withTransfer, State.without]

/-- The transfer of a status with a final code completes: the application is told the
status, and then the end. -/
theorem concludes {finalStatus : FinalStatus} (hidle : s.callback = none)
    (hcode : s.code = statusCodeOfFinalStatus finalStatus) :
    ∃ s', (machine cfg).exec (s.withStatusFile cfg)
        [.clientCompleted s.nextTransfer .successful, .callbackReturned] =
      some (s', [.status s.status, .finished (finalStatusOfStatusCode s.code)
        s.status.status.description]) := by
  have hcompleted : (machine cfg).step (s.withStatusFile cfg)
      (.clientCompleted s.nextTransfer .successful) =
        some ({ (s.withStatusFile cfg).afterCompletion s.nextTransfer with
          callback := some (.status s.status) }, [.status s.status]) := by
    refine step_iff.mpr ⟨.call (.status s.status), ?_, rfl⟩
    have hidle' : (s.withStatusFile cfg).callback = none := hidle
    simp [reaction, hidle', transfer?_withStatusFile, statusFileReaction]
  have hreturned : statusReaction cfg s.status =
      .call (.finished (finalStatusOfStatusCode s.code) s.status.status.description) := by
    cases finalStatus <;> simp only [statusReaction, hcode, statusCodeOfFinalStatus]
  refine ⟨_, Machine.exec_cons.mpr ⟨_, _, _, hcompleted, Machine.exec_cons.mpr
    ⟨_, _, _, step_iff.mpr ⟨_, congrArg some hreturned, rfl⟩, Machine.exec_nil .., rfl⟩, rfl⟩⟩

/-- **Endings**: an idle operation whose application ends it sends the status of the end
once its timer runs, and tells the application so when the transfer completes. -/
theorem exists_ending (hidle : s.callback = none)
    (hreplaceable : Replaceable cfg s.statusOperation) {finalStatus : FinalStatus}
    {description : Str} {file : RawData}
    (hencode : encodeStatus cfg.protocolVersion
      (finalReport finalStatus description s.status) = .ok file) :
    ∃ es s' tr s'', (∀ e ∈ es, e.ofTimer = true) ∧
      (machine cfg).exec s (.application (.finished finalStatus description) :: es) =
        some (s', tr) ∧
      .statusFile s.remote s.nextTransfer (protocolFilename cfg (statusFileType cfg.operation))
        (finalReport finalStatus description s.status) file ∈ tr ∧
      (machine cfg).exec s' [.clientCompleted s.nextTransfer .successful, .callbackReturned] =
        some (s'', [.status (finalReport finalStatus description s.status),
          .finished (finalStatusOfStatusCode (statusCodeOfFinalStatus finalStatus))
            description]) := by
  obtain ⟨es, timer, pre, hes, hexec⟩ := @exists_reported cfg s hidle finalStatus description
  have hsent : transmission cfg
      (s.reporting timer (finalReport finalStatus description s.status)) =
        some ((s.reporting timer (finalReport finalStatus description s.status)).withStatusFile cfg,
          statusFileOutputs cfg
            (s.reporting timer (finalReport finalStatus description s.status)) file) := by
    simp only [transmission, State.reporting, hencode]
    exact if_pos hreplaceable
  obtain ⟨s'', hconcludes⟩ := @concludes cfg
    (s.reporting timer (finalReport finalStatus description s.status)) finalStatus hidle
    (code_finalReport ..)
  refine ⟨es, _, _, s'', hes, hexec _ _ hsent, ?_, ?_⟩
  · simp [statusFileOutputs, State.reporting, State.remote]
  · simpa [State.code, State.reporting] using hconcludes

/-- The transfer of a status ends with an abort of the operator. -/
theorem passes_abort {operation : TransferId} {t : Transfer} {sentStatus : OperationStatus}
    (ht : transfer? s operation = some t) (hkind : t.kind = .statusFile sentStatus)
    (hidle : s.callback = none) :
    (machine cfg).step s (.clientCompleted operation .operationAbortedByOperator) =
      some (s.afterCompletion operation, [.abortRequest .abortByOperator]) := by
  refine step_iff.mpr ⟨.abortRequest .abortByOperator, ?_, rfl⟩
  simp [reaction, hidle, ht, hkind, statusFileReaction]

/-- **In flight**: in every run, the status file that is in flight was started. -/
theorem started_of_inFlight {hostAddress : Endpoint} {port : Option UInt16} {es : List Event}
    {tr : List Output} (h : (machine cfg).exec (started cfg hostAddress port) es = some (s, tr))
    (hflight : s.statusOperation.isSome) : ∃ o ∈ tr, startsStatusFile o = true := by
  refine Machine.exec_history
    (fun _ s tr => s.statusOperation.isSome → ∃ o ∈ tr, startsStatusFile o = true) ?_ ?_ h hflight
  · intro hnone
    cases hnone
  · intro es s tr e s' out hexec ih hstep hsome
    cases status_effect hstep with
    | sent _ _ _ _ _ _ _ hstarts =>
      obtain ⟨o, ho, hstart⟩ := hstarts
      exact ⟨o, List.mem_append_right _ ho, hstart⟩
    | completed _ _ _ _ hoperation _ _ _ =>
      rw [hoperation] at hsome
      cases hsome
    | kept _ _ _ hoperation _ _ =>
      rw [hoperation] at hsome
      obtain ⟨o, ho, hstart⟩ := ih hsome
      exact ⟨o, List.mem_append_left _ ho, hstart⟩

/-- Its transfer is the one that the member refers to. -/
theorem Members.exists_transfer (h : Members s) {operation : TransferId}
    (hoperation : s.statusOperation = some operation) :
    ∃ t sentStatus, transfer? s operation = some t ∧ t.kind = .statusFile sentStatus := by
  have hflight := h.statusFiles_eq
  rw [hoperation] at hflight
  have hmem : operation ∈ inFlight isStatusFile s := by simp [hflight]
  obtain ⟨t, ht, rfl⟩ := List.mem_map.mp hmem
  obtain ⟨htransfer, hkind⟩ := List.mem_filter.mp ht
  cases hk : t.kind with
  | statusFile sentStatus =>
    exact ⟨t, sentStatus, Keyed.find?_of_mem h.nodup htransfer, hk⟩
  | _ => simp [isStatusFile, hk] at hkind

/-- **Statuses**: an idle operation whose timer waits sends its status once time has
passed, and passes an abort that the transfer ends with on to the application. -/
theorem exists_sent (hidle : s.callback = none) (hwaits : s.timer.deadline.isSome)
    (hreplaceable : Replaceable cfg s.statusOperation) {file : RawData}
    (hencode : encodeStatus cfg.protocolVersion (statusToSend s.status) = .ok file) :
    ∃ es s' tr s'', (∀ e ∈ es, e.ofTimer = true) ∧
      (machine cfg).exec s es = some (s', tr) ∧
      .statusFile s.remote s.nextTransfer (protocolFilename cfg (statusFileType cfg.operation))
        (statusToSend s.status) file ∈ tr ∧
      (machine cfg).step s' (.clientCompleted s.nextTransfer .operationAbortedByOperator) =
        some (s'', [.abortRequest .abortByOperator]) := by
  obtain ⟨deadline, hdeadline⟩ := Option.isSome_iff_exists.mp hwaits
  obtain ⟨es, timer, now, hes, hexec⟩ := @exists_due cfg s hidle deadline hdeadline
  have hsent : transmission cfg
      ({ s with timer := timer, now := now }.withStatus (statusToSend s.status)) =
        some (({ s with timer := timer, now := now }.withStatus
            (statusToSend s.status)).withStatusFile cfg,
          statusFileOutputs cfg
            ({ s with timer := timer, now := now }.withStatus (statusToSend s.status)) file) := by
    simp only [transmission, State.withStatus, hencode]
    exact if_pos hreplaceable
  have htransfer := @transfer?_withStatusFile cfg
    ({ s with timer := timer, now := now }.withStatus (statusToSend s.status))
  refine ⟨es, _, _, _, hes, hexec _ _ hsent, ?_, passes_abort htransfer rfl hidle⟩
  simp [statusFileOutputs, State.withStatus, State.remote]

end Arinc615a.Target
