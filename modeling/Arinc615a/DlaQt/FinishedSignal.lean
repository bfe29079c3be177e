import Arinc615a.DlaQt.Operations
import Arinc615a.Lib.Machine
import Mathlib.Data.List.Nodup

/-!
# The signal `operationFinished`

Each start of an operation is to be reported as finished once. The error paths of the slots
report it, and do not stop the operation of the core: a download goes on behind the error
of its directory, and an abort or a transmission that fails leaves the operation running,
whose own `finished` is a second report.
-/

namespace Arinc615a.DlaQt

open Actions Actions.Action Machines
open Information

/-! ## The machine -/

inductive Event where
  /-- The slots. -/
  | startOperation (results : StartResults)
  | abortOperation (aborted : CallResult)
  | transmit (prepared sent : CallResult)
  /-- The callbacks of the core: the first one comes from the operation that was created
  by this start. -/
  | finished (operation : Nat) (code : StatusCode) (description : Str)
      (saved : CallResult)
  | initialisationDeferred (waitTime : Nat)
  | initialisationResponse (response : InitializationResponse)
  | status (status : OperationStatus)
  | downloadingList (files : List DownloadFileInformation)

/-- What runs. -/
def slot (operation : Operation) : Event → Slot Unit
  | .startOperation results =>
    match operation with
    | .mediaDefinedDownload => MediaDefinedDownloadOperation.startOperation results
    | .operatorDefinedDownload => OperatorDefinedDownloadOperation.startOperation results
    | .upload => UploadOperation.startOperation results
  | .abortOperation aborted => abortOperation aborted
  | .transmit prepared sent =>
    match operation with
    | .mediaDefinedDownload => MediaDefinedDownloadOperation.transmitFiles prepared sent
    | .operatorDefinedDownload => OperatorDefinedDownloadOperation.transmitFiles prepared sent
    | .upload => UploadOperation.transmitLoads prepared sent
  | .finished _ code description saved =>
    match operation with
    | .mediaDefinedDownload => MediaDefinedDownloadOperation.finished code description saved
    | .operatorDefinedDownload =>
      OperatorDefinedDownloadOperation.finished code description saved
    | .upload => UploadOperation.finished code description
  | .initialisationDeferred waitTime => initialisationDeferred waitTime
  | .initialisationResponse response => initialisationResponse response
  | .status reported => status reported
  | .downloadingList files => OperatorDefinedDownloadOperation.downloadingList files

/-- What can happen: the core calls `finished` at most once for an operation that was
started, and only one operation has a list. -/
def Possible (operation : Operation) (s : State) : Event → Prop
  | .finished core _ _ _ => core ∈ s.running
  | .downloadingList _ => operation = .operatorDefinedDownload
  | _ => True

instance (operation : Operation) (s : State) :
    (e : Event) → Decidable (Possible operation s e)
  | .finished core _ _ _ => inferInstanceAs (Decidable (core ∈ s.running))
  | .downloadingList _ => inferInstanceAs (Decidable (operation = .operatorDefinedDownload))
  | .startOperation _ => .isTrue trivial
  | .abortOperation _ => .isTrue trivial
  | .transmit _ _ => .isTrue trivial
  | .initialisationDeferred _ => .isTrue trivial
  | .initialisationResponse _ => .isTrue trivial
  | .status _ => .isTrue trivial

/-- An operation of the core that calls `finished` does not run any more. -/
def State.without (s : State) : Event → State
  | .finished core _ _ _ => { s with running := s.running.erase core }
  | _ => s

/-- A signal, and the start that it is about. -/
structure Emission where
  operation : Nat
  signal : Signal

/-- The start that the signals of a step are about: that of the operation that calls back,
and else the last one. -/
def about (s' : State) : Event → Nat
  | .finished core _ _ _ => core
  | _ => s'.starts

/-- The operation as a machine. -/
def machine (operation : Operation) : Machine State Event Emission where
  step s e :=
    if s.terminated = false ∧ Possible operation s e then
      (run (slot operation e) (s.without e)).map fun (s', signals) =>
        (s', signals.map (Emission.mk (about s' e)))
    else none

/-! ## The law -/

def Emission.finished? (o : Emission) : Option Nat :=
  match o.signal with
  | .operationFinished _ _ => some o.operation
  | _ => none

/-- The starts that were reported as finished. -/
def reported (tr : List Emission) : List Nat := tr.filterMap Emission.finished?

structure FinishedLaw (operation : Operation) (es : List Event) (tr : List Emission) :
    Prop where
  /-- No start is reported twice, and nothing is reported without one. -/
  once : (reported tr).Nodup
  started : 0 ∉ reported tr
  /-- A start that reports its operation has not started that of the core. -/
  failed : ∀ pre tr s results s' out,
    (machine operation).HasStep {} es pre tr s (.startOperation results) s' out →
      reported out ≠ [] → s'.starts ∉ s'.running

/-- An exception that the core's part of a start leaves the slot with. -/
def StartResults.escapes (results : StartResults) : Prop :=
  results.created = .thrown .other ∨
    (results.created = .returned ∧ results.started = .thrown .other)

/-- The condition on a step: the directories of a download can be created, or the
application ends behind the error, and no call of an abort or a transmission throws an
exception that the slot catches. -/
def Sound (operation : Operation) (s : State) : Event → Prop
  | .startOperation results =>
    operation ≠ .upload → results.prepared = .returned → results.directoryError = true →
      results.escapes
  | .abortOperation aborted => s.operation.isSome → aborted ≠ .thrown .boost
  | .transmit prepared sent =>
    match operation with
    | .upload =>
      prepared ≠ .thrown .boost ∧
        (prepared = .returned → s.operation.isSome → sent ≠ .thrown .boost)
    | _ =>
      s.operation.isSome →
        prepared ≠ .thrown .boost ∧ (prepared = .returned → sent ≠ .thrown .boost)
  | _ => True

/-- The event is the call of `finished`. -/
def Event.isFinished : Event → Bool
  | .finished _ _ _ _ => true
  | _ => false

/-! ## Slots -/

variable {operation : Operation} {s : State}

/-- A `try` block that ends is what the slot does. -/
theorem run_reporting_ok {block : Slot Unit} {s' : State} {signals : List Signal}
    (h : block s [] = some (.ok (), s', signals)) :
    run (reporting block) s = some (s', signals) := by
  have hcatch : reporting block s [] = some (.ok (), s', signals) := by
    show (block s []).bind _ = _
    rw [h]
    rfl
  simp only [run, hcatch]

/-- An exception that is caught is reported. -/
theorem run_reporting_boost {block : Slot Unit} {s' : State} {signals : List Signal}
    (h : block s [] = some (.error .boost, s', signals)) :
    run (reporting block) s = some (s', signals ++
      [.operationFinished .operationAbortedByDlp (str "Error During Operation")]) := by
  have hcatch : reporting block s [] = some (.ok (), s', signals ++
      [.operationFinished .operationAbortedByDlp (str "Error During Operation")]) := by
    show (block s []).bind _ = _
    rw [h]
    rfl
  simp only [run, hcatch]

/-- Another one ends the application. -/
theorem run_reporting_other {block : Slot Unit} {s' : State} {signals : List Signal}
    (h : block s [] = some (.error .other, s', signals)) :
    run (reporting block) s = some ({ s' with terminated := true }, signals) := by
  have hcatch : reporting block s [] = some (.error .other, s', signals) := by
    show (block s []).bind _ = _
    rw [h]
    rfl
  simp only [run, hcatch]

/-- What a step makes of the state, and which starts it reports. -/
inductive Effect (operation : Operation) (s : State) (e : Event) (s' : State) :
    List Nat → Prop where
  /-- It reports nothing. -/
  | quiet (hsound : Sound operation s e) (hstarts : s'.starts = s.starts)
    (hrunning : s'.running = s.running) : Effect operation s e s' []
  /-- An abort or a transmission fails. -/
  | caught (hunsound : ¬ Sound operation s e) (hstarts : s'.starts = s.starts)
    (hrunning : s'.running = s.running) (hgoes : s'.terminated = false) :
    Effect operation s e s' [s.starts]
  /-- An operation is started, fails, or ends the application. -/
  | started (hsound : Sound operation s e) (hstarts : s'.starts = s.starts + 1)
    (hrunning : s'.running = s'.starts :: s.running) : Effect operation s e s' []
  | failed (hsound : Sound operation s e) (hstarts : s'.starts = s.starts + 1)
    (hrunning : s'.running = s.running) : Effect operation s e s' [s'.starts]
  | escaped (hsound : Sound operation s e) (hstarts : s'.starts = s.starts + 1)
    (hrunning : s'.running = s.running) (hends : s'.terminated = true) :
    Effect operation s e s' []
  /-- A download goes on behind the error of its directory. -/
  | goesOn {results : StartResults} (he : e = .startOperation results)
    (hunsound : ¬ Sound operation s e) (hstarts : s'.starts = s.starts + 1)
    (hrunning : s'.running = s'.starts :: s.running) : Effect operation s e s' [s'.starts]
  | twice (hunsound : ¬ Sound operation s e) (hstarts : s'.starts = s.starts + 1)
    (hrunning : s'.running = s.running) : Effect operation s e s' [s'.starts, s'.starts]
  /-- The core has finished, and this is reported unless it ends the application. -/
  | finished {core : Nat} (he : e.isFinished) (hcore : core ∈ s.running)
    (hsound : Sound operation s e) (hstarts : s'.starts = s.starts)
    (hrunning : s'.running = s.running.erase core) :
    Effect operation s e s' [core]
  | unreported {core : Nat} (hcore : core ∈ s.running) (hsound : Sound operation s e)
    (hstarts : s'.starts = s.starts) (hrunning : s'.running = s.running.erase core)
    (hends : s'.terminated = true) : Effect operation s e s' []

/-- A step runs its slot or callback. -/
theorem step_eq_some {e : Event} {s' : State} {out : List Emission} :
    (machine operation).step s e = some (s', out) ↔
      s.terminated = false ∧ Possible operation s e ∧
        ∃ signals, run (slot operation e) (s.without e) = some (s', signals) ∧
          out = signals.map (Emission.mk (about s' e)) := by
  simp only [machine]
  constructor
  · intro h
    split at h
    · rename_i hcan
      obtain ⟨⟨s₁, signals⟩, hrun, heq⟩ := Option.map_eq_some_iff.mp h
      cases heq
      exact ⟨hcan.1, hcan.2, signals, hrun, rfl⟩
    · cases h
  · intro h
    obtain ⟨hgoes, hpossible, signals, hrun, rfl⟩ := h
    rw [if_pos ⟨hgoes, hpossible⟩, hrun]
    rfl

/-- The operation of the core is created and started, or an exception leaves the block. -/
theorem createAndStart_cases (results : StartResults) (t : State) (out : List Signal) :
    ∃ u, u.starts = t.starts ∧ u.terminated = t.terminated ∧
      ((createAndStart results t out = some (.ok (), u, out) ∧
          u.running = t.starts :: t.running ∧ ¬ results.escapes) ∨
        (u.running = t.running ∧
          ((createAndStart results t out = some (.error .boost, u, out) ∧ ¬ results.escapes) ∨
            (createAndStart results t out = some (.error .other, u, out) ∧
              results.escapes)))) := by
  obtain ⟨prepared, directoryError, created, started⟩ := results
  cases created with
  | thrown exception =>
    cases exception with
    | boost => exact ⟨t, rfl, rfl, .inr ⟨rfl, .inl ⟨rfl, by simp [StartResults.escapes]⟩⟩⟩
    | other => exact ⟨t, rfl, rfl, .inr ⟨rfl, .inr ⟨rfl, .inl rfl⟩⟩⟩
  | returned =>
    cases started with
    | thrown exception =>
      cases exception with
      | boost =>
        exact ⟨{ t with operation := some t.starts }, rfl, rfl,
          .inr ⟨rfl, .inl ⟨rfl, by simp [StartResults.escapes]⟩⟩⟩
      | other =>
        exact ⟨{ t with operation := some t.starts }, rfl, rfl,
          .inr ⟨rfl, .inr ⟨rfl, .inr ⟨rfl, rfl⟩⟩⟩⟩
    | returned =>
      exact ⟨{ t with operation := some t.starts, running := t.starts :: t.running }, rfl, rfl,
        .inl ⟨rfl, rfl, by simp [StartResults.escapes]⟩⟩

/-- Without an error of the directory, a start runs, fails or ends the application. -/
theorem effect_createAndStart {results : StartResults} {s' : State} {signals : List Signal}
    (hsound : Sound operation s (.startOperation results))
    (h : run (reporting (createAndStart results)) { s with starts := s.starts + 1 } =
      some (s', signals)) :
    Effect operation s (.startOperation results) s'
      (reported (signals.map (Emission.mk s'.starts))) := by
  obtain ⟨u, hstarts, -, ⟨hblock, hrunning, -⟩ | ⟨hrunning, ⟨hblock, -⟩ | ⟨hblock, -⟩⟩⟩ :=
    createAndStart_cases results { s with starts := s.starts + 1 } []
  · rw [run_reporting_ok hblock] at h
    cases h
    exact .started hsound hstarts (by rw [hrunning, hstarts])
  · rw [run_reporting_boost hblock] at h
    cases h
    exact .failed hsound hstarts hrunning
  · rw [run_reporting_other hblock] at h
    cases h
    exact .escaped hsound hstarts hrunning rfl

theorem effect_startDownload {results : StartResults} {s' : State} {signals : List Signal}
    (hop : operation ≠ .upload) (h : run (startDownload results) s = some (s', signals)) :
    Effect operation s (.startOperation results) s'
      (reported (signals.map (Emission.mk s'.starts))) := by
  obtain ⟨prepared, directoryError, created, started⟩ := results
  cases prepared with
  | thrown exception =>
    have hsound : Sound operation s
        (.startOperation ⟨.thrown exception, directoryError, created, started⟩) := by
      intro _ hprepared
      cases hprepared
    cases exception with
    | boost =>
      cases h
      exact .failed hsound rfl rfl
    | other =>
      cases h
      exact .escaped hsound rfl rfl rfl
  | returned =>
    cases directoryError with
    | false =>
      refine effect_createAndStart ?_ h
      intro _ _ herror
      cases herror
    | true =>
      -- The start goes on behind the first report.
      let results : StartResults := ⟨.returned, true, created, started⟩
      have hsound : Sound operation s (.startOperation results) ↔ results.escapes :=
        ⟨fun hsound => hsound hop rfl rfl, fun hescapes _ _ _ => hescapes⟩
      have hslot : run (startDownload results) s = run (reporting do
          signal (.operationFinished .operationAbortedByDlp
            (str "Error creating download directory"))
          createAndStart results) { s with starts := s.starts + 1 } := rfl
      rw [hslot] at h
      obtain ⟨u, hstarts, -, ⟨hblock, hrunning, hnot⟩ |
          ⟨hrunning, ⟨hblock, hnot⟩ | ⟨hblock, hescapes⟩⟩⟩ :=
        createAndStart_cases results { s with starts := s.starts + 1 }
          [.operationFinished .operationAbortedByDlp (str "Error creating download directory")]
      · rw [run_reporting_ok hblock] at h
        cases h
        exact .goesOn rfl (mt hsound.mp hnot) hstarts (by rw [hrunning, hstarts])
      · rw [run_reporting_boost hblock] at h
        cases h
        exact .twice (mt hsound.mp hnot) hstarts hrunning
      · rw [run_reporting_other hblock] at h
        cases h
        exact .failed (hsound.mpr hescapes) hstarts hrunning

/-- The slot of a call that ends like this. -/
theorem effect_call {e : Event} {block : Slot Unit} {result : CallResult} {s' : State}
    {signals : List Signal} (hgoes : s.terminated = false)
    (hblock : block s [] = call result s [])
    (hsound : Sound operation s e ↔ result ≠ .thrown .boost)
    (h : run (reporting block) s = some (s', signals)) :
    Effect operation s e s' (reported (signals.map (Emission.mk s'.starts))) := by
  cases result with
  | returned =>
    rw [run_reporting_ok hblock] at h
    cases h
    exact .quiet (hsound.mpr (by simp)) rfl rfl
  | thrown exception =>
    cases exception with
    | boost =>
      rw [run_reporting_boost hblock] at h
      cases h
      exact .caught (by simp [hsound]) rfl rfl hgoes
    | other =>
      rw [run_reporting_other hblock] at h
      cases h
      exact .quiet (hsound.mpr (by simp)) rfl rfl

/-- Without an operation of the core, nothing is done. -/
theorem withOperation_none {block : Slot Unit} (h : s.operation = none) (out : List Signal) :
    withOperation block s out = some (.ok (), s, out) := by
  obtain ⟨operation, starts, running, terminated⟩ := s
  obtain rfl : operation = none := h
  rfl

theorem withOperation_some {block : Slot Unit} {core : Nat}
    (h : s.operation = some core) (out : List Signal) :
    withOperation block s out = block s out := by
  obtain ⟨operation, starts, running, terminated⟩ := s
  obtain rfl : operation = some core := h
  rfl

theorem effect_abortOperation {aborted : CallResult} {s' : State} {signals : List Signal}
    (hgoes : s.terminated = false) (h : run (abortOperation aborted) s = some (s', signals)) :
    Effect operation s (.abortOperation aborted) s'
      (reported (signals.map (Emission.mk s'.starts))) := by
  cases hop : s.operation with
  | none =>
    have hblock : withOperation (call aborted) s [] = call .returned s [] :=
      withOperation_none hop []
    exact effect_call hgoes hblock (by simp [Sound, hop]) h
  | some core =>
    exact effect_call hgoes (withOperation_some hop []) (by simp [Sound, hop]) h

/-- Two calls, one behind the other, end like one. -/
theorem exists_call_call (prepared sent : CallResult) :
    ∃ result, (∀ s : State, (do call prepared; call sent : Slot Unit) s [] = call result s []) ∧
      (result ≠ .thrown .boost ↔
        prepared ≠ .thrown .boost ∧ (prepared = .returned → sent ≠ .thrown .boost)) := by
  cases prepared with
  | returned => exact ⟨sent, fun _ => rfl, by simp⟩
  | thrown exception => exact ⟨.thrown exception, fun _ => rfl, by simp⟩

theorem effect_transmitDownload {prepared sent : CallResult} {s' : State}
    {signals : List Signal} (hop : operation ≠ .upload) (hgoes : s.terminated = false)
    (h : run (transmitDownload prepared sent) s = some (s', signals)) :
    Effect operation s (.transmit prepared sent) s'
      (reported (signals.map (Emission.mk s'.starts))) := by
  have hsound : Sound operation s (.transmit prepared sent) ↔ (s.operation.isSome →
      prepared ≠ .thrown .boost ∧ (prepared = .returned → sent ≠ .thrown .boost)) := by
    cases operation with
    | upload => exact absurd rfl hop
    | _ => exact Iff.rfl
  cases hcore : s.operation with
  | none =>
    have hblock : withOperation (do call prepared; call sent) s [] = call .returned s [] :=
      withOperation_none hcore []
    exact effect_call hgoes hblock (by simp [hsound, hcore]) h
  | some core =>
    obtain ⟨result, hcalls, hresult⟩ := exists_call_call prepared sent
    have hblock : withOperation (do call prepared; call sent) s [] = call result s [] := by
      rw [withOperation_some hcore, hcalls]
    refine effect_call hgoes hblock ?_ h
    rw [hsound, hresult, hcore]
    simp

theorem effect_transmitLoads {prepared sent : CallResult} {s' : State} {signals : List Signal}
    (hgoes : s.terminated = false)
    (h : run (UploadOperation.transmitLoads prepared sent) s = some (s', signals)) :
    Effect .upload s (.transmit prepared sent) s'
      (reported (signals.map (Emission.mk s'.starts))) := by
  cases prepared with
  | thrown exception =>
    have hblock : (do call (.thrown exception); withOperation (call sent) : Slot Unit) s [] =
        call (.thrown exception) s [] := rfl
    exact effect_call hgoes hblock (by simp [Sound]) h
  | returned =>
    have hblock : (do call .returned; withOperation (call sent) : Slot Unit) s [] =
        withOperation (call sent) s [] := rfl
    cases hcore : s.operation with
    | none =>
      have hnone : withOperation (call sent) s [] = call .returned s [] :=
        withOperation_none hcore []
      exact effect_call hgoes (hblock.trans hnone) (by simp [Sound, hcore]) h
    | some core =>
      exact effect_call hgoes (hblock.trans (withOperation_some hcore []))
        (by simp [Sound, hcore]) h

/-- The core has finished, and the download information is saved. -/
theorem effect_finishedDownload {core : Nat} {code : StatusCode} {description : Str}
    {saved : CallResult} {s' : State} {signals : List Signal} (hcore : core ∈ s.running)
    (h : run (finishedDownload code description saved)
      { s with running := s.running.erase core } = some (s', signals)) :
    Effect operation s (.finished core code description saved) s'
      (reported (signals.map (Emission.mk core))) := by
  cases saved with
  | returned =>
    cases h
    exact .finished rfl hcore trivial rfl rfl
  | thrown exception =>
    cases exception with
    | boost =>
      cases h
      exact .finished rfl hcore trivial rfl rfl
    | other =>
      cases h
      exact .unreported hcore trivial rfl rfl rfl

/-- **One step**: its effect. -/
theorem effect_of_step {e : Event} {s' : State} {out : List Emission}
    (h : (machine operation).step s e = some (s', out)) :
    Effect operation s e s' (reported out) := by
  obtain ⟨hgoes, hpossible, signals, hrun, rfl⟩ := step_eq_some.mp h
  cases e with
  | startOperation results =>
    cases operation with
    | mediaDefinedDownload => exact effect_startDownload (by simp) hrun
    | operatorDefinedDownload => exact effect_startDownload (by simp) hrun
    | upload => exact effect_createAndStart (by simp [Sound]) hrun
  | abortOperation aborted => exact effect_abortOperation hgoes hrun
  | transmit prepared sent =>
    cases operation with
    | mediaDefinedDownload => exact effect_transmitDownload (by simp) hgoes hrun
    | operatorDefinedDownload => exact effect_transmitDownload (by simp) hgoes hrun
    | upload => exact effect_transmitLoads hgoes hrun
  | finished core code description saved =>
    cases operation with
    | mediaDefinedDownload => exact effect_finishedDownload hpossible hrun
    | operatorDefinedDownload => exact effect_finishedDownload hpossible hrun
    | upload =>
      cases hrun
      exact .finished rfl hpossible trivial rfl rfl
  | _ =>
    cases hrun
    exact .quiet trivial rfl rfl

/-! ## Runs -/

theorem reported_append (tr out : List Emission) :
    reported (tr ++ out) = reported tr ++ reported out := by
  simp [reported]

/-- What is reported was started and does not run any more. -/
structure Reports (s : State) (ended : List Nat) : Prop where
  once : ended.Nodup
  ended : ∀ n ∈ ended, 0 < n ∧ n ≤ s.starts ∧ n ∉ s.running
  nodup : s.running.Nodup
  running : ∀ n ∈ s.running, 0 < n ∧ n ≤ s.starts

theorem reports_initial : Reports {} [] :=
  ⟨List.nodup_nil, by simp, List.nodup_nil, by simp⟩

/-- A new start is none that was reported or runs. -/
theorem Reports.new {ended : List Nat} (h : Reports s ended) {s' : State}
    (hstarts : s'.starts = s.starts + 1) : s'.starts ∉ ended ∧ s'.starts ∉ s.running := by
  constructor
  · intro hmem
    have hle := (h.ended _ hmem).2.1
    omega
  · intro hmem
    have hle := (h.running _ hmem).2
    omega

/-- Operations that end unnoticed change nothing of it. -/
theorem Reports.mono {ended : List Nat} (h : Reports s ended) {s' : State}
    (hstarts : s.starts ≤ s'.starts) (hrunning : s'.running.Sublist s.running) :
    Reports s' ended where
  once := h.once
  ended n hn := by
    obtain ⟨hpos, hle, hnot⟩ := h.ended n hn
    exact ⟨hpos, Nat.le_trans hle hstarts, fun hmem => hnot (hrunning.subset hmem)⟩
  nodup := h.nodup.sublist hrunning
  running n hn := by
    obtain ⟨hpos, hle⟩ := h.running n (hrunning.subset hn)
    exact ⟨hpos, Nat.le_trans hle hstarts⟩

/-- A start is reported. -/
theorem Reports.append {ended : List Nat} (h : Reports s ended) {n : Nat} (hpos : 0 < n)
    (hle : n ≤ s.starts) (hnot : n ∉ s.running) (hnew : n ∉ ended) :
    Reports s (ended ++ [n]) where
  once := by
    rw [← List.concat_eq_append]
    exact h.once.concat hnew
  ended m hm := by
    rcases List.mem_append.mp hm with hbefore | hnow
    · exact h.ended m hbefore
    · rw [List.mem_singleton.mp hnow]
      exact ⟨hpos, hle, hnot⟩
  nodup := h.nodup
  running := h.running

/-- An operation of the core is started. -/
theorem Reports.start {ended : List Nat} (h : Reports s ended) {s' : State}
    (hstarts : s'.starts = s.starts + 1) (hrunning : s'.running = s'.starts :: s.running) :
    Reports s' ended where
  once := h.once
  ended n hn := by
    obtain ⟨hpos, hle, hnot⟩ := h.ended n hn
    refine ⟨hpos, by omega, ?_⟩
    rw [hrunning, List.mem_cons, not_or]
    exact ⟨fun heq => (h.new hstarts).1 (heq ▸ hn), hnot⟩
  nodup := by
    rw [hrunning]
    exact List.nodup_cons.mpr ⟨(h.new hstarts).2, h.nodup⟩
  running n hn := by
    rw [hrunning, List.mem_cons] at hn
    rcases hn with rfl | hn
    · omega
    · have hbounds := h.running n hn
      omega

/-- **One step**: a sound one reports what has ended. -/
theorem Reports.step {ended : List Nat} (h : Reports s ended) {e : Event} {s' : State}
    {now : List Nat} (heffect : Effect operation s e s' now)
    (hsound : Sound operation s e) : Reports s' (ended ++ now) := by
  cases heffect with
  | quiet _ hstarts hrunning =>
    rw [List.append_nil]
    exact h.mono (by omega) (hrunning ▸ List.Sublist.refl _)
  | caught hunsound => exact absurd hsound hunsound
  | started _ hstarts hrunning =>
    rw [List.append_nil]
    exact h.start hstarts hrunning
  | failed _ hstarts hrunning =>
    obtain ⟨hended, hnot⟩ := h.new hstarts
    apply (h.mono (by omega) (hrunning ▸ List.Sublist.refl _)).append
    · omega
    · exact Nat.le_refl _
    · rw [hrunning]
      exact hnot
    · exact hended
  | escaped _ hstarts hrunning =>
    rw [List.append_nil]
    exact h.mono (by omega) (hrunning ▸ List.Sublist.refl _)
  | goesOn _ hunsound => exact absurd hsound hunsound
  | twice hunsound => exact absurd hsound hunsound
  | @finished core _ hcore _ hstarts hrunning =>
    obtain ⟨hpos, hle⟩ := h.running core hcore
    apply (h.mono (by omega) (hrunning ▸ List.erase_sublist)).append hpos
    · rw [hstarts]
      exact hle
    · rw [hrunning]
      exact h.nodup.not_mem_erase
    · exact fun hmem => (h.ended core hmem).2.2 hcore
  | @unreported core hcore _ hstarts hrunning =>
    rw [List.append_nil]
    exact h.mono (by omega) (hrunning ▸ List.erase_sublist)

/-- Every step of the run is sound. -/
def SoundRun (operation : Operation) (es : List Event) : Prop :=
  ∀ x ∈ (machine operation).steps {} es, Sound operation x.1 x.2

theorem reports_run {es : List Event} {tr : List Emission}
    (h : (machine operation).exec {} es = some (s, tr)) (hsound : SoundRun operation es) :
    Reports s (reported tr) := by
  refine Machine.exec_history (fun es s tr => SoundRun operation es → Reports s (reported tr))
    (fun _ => reports_initial) ?_ h hsound
  intro es s tr e s' out hexec ih hstep hsound
  rw [SoundRun, Machine.steps_append_singleton hexec] at hsound
  rw [reported_append]
  have hbefore := ih fun x hx => hsound x (List.mem_append_left _ hx)
  have hlast := hsound (s, e) (List.mem_append_right _ (List.mem_singleton_self _))
  exact hbefore.step (effect_of_step hstep) hlast

/-- The steps of the beginning of a run are among its steps. -/
theorem SoundRun.of_hasStep {es pre : List Event} {tr : List Emission} {e : Event} {s' : State}
    {out : List Emission} (hsound : SoundRun operation es)
    (h : (machine operation).HasStep {} es pre tr s e s' out) :
    SoundRun operation pre ∧ Sound operation s e := by
  have hlast := hsound _ h.mem_steps
  obtain ⟨post, rfl, hpre, -⟩ := h
  refine ⟨?_, hlast⟩
  intro x hx
  apply hsound
  rw [Machine.steps_append hpre]
  exact List.mem_append_left _ hx

/-- **A sound run** keeps the law. -/
theorem finishedLaw_of_sound {es : List Event} {tr : List Emission}
    (h : (machine operation).exec {} es = some (s, tr)) (hsound : SoundRun operation es) :
    FinishedLaw operation es tr := by
  have hreports := reports_run h hsound
  constructor
  · exact hreports.once
  · intro hzero
    exact absurd (hreports.ended 0 hzero).1 (Nat.lt_irrefl 0)
  · intro pre tr₁ s₁ results s₂ out htaken hreported
    obtain ⟨hpre, hlast⟩ := hsound.of_hasStep htaken
    obtain ⟨post, -, hexec, hstep⟩ := htaken
    have hbefore := reports_run hexec hpre
    have heffect := effect_of_step hstep
    generalize reported out = now at heffect hreported
    cases heffect with
    | failed _ hstarts hrunning =>
      rw [hrunning]
      exact (hbefore.new hstarts).2
    | caught hunsound => exact absurd hlast hunsound
    | goesOn _ hunsound => exact absurd hlast hunsound
    | twice hunsound => exact absurd hlast hunsound
    | finished he => cases he
    | _ => exact absurd rfl hreported

/-- While the application goes on, each start is reported or its operation runs. -/
theorem accounted_run {es : List Event} {tr : List Emission}
    (h : (machine operation).exec {} es = some (s, tr)) (hgoes : s.terminated = false)
    {n : Nat} (hpos : 0 < n) (hle : n ≤ s.starts) : n ∈ s.running ∨ n ∈ reported tr := by
  refine Machine.exec_history (fun _ s tr => s.terminated = false → ∀ n, 0 < n →
    n ≤ s.starts → n ∈ s.running ∨ n ∈ reported tr) ?_ ?_ h hgoes n hpos hle
  · intro _ n hpos hle
    exact absurd hle (Nat.not_le.mpr hpos)
  · intro es s tr e s' out hexec ih hstep hgoes n hpos hle
    have hbefore := ih (step_eq_some.mp hstep).1 n hpos
    have heffect := effect_of_step hstep
    rw [reported_append, List.mem_append]
    generalize reported out = now at heffect
    -- A new start is the last one, and the others are accounted for before.
    have hnew : s'.starts = s.starts + 1 → n ≠ s'.starts → n ≤ s.starts := by
      intro hstarts hne
      omega
    cases heffect with
    | quiet _ hstarts hrunning =>
      rw [hstarts] at hle
      rw [hrunning]
      exact (hbefore hle).imp_right .inl
    | caught _ hstarts hrunning =>
      rw [hstarts] at hle
      rw [hrunning]
      exact (hbefore hle).imp_right .inl
    | started _ hstarts hrunning =>
      rw [hrunning, List.mem_cons]
      by_cases hlast : n = s'.starts
      · exact .inl (.inl hlast)
      · exact (hbefore (hnew hstarts hlast)).imp .inr .inl
    | failed _ hstarts hrunning =>
      rw [hrunning]
      by_cases hlast : n = s'.starts
      · exact .inr (.inr (List.mem_singleton.mpr hlast))
      · exact (hbefore (hnew hstarts hlast)).imp_right .inl
    | escaped _ _ _ hends =>
      rw [hgoes] at hends
      cases hends
    | goesOn _ _ hstarts hrunning =>
      rw [hrunning, List.mem_cons]
      by_cases hlast : n = s'.starts
      · exact .inl (.inl hlast)
      · exact (hbefore (hnew hstarts hlast)).imp .inr .inl
    | twice _ hstarts hrunning =>
      rw [hrunning]
      by_cases hlast : n = s'.starts
      · exact .inr (.inr (hlast ▸ List.mem_cons_self))
      · exact (hbefore (hnew hstarts hlast)).imp_right .inl
    | @finished core _ hcore _ hstarts hrunning =>
      rw [hstarts] at hle
      rw [hrunning]
      rcases hbefore hle with hrun | hended
      · by_cases hcore : n = core
        · exact .inr (.inr (List.mem_singleton.mpr hcore))
        · exact .inl ((List.mem_erase_of_ne hcore).mpr hrun)
      · exact .inr (.inl hended)
    | unreported _ _ _ _ hends =>
      rw [hgoes] at hends
      cases hends

/-- An operation of the core that runs can finish, which is reported. -/
theorem exists_finished (hgoes : s.terminated = false) {core : Nat} (hcore : core ∈ s.running) :
    ∃ e s' out, e.isFinished = true ∧ (machine operation).step s e = some (s', out) ∧
      reported out = [core] := by
  refine ⟨.finished core .operationCompleted [] .returned,
    { s with running := s.running.erase core }, [⟨core, .operationFinished .operationCompleted []⟩],
    rfl, step_eq_some.mpr ⟨hgoes, hcore, [.operationFinished .operationCompleted []], ?_, rfl⟩,
    rfl⟩
  cases operation <;> rfl

/-- A step that is not sound breaks the law, or `finished` behind it does. -/
theorem sound_of_finishedLaw {pre : List Event} {tr : List Emission} {e : Event} {s' : State}
    {out : List Emission} (hpre : (machine operation).exec {} pre = some (s, tr))
    (hstep : (machine operation).step s e = some (s', out))
    (hlaw : ∀ es s₁ tr₁, (∀ f ∈ es, f.isFinished = true) →
      (machine operation).exec {} ((pre ++ [e]) ++ es) = some (s₁, tr₁) →
        FinishedLaw operation ((pre ++ [e]) ++ es) tr₁) :
    Sound operation s e := by
  have htaken := Machine.hasStep_last hpre hstep
  have hexec : (machine operation).exec {} (pre ++ [e]) = some (s', tr ++ out) :=
    Machine.exec_append_singleton.mpr ⟨s, tr, out, hpre, hstep, rfl⟩
  have hnow : FinishedLaw operation (pre ++ [e]) (tr ++ out) := by
    have hnil := hlaw [] s' (tr ++ out) (by simp)
    rw [List.append_nil] at hnil
    exact hnil hexec
  have honce := hnow.once
  have hzero := hnow.started
  have hfailed := hnow.failed
  have heffect := effect_of_step hstep
  rw [reported_append] at honce hzero
  generalize hreported : reported out = now at heffect honce hzero
  cases heffect with
  | caught _ hstarts hrunning hgoes =>
    have hbefore := (step_eq_some.mp hstep).1
    have hpos : 0 < s.starts := by
      refine Nat.pos_of_ne_zero fun hnone => hzero ?_
      rw [hnone]
      exact List.mem_append_right _ (List.mem_singleton_self 0)
    have hnot : s.starts ∉ reported tr := by
      intro hmem
      exact (List.nodup_append.mp honce).2.2 _ hmem _ (List.mem_singleton_self _) rfl
    have hruns : s.starts ∈ s'.running := by
      rw [hrunning]
      exact (accounted_run hpre hbefore hpos (Nat.le_refl _)).resolve_right hnot
    -- The operation that was reported as finished goes on, and finishes.
    obtain ⟨f, s₁, out₁, hf, hfinish, hcore⟩ := exists_finished hgoes hruns
    have hlater := hlaw [f] s₁ ((tr ++ out) ++ out₁) (by simpa using hf)
      (Machine.exec_append_singleton.mpr ⟨s', tr ++ out, out₁, hexec, hfinish, rfl⟩)
    have htwice := hlater.once
    rw [reported_append, reported_append, hreported, hcore] at htwice
    have hmem : s.starts ∈ reported tr ++ [s.starts] :=
      List.mem_append_right _ (List.mem_singleton_self _)
    exact absurd rfl ((List.nodup_append.mp htwice).2.2 _ hmem _ (List.mem_singleton_self _))
  | goesOn he _ hstarts hrunning =>
    subst he
    refine absurd ?_ (hfailed pre tr s _ s' out htaken ?_)
    · rw [hrunning]
      exact List.mem_cons_self
    · rw [hreported]
      simp
  | twice _ hstarts hrunning =>
    have htwice := (List.nodup_append.mp honce).2.1
    simp at htwice
  | quiet hsound => exact hsound
  | started hsound => exact hsound
  | failed hsound => exact hsound
  | escaped hsound => exact hsound
  | finished _ _ hsound => exact hsound
  | unreported _ hsound => exact hsound

/-- **One report for each start**: a run keeps the law at each of its points, whatever the
core reports behind it, exactly if every step is sound. -/
theorem operation_finished_iff {es : List Event} {tr : List Emission}
    (h : (machine operation).exec {} es = some (s, tr)) :
    (∀ pre es' s' tr', pre <+: es → (∀ e ∈ es', e.isFinished = true) →
        (machine operation).exec {} (pre ++ es') = some (s', tr') →
        FinishedLaw operation (pre ++ es') tr') ↔
      ∀ x ∈ (machine operation).steps {} es, Sound operation x.1 x.2 := by
  constructor
  · intro hlaw x hx
    obtain ⟨s₁, e⟩ := x
    obtain ⟨pre, post, tr₁, hes, hpre⟩ := Machine.exists_of_mem_steps hx
    obtain ⟨tr₂, s₂, s', out, htaken⟩ := Machine.exists_hasStep h hes
    obtain ⟨rfl, rfl⟩ := htaken.exec_eq hpre
    obtain ⟨-, -, -, hstep⟩ := htaken
    refine sound_of_finishedLaw hpre hstep fun es' s₃ tr₃ hes' hexec => ?_
    exact hlaw (pre ++ [e]) es' s₃ tr₃ ⟨post, by simp [hes]⟩ hes' hexec
  · intro hsound pre es' s' tr' hprefix hes' hexec
    refine finishedLaw_of_sound hexec ?_
    obtain ⟨post, rfl⟩ := hprefix
    obtain ⟨s₁, tr₁, out, hpre, -, -⟩ := Machine.exec_append.mp hexec
    rw [Machine.steps_append hpre] at hsound
    intro x hx
    rw [Machine.steps_append hpre] at hx
    rcases List.mem_append.mp hx with hbefore | hbehind
    · exact hsound x (List.mem_append_left _ hbefore)
    · obtain ⟨pre', post', tr₂, rfl, -⟩ := Machine.exists_of_mem_steps hbehind
      have hfinished := hes' x.2 (by simp)
      obtain ⟨s₂, e⟩ := x
      cases e with
      | finished => trivial
      | _ => cases hfinished

/-- A download whose directory is created is reported once. -/
theorem operation_finished_download :
    ∃ s tr, (machine .operatorDefinedDownload).exec {}
        [.startOperation ⟨.returned, false, .returned, .returned⟩,
          .finished 1 .operationCompleted [] .returned] = some (s, tr) ∧
      reported tr = [1] ∧
      FinishedLaw .operatorDefinedDownload
        [.startOperation ⟨.returned, false, .returned, .returned⟩,
          .finished 1 .operationCompleted [] .returned] tr := by
  have hrun : ∃ s tr, (machine .operatorDefinedDownload).exec {}
      [.startOperation ⟨.returned, false, .returned, .returned⟩,
        .finished 1 .operationCompleted [] .returned] = some (s, tr) ∧ reported tr = [1] :=
    ⟨_, _, rfl, rfl⟩
  have hsteps : (machine .operatorDefinedDownload).steps {}
      [.startOperation ⟨.returned, false, .returned, .returned⟩,
        .finished 1 .operationCompleted [] .returned] =
    [({}, .startOperation ⟨.returned, false, .returned, .returned⟩),
      (⟨some 1, 1, [1], false⟩, .finished 1 .operationCompleted [] .returned)] := rfl
  obtain ⟨s, tr, hrun, hreported⟩ := hrun
  have hlaw := (operation_finished_iff hrun).mpr (by simp [hsteps, Sound])
  refine ⟨s, tr, hrun, hreported, ?_⟩
  have hwhole := hlaw _ [] s tr List.prefix_rfl (by simp)
  rw [List.append_nil] at hwhole
  exact hwhole hrun

/-- The directory cannot be created, which is reported; the operation of the core is
started all the same, and its end is reported again. -/
theorem operation_finished_twice :
    ¬ ∀ (operation : Operation) (es : List Event) (s : State) (tr : List Emission),
      (machine operation).exec {} es = some (s, tr) → FinishedLaw operation es tr := by
  intro h
  have hlaw := h .mediaDefinedDownload
    [.startOperation ⟨.returned, true, .returned, .returned⟩,
      .finished 1 .operationCompleted [] .returned] _ _ rfl
  have honce : ([1, 1] : List Nat).Nodup := hlaw.once
  simp at honce

end Arinc615a.DlaQt
