import Arinc615a.DlaQt.Wizard
import Arinc615a.Host.Finish
import Arinc615a.Host.SentFiles

/-!
# The answer of the operator defined download

Entering the status page sends the answer with the files that were selected last. The
operator enters it with the commit button, and `operationFinished` by `next()`, which goes
to the status page and not to the last one if the operation ends while files are selected.
-/

namespace Arinc615a.DlaQt.Wizard

open Actions Actions.Action Machines
open Files Information
open Host (startsSentFile isFinished)

/-! ## The law -/

/-- The files that the operator selects in a step. -/
def selected? (s : State) : Event → Option (List Str)
  | .select rows => some (s.names rows)
  | _ => none

/-- The files that the operator has selected last. -/
def lastSelected (cfg : Configuration) (es : List Event) : Option (List Str) :=
  (((machine cfg).steps {} es).filterMap fun (s, e) => selected? s e).getLast?

/-- The output is the answer file with these files. -/
def IsAnswer (files : List Str) (o : Host.Output) : Prop :=
  ∃ operation filename protocolVersion file, o = .clientWriteOperation operation filename file ∧
    DownloadOperationAnswerFile.encode ⟨protocolVersion, files⟩ = .ok file

structure AnswerLaw (cfg : Configuration) (es : List Event) : Prop where
  /-- An answer is sent when the operator commits the files that were selected last. -/
  committed : ∀ pre tr s e s' out, (machine cfg).HasStep {} es pre tr s e s' out →
    ∀ o ∈ out, startsSentFile o = true → e = .next ∧ s.page = .selectFiles ∧
      ∃ files, lastSelected cfg pre = some files ∧ files ≠ [] ∧ IsAnswer files o
  /-- Once the host operation has called `finished`, none is sent from the step on in
  which the wizard handles the end. -/
  silent : ∀ pre tr s s' out, (machine cfg).HasStep {} es pre tr s .deliver s' out →
    s.posted.head? = some .wizardFinished → (∃ o ∈ tr, isFinished o = true) →
    ∀ pre₁ tr₁ s₁ e₁ s₂ out₁, (machine cfg).HasStep {} es pre₁ tr₁ s₁ e₁ s₂ out₁ →
      pre.length ≤ pre₁.length → ∀ o ∈ out₁, startsSentFile o = false

/-- The answer with these files is still to be sent, and can be encoded. -/
def Unanswered (core : Host.State) (files : List Str) : Prop :=
  core.sent = false ∧
    ∃ file, DownloadOperationAnswerFile.encode ⟨core.protocolVersion, files⟩ = .ok file

/-- The host operation would send an answer. -/
def Answers (s : State) : Prop :=
  s.operation.operation ≠ none ∧ ∃ core, s.core = some core ∧ Unanswered core s.files

/-- The condition on a step: the wizard does not handle the end of the operation on the
selection page, unless there is no host operation or none that would send an answer. -/
def EndsBehind (s : State) (e : Event) : Prop :=
  e = .deliver → s.posted.head? = some .wizardFinished → s.page = .selectFiles → ¬ Answers s

/-! ## The host operation -/

variable {cfg : Configuration} {s : State}

/-- Only the calls that send a file start its write operation. -/
theorem not_starts_of_not_sends {core core' : Host.State} {e : Host.Event}
    {out : List Host.Output} (hcore : Host.Consistent core)
    (h : (Host.machine cfg.host).step core e = some (core', out)) (he : e.sends = false) :
    ∀ o ∈ out, startsSentFile o = false := by
  intro o ho
  rw [Bool.eq_false_iff]
  intro hstarts
  obtain ⟨r, hr, -, rfl⟩ := (Host.step_iff hcore).mp h
  obtain ⟨filename, file, rfl⟩ := Host.send_of_startsSentFile ho hstarts
  have hsends := (Host.causedBy_of_reaction hr).1
  rw [he] at hsends
  cases hsends

/-- **The answer**: what the host operation sends are the files of the call, and it sends
them unless it has sent some or they cannot be encoded. -/
theorem answer_step {core core' : Host.State} {files : List Str} {out : List Host.Output}
    (hcore : Host.Consistent core)
    (h : (Host.machine cfg.host).step core (.answer files) = some (core', out)) :
    (∀ o ∈ out, startsSentFile o = true → IsAnswer files o ∧ Unanswered core files) ∧
      (Unanswered core files → ∃ o ∈ out, startsSentFile o = true) := by
  obtain ⟨r, hr, -, rfl⟩ := (Host.step_iff hcore).mp h
  simp only [Host.reaction, if_pos cfg.operation_eq] at hr
  unfold Host.sendReaction at hr
  constructor
  · intro o ho hstarts
    obtain ⟨filename, file, rfl⟩ := Host.send_of_startsSentFile ho hstarts
    split at hr
    · cases hr
    · rename_i hsent
      split at hr
      · cases hr
      · rename_i encoded hencode
        split at hr
        · cases hr
          rcases List.mem_append.mp ho with haborts | hlast
          · rw [Host.sentFileAborts_not_starts o haborts] at hstarts
            cases hstarts
          · exact ⟨⟨_, _, _, _, List.mem_singleton.mp hlast, hencode⟩,
              Bool.eq_false_iff.mpr hsent, _, hencode⟩
        · cases hr
  · intro hunanswered
    obtain ⟨hsent, file, hencode⟩ := hunanswered
    rw [if_neg (by simp [hsent]), hencode] at hr
    simp only at hr
    split at hr
    · cases hr
      exact ⟨.clientWriteOperation _ _ _, List.mem_append_right _ (List.mem_singleton_self _),
        rfl⟩
    · cases hr

/-! ## Slots -/

/-- The host operation, if there is one, is in a consistent state. -/
def CoreConsistent (s : State) : Prop := ∀ core, s.core = some core → Host.Consistent core

/-- What the calls of the operation leave alone: the pages, and what was selected. -/
structure SameView (s s' : State) : Prop where
  page : s'.page = s.page
  available : s'.available = s.available
  selection : s'.selection = s.selection
  files : s'.files = s.files
  nextEnabled : s'.nextEnabled = s.nextEnabled
  statusCompleted : s'.statusCompleted = s.statusCompleted

theorem SameView.refl (s : State) : SameView s s := ⟨rfl, rfl, rfl, rfl, rfl, rfl⟩

theorem SameView.trans {s₁ s₂ s₃ : State} (h : SameView s₁ s₂) (h' : SameView s₂ s₃) :
    SameView s₁ s₃ :=
  ⟨h'.page.trans h.page, h'.available.trans h.available, h'.selection.trans h.selection,
    h'.files.trans h.files, h'.nextEnabled.trans h.nextEnabled,
    h'.statusCompleted.trans h.statusCompleted⟩

theorem SameView.withCore (s : State) (core : Host.State) :
    SameView s { s with core := some core } := ⟨rfl, rfl, rfl, rfl, rfl, rfl⟩

/-- A slot of the operation leaves the host operation alone as well. -/
theorem runSlot_spec {slot : Slot Unit} {s' : State} {out out' : List Host.Output}
    (h : runSlot slot s out = some ((), s', out')) :
    SameView s s' ∧ s'.core = s.core ∧ out' = out := by
  simp only [runSlot, get_bind] at h
  cases hrun : run slot s.operation with
  | none => simp [hrun] at h
  | some r =>
    rw [hrun] at h
    cases h
    exact ⟨⟨rfl, rfl, rfl, rfl, rfl, rfl⟩, rfl, rfl⟩

theorem stepCore_spec {e : Host.Event} {s' : State} {out out' r : List Host.Output}
    (h : stepCore cfg e s out = some (r, s', out')) :
    ∃ core core', s.core = some core ∧
      (Host.machine cfg.host).step core e = some (core', r) ∧
      s' = { s with core := some core' } ∧ out' = out ++ r := by
  simp only [stepCore, get_bind] at h
  cases hcore : s.core with
  | none => simp [hcore] at h
  | some core =>
    simp only [hcore] at h
    cases hstep : (Host.machine cfg.host).step core e with
    | none => simp [hstep] at h
    | some result =>
      rw [hstep] at h
      cases h
      exact ⟨core, result.1, rfl, hstep, rfl, rfl⟩

theorem CoreConsistent.step {e : Host.Event} {core core' : Host.State}
    {r : List Host.Output} (h : CoreConsistent s) (hcore : s.core = some core)
    (hstep : (Host.machine cfg.host).step core e = some (core', r)) {s' : State}
    (hs' : s'.core = some core') : CoreConsistent s' := by
  intro core₁ hcore₁
  rw [hs', Option.some.injEq] at hcore₁
  exact hcore₁ ▸ Host.consistent_step (h core hcore) hstep

/-- A slot that calls the host operation makes what outputs the host operation makes. -/
theorem callCore_spec {e : Host.Event} {slot : CallResult → Slot Unit} {s' : State}
    {out out' : List Host.Output} (h : callCore cfg e slot s out = some ((), s', out')) :
    SameView s s' ∧ (CoreConsistent s → CoreConsistent s') ∧ ∃ r, out' = out ++ r ∧
      ((s.operation.operation = none ∧ r = []) ∨
        (s.operation.operation ≠ none ∧ ∃ core core', s.core = some core ∧
          (Host.machine cfg.host).step core e = some (core', r))) := by
  simp only [callCore, get_bind] at h
  cases hoperation : s.operation.operation with
  | none =>
    rw [hoperation] at h
    obtain ⟨hview, hcore, rfl⟩ := runSlot_spec h
    refine ⟨hview, ?_, [], (List.append_nil _).symm, .inl ⟨rfl, rfl⟩⟩
    intro hs core hcore'
    exact hs core (hcore ▸ hcore')
  | some operation =>
    rw [hoperation] at h
    obtain ⟨r, s₁, out₁, hstep, hslot⟩ := bind_eq_some.mp h
    obtain ⟨core, core', hcore, hcoreStep, rfl, rfl⟩ := stepCore_spec hstep
    obtain ⟨hview, hcore', rfl⟩ := runSlot_spec hslot
    refine ⟨(SameView.withCore s core').trans hview, ?_, r, rfl,
      .inr ⟨by simp, core, core', hcore, hcoreStep⟩⟩
    intro hs
    exact hs.step hcore hcoreStep hcore'

theorem consistent_initial : Host.Consistent {} where
  transfers_lt := by simp
  statusFiles_lt := by simp
  statusFiles := by simp

/-- The start creates a host operation, and sends no answer. -/
theorem startOperation_spec {s' : State} {out out' : List Host.Output}
    (h : startOperation cfg s out = some ((), s', out')) :
    SameView s s' ∧ (CoreConsistent s → CoreConsistent s') ∧ ∃ r, out' = out ++ r ∧
      ∀ o ∈ r, startsSentFile o = false := by
  obtain ⟨⟨⟩, s₁, out₁, hslot, hrest⟩ := bind_eq_some.mp h
  obtain ⟨hview, hcore, rfl⟩ := runSlot_spec hslot
  simp only [get_bind] at hrest
  cases hoperation : s₁.operation.operation with
  | none =>
    rw [hoperation] at hrest
    cases hrest
    refine ⟨hview, fun hs core hcore' => hs core (hcore ▸ hcore'), [], ?_, by simp⟩
    exact (List.append_nil _).symm
  | some operation =>
    simp only [hoperation, if_apply, Host.start_run] at hrest
    split at hrest
    · cases hrest
      refine ⟨hview.trans (.withCore s₁ _), ?_, _, rfl, ?_⟩
      · intro _ core hcore'
        cases hcore'
        exact Host.consistent_started
      · intro o ho
        rw [List.mem_singleton.mp ho]
        rfl
    · cases hrest
      refine ⟨hview.trans (.withCore s₁ _), ?_, [], (List.append_nil _).symm, by simp⟩
      intro _ core hcore'
      cases hcore'
      exact consistent_initial

/-! ## Pages -/

/-- What a call behind a change of pages sends: the answer, on the status page only. -/
structure PageEffect (s : State) (page : Pages) (s' : State) (r : List Host.Output) :
    Prop where
  consistent : CoreConsistent s'
  starts : ∀ o ∈ r, startsSentFile o = true → page = .status ∧ IsAnswer s.files o ∧ Answers s
  answers : page = .status → Answers s → ∃ o ∈ r, startsSentFile o = true

theorem filesSelected_spec {s' : State} {out out' : List Host.Output} (hs : CoreConsistent s)
    (h : filesSelected cfg s out = some ((), s', out')) :
    SameView s s' ∧ ∃ r, out' = out ++ r ∧ PageEffect s .status s' r := by
  simp only [filesSelected, get_bind] at h
  obtain ⟨hview, hcore, r, rfl, hcall⟩ := callCore_spec h
  refine ⟨hview, r, rfl, hcore hs, ?_, ?_⟩
  · intro o ho hstarts
    rcases hcall with ⟨-, rfl⟩ | ⟨hoperation, core, core', hcore, hstep⟩
    · cases ho
    · obtain ⟨hanswer, hunanswered⟩ := (answer_step (hs core hcore) hstep).1 o ho hstarts
      exact ⟨rfl, hanswer, hoperation, core, hcore, hunanswered⟩
  · intro _ hanswers
    obtain ⟨hoperation, core, hcore, hunanswered⟩ := hanswers
    rcases hcall with ⟨hnone, -⟩ | ⟨-, core₁, core', hcore₁, hstep⟩
    · exact absurd hnone hoperation
    · obtain rfl := Option.some.inj (hcore.symm.trans hcore₁)
      exact (answer_step (hs core hcore) hstep).2 hunanswered

/-- The change of pages. -/
theorem pageChanged_spec {page : Pages} {s' : State} {out out' : List Host.Output}
    (hs : CoreConsistent s) (h : pageChanged cfg page s out = some ((), s', out')) :
    SameView s s' ∧ ∃ r, out' = out ++ r ∧ PageEffect s page s' r := by
  cases page with
  | selectFiles =>
    obtain ⟨hview, hcore, r, rfl, hr⟩ := startOperation_spec h
    refine ⟨hview, r, rfl, hcore hs, ?_, fun hpage => by cases hpage⟩
    intro o ho hstarts
    rw [hr o ho] at hstarts
    cases hstarts
  | status => exact filesSelected_spec hs h
  | settings =>
    cases h
    exact ⟨.refl s, [], (List.append_nil _).symm, hs, by simp, fun hpage => by cases hpage⟩
  | completed =>
    cases h
    exact ⟨.refl s, [], (List.append_nil _).symm, hs, by simp, fun hpage => by cases hpage⟩

/-- Where the button behind the selection is enabled, there are selected files. -/
structure Selected (s : State) : Prop where
  files_ne : s.selection ≠ [] → s.files ≠ []
  enabled : s.page = .selectFiles → s.nextEnabled = true → s.files ≠ []

theorem Selected.of_complete {s' : State} (h : s'.selection ≠ [] → s'.files ≠ [])
    (hnext : s'.nextEnabled = isComplete s') : Selected s' := by
  refine ⟨h, ?_⟩
  intro hpage henabled
  rw [hnext, isComplete, hpage] at henabled
  apply h
  intro hempty
  simp [hempty] at henabled

theorem Selected.of_view {s' : State} (h : Selected s) (hview : SameView s s') :
    Selected s' := by
  constructor
  · rw [hview.selection, hview.files]
    exact h.files_ne
  · rw [hview.page, hview.nextEnabled, hview.files]
    exact h.enabled

/-! ## Steps -/

/-- The steps to the next page. -/
def Advances (s : State) (e : Event) : Prop :=
  e = .next ∨ (e = .deliver ∧ s.posted.head? = some .wizardFinished)

/-- What a step of the wizard does. -/
structure StepEffect (s : State) (e : Event) (s' : State) (out : List Host.Output) :
    Prop where
  consistent : CoreConsistent s'
  advances : Advances s e → s'.page = s.page.nextId.getD s.page
  stays : ¬ Advances s e → s'.page = s.page
  files : s'.files = (selected? s e).getD s.files
  selected : Selected s → Selected s'
  enabled : e = .next → s.nextEnabled = true
  starts : ∀ o ∈ out, startsSentFile o = true →
    Advances s e ∧ s.page = .selectFiles ∧ IsAnswer s.files o ∧ Answers s
  answers : Advances s e → s.page = .selectFiles → Answers s →
    ∃ o ∈ out, startsSentFile o = true
  started : s.page = .settings → s.posted = [] → s.core = none → e = .next

/-- What `next()` does. -/
structure NextEffect (s s' : State) (r : List Host.Output) : Prop where
  consistent : CoreConsistent s'
  page : s'.page = s.page.nextId.getD s.page
  files : s'.files = s.files
  selected : Selected s → Selected s'
  starts : ∀ o ∈ r, startsSentFile o = true →
    s.page = .selectFiles ∧ IsAnswer s.files o ∧ Answers s
  answers : s.page = .selectFiles → Answers s → ∃ o ∈ r, startsSentFile o = true

/-- Only the selection page is followed by the status page. -/
theorem Pages.nextId_eq_status {page : Pages} :
    page.nextId = some .status ↔ page = .selectFiles := by
  cases page <;> simp [Pages.nextId]

theorem next_spec {s' : State} {out out' : List Host.Output} (hs : CoreConsistent s)
    (h : next cfg s out = some ((), s', out')) : ∃ r, out' = out ++ r ∧ NextEffect s s' r := by
  simp only [next, get_bind] at h
  cases hnext : s.page.nextId with
  | none =>
    simp only [hnext] at h
    cases h
    refine ⟨[], (List.append_nil _).symm, hs, by rw [hnext]; rfl, rfl, id, by simp, ?_⟩
    intro hpage
    rw [hpage] at hnext
    cases hnext
  | some page =>
    simp only [hnext, goTo, completeChanged, modify_bind] at h
    obtain ⟨hview, r, rfl, heffect⟩ := pageChanged_spec (s := { s with
      page := page
      nextEnabled := isComplete { s with page := page } }) hs h
    refine ⟨r, rfl, heffect.consistent, ?_, hview.files, ?_, ?_, ?_⟩
    · rw [hnext]
      exact hview.page
    · intro hselected
      apply Selected.of_view _ hview
      exact .of_complete hselected.files_ne rfl
    · intro o ho hstarts
      obtain ⟨hstatus, hanswer, hanswers⟩ := heffect.starts o ho hstarts
      refine ⟨?_, hanswer, hanswers⟩
      rw [← Pages.nextId_eq_status, hnext, hstatus]
    · intro hpage hanswers
      rw [← Pages.nextId_eq_status, hnext, Option.some.injEq] at hpage
      exact heffect.answers hpage hanswers

/-- The callbacks of the host operation only queue signals. -/
theorem callbacks_spec {saved : CallResult} {r : List Host.Output} {s' : State}
    {out out' : List Host.Output} (h : callbacks saved r s out = some ((), s', out')) :
    SameView s s' ∧ s'.core = s.core ∧ out' = out := by
  induction r generalizing s with
  | nil =>
    cases h
    exact ⟨.refl _, rfl, rfl⟩
  | cons o r ih =>
    obtain ⟨⟨⟩, s₁, out₁, hfirst, hrest⟩ := bind_eq_some.mp h
    have hcallback : SameView s s₁ ∧ s₁.core = s.core ∧ out₁ = out := by
      unfold callback at hfirst
      cases o with
      | finished code description => exact runSlot_spec hfirst
      | initialisationDeferred waitTime => exact runSlot_spec hfirst
      | initialisationResponse response => exact runSlot_spec hfirst
      | status reported => exact runSlot_spec hfirst
      | downloadingList files => exact runSlot_spec hfirst
      | _ =>
        cases hfirst
        exact ⟨.refl _, rfl, rfl⟩
    obtain ⟨hview, hcore, rfl⟩ := hcallback
    obtain ⟨hview', hcore', rfl⟩ := ih hrest
    exact ⟨hview.trans hview', hcore'.trans hcore, rfl⟩

/-- A step that stays on its page, and sends no answer. -/
theorem StepEffect.of_stay {e : Event} {s' : State} {out : List Host.Output}
    (hcore : CoreConsistent s') (hpage : s'.page = s.page)
    (hfiles : s'.files = (selected? s e).getD s.files)
    (hselected : Selected s → Selected s') (hadvances : ¬ Advances s e)
    (hout : ∀ o ∈ out, startsSentFile o = false)
    (hstarted : s.page = .settings → s.posted = [] → s.core ≠ none) :
    StepEffect s e s' out where
  consistent := hcore
  advances h := absurd h hadvances
  stays _ := hpage
  files := hfiles
  selected := hselected
  enabled h := absurd (.inl h) hadvances
  starts o ho hstarts := by
    rw [hout o ho] at hstarts
    cases hstarts
  answers h := absurd h hadvances
  started hpage hnone hcore := absurd hcore (hstarted hpage hnone)

/-- A step to the next page. -/
theorem StepEffect.of_next {e : Event} {s' : State} {out : List Host.Output}
    (h : NextEffect s s' out) (hadvances : Advances s e)
    (henabled : e = .next → s.nextEnabled = true)
    (hposted : s.posted = [] → e = .next) : StepEffect s e s' out where
  consistent := h.consistent
  advances _ := h.page
  stays hnot := absurd hadvances hnot
  files := by
    rw [h.files]
    rcases hadvances with rfl | ⟨rfl, -⟩ <;> rfl
  selected := h.selected
  enabled := henabled
  starts o ho hstarts := ⟨hadvances, h.starts o ho hstarts⟩
  answers _ := h.answers
  started _ hnone _ := hposted hnone

/-- A queued call of a slot. -/
theorem effect_of_deliver {first : Delivery} {rest : List Delivery} {s' : State}
    {out : List Host.Output} (hs : CoreConsistent s) (hposted : s.posted = first :: rest)
    (h : deliver cfg first { s with posted := rest } [] = some ((), s', out)) :
    StepEffect s .deliver s' out := by
  have hne : s.posted ≠ [] := by simp [hposted]
  have hnot : first ≠ .wizardFinished → ¬ Advances s .deliver := by
    intro hfirst hadvances
    rcases hadvances with hnext | ⟨-, hhead⟩
    · cases hnext
    · rw [hposted, List.head?_cons, Option.some.injEq] at hhead
      exact hfirst hhead
  cases first with
  | wizardFinished =>
    obtain ⟨r, rfl, heffect⟩ := next_spec (s := { s with posted := rest }) hs h
    refine .of_next ?_ (.inr ⟨rfl, by rw [hposted]; rfl⟩) (fun h => by cases h)
      fun hnone => absurd hnone hne
    exact ⟨heffect.consistent, heffect.page, heffect.files,
      fun hselected => heffect.selected ⟨hselected.files_ne, hselected.enabled⟩,
      heffect.starts, heffect.answers⟩
  | selectFilesFinished =>
    cases h
    exact .of_stay hs rfl rfl (fun hselected => .of_complete hselected.files_ne rfl)
      (hnot (by simp)) (by simp) fun _ hnone => absurd hnone hne
  | statusFinished =>
    cases h
    exact .of_stay hs rfl rfl (fun hselected => .of_complete hselected.files_ne rfl)
      (hnot (by simp)) (by simp) fun _ hnone => absurd hnone hne
  | downloadingList list =>
    cases h
    exact .of_stay hs rfl rfl (fun hselected => ⟨by simp, hselected.enabled⟩)
      (hnot (by simp)) (by simp) fun _ hnone => absurd hnone hne

/-- No page is left backwards. -/
theorem backEnabled_eq_false (page : Pages) : page.backEnabled = false := by
  cases page <;> rfl

theorem names_ne_nil {rows : List Nat} (hne : rows ≠ [])
    (hrows : ∀ row ∈ rows, row < s.available.length) : s.names rows ≠ [] := by
  obtain ⟨row, rest, rfl⟩ := List.exists_cons_of_ne_nil hne
  have hrow : row < s.available.length := hrows row List.mem_cons_self
  simp [State.names, List.getElem?_eq_getElem hrow]

/-- **Steps**: what each step of the wizard does. -/
theorem effect_of_step {e : Event} {s' : State} {out : List Host.Output}
    (hs : CoreConsistent s) (h : (machine cfg).step s e = some (s', out)) :
    StepEffect s e s' out := by
  have hreact : react cfg e s [] = some ((), s', out) := by
    simp only [machine] at h
    split at h
    · cases h
    · exact run_eq_some.mp h
  cases e with
  | next =>
    simp only [react, get_bind, require_bind_eq_some] at hreact
    obtain ⟨henabled, hreact⟩ := hreact
    obtain ⟨r, rfl, heffect⟩ := next_spec hs hreact
    exact .of_next heffect (.inl rfl) (fun _ => henabled) fun _ => rfl
  | back =>
    simp [react, backEnabled_eq_false] at hreact
  | select rows =>
    simp only [react, get_bind, require_bind_eq_some] at hreact
    obtain ⟨hselects, hreact⟩ := hreact
    obtain ⟨hpage, hrows⟩ := hselects
    cases hreact
    refine .of_stay hs rfl rfl (fun _ => .of_complete ?_ rfl) (by simp [Advances]) (by simp) ?_
    · intro hne
      exact names_ne_nil hne hrows
    · intro hsettings
      rw [hpage] at hsettings
      cases hsettings
  | abort =>
    simp only [react, get_bind, require_bind_eq_some] at hreact
    obtain ⟨hpage, hreact⟩ := hreact
    obtain ⟨hview, hcore, r, rfl, hcall⟩ := callCore_spec hreact
    refine .of_stay (hcore hs) hview.page hview.files (fun h => h.of_view hview)
      (by simp [Advances]) ?_ ?_
    · rcases hcall with ⟨-, rfl⟩ | ⟨-, core, core', hcore, hstep⟩
      · simp
      · exact not_starts_of_not_sends (hs core hcore) hstep rfl
    · intro hsettings
      rw [hsettings] at hpage
      simp at hpage
  | deliver =>
    simp only [react, get_bind] at hreact
    cases hposted : s.posted with
    | nil => simp [hposted] at hreact
    | cons first rest =>
      simp only [hposted, modify_bind] at hreact
      exact effect_of_deliver hs hposted hreact
  | core e saved =>
    simp only [react, require_bind_eq_some] at hreact
    obtain ⟨hof, hreact⟩ := hreact
    obtain ⟨r, s₁, out₁, hstep, hcallbacks⟩ := bind_eq_some.mp hreact
    obtain ⟨core, core', hcore, hcoreStep, rfl, rfl⟩ := stepCore_spec hstep
    obtain ⟨hview, hcore', rfl⟩ := callbacks_spec hcallbacks
    have hsame := (SameView.withCore s core').trans hview
    refine .of_stay (hs.step hcore hcoreStep hcore') hsame.page hsame.files
      (fun h => h.of_view hsame) (by simp [Advances]) ?_ ?_
    · refine not_starts_of_not_sends (hs core hcore) hcoreStep ?_
      cases e <;> first | rfl | cases hof
    · intro _ _
      rw [hcore]
      simp

/-! ## Runs -/

theorem lastSelected_append {es : List Event} {tr : List Host.Output}
    (h : (machine cfg).exec {} es = some (s, tr)) (e : Event) :
    lastSelected cfg (es ++ [e]) = (selected? s e).or (lastSelected cfg es) := by
  unfold lastSelected
  rw [Machine.steps_append_singleton h, getLast?_filterMap_concat]

/-- What holds behind every run. -/
structure Valid (cfg : Configuration) (es : List Event) (s : State) : Prop where
  consistent : CoreConsistent s
  /-- Nothing happens before the operator leaves the settings page. -/
  settings : s.page = .settings → s.posted = [] ∧ s.core = none
  files : s.files = (lastSelected cfg es).getD []
  selected : Selected s

theorem valid_of_exec {es : List Event} {tr : List Host.Output}
    (h : (machine cfg).exec {} es = some (s, tr)) : Valid cfg es s := by
  refine Machine.exec_history (fun es s _ => Valid cfg es s) ?_ ?_ h
  · exact ⟨by simp [CoreConsistent], by simp, rfl, by simp, by simp⟩
  · intro es s tr e s' out hexec hvalid hstep
    have heffect := effect_of_step hvalid.consistent hstep
    refine ⟨heffect.consistent, ?_, ?_, heffect.selected hvalid.selected⟩
    · intro hpage
      -- No page is followed by the settings page, which is left by its first step.
      by_cases hadvances : Advances s e
      · rw [heffect.advances hadvances] at hpage
        cases hs : s.page <;> simp [hs, Pages.nextId] at hpage
      · rw [heffect.stays hadvances] at hpage
        obtain ⟨hposted, hcore⟩ := hvalid.settings hpage
        exact absurd (.inl (heffect.started hpage hposted hcore)) hadvances
    · rw [heffect.files, hvalid.files, lastSelected_append hexec, Option.getD_or]

/-- Behind the selection page, no answer is sent any more. -/
def Behind (s : State) : Prop := s.page = .status ∨ s.page = .completed

theorem behind_step {e : Event} {s' : State} {out : List Host.Output} (hs : CoreConsistent s)
    (hbehind : Behind s) (h : (machine cfg).step s e = some (s', out)) :
    Behind s' ∧ ∀ o ∈ out, startsSentFile o = false := by
  have heffect := effect_of_step hs h
  constructor
  · by_cases hadvances : Advances s e
    · right
      rw [heffect.advances hadvances]
      rcases hbehind with hpage | hpage <;> rw [hpage] <;> rfl
    · unfold Behind
      rw [heffect.stays hadvances]
      exact hbehind
  · intro o ho
    rw [Bool.eq_false_iff]
    intro hstarts
    obtain ⟨-, hpage, -⟩ := heffect.starts o ho hstarts
    rcases hbehind with hstatus | hcompleted
    · rw [hstatus] at hpage
      cases hpage
    · rw [hcompleted] at hpage
      cases hpage

theorem behind_run {es : List Event} {s' : State} {tr : List Host.Output}
    (hs : CoreConsistent s) (hbehind : Behind s)
    (h : (machine cfg).exec s es = some (s', tr)) : CoreConsistent s' ∧ Behind s' := by
  have hinv : ∀ s e s' out, CoreConsistent s ∧ Behind s →
      (machine cfg).step s e = some (s', out) → CoreConsistent s' ∧ Behind s' := by
    intro s e s' out hinv hstep
    exact ⟨(effect_of_step hinv.1 hstep).consistent, (behind_step hinv.1 hinv.2 hstep).1⟩
  exact Machine.exec_invariant hinv ⟨hs, hbehind⟩ h

/-- Where the wizard handles the end of the operation and nothing is to be answered, it
stands behind the selection page, and has sent nothing. -/
theorem behind_of_finished {es : List Event} {s' : State} {out : List Host.Output}
    (hvalid : Valid cfg es s) (hstep : (machine cfg).step s .deliver = some (s', out))
    (hhead : s.posted.head? = some .wizardFinished) (hends : EndsBehind s .deliver) :
    Behind s' ∧ ∀ o ∈ out, startsSentFile o = false := by
  have heffect := effect_of_step hvalid.consistent hstep
  have hpage := heffect.advances (.inr ⟨rfl, hhead⟩)
  cases hs : s.page with
  | settings =>
    rw [(hvalid.settings hs).1] at hhead
    cases hhead
  | selectFiles =>
    rw [hs] at hpage
    refine ⟨.inl hpage, ?_⟩
    intro o ho
    rw [Bool.eq_false_iff]
    intro hstarts
    exact hends rfl hhead hs (heffect.starts o ho hstarts).2.2.2
  | status => exact behind_step hvalid.consistent (.inl hs) hstep
  | completed => exact behind_step hvalid.consistent (.inr hs) hstep

/-- From then on, no step sends an answer. -/
theorem silent_of_finished {es pre pre₁ : List Event} {tr tr₁ : List Host.Output}
    {s' s₁ s₂ : State} {e₁ : Event} {out out₁ : List Host.Output}
    (h : (machine cfg).HasStep {} es pre tr s .deliver s' out)
    (hhead : s.posted.head? = some .wizardFinished) (hends : EndsBehind s .deliver)
    (hlater : (machine cfg).HasStep {} es pre₁ tr₁ s₁ e₁ s₂ out₁)
    (hle : pre.length ≤ pre₁.length) : ∀ o ∈ out₁, startsSentFile o = false := by
  obtain ⟨post, hes, hpre, hs'⟩ := h
  have hvalid := valid_of_exec hpre
  obtain ⟨hbehind, hsilent⟩ := behind_of_finished hvalid hs' hhead hends
  rcases Nat.eq_or_lt_of_le hle with heq | hlt
  · -- This is the step itself.
    obtain ⟨-, rfl⟩ := Machine.HasStep.unique ⟨post, hes, hpre, hs'⟩ hlater heq
    exact hsilent
  · obtain ⟨mid, os, -, hmid⟩ := hlater.exists_between ⟨post, hes, hpre, hs'⟩ hlt
    have hs := (effect_of_step hvalid.consistent hs').consistent
    obtain ⟨hs₁, hbehind₁⟩ := behind_run hs hbehind hmid
    obtain ⟨-, -, -, hs₂⟩ := hlater
    exact (behind_step hs₁ hbehind₁ hs₂).2

/-- **The answer of the operator**: a run keeps the law exactly if no step of it lets
the status page send an answer when the wizard handles the end of the operation. -/
theorem wizard_answer_iff {es : List Event} {tr : List Host.Output}
    (h : (machine cfg).exec {} es = some (s, tr)) :
    AnswerLaw cfg es ↔ ∀ x ∈ (machine cfg).steps {} es, EndsBehind x.1 x.2 := by
  constructor
  · intro hlaw x hx he hhead hpage hanswers
    obtain ⟨pre, post, tr₁, hes, hpre⟩ := Machine.exists_of_mem_steps hx
    obtain ⟨tr₂, s₂, s', out, hstep⟩ := Machine.exists_hasStep h hes
    obtain ⟨rfl, -⟩ := hstep.exec_eq hpre
    obtain ⟨-, -, -, hs'⟩ := hstep
    have heffect := effect_of_step (valid_of_exec hpre).consistent hs'
    obtain ⟨o, ho, hstarts⟩ := heffect.answers (.inr ⟨he, hhead⟩) hpage hanswers
    -- This answer is none that the operator has committed.
    have hnext := (hlaw.committed pre tr₁ x.1 x.2 s' out ⟨post, hes, hpre, hs'⟩ o ho hstarts).1
    rw [he] at hnext
    cases hnext
  · intro hends
    constructor
    · intro pre tr₁ s₁ e s' out hstep o ho hstarts
      have hcondition := hends _ hstep.mem_steps
      obtain ⟨post, -, hpre, hs'⟩ := hstep
      have hvalid := valid_of_exec hpre
      have heffect := effect_of_step hvalid.consistent hs'
      obtain ⟨hadvances, hpage, hanswer, hanswers⟩ := heffect.starts o ho hstarts
      rcases hadvances with rfl | ⟨rfl, hhead⟩
      · have hne := hvalid.selected.enabled hpage (heffect.enabled rfl)
        refine ⟨rfl, hpage, s₁.files, ?_, hne, hanswer⟩
        have hfiles := hvalid.files
        cases hlast : lastSelected cfg pre with
        | none =>
          rw [hlast] at hfiles
          exact absurd hfiles hne
        | some files =>
          rw [hfiles, hlast]
          rfl
      · exact absurd hanswers (hcondition rfl hhead hpage)
    · intro pre tr₁ s₁ s' out hhandled hhead _ pre₁ tr₂ s₂ e₁ s₃ out₁ hlater hle
      exact silent_of_finished hhandled hhead (hends _ hhandled.mem_steps) hlater hle

/-- A download from the target of the examples. -/
def exampleConfiguration : Configuration where
  host := Host.exampleConfiguration .operatorDefinedDownload
  operation_eq := rfl
  results := ⟨.returned, false, .returned, .returned⟩

/-- The target lists one file, which the operator selects and commits. -/
def committedRun : List Event :=
  [.next, .core (.clientCompleted 0 .successful [0, 0, 0, 9, 0x41, 0x34, 0, 1, 0]) .returned,
    .core .callbackReturned .returned,
    .core (.tftpRequest (Host.exampleRequest .write "HNPFMS_L.LNL")) .returned,
    .core (.serverCompleted 1 .successful
      [0, 0, 0, 14, 0x41, 0x34, 0, 1, 2, 0x41, 0, 2, 0x42, 0]) .returned,
    .core .callbackReturned .returned, .deliver, .select [0], .next]

/-- The file is what the answer names. -/
theorem wizard_answer_committed :
    ∃ s tr operation filename, (machine exampleConfiguration).exec {} committedRun = some (s, tr) ∧
      tr.getLast? = some (.clientWriteOperation operation filename
        [0, 0, 0, 11, 0x41, 0x34, 0, 1, 2, 0x41, 0]) ∧
      AnswerLaw exampleConfiguration committedRun := by
  have hrun : ∃ s tr operation filename,
      (machine exampleConfiguration).exec {} committedRun = some (s, tr) ∧
      tr.getLast? = some (.clientWriteOperation operation filename
        [0, 0, 0, 11, 0x41, 0x34, 0, 1, 2, 0x41, 0]) :=
    ⟨_, _, 2, _, rfl, rfl⟩
  obtain ⟨s, tr, operation, filename, hrun, hlast⟩ := hrun
  refine ⟨s, tr, operation, filename, hrun, hlast, (wizard_answer_iff hrun).mpr ?_⟩
  -- The operation has not ended.
  have hqueued : ((machine exampleConfiguration).steps {} committedRun).all
      (fun x => x.1.posted.head? ≠ some .wizardFinished) = true := by rfl
  intro x hx _ hhead
  have hne := List.all_eq_true.mp hqueued x hx
  exact absurd hhead (of_decide_eq_true hne)

/-- The initialisation fails while files are to be selected. When the wizard handles that,
an answer without files is sent. -/
theorem wizard_answer_uncommitted :
    ¬ ∀ (cfg : Configuration) (es : List Event) (s : State) (tr : List Host.Output),
      (machine cfg).exec {} es = some (s, tr) → AnswerLaw cfg es := by
  intro h
  have hlaw := h exampleConfiguration
    [.next, .core (.clientCompleted 0 .communicationError []) .returned, .deliver] _ _ rfl
  have hsilent := hlaw.silent
    [.next, .core (.clientCompleted 0 .communicationError []) .returned] _ _ _ _
    ⟨[], rfl, rfl, rfl⟩ rfl (by simp [isFinished]) _ _ _ _ _ _ ⟨[], rfl, rfl, rfl⟩ le_rfl
  simp [startsSentFile] at hsilent

end Arinc615a.DlaQt.Wizard
