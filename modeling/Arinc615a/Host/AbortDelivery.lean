import Arinc615a.Host.Finish
import Arinc615a.Host.StatusRequests

/-!
# The delivery of aborts

An abort is stored, and answers the next request for the status file. Along
every run the aborts that took effect are those that were sent and the one that
is pending (`abortBalance_run`). The write request that should get it does not
where an information operation answered a read request with it before.
-/

namespace Arinc615a.Host

open Actions Actions.Action Machines
open Files Information Tftp

/-! ## The law -/

/-- The reason of an abort that takes effect: an abort, of the user or of the
operation itself, with a reason and with none pending. -/
def effectiveAbort (cfg : Configuration) (s : State) (e : Event) : Option AbortReason :=
  match reaction cfg s e with
  | some (.abort reason) =>
    if reason ≠ .noAbort ∧ s.abortReason = .noAbort then some reason else none
  | _ => none

/-- An ABORT packet. -/
def isAbortPacket : Output → Bool
  | .abortOperation _ _ => true
  | _ => false

/-- The start of a reception of a status file. -/
def startsStatusFile : Output → Bool
  | .writeOperation _ _ .statusFile => true
  | _ => false

/-- What answers no request for a status is neither of these. -/
theorem neither_of_not_answersStatus {o : Output} (h : answersStatus o = false) :
    isAbortPacket o = false ∧ startsStatusFile o = false := by
  cases o with
  | abortOperation remote status => cases h
  | writeOperation remote operation kind =>
    refine ⟨rfl, ?_⟩
    cases kind with
    | statusFile => cases h
    | _ => rfl
  | _ => exact ⟨rfl, rfl⟩

/-- Nor is what answers no request at all. -/
theorem neither_of_not_answersRequest {o : Output} (h : answersRequest o = false) :
    isAbortPacket o = false ∧ startsStatusFile o = false := by
  cases o with
  | abortOperation remote status => cases h
  | writeOperation remote operation kind => cases h
  | _ => exact ⟨rfl, rfl⟩

/-- The ABORT packets among the outputs. -/
def abortPackets (tr : List Output) : Nat := tr.countP isAbortPacket

/-- The aborts of a run that take effect. -/
def effectiveAborts (cfg : Configuration) (es : List Event) : Nat :=
  ((machine cfg).steps started es).countP fun (s, e) => (effectiveAbort cfg s e).isSome

/-- A write request for the status file, as an event. -/
def WritesStatusFile (cfg : Configuration) (e : Event) : Prop :=
  ∃ request, e = .tftpRequest request ∧ WritesStatus cfg request

/-- A read request for it that an information operation takes for one. -/
def ReadsStatusFile (cfg : Configuration) (e : Event) : Prop :=
  ∃ request, e = .tftpRequest request ∧ ReadsStatus cfg request

/-- The run takes an effective abort behind `pre`, and the next write request for
the status file behind `mid`. -/
structure NextRequest (cfg : Configuration) (es pre : List Event) (e : Event)
    (reason : AbortReason) (mid : List Event) (request : Request) : Prop where
  split : ∃ post, es = pre ++ e :: mid ++ .tftpRequest request :: post
  effective : ∃ s tr, (machine cfg).exec started pre = some (s, tr) ∧
    effectiveAbort cfg s e = some reason
  writes : WritesStatus cfg request
  next : ∀ f ∈ mid, ¬ WritesStatusFile cfg f

/-- What a run owes. -/
structure AbortLaw (cfg : Configuration) (es : List Event) (tr : List Output) : Prop where
  /-- An abort is pending until the next write request for the status file. -/
  pending : ∀ pre e reason mid request, NextRequest cfg es pre e reason mid request →
    ∀ mid₁ mid₂, mid = mid₁ ++ mid₂ → ∀ s tr,
      (machine cfg).exec started (pre ++ e :: mid₁) = some (s, tr) → s.abortReason = reason
  /-- That request gets the one ABORT, with the code of the reason, and clears it. -/
  delivered : ∀ pre e reason mid request, NextRequest cfg es pre e reason mid request →
    ∀ tr s s' out,
      (machine cfg).HasStep started es (pre ++ e :: mid) tr s (.tftpRequest request) s' out →
        out.filter answersRequest = [.abortOperation request.remote reason.statusCode] ∧
          s'.abortReason = .noAbort
  /-- Nothing is received while an abort is pending, and no abort replaces it. -/
  noTransfer : ∀ pre tr s e s' out, (machine cfg).HasStep started es pre tr s e s' out →
    s.abortReason ≠ .noAbort → ∀ o ∈ out, startsStatusFile o = false
  kept : ∀ pre tr s e s' out, (machine cfg).HasStep started es pre tr s e s' out →
    s.abortReason ≠ .noAbort → (∃ reason, reaction cfg s e = some (.abort reason)) →
      s'.abortReason = s.abortReason
  /-- An ABORT is sent for a pending abort only. -/
  sound : ∀ pre tr s e s' out, (machine cfg).HasStep started es pre tr s e s' out →
    (∃ o ∈ out, isAbortPacket o = true) → s.abortReason ≠ .noAbort
  count : abortPackets tr ≤ effectiveAborts cfg es

/-! ## What a step does to the pending abort -/

variable {cfg : Configuration} {s : State}

theorem abortReason_taken (s : State) (e : Event) :
    (taken s e).abortReason = s.abortReason := by
  rw [taken_eq]

/-- A step sends a pending abort, makes one pending, or leaves it alone. -/
inductive AbortStep (cfg : Configuration) (s : State) (e : Event) (s' : State)
    (out : List Output) : Prop where
  | sent (request : Request) (he : e = .tftpRequest request)
    (hrequest : RequestsStatus cfg request) (hpending : s.abortReason ≠ .noAbort)
    (hcleared : s'.abortReason = .noAbort)
    (hout : out = onlyWrites cfg.operation request ++
      [.abortOperation request.remote s.abortReason.statusCode,
        .timerArmed (dlpDeadline cfg s 0)])
  | effective (reason : AbortReason) (hreason : effectiveAbort cfg s e = some reason)
    (hstored : s'.abortReason = reason) (hout : ∀ o ∈ out, answersRequest o = false)
  | unchanged (hsame : s'.abortReason = s.abortReason)
    (hnone : effectiveAbort cfg s e = none)
    (hrequest : s.abortReason ≠ .noAbort →
      ∀ request, e = .tftpRequest request → ¬ RequestsStatus cfg request)
    (hout : ∀ o ∈ out, isAbortPacket o = false)
    (hquiet : s.abortReason ≠ .noAbort → ∀ o ∈ out, startsStatusFile o = false)

/-- A reaction that is no request changes the pending abort only by an abort. -/
theorem abortReason_state (cfg : Configuration) (s : State) {r : Reaction}
    (hr : ∀ request, r ≠ .request request) :
    (r.state cfg s).abortReason =
      match r with
      | .abort reason => if s.abortReason = .noAbort then reason else s.abortReason
      | _ => s.abortReason := by
  cases r with
  | request request => exact absurd rfl (hr request)
  | abort reason =>
    simp only [Reaction.state]
    split <;> rfl
  | send filename file =>
    show s.withoutSentFile.abortReason = s.abortReason
    rw [withoutSentFile_eq]
  | _ => rfl

/-- What a step with another reaction than the one to a request does. -/
theorem abortStep_of_reaction {e : Event} {r : Reaction} (h : reaction cfg s e = some r)
    (hr : ∀ request, r ≠ .request request) :
    AbortStep cfg s e (r.state cfg (taken s e)) (r.out cfg (taken s e)) := by
  have hout := not_answersRequest cfg (taken s e) hr
  have hstate := abortReason_state cfg (taken s e) hr
  rw [abortReason_taken] at hstate
  have hneither := fun o ho => neither_of_not_answersRequest (hout o ho)
  have hpackets : ∀ o ∈ r.out cfg (taken s e), isAbortPacket o = false :=
    fun o ho => (hneither o ho).1
  have hquiet : ∀ o ∈ r.out cfg (taken s e), startsStatusFile o = false :=
    fun o ho => (hneither o ho).2
  have hrequest : s.abortReason ≠ .noAbort →
      ∀ request, e = .tftpRequest request → ¬ RequestsStatus cfg request := by
    intro _ request he
    subst he
    simp only [reaction] at h
    split at h
    · exact absurd (Option.some.inj h).symm (hr request)
    · cases h
  cases r with
  | abort reason =>
    by_cases heffective : reason ≠ .noAbort ∧ s.abortReason = .noAbort
    · refine .effective reason ?_ ?_ hout
      · simp only [effectiveAbort, h, if_pos heffective]
      · rw [hstate]
        simp only [heffective.2, if_true]
    · refine .unchanged ?_ ?_ hrequest hpackets fun _ => hquiet
      · rw [hstate]
        by_cases hnone : s.abortReason = .noAbort
        · have hreason : reason = .noAbort := by
            by_contra hne
            exact heffective ⟨hne, hnone⟩
          simp only [hnone, if_true, hreason]
        · simp only [hnone, if_false]
      · simp only [effectiveAbort, h, if_neg heffective]
  | request request => exact absurd rfl (hr request)
  | _ =>
    refine .unchanged hstate ?_ hrequest hpackets fun _ => hquiet
    simp only [effectiveAbort, h]

/-- What a request does. -/
theorem abortStep_of_request {request : Request}
    (h : reaction cfg s (.tftpRequest request) = some (.request request)) :
    AbortStep cfg s (.tftpRequest request) ((Reaction.request request).state cfg s)
      ((Reaction.request request).out cfg s) := by
  have hnone : effectiveAbort cfg s (.tftpRequest request) = none := by
    simp only [effectiveAbort, h]
  have heffect := request_effect cfg s request
  generalize (Reaction.request request).state cfg s = t at heffect ⊢
  generalize (Reaction.request request).out cfg s = out at heffect ⊢
  cases heffect with
  | received hrequest hidle =>
    refine .unchanged rfl hnone (fun hpending => absurd hidle hpending) ?_
      (fun hpending => absurd hidle hpending)
    intro o ho
    rcases List.mem_append.mp ho with hmem | hmem
    · exact (neither_of_not_answersStatus (onlyWrites_not_answer _ request o hmem)).1
    · rw [List.mem_singleton.mp hmem]
      rfl
  | aborted hrequest hpending => exact .sent request rfl hrequest hpending rfl rfl
  | other hrequest ht hout =>
    refine .unchanged ?_ hnone ?_ ?_ ?_
    · rcases ht with rfl | ⟨checkValue, rfl⟩
      · rfl
      · rw [withListFile_eq]
    · intro _ request' he
      cases he
      exact hrequest
    · exact fun o ho => (neither_of_not_answersStatus (hout o ho)).1
    · exact fun _ o ho => (neither_of_not_answersStatus (hout o ho)).2

/-- **Steps**: every step does one of the three. -/
theorem abort_step (hs : Consistent s) {s' : State} {e : Event} {out : List Output}
    (h : (machine cfg).step s e = some (s', out)) : AbortStep cfg s e s' out := by
  obtain ⟨r, hr, rfl, rfl⟩ := (step_iff hs).mp h
  by_cases hrequest : ∃ request, r = .request request
  · obtain ⟨request, rfl⟩ := hrequest
    obtain ⟨rfl, -⟩ := causedBy_of_reaction hr
    exact abortStep_of_request hr
  · exact abortStep_of_reaction hr fun request heq => hrequest ⟨request, heq⟩

/-- An abort takes effect with a reason, and where none is pending. -/
theorem effectiveAbort_eq_some {e : Event} {reason : AbortReason}
    (h : effectiveAbort cfg s e = some reason) :
    reason ≠ .noAbort ∧ s.abortReason = .noAbort := by
  unfold effectiveAbort at h
  split at h
  · split at h
    · rename_i heffective
      cases h
      exact heffective
    · cases h
  · cases h

/-! ## The balance of aborts -/

theorem abortPackets_append (tr out : List Output) :
    abortPackets (tr ++ out) = abortPackets tr + abortPackets out := List.countP_append

theorem abortPackets_eq_zero {out : List Output} (h : ∀ o ∈ out, isAbortPacket o = false) :
    abortPackets out = 0 :=
  List.countP_eq_zero.mpr fun o ho => by simp [h o ho]

theorem effectiveAborts_append {es : List Event} {tr : List Output}
    (h : (machine cfg).exec started es = some (s, tr)) (e : Event) :
    effectiveAborts cfg (es ++ [e]) = effectiveAborts cfg es +
      if (effectiveAbort cfg s e).isSome then 1 else 0 := by
  rw [effectiveAborts, Machine.steps_append_singleton h, List.countP_append,
    List.countP_singleton]
  rfl

/-- The ABORT of a step that sends one. -/
theorem abortPackets_sent (request : Request) (status : StatusCode) (deadline : Nat) :
    abortPackets (onlyWrites cfg.operation request ++
      [.abortOperation request.remote status, .timerArmed deadline]) = 1 := by
  have hnone : abortPackets (onlyWrites cfg.operation request) = 0 := by
    apply abortPackets_eq_zero
    intro o ho
    exact (neither_of_not_answersStatus (onlyWrites_not_answer _ request o ho)).1
  rw [abortPackets_append, hnone]
  rfl

/-- **The balance**: the aborts that took effect are those that were sent and the one
that is pending. -/
theorem abortBalance_run {es : List Event} {tr : List Output}
    (h : (machine cfg).exec started es = some (s, tr)) :
    abortPackets tr + (if s.abortReason = .noAbort then 0 else 1) = effectiveAborts cfg es := by
  refine Machine.exec_history (fun es s tr => abortPackets tr +
    (if s.abortReason = .noAbort then 0 else 1) = effectiveAborts cfg es) rfl ?_ h
  intro es s tr e s' out hexec ih hstep
  rw [effectiveAborts_append hexec, abortPackets_append]
  cases abort_step (consistent_run hexec) hstep with
  | sent request he hrequest hpending hcleared hout =>
    have hnone : effectiveAbort cfg s e = none := by
      cases heffective : effectiveAbort cfg s e with
      | none => rfl
      | some reason => exact absurd (effectiveAbort_eq_some heffective).2 hpending
    rw [if_neg hpending] at ih
    rw [hout, abortPackets_sent, hcleared, hnone, if_pos rfl, ← ih]
    rfl
  | effective reason hreason hstored hout =>
    obtain ⟨hne, hidle⟩ := effectiveAbort_eq_some hreason
    have hzero : abortPackets out = 0 := by
      apply abortPackets_eq_zero
      exact fun o ho => (neither_of_not_answersRequest (hout o ho)).1
    rw [if_pos hidle] at ih
    rw [hzero, hstored, hreason, if_neg hne, ← ih]
    rfl
  | unchanged hsame hnone hrequest hout hquiet =>
    rw [abortPackets_eq_zero hout, hsame, hnone, ← ih]
    rfl

/-! ## Until the next request -/

/-- A pending abort stays pending as long as no request for the status file comes. -/
theorem pending_run {s' : State} {fs : List Event} {tr : List Output} (hs : Consistent s)
    (hpending : s.abortReason ≠ .noAbort)
    (hnone : ∀ f ∈ fs, ¬ WritesStatusFile cfg f ∧ ¬ ReadsStatusFile cfg f)
    (h : (machine cfg).exec s fs = some (s', tr)) : s'.abortReason = s.abortReason := by
  induction fs generalizing s tr with
  | nil =>
    simp only [Machine.exec_nil, Option.some.injEq, Prod.mk.injEq] at h
    rw [h.1]
  | cons f fs ih =>
    obtain ⟨s₁, out, rest, hstep, hrest, -⟩ := Machine.exec_cons.mp h
    have hkept : s₁.abortReason = s.abortReason := by
      cases abort_step hs hstep with
      | sent request he hrequest _ _ _ =>
        obtain ⟨hwrites, hreads⟩ := hnone f (by simp)
        rcases hrequest with hwrite | hread
        · exact absurd ⟨request, he, hwrite⟩ hwrites
        · exact absurd ⟨request, he, hread⟩ hreads
      | effective reason hreason _ _ =>
        exact absurd (effectiveAbort_eq_some hreason).2 hpending
      | unchanged hsame _ _ _ _ => exact hsame
    rw [← hkept] at hpending ⊢
    exact ih (consistent_step hs hstep) hpending (fun g hg => hnone g (by simp [hg])) hrest

/-- A request for the status file sends the pending abort. -/
theorem sent_step (hs : Consistent s) {s' : State} {request : Request} {out : List Output}
    (hrequest : RequestsStatus cfg request) (hpending : s.abortReason ≠ .noAbort)
    (h : (machine cfg).step s (.tftpRequest request) = some (s', out)) :
    s'.abortReason = .noAbort ∧ out = onlyWrites cfg.operation request ++
      [.abortOperation request.remote s.abortReason.statusCode,
        .timerArmed (dlpDeadline cfg s 0)] := by
  cases abort_step hs h with
  | sent request' he _ _ hcleared hout =>
    cases he
    exact ⟨hcleared, hout⟩
  | effective reason hreason _ _ =>
    exact absurd (effectiveAbort_eq_some hreason).2 hpending
  | unchanged _ _ hnot _ _ => exact absurd hrequest (hnot hpending request rfl)

/-- Nothing is received while an abort is pending. -/
theorem noTransfer_step (hs : Consistent s) {s' : State} {e : Event} {out : List Output}
    (hpending : s.abortReason ≠ .noAbort) (h : (machine cfg).step s e = some (s', out)) :
    ∀ o ∈ out, startsStatusFile o = false := by
  cases abort_step hs h with
  | sent request he hrequest _ _ hout =>
    intro o ho
    rw [hout] at ho
    rcases List.mem_append.mp ho with hmem | hmem
    · exact (neither_of_not_answersStatus (onlyWrites_not_answer _ request o hmem)).2
    · simp only [List.mem_cons, List.not_mem_nil, or_false] at hmem
      rcases hmem with rfl | rfl <;> rfl
  | effective reason hreason _ _ =>
    exact absurd (effectiveAbort_eq_some hreason).2 hpending
  | unchanged _ _ _ _ hquiet => exact hquiet hpending

/-- A further abort does not change the reason. -/
theorem kept_of_abort (hs : Consistent s) {s' : State} {e : Event} {out : List Output}
    (hpending : s.abortReason ≠ .noAbort)
    (habort : ∃ reason, reaction cfg s e = some (.abort reason))
    (h : (machine cfg).step s e = some (s', out)) : s'.abortReason = s.abortReason := by
  cases abort_step hs h with
  | sent request he _ _ _ _ =>
    obtain ⟨reason, hreason⟩ := habort
    subst he
    simp only [reaction] at hreason
    split at hreason <;> cases hreason
  | effective reason hreason _ _ =>
    exact absurd (effectiveAbort_eq_some hreason).2 hpending
  | unchanged hsame _ _ _ _ => exact hsame

/-- An ABORT is sent for a pending abort only. -/
theorem pending_of_packet (hs : Consistent s) {s' : State} {e : Event} {out : List Output}
    (hpacket : ∃ o ∈ out, isAbortPacket o = true)
    (h : (machine cfg).step s e = some (s', out)) : s.abortReason ≠ .noAbort := by
  obtain ⟨o, ho, hsent⟩ := hpacket
  cases abort_step hs h with
  | sent request he _ hpending _ _ => exact hpending
  | effective reason _ _ hout =>
    rw [(neither_of_not_answersRequest (hout o ho)).1] at hsent
    cases hsent
  | unchanged _ _ _ hout _ =>
    rw [hout o ho] at hsent
    cases hsent

/-- No read request for the status file comes between an abort and the next write
request for it. -/
def NoneReadFirst (cfg : Configuration) (es : List Event) : Prop :=
  ∀ pre e reason mid request, NextRequest cfg es pre e reason mid request →
    ∀ f ∈ mid, ¬ ReadsStatusFile cfg f

/-- Then the abort is pending until that request. -/
theorem pending_of_noneReadFirst {es : List Event} (hnone : NoneReadFirst cfg es)
    {pre : List Event} {e : Event} {reason : AbortReason} {mid : List Event} {request : Request}
    (hnext : NextRequest cfg es pre e reason mid request) {mid₁ mid₂ : List Event}
    (hmid : mid = mid₁ ++ mid₂) {s : State} {tr : List Output}
    (h : (machine cfg).exec started (pre ++ e :: mid₁) = some (s, tr)) :
    s.abortReason = reason := by
  obtain ⟨s₀, tr₀, hpre, heffective⟩ := hnext.effective
  obtain ⟨rest, hrest, -⟩ := Machine.exec_rest h hpre
  obtain ⟨s₂, out₂, rest₂, hstep, hmids, -⟩ := Machine.exec_cons.mp hrest
  obtain ⟨hreason, hidle⟩ := effectiveAbort_eq_some heffective
  have hs₀ := consistent_run hpre
  have hstored : s₂.abortReason = reason := by
    cases abort_step hs₀ hstep with
    | sent request he _ hpending _ _ => exact absurd hidle hpending
    | effective reason' hreason' hstored _ =>
      rw [heffective, Option.some.injEq] at hreason'
      rw [hstored, hreason']
    | unchanged _ hunchanged _ _ _ =>
      rw [heffective] at hunchanged
      cases hunchanged
  rw [← hstored] at hreason ⊢
  refine pending_run (consistent_step hs₀ hstep) hreason ?_ hmids
  intro f hf
  have hmem : f ∈ mid := by
    rw [hmid]
    exact List.mem_append_left _ hf
  exact ⟨hnext.next f hmem, hnone pre e reason mid request hnext f hmem⟩

/-- **Abort delivery**: a run keeps the law exactly if no read request for the status
file comes between an abort and the next write request for it. -/
theorem host_abortLaw_iff {es : List Event} {tr : List Output}
    (h : (machine cfg).exec started es = some (s, tr)) :
    AbortLaw cfg es tr ↔ NoneReadFirst cfg es := by
  constructor
  · intro hlaw pre e reason mid request hnext f hf hreads
    obtain ⟨mid₁, mid₂, hmid⟩ := List.append_of_mem hf
    obtain ⟨read, rfl, hread⟩ := hreads
    obtain ⟨post, hes⟩ := hnext.split
    obtain ⟨s₀, tr₀, -, heffective⟩ := hnext.effective
    have hreason := (effectiveAbort_eq_some heffective).1
    have hsplit : es = (pre ++ e :: mid₁) ++ .tftpRequest read ::
        (mid₂ ++ .tftpRequest request :: post) := by
      rw [hes, hmid]
      simp
    obtain ⟨tr₁, s₁, s₂, out, htaken⟩ := Machine.exists_hasStep h hsplit
    obtain ⟨-, -, hexec, hstep⟩ := htaken
    have hpending := hlaw.pending pre e reason mid request hnext mid₁ _ hmid s₁ tr₁ hexec
    rw [← hpending] at hreason
    -- The read request sends the abort, so it is not pending any more.
    have hcleared := (sent_step (consistent_run hexec) (.inr hread) hreason hstep).1
    have hexec₂ : (machine cfg).exec started (pre ++ e :: (mid₁ ++ [.tftpRequest read]))
        = some (s₂, tr₁ ++ out) := by
      rw [← List.cons_append, ← List.append_assoc]
      exact Machine.exec_append_singleton.mpr ⟨s₁, tr₁, out, hexec, hstep, rfl⟩
    have hstill := hlaw.pending pre e reason mid request hnext (mid₁ ++ [.tftpRequest read])
      mid₂ (by simp [hmid]) s₂ _ hexec₂
    rw [hcleared, ← hpending] at hstill
    exact hreason hstill.symm
  · intro hnone
    constructor
    · intro pre e reason mid request hnext mid₁ mid₂ hmid s tr hexec
      exact pending_of_noneReadFirst hnone hnext hmid hexec
    · intro pre e reason mid request hnext tr s s' out htaken
      obtain ⟨-, -, hexec, hstep⟩ := htaken
      have hpending := pending_of_noneReadFirst hnone hnext (List.append_nil mid).symm hexec
      obtain ⟨s₀, tr₀, -, heffective⟩ := hnext.effective
      have hreason := (effectiveAbort_eq_some heffective).1
      rw [← hpending] at hreason
      obtain ⟨hcleared, hout⟩ :=
        sent_step (consistent_run hexec) (.inl hnext.writes) hreason hstep
      have hwrites : onlyWrites cfg.operation request = [] := by
        simp [onlyWrites, hnext.writes.2.2]
      rw [hwrites, List.nil_append] at hout
      refine ⟨?_, hcleared⟩
      rw [hout, hpending]
      rfl
    · intro pre tr s e s' out htaken hpending
      obtain ⟨-, -, hexec, hstep⟩ := htaken
      exact noTransfer_step (consistent_run hexec) hpending hstep
    · intro pre tr s e s' out htaken hpending habort
      obtain ⟨-, -, hexec, hstep⟩ := htaken
      exact kept_of_abort (consistent_run hexec) hpending habort hstep
    · intro pre tr s e s' out htaken hpacket
      obtain ⟨-, -, hexec, hstep⟩ := htaken
      exact pending_of_packet (consistent_run hexec) hpacket hstep
    · have hbalance := abortBalance_run h
      omega

/-- The abort of an upload is delivered with the next status file. -/
theorem host_abort_delivered :
    ∃ s tr, (machine (exampleConfiguration .upload)).exec started
        [.abort .operator, .tftpRequest (exampleRequest .write "HNPFMS_L.LUS")] = some (s, tr) ∧
      AbortLaw (exampleConfiguration .upload)
        [.abort .operator, .tftpRequest (exampleRequest .write "HNPFMS_L.LUS")] tr := by
  have hrun : ∃ s tr, (machine (exampleConfiguration .upload)).exec started
      [.abort .operator, .tftpRequest (exampleRequest .write "HNPFMS_L.LUS")]
        = some (s, tr) := ⟨_, _, rfl⟩
  obtain ⟨s, tr, h⟩ := hrun
  refine ⟨s, tr, h, (host_abortLaw_iff h).mpr ?_⟩
  intro pre e reason mid request hnext f hf hreads
  obtain ⟨read, rfl, -, -, hop, -⟩ := hreads
  cases hop

/-- An information operation answers a read request for its status file with the
abort; the status file that comes next is received. -/
theorem host_abort_not_delivered :
    ∃ tr s s' out, (machine (exampleConfiguration .information)).HasStep started
        [.abort .operator, .tftpRequest (exampleRequest .read "HNPFMS_L.LCS"),
          .tftpRequest (exampleRequest .write "HNPFMS_L.LCS")]
        [.abort .operator, .tftpRequest (exampleRequest .read "HNPFMS_L.LCS")]
        tr s (.tftpRequest (exampleRequest .write "HNPFMS_L.LCS")) s' out ∧
      NextRequest (exampleConfiguration .information)
        [.abort .operator, .tftpRequest (exampleRequest .read "HNPFMS_L.LCS"),
          .tftpRequest (exampleRequest .write "HNPFMS_L.LCS")]
        [] (.abort .operator) .operator [.tftpRequest (exampleRequest .read "HNPFMS_L.LCS")]
        (exampleRequest .write "HNPFMS_L.LCS") ∧
      out = [.writeOperation ⟨0, 59⟩ 1 .statusFile] := by
  refine ⟨_, _, _, _, ⟨[], rfl, rfl, rfl⟩, ⟨⟨[], rfl⟩, ⟨_, _, rfl, rfl⟩, by decide, ?_⟩, rfl⟩
  intro f hf hwrites
  rw [List.mem_singleton.mp hf] at hwrites
  obtain ⟨request, hsame, -, -, hwrite⟩ := hwrites
  cases hsame
  cases hwrite

end Arinc615a.Host
