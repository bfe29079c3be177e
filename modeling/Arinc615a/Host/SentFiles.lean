import Arinc615a.Host.Callbacks
import Arinc615a.Lib.Keyed

/-!
# The list that a host operation sends

The load list, the download request and the download answer. The flag that
guards a second call is set by the completion of the transfer, so a call may
find the file in flight: it replaces the client operation, which aborts its
transfer when it is destroyed. The member refers to the only transfer there is
(`SentFiles`).
-/

namespace Arinc615a.Host

open Actions Actions.Action Machines
open Files Tftp

/-! ## The law -/

/-- The transfer of the file that the operation sends. -/
def isSentFile (t : Transfer) : Bool := t.kind = .sentFile

/-- The write operations for that file which are in flight. -/
def sentFiles (s : State) : List TransferId := (s.transfers.filter isSentFile).map (·.id)

/-- A write operation for it is started. -/
def startsSentFile : Output → Bool
  | .clientWriteOperation _ _ _ => true
  | _ => false

/-- The event completes it with success. -/
def CompletesSentFile (s : State) (e : Event) : Prop :=
  ∃ operation data t, e = .clientCompleted operation .successful data ∧
    transfer? s operation = some t ∧ t.kind = .sentFile

/-- What a run owes. -/
structure SentLaw (cfg : Configuration) (es : List Event) (s : State) : Prop where
  /-- At most one write operation is in flight, and the member refers to it. -/
  single : (sentFiles s).length ≤ 1
  refers : ∀ operation ∈ sentFiles s, s.sentFileOperation = some operation
  /-- One that a call finds in flight is aborted before the new one is started. -/
  replaced : ∀ pre tr s e s' out, (machine cfg).HasStep started es pre tr s e s' out →
    ∀ before o after, out = before ++ o :: after → startsSentFile o = true →
      ∀ operation ∈ sentFiles s, .abortTransfer operation ∈ before
  /-- Behind a successful completion, none is started any more. -/
  once : ∀ pre tr s e s' out, (machine cfg).HasStep started es pre tr s e s' out →
    CompletesSentFile s e → ∀ post sₑ trₑ, (machine cfg).exec s' post = some (sₑ, trₑ) →
      ∀ o ∈ trₑ, startsSentFile o = false

/-! ## The invariant -/

variable {cfg : Configuration} {s : State}

/-- The numbers of transfers are unique, and the member holds the one of the file
that is sent. -/
structure SentFiles (s : State) : Prop where
  lt : ∀ t ∈ s.transfers, t.id < s.nextTransfer
  nodup : (s.transfers.map (·.id)).Nodup
  sentFiles_eq : sentFiles s = s.sentFileOperation.toList

theorem sentFiles_started : SentFiles started where
  lt := by simp [started]
  nodup := by simp [started]
  sentFiles_eq := rfl

/-- What has the same transfers and the same member. -/
theorem SentFiles.of_eq {t : State} (h : SentFiles s) (htransfers : t.transfers = s.transfers)
    (hnext : t.nextTransfer = s.nextTransfer)
    (hsent : t.sentFileOperation = s.sentFileOperation) : SentFiles t where
  lt := by
    rw [htransfers, hnext]
    exact h.lt
  nodup := by
    rw [htransfers]
    exact h.nodup
  sentFiles_eq := by
    rw [sentFiles, htransfers, hsent]
    exact h.sentFiles_eq

/-- A new transfer of another kind. -/
theorem SentFiles.withTransfer (h : SentFiles s) {kind : TransferKind}
    (hkind : kind ≠ .sentFile) : SentFiles (s.withTransfer kind) where
  lt := by
    intro t ht
    rcases List.mem_cons.mp ht with rfl | ht
    · exact Nat.lt_succ_self _
    · exact Nat.lt_succ_of_lt (h.lt t ht)
  nodup := Keyed.nodup_cons h.nodup fun t ht => (h.lt t ht).ne
  sentFiles_eq := by
    refine Eq.trans ?_ h.sentFiles_eq
    show ((_ :: s.transfers).filter isSentFile).map _ = _
    rw [List.filter_cons_of_neg (by simpa [isSentFile] using hkind)]
    rfl

/-- An abort of a list transfer keeps numbers and kinds. -/
theorem SentFiles.withListAborted (h : SentFiles s) : SentFiles s.withListAborted := by
  unfold State.withListAborted
  split
  · exact h
  · rename_i operation _
    have hid : ∀ t : Transfer,
        (if t.id = operation then { t with aborted := true } else t).id = t.id := by
      intro t
      split <;> rfl
    have hkind : ∀ t : Transfer,
        isSentFile (if t.id = operation then { t with aborted := true } else t)
          = isSentFile t := by
      intro t
      split <;> rfl
    constructor
    · intro t ht
      obtain ⟨u, hu, rfl⟩ := List.mem_map.mp ht
      rw [hid]
      exact h.lt u hu
    · show ((abortTransfer operation s.transfers).map (·.id)).Nodup
      rw [abortTransfer, List.map_map]
      simpa [Function.comp_def, hid] using h.nodup
    · refine Eq.trans ?_ h.sentFiles_eq
      show ((abortTransfer operation s.transfers).filter isSentFile).map _ = _
      rw [abortTransfer, List.filter_map, List.map_map]
      simp [Function.comp_def, hid, hkind, sentFiles]

/-- The file that is sent is replaced: its transfer is gone. -/
theorem SentFiles.withoutSentFile (h : SentFiles s) :
    (∀ t ∈ s.withoutSentFile.transfers, t.id < s.nextTransfer) ∧
      (s.withoutSentFile.transfers.map (·.id)).Nodup ∧ sentFiles s.withoutSentFile = [] := by
  unfold State.withoutSentFile
  cases hsent : s.sentFileOperation with
  | none =>
    refine ⟨h.lt, h.nodup, ?_⟩
    rw [h.sentFiles_eq, hsent]
    rfl
  | some operation =>
    have hsingle : sentFiles s = [operation] := by
      rw [h.sentFiles_eq, hsent]
      rfl
    refine ⟨fun t ht => h.lt t (List.mem_filter.mp ht).1, Keyed.nodup_filter h.nodup _, ?_⟩
    show ((s.transfers.filter fun t => t.id ≠ operation).filter isSentFile).map _ = []
    rw [Keyed.filter_remove_of_single hsingle]
    rfl

/-- And the member refers to the new one. -/
theorem SentFiles.send (h : SentFiles s) : SentFiles
    { s.withoutSentFile.withTransfer .sentFile with
      sentFileOperation := some s.nextTransfer } := by
  obtain ⟨hlt, hnodup, hnone⟩ := h.withoutSentFile
  have hnext : s.withoutSentFile.nextTransfer = s.nextTransfer := by
    rw [withoutSentFile_eq]
  constructor
  · intro t ht
    show t.id < s.withoutSentFile.nextTransfer + 1
    rw [hnext]
    rcases List.mem_cons.mp ht with rfl | ht
    · rw [hnext]
      exact Nat.lt_succ_self _
    · exact Nat.lt_succ_of_lt (hlt t ht)
  · refine Keyed.nodup_cons hnodup fun t ht => ?_
    show t.id ≠ s.withoutSentFile.nextTransfer
    rw [hnext]
    exact (hlt t ht).ne
  · show ((_ :: s.withoutSentFile.transfers).filter isSentFile).map _ = [s.nextTransfer]
    rw [List.filter_cons_of_pos (by simp [isSentFile]), List.map_cons, hnext]
    exact congrArg _ hnone

/-- A completed transfer leaves the member alone, unless it is the file that is sent. -/
theorem SentFiles.completed (h : SentFiles s) {operation : TransferId} {t : Transfer}
    (ht : transfer? s operation = some t) : SentFiles (s.completed operation t.kind) := by
  obtain ⟨hmem, rfl⟩ := transfer?_mem ht
  have hlt : ∀ u ∈ (s.withoutTransfer t.id).transfers, u.id < s.nextTransfer :=
    fun u hu => h.lt u (List.mem_filter.mp hu).1
  have hnodup : ((s.withoutTransfer t.id).transfers.map (·.id)).Nodup :=
    Keyed.nodup_filter h.nodup _
  by_cases hkind : t.kind = .sentFile
  · have hsingle : sentFiles s = [t.id] := by
      have hmember : t.id ∈ sentFiles s :=
        List.mem_map_of_mem (List.mem_filter.mpr ⟨hmem, by simp [isSentFile, hkind]⟩)
      rw [h.sentFiles_eq, Option.mem_toList] at hmember
      rw [h.sentFiles_eq, hmember]
      rfl
    rw [hkind]
    refine ⟨hlt, hnodup, ?_⟩
    show (((s.transfers.filter fun u => u.id ≠ t.id).filter isSentFile).map (·.id)) = []
    rw [Keyed.filter_remove_of_single hsingle]
    rfl
  · have hsame : sentFiles (s.withoutTransfer t.id) = sentFiles s := by
      show (((s.transfers.filter fun u => u.id ≠ t.id).filter isSentFile).map (·.id)) = _
      rw [Keyed.filter_remove_of_not h.nodup hmem (by simpa [isSentFile] using hkind)]
      rfl
    have hrest : SentFiles (s.withoutTransfer t.id) := ⟨hlt, hnodup, hsame.trans h.sentFiles_eq⟩
    cases hk : t.kind with
    | sentFile => exact absurd hk hkind
    | _ => exact hrest.of_eq rfl rfl rfl

theorem SentFiles.taken (h : SentFiles s) (e : Event) : SentFiles (taken s e) := by
  have hcompleted : ∀ operation, SentFiles (s.afterCompletion operation) := by
    intro operation
    unfold State.afterCompletion
    split
    · exact h
    · rename_i t ht
      exact h.completed ht
  cases e with
  | clientCompleted operation status data => exact hcompleted operation
  | serverCompleted operation status data => exact hcompleted operation
  | _ => exact h.of_eq rfl rfl rfl

theorem SentFiles.reaction (h : SentFiles s) (r : Reaction) : SentFiles (r.state cfg s) := by
  cases r with
  | request request =>
    refine request_state request h (fun _ => ?_) (fun _ => h.of_eq rfl rfl rfl) ?_
    · have hstatus : SentFiles (s.withTransfer .statusFile) := h.withTransfer (by simp)
      exact hstatus.of_eq rfl rfl rfl
    · intro checkValue
      have hlist : SentFiles (s.withListAborted.withTransfer (.listFile checkValue)) :=
        h.withListAborted.withTransfer (by simp)
      exact hlist.of_eq rfl rfl rfl
  | abort reason =>
    simp only [Reaction.state]
    split
    · exact h.of_eq rfl rfl rfl
    · exact h
  | send filename file => exact h.send
  | _ => exact h.of_eq rfl rfl rfl

/-- **The invariant** holds in every state of every run. -/
theorem sentFiles_run {es : List Event} {tr : List Output}
    (h : (machine cfg).exec started es = some (s, tr)) : SentFiles s := by
  refine Machine.exec_history (fun _ s _ => SentFiles s) sentFiles_started ?_ h
  intro es s tr e s' out hexec hs hstep
  obtain ⟨r, -, rfl, -⟩ := (step_iff (consistent_run hexec)).mp hstep
  exact (hs.taken e).reaction r

/-! ## The flag -/

theorem sent_taken (s : State) (e : Event) : (taken s e).sent = s.sent := by
  rw [taken_eq]

/-- No reaction resets the flag. -/
theorem sent_state (r : Reaction) (hsent : s.sent = true) : (r.state cfg s).sent = true := by
  cases r with
  | request request =>
    refine request_state (P := fun t => t.sent = true) request hsent (fun _ => hsent)
      (fun _ => hsent) ?_
    intro checkValue
    rw [withListFile_eq]
    exact hsent
  | abort reason =>
    simp only [Reaction.state]
    split <;> exact hsent
  | send filename file =>
    show s.withoutSentFile.sent = true
    rw [withoutSentFile_eq]
    exact hsent
  | sent => rfl
  | _ => exact hsent

/-- Aborting the old operation starts none. -/
theorem sentFileAborts_not_starts : ∀ o ∈ sentFileAborts s, startsSentFile o = false := by
  intro o ho
  unfold sentFileAborts at ho
  split at ho
  · cases ho
  · rw [List.mem_singleton.mp ho]
    rfl

/-- Only the reaction to send starts the write operation. -/
theorem send_of_startsSentFile {r : Reaction} {o : Output} (ho : o ∈ r.out cfg s)
    (hstarts : startsSentFile o = true) : ∃ filename file, r = .send filename file := by
  have hnot : startsSentFile o ≠ false := by simp [hstarts]
  have haborts : o ∉ initialisationAborts s := by
    intro hmem
    unfold initialisationAborts at hmem
    split at hmem
    · cases hmem
    · rw [List.mem_singleton.mp hmem] at hstarts
      cases hstarts
  cases r with
  | send filename file => exact ⟨filename, file, rfl⟩
  | request request =>
    exact absurd (request_outputs (P := fun o => startsSentFile o = false) request
      (fun _ _ => rfl) rfl rfl rfl rfl (fun _ => rfl) (fun _ => rfl) o ho) hnot
  | nothing => cases ho
  | sent => cases ho
  | terminate reason =>
    rcases List.mem_append.mp ho with hmem | hmem
    · exact absurd hmem haborts
    · rw [List.mem_singleton.mp hmem] at hstarts
      cases hstarts
  | abort reason =>
    simp only [Reaction.out] at ho
    split at ho
    · exact absurd ho haborts
    · cases ho
  | call call =>
    rw [List.mem_singleton.mp ho] at hstarts
    cases call <;> cases hstarts
  | _ =>
    rw [List.mem_singleton.mp ho] at hstarts
    cases hstarts

/-- Only a call that sends starts the write operation, where the flag is not set,
and aborts what it finds in flight. -/
theorem startsSentFile_step (hs : Consistent s) {s' : State} {e : Event} {out : List Output}
    (h : (machine cfg).step s e = some (s', out)) {o : Output} (ho : o ∈ out)
    (hstarts : startsSentFile o = true) :
    s.sent = false ∧ out = sentFileAborts s ++ [o] := by
  obtain ⟨r, hr, -, rfl⟩ := (step_iff hs).mp h
  obtain ⟨filename, file, rfl⟩ := send_of_startsSentFile ho hstarts
  obtain ⟨he, hsent⟩ := causedBy_of_reaction hr
  have htaken : taken s e = s := by
    cases e <;> first | rfl | cases he
  rw [htaken] at ho ⊢
  refine ⟨hsent, ?_⟩
  show _ = _
  rcases List.mem_append.mp ho with haborts | hlast
  · rw [sentFileAborts_not_starts o haborts] at hstarts
    cases hstarts
  · rw [List.mem_singleton.mp hlast]
    rfl

/-- A successful completion sets the flag. -/
theorem sent_completed (hs : Consistent s) {s' : State} {e : Event} {out : List Output}
    (h : (machine cfg).step s e = some (s', out)) (hcompletes : CompletesSentFile s e) :
    s'.sent = true := by
  obtain ⟨operation, data, t, rfl, ht, hkind⟩ := hcompletes
  obtain ⟨r, hr, rfl, -⟩ := (step_iff hs).mp h
  have hsent : r = .sent := by
    simp only [reaction, ht, Option.bind_some, hkind] at hr
    split at hr
    · exact (Option.some.inj hr).symm
    · cases hr
  rw [hsent]
  rfl

/-- Once it is set, nothing is started in the rest of a run. -/
theorem not_starts_of_sent {sₑ : State} {es : List Event} {tr : List Output}
    (hs : Consistent s) (hsent : s.sent = true)
    (h : (machine cfg).exec s es = some (sₑ, tr)) : ∀ o ∈ tr, startsSentFile o = false := by
  induction es generalizing s tr with
  | nil =>
    simp only [Machine.exec_nil, Option.some.injEq, Prod.mk.injEq] at h
    rw [← h.2]
    intro o ho
    cases ho
  | cons e es ih =>
    obtain ⟨s₁, out, rest, hstep, hrest, rfl⟩ := Machine.exec_cons.mp h
    have hkept : s₁.sent = true := by
      obtain ⟨r, -, rfl, -⟩ := (step_iff hs).mp hstep
      apply sent_state
      rw [sent_taken]
      exact hsent
    intro o ho
    rcases List.mem_append.mp ho with ho | ho
    · rw [Bool.eq_false_iff]
      intro hstarts
      obtain ⟨hnot, -⟩ := startsSentFile_step hs hstep ho hstarts
      rw [hsent] at hnot
      cases hnot
    · exact ih (consistent_step hs hstep) hkept hrest o ho

/-- What is aborted before a new operation starts is all that is in flight. -/
theorem abort_before_start (hs : SentFiles s) {before after : List Output} {o o' : Output}
    (hout : before ++ o :: after = sentFileAborts s ++ [o']) (hstarts : startsSentFile o = true) :
    ∀ operation ∈ sentFiles s, .abortTransfer operation ∈ before := by
  have hbefore : before = sentFileAborts s := by
    rcases List.eq_nil_or_concat' after with rfl | ⟨rest, last, rfl⟩
    · exact (List.append_inj' hout rfl).1
    · -- The one that starts would be among the aborts.
      rw [← List.cons_append, ← List.append_assoc] at hout
      have haborts := (List.append_inj' hout rfl).1
      have hmem : o ∈ sentFileAborts s := by simp [← haborts]
      rw [sentFileAborts_not_starts o hmem] at hstarts
      cases hstarts
  intro operation hoperation
  rw [hs.sentFiles_eq, Option.mem_toList] at hoperation
  rw [hbefore, sentFileAborts, hoperation]
  exact List.mem_singleton_self _

/-- **The list is sent once**: every run keeps the law. -/
theorem host_sentLaw {es : List Event} {tr : List Output}
    (h : (machine cfg).exec started es = some (s, tr)) : SentLaw cfg es s where
  single := by
    rw [(sentFiles_run h).sentFiles_eq]
    cases s.sentFileOperation <;> simp
  refers := by
    intro operation hoperation
    rwa [(sentFiles_run h).sentFiles_eq, Option.mem_toList] at hoperation
  replaced := by
    rintro pre tr s e s' out ⟨post, -, hpre, hstep⟩ before o after hout hstarts
    have ho : o ∈ out := by simp [hout]
    obtain ⟨-, haborts⟩ := startsSentFile_step (consistent_run hpre) hstep ho hstarts
    exact abort_before_start (sentFiles_run hpre) (hout.symm.trans haborts) hstarts
  once := by
    rintro pre tr s e s' out ⟨post, -, hpre, hstep⟩ hcompletes rest sₑ trₑ hrest
    have hs := consistent_run hpre
    exact not_starts_of_sent (consistent_step hs hstep) (sent_completed hs hstep hcompletes) hrest

/-- A second call replaces the load list in flight; behind the successful completion
a third one sends nothing. -/
theorem host_sentLaw_upload :
    ∃ s tr, (machine (exampleConfiguration .upload)).exec started
        [.loadList [], .loadList [], .clientCompleted 2 .successful [], .loadList []]
        = some (s, tr) ∧
      SentLaw (exampleConfiguration .upload)
        [.loadList [], .loadList [], .clientCompleted 2 .successful [], .loadList []] s :=
  ⟨_, _, rfl, host_sentLaw rfl⟩

end Arinc615a.Host
