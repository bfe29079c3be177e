import Arinc615a.Host.Steps

/-!
# Calls of the user's handler

What the operation continues with when a call of the user's handler returns is
what it called the handler for (`called_of_callback`): the call was made by the
completion of a transfer, and since then only the user acted and time passed.
-/

namespace Arinc615a.Host

open Actions Actions.Action Machines Readers
open Files Information Tftp

variable {cfg : Configuration} {s : State}

/-! ## The call that has not returned -/

/-- An event leaves the call alone, unless it ends it. -/
theorem callback_taken {e : Event} (hreturned : e ≠ .callbackReturned)
    (hthrew : e ≠ .callbackThrew) : (taken s e).callback = s.callback := by
  have hcompleted : ∀ operation, (s.afterCompletion operation).callback = s.callback := by
    intro operation
    rw [afterCompletion_eq]
  cases e with
  | clientCompleted operation status data => exact hcompleted operation
  | serverCompleted operation status data => exact hcompleted operation
  | callbackReturned => exact absurd rfl hreturned
  | callbackThrew => exact absurd rfl hthrew
  | _ => rfl

/-- A reaction leaves the call alone, unless it makes one. -/
theorem callback_state (r : Reaction) :
    (r.state cfg s).callback =
      match r with
      | .call call => some call.continuation
      | _ => s.callback := by
  cases r with
  | request request =>
    refine request_state (P := fun t => t.callback = s.callback) request rfl (fun _ => rfl)
      (fun _ => rfl) ?_
    intro checkValue
    rw [withListFile_eq]
  | abort reason =>
    simp only [Reaction.state]
    split <;> rfl
  | send filename file =>
    show s.withoutSentFile.callback = s.callback
    rw [withoutSentFile_eq]
  | _ => rfl

/-- What can happen while the user's handler is called: the user acts, time
passes and the timer may expire. -/
def Event.duringCallback : Event → Bool
  | timerExpired => true
  | timerFailed => true
  | abort _ => true
  | terminate _ => true
  | loadList _ => true
  | request _ _ => true
  | answer _ => true
  | advance _ => true
  | _ => false

theorem duringCallback_of_reaction {e : Event} {r : Reaction} {c : Continuation}
    (h : reaction cfg s e = some r) (hcallback : s.callback = some c) :
    e.duringCallback ∨ e = .callbackReturned ∨ e = .callbackThrew := by
  have hbusy : s.callback ≠ none := by simp [hcallback]
  cases reacts_of_reaction h with
  | request hidle hrunning => exact absurd hidle hbusy
  | deferred hidle => exact absurd hidle hbusy
  | initialisation hidle ht hkind hr => exact absurd hidle hbusy
  | sentFile hidle ht hkind => exact absurd hidle hbusy
  | statusFile hidle ht hkind hr => exact absurd hidle hbusy
  | listFile hidle ht hkind hr => exact absurd hidle hbusy
  | timerHandler hidle hhead => exact absurd hidle hbusy
  | returned _ => exact .inr (.inl rfl)
  | threw _ => exact .inr (.inr rfl)
  | send he hr => cases e <;> first | exact .inl rfl | cases he
  | _ => exact .inl rfl

/-- The end of a call makes no other one. -/
theorem returnReaction_not_call (c : Continuation) (call : Call) :
    returnReaction s c ≠ .call call := by
  intro h
  cases c with
  | initialisationResponse initFile =>
    cases hcode : initFile.response.code <;> simp [returnReaction, hcode] at h
  | status status => cases hcode : status.code <;> simp [returnReaction, statusReaction, hcode] at h
  | targetInformation =>
    simp only [returnReaction] at h
    split at h <;> cases h
  | downloadingList => cases h

theorem throwReaction_not_call (c : Continuation) (call : Call) :
    throwReaction s c ≠ .call call := by
  intro h
  cases c with
  | targetInformation =>
    simp only [throwReaction] at h
    split at h <;> cases h
  | _ => cases h

/-- Behind a step, the handler is called if the step calls it, or was called before
and has not returned. -/
theorem callback_step (hs : Consistent s) {s' : State} {e : Event} {out : List Output}
    {c : Continuation} (h : (machine cfg).step s e = some (s', out))
    (hcallback : s'.callback = some c) :
    (∃ call : Call, reaction cfg s e = some (.call call) ∧ call.continuation = c ∧
        out = [call.output]) ∨
      (s.callback = some c ∧ e.duringCallback) := by
  obtain ⟨r, hr, rfl, rfl⟩ := (step_iff hs).mp h
  by_cases hcall : ∃ call, r = .call call
  · obtain ⟨call, rfl⟩ := hcall
    rw [callback_state] at hcallback
    exact .inl ⟨call, hr, Option.some.inj hcallback, rfl⟩
  · have hsame : (taken s e).callback = some c := by
      rw [← hcallback, callback_state]
      cases r with
      | call call => exact absurd ⟨call, rfl⟩ hcall
      | _ => rfl
    right
    by_cases hends : e = .callbackReturned ∨ e = .callbackThrew
    · rcases hends with rfl | rfl <;> cases hsame
    · obtain ⟨hreturned, hthrew⟩ := not_or.mp hends
      rw [callback_taken hreturned hthrew] at hsame
      refine ⟨hsame, ?_⟩
      rcases duringCallback_of_reaction hr hsame with hduring | hreturn | hthrow
      · exact hduring
      · exact absurd hreturn hreturned
      · exact absurd hthrow hthrew

/-- A step of the run made the call, and since then only the user acted. -/
def Called (cfg : Configuration) (es : List Event) (c : Continuation) : Prop :=
  ∃ pre tr s e s' call mid, es = pre ++ e :: mid ∧
    (machine cfg).HasStep started es pre tr s e s' [call.output] ∧
    reaction cfg s e = some (.call call) ∧ call.continuation = c ∧
    ∀ f ∈ mid, Event.duringCallback f

/-- A call that goes on behind an event was made by the same step. -/
theorem Called.append {es : List Event} {e : Event} {c : Continuation} (h : Called cfg es c)
    (he : e.duringCallback) : Called cfg (es ++ [e]) c := by
  obtain ⟨pre, tr, s, e₁, s', call, mid, rfl, htaken, hr, hcall, hmid⟩ := h
  refine ⟨pre, tr, s, e₁, s', call, mid ++ [e], by simp, htaken.append [e], hr, hcall, ?_⟩
  intro f hf
  rcases List.mem_append.mp hf with hf | hf
  · exact hmid f hf
  · rw [List.mem_singleton.mp hf]
    exact he

/-- **Calls**: every call that has not returned was made by a step of the run. -/
theorem called_of_callback {es : List Event} {tr : List Output} {c : Continuation}
    (h : (machine cfg).exec started es = some (s, tr)) (hcallback : s.callback = some c) :
    Called cfg es c := by
  refine Machine.exec_history (fun es s _ => ∀ c, s.callback = some c → Called cfg es c)
    ?_ ?_ h c hcallback
  · intro c hc
    cases hc
  · intro es s tr e s' out hexec ih hstep c hc
    rcases callback_step (consistent_run hexec) hstep hc with
      ⟨call, hr, hcall, rfl⟩ | ⟨hbefore, hduring⟩
    · exact ⟨es, tr, s, e, s', call, [], rfl, Machine.hasStep_last hexec hstep, hr, hcall,
        by simp⟩
    · exact (ih c hbefore).append hduring

/-! ## What makes the calls -/

/-- The event completes a transfer of a status file with success, and the file
decodes to the status. -/
def StatusFileCompleted (cfg : Configuration) (s : State) (e : Event)
    (statusFile : OperationStatus) : Prop :=
  ∃ operation data t rest, e = .serverCompleted operation .successful data ∧
    transfer? s operation = some t ∧ t.kind = .statusFile ∧
    decodeStatus cfg.operation data = .done (statusFile, rest)

/-- The event completes a transfer of a load configuration list with success, and
the file decodes to the list. -/
def ListFileCompleted (s : State) (e : Event) (listFile : LoadConfigurationListFile) : Prop :=
  ∃ operation data t checkValue rest, e = .serverCompleted operation .successful data ∧
    transfer? s operation = some t ∧ t.kind = .listFile checkValue ∧
    LoadConfigurationListFile.decode {} data = .done (listFile, rest)

/-- The completion of a transfer calls the user's handler. -/
inductive CalledBy (cfg : Configuration) (s : State) (call : Call) : Event → Prop where
  | initialisation {operation : TransferId} {status : TransferStatus} {data : RawData}
    (h : initialisationReaction status data = some (.call call)) :
    CalledBy cfg s call (.clientCompleted operation status data)
  | statusFile {operation : TransferId} {status : LibraryTransferStatus} {data : RawData}
    {t : Transfer} (ht : transfer? s operation = some t) (hkind : t.kind = .statusFile)
    (h : statusFileReaction cfg.operation status data = some (.call call)) :
    CalledBy cfg s call (.serverCompleted operation status data)
  | listFile {operation : TransferId} {status : LibraryTransferStatus} {data : RawData}
    {t : Transfer} {checkValue : CheckValue} (ht : transfer? s operation = some t)
    (hkind : t.kind = .listFile checkValue)
    (h : listFileReaction cfg s checkValue status data = some (.call call)) :
    CalledBy cfg s call (.serverCompleted operation status data)

/-- Nothing else calls it. -/
theorem calledBy_of_reaction {e : Event} {call : Call}
    (h : reaction cfg s e = some (.call call)) : CalledBy cfg s call e := by
  obtain ⟨r, hr⟩ : ∃ r, r = Reaction.call call := ⟨_, rfl⟩
  rw [← hr] at h
  cases reacts_of_reaction h with
  | initialisation hidle ht hkind hcall => exact .initialisation (hr ▸ hcall)
  | statusFile hidle ht hkind hcall => exact .statusFile ht hkind (hr ▸ hcall)
  | listFile hidle ht hkind hcall => exact .listFile ht hkind (hr ▸ hcall)
  | sentFile hidle ht hkind => split at hr <;> cases hr
  | @timerHandler result hidle hhead => cases result <;> cases hr
  | returned hcallback => exact absurd hr (returnReaction_not_call _ call)
  | threw hcallback => exact absurd hr (throwReaction_not_call _ call)
  | send he hsend =>
    rcases sendReaction_eq_some hsend with rfl | ⟨e, rfl⟩ | ⟨filename, file, rfl⟩ <;> cases hr
  | _ => cases hr

/-- The call of a completed initialisation file. -/
theorem initialisationReaction_call {status : TransferStatus} {data : RawData} {call : Call}
    (h : initialisationReaction status data = some (.call call)) :
    ∃ initFile, call = .initialisationResponse initFile := by
  simp only [initialisationReaction] at h
  split at h
  · cases h
  · cases hdecode : InitializationFile.decode {} data with
    | done r =>
      obtain ⟨initFile, rest⟩ := r
      simp only [hdecode, Option.some.injEq, Reaction.call.injEq] at h
      exact ⟨initFile, h.symm⟩
    | _ => simp [hdecode] at h

/-- The calls of a completed status file. -/
theorem statusFileReaction_call {operation : OperationType} {status : LibraryTransferStatus}
    {data : RawData} {call : Call}
    (h : statusFileReaction operation status data = some (.call call)) :
    status = .successful ∧ ∃ statusFile rest, call = .status statusFile ∧
      decodeStatus operation data = .done (statusFile, rest) := by
  simp only [statusFileReaction] at h
  split at h
  · cases h
  · rename_i hstatus
    cases hdecode : decodeStatus operation data with
    | overrun => simp [hdecode] at h
    | thrown e => simp [hdecode] at h
    | done r =>
      obtain ⟨statusFile, rest⟩ := r
      simp only [hdecode, Option.some.injEq, Reaction.call.injEq] at h
      exact ⟨not_not.mp hstatus, statusFile, rest, h.symm, rfl⟩

/-- The calls of a completed list file. -/
theorem listFileReaction_call {checkValue : CheckValue} {status : LibraryTransferStatus}
    {data : RawData} {call : Call}
    (h : listFileReaction cfg s checkValue status data = some (.call call)) :
    status = .successful ∧ call.isList ∧ listCall cfg checkValue data = .done (.call call) := by
  rcases listFileReaction_eq_some h with ⟨hdelivered, listed, hlist, hcall⟩ | ⟨-, hfailure⟩
  · obtain rfl := Reaction.call.inj hcall
    obtain ⟨rfl, -⟩ := hdelivered
    refine ⟨rfl, hlist, ?_⟩
    simp only [listFileReaction, ne_eq, not_true_eq_false, if_false] at h
    split at h
    · cases h
    · cases h
    · cases hread : listCall cfg checkValue data with
      | overrun => simp [hread] at h
      | thrown e =>
        simp only [hread, Option.some.injEq, listFailure] at h
        split at h <;> cases h
      | done r =>
        simp only [hread, Option.some.injEq] at h
        rw [h]
  · unfold listFailure at hfailure
    split at hfailure <;> cases hfailure

/-- A call with the information about the target comes from a list that decodes. -/
theorem listCall_targetInformation {checkValue : CheckValue} {data : RawData}
    {targetsHardware : List TargetHardware} {integrityInformation : Bool}
    (h : listCall cfg checkValue data
      = .done (.call (.targetInformation targetsHardware integrityInformation))) :
    cfg.operation = .information ∧ ∃ listFile rest,
      LoadConfigurationListFile.decode {} data = .done (listFile, rest) ∧
      targetsHardware = listFile.targetsHardware := by
  unfold listCall at h
  split at h
  · rename_i hop
    obtain ⟨⟨listFile, rest⟩, hdecode, hcall⟩ := Outcome.bind_eq_done.mp h
    simp only [Outcome.done.injEq, Reaction.call.injEq, Call.targetInformation.injEq] at hcall
    exact ⟨hop, listFile, rest, hdecode, hcall.1.symm⟩
  · obtain ⟨⟨listFile, rest⟩, hdecode, hcall⟩ := Outcome.bind_eq_done.mp h
    cases hcall
  · cases h

/-- A status call completes a status file. -/
theorem statusFileCompleted_of_call {e : Event} {statusFile : OperationStatus}
    (h : reaction cfg s e = some (.call (.status statusFile))) :
    StatusFileCompleted cfg s e statusFile := by
  cases calledBy_of_reaction h with
  | initialisation hcall =>
    obtain ⟨initFile, hinit⟩ := initialisationReaction_call hcall
    cases hinit
  | statusFile ht hkind hcall =>
    obtain ⟨rfl, file, rest, hstatus, hdecode⟩ := statusFileReaction_call hcall
    obtain rfl := Call.status.inj hstatus
    exact ⟨_, _, _, rest, rfl, ht, hkind, hdecode⟩
  | listFile ht hkind hcall =>
    obtain ⟨-, hlist, -⟩ := listFileReaction_call hcall
    cases hlist

/-- A call with the information about the target completes a list of an
information operation. -/
theorem listFileCompleted_of_call {e : Event} {targetsHardware : List TargetHardware}
    {integrityInformation : Bool}
    (h : reaction cfg s e
      = some (.call (.targetInformation targetsHardware integrityInformation))) :
    cfg.operation = .information ∧ ∃ listFile, ListFileCompleted s e listFile ∧
      targetsHardware = listFile.targetsHardware := by
  cases calledBy_of_reaction h with
  | initialisation hcall =>
    obtain ⟨initFile, hinit⟩ := initialisationReaction_call hcall
    cases hinit
  | statusFile ht hkind hcall =>
    obtain ⟨-, file, rest, hstatus, -⟩ := statusFileReaction_call hcall
    cases hstatus
  | listFile ht hkind hcall =>
    obtain ⟨rfl, -, hread⟩ := listFileReaction_call hcall
    obtain ⟨hop, listFile, rest, hdecode, rfl⟩ := listCall_targetInformation hread
    exact ⟨hop, listFile, ⟨_, _, _, _, rest, rfl, ht, hkind, hdecode⟩, rfl⟩

end Arinc615a.Host
