import Arinc615a.Host.Callbacks

/-!
# Requests for the status file

A request that reaches `statusFileRequest` is answered with a pending abort, or
starts a reception; every other request leaves both alone (`request_effect`).
An information operation lets read requests through to it: they are answered
with an error first, and then as a write request is.
-/

namespace Arinc615a.Host

open Actions Actions.Action Machines
open Files Tftp

/-- A write request for the status file, with a name that passes the check. -/
def WritesStatus (cfg : Configuration) (request : Request) : Prop :=
  checksRequest cfg request.filename ∧
    (ProtocolFilename.ofString request.filename).fileType = statusFileType cfg.operation ∧
    request.requestType = .write

/-- Another request for it, which an information operation takes for one. -/
def ReadsStatus (cfg : Configuration) (request : Request) : Prop :=
  checksRequest cfg request.filename ∧
    (ProtocolFilename.ofString request.filename).fileType = statusFileType cfg.operation ∧
    cfg.operation = .information ∧ request.requestType ≠ .write

/-- The request reaches `statusFileRequest`. -/
def RequestsStatus (cfg : Configuration) (request : Request) : Prop :=
  WritesStatus cfg request ∨ ReadsStatus cfg request

instance (cfg : Configuration) (request : Request) : Decidable (WritesStatus cfg request) :=
  inferInstanceAs (Decidable (_ ∧ _ ∧ _))

instance (cfg : Configuration) (request : Request) : Decidable (ReadsStatus cfg request) :=
  inferInstanceAs (Decidable (_ ∧ _ ∧ _ ∧ _))

instance (cfg : Configuration) (request : Request) : Decidable (RequestsStatus cfg request) :=
  inferInstanceAs (Decidable (_ ∨ _))

variable {cfg : Configuration} {s : State}

/-- Write requests are told by their file type. -/
theorem writeAction_statusFile_iff {operation : OperationType} {request : Request} :
    writeAction operation request = .statusFile ↔
      (ProtocolFilename.ofString request.filename).fileType = statusFileType operation := by
  simp only [writeAction]
  split
  · rename_i htype
    simp [htype]
  · rename_i htype
    simp only [htype, iff_false]
    split <;> simp

/-- The dispatchers reach `statusFileRequest` with these requests. -/
theorem requestAction_statusFile_iff {request : Request}
    (hchecks : checksRequest cfg request.filename = true) :
    requestAction cfg.operation request = .statusFile ↔ RequestsStatus cfg request := by
  by_cases hop : cfg.operation = .information
  · have haction : requestAction cfg.operation request = writeAction cfg.operation request := by
      simp [requestAction, hop]
    rw [haction, writeAction_statusFile_iff, RequestsStatus, WritesStatus, ReadsStatus]
    by_cases hwrite : request.requestType = .write
    · simp [hchecks, hwrite]
    · simp [hchecks, hwrite, hop]
  · cases hrequest : request.requestType with
    | write =>
      have haction : requestAction cfg.operation request
          = writeAction cfg.operation request := by
        simp [requestAction, hrequest]
      rw [haction, writeAction_statusFile_iff, RequestsStatus, WritesStatus, ReadsStatus]
      simp [hchecks, hrequest]
    | read => simp [requestAction, hop, hrequest, RequestsStatus, WritesStatus, ReadsStatus]
    | invalid => simp [requestAction, hop, hrequest, RequestsStatus, WritesStatus, ReadsStatus]

/-- The answers of `statusFileRequest`: an ABORT, a re-armed timer, and the start of
a reception. -/
def answersStatus : Output → Bool
  | .abortOperation _ _ => true
  | .timerArmed _ => true
  | .writeOperation _ _ .statusFile => true
  | _ => false

/-- What a request does to the state, and its outputs. -/
inductive RequestEffect (cfg : Configuration) (s : State) (request : Request) :
    State → List Output → Prop where
  | received (hrequest : RequestsStatus cfg request) (hnone : s.abortReason = .noAbort) :
    RequestEffect cfg s request s.withStatusFile (onlyWrites cfg.operation request ++
      [.writeOperation request.remote s.nextTransfer .statusFile])
  | aborted (hrequest : RequestsStatus cfg request) (hpending : s.abortReason ≠ .noAbort) :
    RequestEffect cfg s request (s.withAbortSent cfg) (onlyWrites cfg.operation request ++
      [.abortOperation request.remote s.abortReason.statusCode,
        .timerArmed (dlpDeadline cfg s 0)])
  | other {t : State} {out : List Output} (hrequest : ¬ RequestsStatus cfg request)
    (ht : t = s ∨ ∃ checkValue, t = s.withListFile checkValue)
    (hout : ∀ o ∈ out, answersStatus o = false) : RequestEffect cfg s request t out

/-- The error for a read request is none of these answers. -/
theorem onlyWrites_not_answer (operation : OperationType) (request : Request) :
    ∀ o ∈ onlyWrites operation request, answersStatus o = false := by
  intro o ho
  unfold onlyWrites at ho
  split at ho
  · rw [List.mem_singleton.mp ho]
    rfl
  · cases ho

/-- **Requests**: what every request does. -/
theorem request_effect (cfg : Configuration) (s : State) (request : Request) :
    RequestEffect cfg s request ((Reaction.request request).state cfg s)
      ((Reaction.request request).out cfg s) := by
  by_cases hchecks : checksRequest cfg request.filename = true
  · simp only [Reaction.state, Reaction.out, hchecks, if_true]
    by_cases hrequest : RequestsStatus cfg request
    · rw [(requestAction_statusFile_iff hchecks).mpr hrequest]
      simp only [actionState, actionOutputs]
      by_cases hnone : s.abortReason = .noAbort
      · rw [if_pos hnone, if_pos hnone]
        exact .received hrequest hnone
      · rw [if_neg hnone, if_neg hnone]
        exact .aborted hrequest hnone
    · have hnot := mt (requestAction_statusFile_iff hchecks).mp hrequest
      have herror := onlyWrites_not_answer cfg.operation request
      cases haction : requestAction cfg.operation request with
      | statusFile => exact absurd haction hnot
      | listFile checkValue =>
        refine .other hrequest (.inr ⟨checkValue, rfl⟩) ?_
        intro o ho
        simp only [actionOutputs, listAborts, List.mem_append] at ho
        rcases ho with ho | ho | ho
        · exact herror o ho
        · split at ho
          · cases ho
          · rw [List.mem_singleton.mp ho]
            rfl
        · rw [List.mem_singleton.mp ho]
          rfl
      | reply output =>
        refine .other hrequest (.inl rfl) ?_
        intro o ho
        rcases List.mem_append.mp ho with ho | ho
        · exact herror o ho
        · rw [List.mem_singleton.mp ho]
          rcases requestAction_reply haction with ⟨errorCode, errorMessage, rfl⟩ | rfl <;> rfl
      | ignored =>
        refine .other hrequest (.inl rfl) ?_
        intro o ho
        rcases List.mem_append.mp ho with ho | ho
        · exact herror o ho
        · cases ho
  · have hrequest : ¬ RequestsStatus cfg request := by
      rintro (hwrite | hread)
      · exact hchecks hwrite.1
      · exact hchecks hread.1
    simp only [Reaction.state, Reaction.out, hchecks, Bool.false_eq_true, if_false]
    refine .other hrequest (.inl rfl) ?_
    intro o ho
    rw [List.mem_singleton.mp ho]
    rfl

/-! ## Other reactions -/

/-- The outputs that answer a request of the target. -/
def answersRequest : Output → Bool
  | .errorOperation _ _ _ => true
  | .abortOperation _ _ => true
  | .writeOperation _ _ _ => true
  | .fileRequest _ _ _ _ _ => true
  | _ => false

/-- No reaction but the one to a request answers one. -/
theorem not_answersRequest (cfg : Configuration) (s : State) {r : Reaction}
    (hr : ∀ request, r ≠ .request request) : ∀ o ∈ r.out cfg s, answersRequest o = false := by
  intro o ho
  have haborts : o ∈ initialisationAborts s → answersRequest o = false := by
    intro hmem
    unfold initialisationAborts at hmem
    split at hmem
    · cases hmem
    · rw [List.mem_singleton.mp hmem]
      rfl
  cases r with
  | request request => exact absurd rfl (hr request)
  | nothing => cases ho
  | sent => cases ho
  | terminate reason =>
    rcases List.mem_append.mp ho with hmem | hmem
    · exact haborts hmem
    · rw [List.mem_singleton.mp hmem]
      rfl
  | abort reason =>
    simp only [Reaction.out] at ho
    split at ho
    · exact haborts ho
    · cases ho
  | call call =>
    rw [List.mem_singleton.mp ho]
    cases call <;> rfl
  | send filename file =>
    rcases List.mem_append.mp ho with hmem | hmem
    · unfold sentFileAborts at hmem
      split at hmem
      · cases hmem
      · rw [List.mem_singleton.mp hmem]
        rfl
    · rw [List.mem_singleton.mp hmem]
      rfl
  | _ =>
    rw [List.mem_singleton.mp ho]
    rfl

end Arinc615a.Host
