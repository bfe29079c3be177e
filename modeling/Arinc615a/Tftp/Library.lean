import Arinc615a.Tftp.Retries

/-!
# The client beside its TFTP library

The client keeps a pointer to the operation in flight. Here the library is a
machine of its own: it starts a new operation at each request and completes
each started one once, as it likes and never from within the request. What the
client relies on without checking it, that its pointer is set whenever the
library calls it, becomes a fact about the two together.

The invariant is one token (`Token`): from `request()` on, the operation waits
for one thing at a time, the transfer in flight or a wait of the timer, until
it calls its completion handler.
-/

namespace Arinc615a.Tftp.Client

open Actions Actions.Action Machines Timers

/-! ## The session -/

/-- The operations of the TFTP library that are in flight. -/
structure Library where
  inFlight : List Nat := []
  requested : Nat := 0
  deriving DecidableEq

/-- A request starts a new operation. -/
def Library.serve (library : Library) : Event × Output → Library
  | (_, .request) =>
    { inFlight := library.inFlight ++ [library.requested], requested := library.requested + 1 }
  | _ => library

/-- An operation completes. -/
def Library.complete (library : Library) (operation : Nat) : Library :=
  { library with inFlight := library.inFlight.erase operation }

/-- A client operation and the library it uses. -/
structure Session where
  client : State
  library : Library

/-- The library completes an operation, with any status, or something else
happens to the client. -/
inductive SessionEvent where
  | completed (operation : Nat) (status : LibraryTransferStatus)
    (errorInformation : ErrorInformation)
  | client (e : Event)
  deriving DecidableEq

/-- The library calls `handleCompletion`. Of a transfer that failed the client
reads the error information through its pointer, which must be set. -/
def deliver (cfg : Configuration) (status : LibraryTransferStatus)
    (errorInformation : ErrorInformation) : Handler := do
  let s ← get
  require (status ≠ .successful → s.operation.isSome)
  handleCompletion cfg status errorInformation

/-- What the client does at an event. -/
def clientStep (cfg : Configuration) (s : Session) :
    SessionEvent → Option (State × List (Event × Output))
  | .completed operation status errorInformation =>
    if operation ∈ s.library.inFlight then
      ((deliver cfg status errorInformation).run s.client).map fun (client, os) =>
        (client, os.map fun o => (.transferCompleted status errorInformation, o))
    else none
  | .client e => if isCompletion e then none else (machine cfg).step s.client e

/-- The library behind an event, before it serves the new requests. -/
def libraryAfter (library : Library) : SessionEvent → Library
  | .completed operation _ _ => library.complete operation
  | .client _ => library

/-- The client and its library as one machine. -/
def session (cfg : Configuration) : Machine Session SessionEvent (Event × Output) where
  step s e := (clientStep cfg s e).map fun (client, out) =>
    (⟨client, out.foldl Library.serve (libraryAfter s.library e)⟩, out)

/-- The session behind `request()`, with its first operation in flight. -/
def Session.started : Session := ⟨Client.started, { inFlight := [0], requested := 1 }⟩

/-! ## The law -/

/-- What a session owes in every state it reaches. -/
structure ExactlyOnce (cfg : Configuration) (s : Session) (tr : List (Event × Output)) :
    Prop where
  /-- The completion handler is called at most once. -/
  once : completions tr ≤ 1
  /-- Behind that call nothing is requested, no timer is armed and no wait handler
  is left to run. -/
  silent : SilentAfter (fun x => isCompleted x.2) (fun x => x.2 = .request) tr
  ended : completions tr = 1 → s.library.inFlight = [] ∧
    s.client.waitTimer.deadline = none ∧ s.client.waitTimer.queue = []
  /-- Before it, the operation waits for a transfer or for its timer. -/
  waiting : completions tr = 0 →
    s.library.inFlight ≠ [] ∨ s.client.waitTimer.waits = 1
  /-- A transfer in flight and the WAIT timer exclude each other. -/
  exclusive : s.library.inFlight.length +
    (if s.client.waitTimer.deadline.isSome then 1 else 0) ≤ 1
  /-- The pointer is set whenever the library completes an operation. -/
  pointer : s.library.inFlight ≠ [] → s.client.operation.isSome
  delivered : ∀ operation ∈ s.library.inFlight, ∀ status errorInformation,
    ((session cfg).step s (.completed operation status errorInformation)).isSome

/-! ## Steps -/

variable {cfg : Configuration}

/-- The transfers the client knows to be in flight. -/
def inFlight (s : State) : Nat := if s.operation.isSome then 1 else 0

theorem pending_eq (s : State) : pending s = inFlight s + s.waitTimer.waits := rfl

/-- The library starts as many operations as were requested. -/
theorem length_serve (library : Library) (out : List (Event × Output)) :
    (out.foldl Library.serve library).inFlight.length
      = library.inFlight.length + requests out := by
  induction out generalizing library with
  | nil => rfl
  | cons x out ih =>
    obtain ⟨e, o⟩ := x
    rw [List.foldl_cons, ih]
    cases o with
    | request =>
      have hcount : requests ((e, .request) :: out) = requests out + 1 := by simp [requests]
      rw [hcount]
      simp only [Library.serve, List.length_append, List.length_singleton]
      omega
    | _ => simp [Library.serve, requests]

/-- What the client does in a step of a session: it keeps its token, or hands it
to the completion handler. `flown` counts the transfers the step leaves alone. -/
structure Passes (s : State) (flown : Nat) (s' : State) (out : List (Event × Output)) :
    Prop where
  pending_eq : pending s' + completions out = pending s
  inFlight_eq : inFlight s' = flown + requests out
  length_le : out.length ≤ 1

/-- A completion takes the transfer in flight away. -/
theorem passes_completion {s s' : State} {status : LibraryTransferStatus}
    {errorInformation : ErrorInformation} {os : List Output} {e : Event}
    (hop : s.operation.isSome)
    (h : handleCompletion cfg status errorInformation s [] = some ((), s', os)) :
    Passes s 0 s' (os.map fun o => (e, o)) := by
  have hpending : pending s = 1 + s.waitTimer.waits := by
    simp only [pending, hop, if_true]
  have heffect := handleCompletion_effect h
  cases hans : answer cfg status errorInformation with
  | final result =>
    rw [hans] at heffect
    obtain ⟨rfl, rfl⟩ := heffect
    refine ⟨?_, rfl, by simp⟩
    show 0 + s.waitTimer.waits + 1 = pending s
    omega
  | wait waitTime =>
    rw [hans] at heffect
    obtain ⟨rfl, rfl⟩ := heffect
    refine ⟨?_, rfl, by simp⟩
    show 0 + (s.waitTimer.start _).waits + 0 = pending s
    rw [Timer.waits_start]
    omega
  | failure =>
    simp only [hans] at heffect
    split at heffect
    · obtain ⟨rfl, rfl⟩ := heffect
      refine ⟨?_, rfl, by simp⟩
      show 0 + s.waitTimer.waits + 1 = pending s
      omega
    · obtain ⟨rfl, rfl⟩ := heffect
      refine ⟨?_, rfl, by simp⟩
      show 1 + s.waitTimer.waits + 0 = pending s
      omega

/-- Every other event leaves it in flight. -/
theorem passes_other {s s' : State} {e : Event} {out : List (Event × Output)}
    (hsingle : pending s ≤ 1) (hne : isCompletion e = false)
    (h : (machine cfg).step s e = some (s', out)) : Passes s (inFlight s) s' out := by
  have hother := other_step hne h
  by_cases hexpiry : e = .waitHandler .success
  · -- The wait was the token, so no transfer is in flight.
    have hwaits : 0 < s.waitTimer.waits := by
      subst e
      obtain ⟨os, hreact, -⟩ := step_eq_some.mp h
      simp only [react, get_bind, require_bind_eq_some] at hreact
      obtain ⟨hhead, hreact⟩ := hreact
      have htail := Timer.waits_tail hhead
      omega
    have hidle : s.operation.isSome = false := by
      cases hop : s.operation.isSome with
      | false => rfl
      | true =>
        simp only [pending, hop, if_true] at hsingle
        omega
    refine ⟨hother.pending_eq (.inl (by simpa using hidle)), ?_, hother.length_le⟩
    have hrequests := hother.requests_eq
    have hoperation := hother.operation
    simp only [hexpiry, waitExpiries, List.count_cons_self, List.count_nil] at hrequests
    simp only [inFlight, hoperation, hidle, hrequests, hexpiry]
    simp
  · refine ⟨hother.pending_eq (.inr hexpiry), ?_, hother.length_le⟩
    have hrequests := hother.requests_eq
    have hoperation := hother.operation
    have hnone : waitExpiries [e] = 0 := by simp [waitExpiries, hexpiry]
    rw [hnone] at hrequests
    simp only [inFlight, hoperation, hrequests, hexpiry, decide_false, Bool.or_false,
      Nat.add_zero]

/-! ## The token -/

/-- Along a session, the operation waits for one thing until the completion
handler is called, and client and library agree on the transfer in flight. -/
structure Token (s : Session) (tr : List (Event × Output)) : Prop where
  pending_eq : pending s.client + completions tr = 1
  inFlight_eq : s.library.inFlight.length = inFlight s.client
  silent : SilentAfter (fun x => isCompleted x.2) (fun x => x.2 = .request) tr

/-- Where an operation of the library is in flight, the client has its pointer,
and nothing else is waited for. -/
theorem Token.pointer {s : Session} {tr : List (Event × Output)} (ht : Token s tr)
    (h : s.library.inFlight ≠ []) : s.client.operation.isSome := by
  have hpos : 0 < s.library.inFlight.length := List.length_pos_iff.mpr h
  rw [ht.inFlight_eq] at hpos
  by_contra hnone
  simp only [inFlight, hnone] at hpos
  exact absurd hpos (by simp)

theorem token_started : Token Session.started [] where
  pending_eq := rfl
  inFlight_eq := rfl
  silent := by
    rw [silentAfter_iff]
    trivial

/-- A session takes a step: what the client passes on, the library serves. -/
theorem session_step {s s' : Session} {e : SessionEvent} {out : List (Event × Output)} :
    (session cfg).step s e = some (s', out) ↔
      ∃ client, clientStep cfg s e = some (client, out) ∧
        s' = ⟨client, out.foldl Library.serve (libraryAfter s.library e)⟩ := by
  simp only [session, Option.map_eq_some_iff, Prod.exists, Prod.mk.injEq]
  constructor
  · intro htaken
    rcases htaken with ⟨client, out', hstep, rfl, rfl⟩
    exact ⟨client, hstep, rfl⟩
  · intro htaken
    rcases htaken with ⟨client, hstep, rfl⟩
    exact ⟨client, out, hstep, rfl, rfl⟩

/-- The step of the client, and what the library has in flight behind the event. -/
theorem passes_step {s : Session} {tr out : List (Event × Output)} {e : SessionEvent}
    {client : State} (ht : Token s tr) (h : clientStep cfg s e = some (client, out)) :
    Passes s.client (libraryAfter s.library e).inFlight.length client out := by
  have hsingle : pending s.client ≤ 1 := by
    have htoken := ht.pending_eq
    omega
  cases e with
  | completed operation status info =>
    simp only [clientStep] at h
    split at h
    · rename_i hmem
      have hop := ht.pointer (List.ne_nil_of_mem hmem)
      have hone : s.library.inFlight.length = 1 := by
        rw [ht.inFlight_eq, inFlight, if_pos hop]
      have hlanded : (s.library.inFlight.erase operation).length = 0 := by
        rw [List.length_erase_of_mem hmem, hone]
      obtain ⟨⟨client', os⟩, hdeliver, hout⟩ := Option.map_eq_some_iff.mp h
      obtain ⟨rfl, rfl⟩ := Prod.mk.inj hout
      have hcompletion := run_eq_some.mp hdeliver
      simp only [deliver, get_bind, require_bind, hop, implies_true, if_true] at hcompletion
      show Passes s.client (s.library.inFlight.erase operation).length _ _
      rw [hlanded]
      exact passes_completion hop hcompletion
    · cases h
  | client e =>
    simp only [clientStep] at h
    split at h
    · cases h
    · rename_i hne
      show Passes s.client s.library.inFlight.length _ _
      rw [ht.inFlight_eq]
      exact passes_other hsingle (by simpa using hne) h

theorem completions_append (tr out : List (Event × Output)) :
    completions (tr ++ out) = completions tr + completions out := List.countP_append

theorem completions_pos {tr : List (Event × Output)} :
    0 < completions tr ↔ tr.any fun x => isCompleted x.2 := by
  rw [completions, List.countP_pos_iff, List.any_eq_true]

/-- Behind the call of the completion handler, there is no token to request with. -/
theorem silent_of_token {s s' : State} {flown : Nat} {tr out : List (Event × Output)}
    (htoken : pending s + completions tr = 1) (hpasses : Passes s flown s' out) :
    SilentFrom (fun x => isCompleted x.2) (fun x => x.2 = .request)
      (tr.any fun x => isCompleted x.2) out := by
  have hpending := hpasses.pending_eq
  have hinFlight := hpasses.inFlight_eq
  rw [pending_eq s'] at hpending
  cases out with
  | nil => trivial
  | cons x rest =>
    have hrest : rest = [] := by
      have hlength := hpasses.length_le
      rw [List.length_cons] at hlength
      exact List.length_eq_zero_iff.mp (by omega)
    subst rest
    refine ⟨fun hcompleted => ?_, trivial⟩
    have hpos := completions_pos.mpr hcompleted
    by_contra hrequest
    have hone : requests [x] = 1 := by
      simpa [requests] using hrequest
    omega

/-- Every step keeps the token. -/
theorem token_step {s s' : Session} {tr out : List (Event × Output)} {e : SessionEvent}
    (ht : Token s tr) (h : (session cfg).step s e = some (s', out)) : Token s' (tr ++ out) := by
  obtain ⟨client, hstep, rfl⟩ := session_step.mp h
  have hpasses := passes_step ht hstep
  have htoken := ht.pending_eq
  have hpending := hpasses.pending_eq
  have hinFlight := hpasses.inFlight_eq
  constructor
  · rw [completions_append]
    show pending client + _ = 1
    omega
  · show (out.foldl Library.serve _).inFlight.length = inFlight client
    rw [length_serve, hinFlight]
  · rw [silentAfter_iff, silentFrom_append, Bool.false_or]
    refine ⟨silentAfter_iff.mp ht.silent, silent_of_token htoken hpasses⟩

/-- **The token**: every session keeps it. -/
theorem token_run {s : Session} {es : List SessionEvent} {tr : List (Event × Output)}
    (h : (session cfg).exec Session.started es = some (s, tr)) : Token s tr := by
  refine Machine.exec_history (fun _ s tr => Token s tr) token_started ?_ h
  intro es s tr e s' out _ ht hs
  exact token_step ht hs

/-! ## Runs of the client alone -/

/-- A step of the client is one of the session, where the library completes the
operation it has in flight. -/
theorem exists_session_step {c c' : State} {library : Library} {tr out : List (Event × Output)}
    {e : Event} (ht : Token ⟨c, library⟩ tr) (h : (machine cfg).step c e = some (c', out)) :
    ∃ f library', (session cfg).step ⟨c, library⟩ f = some (⟨c', library'⟩, out) := by
  cases hcompletion : isCompletion e with
  | false =>
    have hstep : clientStep cfg ⟨c, library⟩ (.client e) = some (c', out) := by
      simp only [clientStep, hcompletion, Bool.false_eq_true, if_false, h]
    exact ⟨.client e, _, session_step.mpr ⟨c', hstep, rfl⟩⟩
  | true =>
    cases e with
    | transferCompleted status info =>
      obtain ⟨⟨hop, -⟩, os, heffect, rfl⟩ := transferCompleted_step.mp h
      have hlength : library.inFlight.length = 1 := by
        rw [ht.inFlight_eq, inFlight, if_pos hop]
      obtain ⟨operation, hinFlight⟩ := List.length_eq_one_iff.mp hlength
      have hdeliver : (deliver cfg status info).run c = some (c', os) := by
        simp only [run_eq_some, deliver, get_bind, require_bind, hop, implies_true, if_true,
          heffect]
      have hstep : clientStep cfg ⟨c, library⟩ (.completed operation status info)
          = some (c', os.map fun o => (.transferCompleted status info, o)) := by
        simp only [clientStep, hinFlight, List.mem_singleton, if_true, hdeliver, Option.map_some]
      exact ⟨.completed operation status info, _, session_step.mpr ⟨c', hstep, rfl⟩⟩
    | _ => cases hcompletion

/-- **Refinement**: the client alone, with its assumptions about the library, runs
as it does beside the library. -/
theorem exists_session_run {es : List Event} {s : State} {tr : List (Event × Output)}
    (h : (machine cfg).exec started es = some (s, tr)) :
    ∃ fs library, (session cfg).exec Session.started fs = some (⟨s, library⟩, tr) := by
  refine Machine.exec_history
    (fun _ s tr => ∃ fs library, (session cfg).exec Session.started fs
      = some (⟨s, library⟩, tr)) ⟨[], _, rfl⟩ ?_ h
  intro es s tr e s' out _ hrun hs
  obtain ⟨fs, library, hfs⟩ := hrun
  obtain ⟨f, library', hstep⟩ := exists_session_step (token_run hfs) hs
  exact ⟨fs ++ [f], library',
    Machine.exec_append_singleton.mpr ⟨_, tr, out, hfs, hstep, rfl⟩⟩

/-- So it waits for one thing at a time. -/
theorem pending_le_one {es : List Event} {s : State} {tr : List (Event × Output)}
    (h : (machine cfg).exec started es = some (s, tr)) : pending s ≤ 1 := by
  obtain ⟨fs, library, hfs⟩ := exists_session_run h
  have htoken := (token_run hfs).pending_eq
  show pending (Session.mk s library).client ≤ 1
  omega

/-! ## The law holds -/

/-- The library may complete what it has in flight, in any way. -/
theorem completed_isSome {s : Session} {operation : Nat} (hop : s.client.operation.isSome)
    (hmem : operation ∈ s.library.inFlight) (status : LibraryTransferStatus)
    (errorInformation : ErrorInformation) :
    ((session cfg).step s (.completed operation status errorInformation)).isSome := by
  have hdeliver : ∃ client os, (deliver cfg status errorInformation).run s.client
      = some (client, os) := by
    simp only [run_eq_some, deliver, get_bind, require_bind, hop, implies_true, if_true,
      handleCompletion_eq]
    cases answer cfg status errorInformation with
    | final result => exact ⟨_, _, rfl⟩
    | wait waitTime => exact ⟨_, _, rfl⟩
    | failure =>
      simp only [retry, requestOperation, modify_bind, get_bind, if_apply]
      split
      · exact ⟨_, _, rfl⟩
      · exact ⟨_, _, rfl⟩
  obtain ⟨client, os, hrun⟩ := hdeliver
  have hstep : clientStep cfg s (.completed operation status errorInformation)
      = some (client, os.map fun o => (.transferCompleted status errorInformation, o)) := by
    simp only [clientStep, if_pos hmem, hrun, Option.map_some]
  rw [session_step.mpr ⟨client, hstep, rfl⟩]
  rfl

/-- **Exactly one completion**: every session keeps the law in every state. -/
theorem client_exactlyOnce (es : List SessionEvent) {s : Session}
    {tr : List (Event × Output)}
    (h : (session cfg).exec Session.started es = some (s, tr)) : ExactlyOnce cfg s tr := by
  have ht := token_run h
  have htoken := ht.pending_eq
  have hagree := ht.inFlight_eq
  rw [pending_eq, ← hagree] at htoken
  constructor
  · omega
  · exact ht.silent
  · intro hcompleted
    have hnone : s.library.inFlight.length = 0 := by omega
    have hwaits : s.client.waitTimer.waits = 0 := by omega
    exact ⟨List.length_eq_zero_iff.mp hnone, Timer.waits_eq_zero.mp hwaits⟩
  · intro hrunning
    by_cases hflying : s.library.inFlight = []
    · right
      rw [hflying, List.length_nil] at htoken
      omega
    · exact .inl hflying
  · have hdeadline := s.client.waitTimer.deadline_le_waits
    omega
  · exact ht.pointer
  · intro operation hmem status info
    exact completed_isSome (ht.pointer (List.ne_nil_of_mem hmem)) hmem status info

/-- A client that is put off requests again, and completes once. -/
theorem client_exactlyOnce_deferred :
    ExactlyOnce ⟨1, true⟩
      ⟨{ operation := none, now := 2 * second }, { inFlight := [], requested := 2 }⟩
      [(.transferCompleted .requestError (some (.notDefined, str "WAIT:2")), .deferred 2),
        (.waitHandler .success, .request),
        (.transferCompleted .successful none, .completed .successful)] :=
  client_exactlyOnce
    [.completed 0 .requestError (some (.notDefined, str "WAIT:2")),
      .client (.advance (2 * second)), .client .timerExpired,
      .client (.waitHandler .success), .completed 1 .successful none] rfl

end Arinc615a.Tftp.Client
