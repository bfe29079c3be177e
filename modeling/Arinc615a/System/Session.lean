import Arinc615a.Lib.Network
import Arinc615a.System.Peers
import Arinc615a.Tftp.MessageGrammar
import Arinc615a.Tftp.Retries

/-!
# An operation between host and target

The host operation and the target operation as one system. The host has read the
initialisation file that the target started with; then each runs on its own, and TFTP
carries files and error packets between them. Transfers overtake each other, are
repeated and fail at will. A transfer that completes with success delivers a file that
the other party has sent, with the check value of its request, and an ABORT that ends
a transfer came in an error packet of the other party.
-/

namespace Arinc615a.System

open Machines
open Files Information Tftp

/-! ## The parties -/

inductive Party where
  | host
  | target
  deriving DecidableEq

abbrev Party.State : Party → Type
  | host => Host.State
  | target => Target.State

abbrev Party.Event : Party → Type
  | host => Host.Event
  | target => Target.Event

abbrev Party.Output : Party → Type
  | host => Host.Output
  | target => Target.Output

/-- What TFTP carries from one party to the other. -/
inductive Message where
  | initialisationFile (data : RawData)
  | statusFile (data : RawData)
  /-- With the check value of the request. -/
  | listFile (data : RawData) (checkValue : CheckValue)
  /-- The load request, the download request or the download answer. -/
  | requestFile (data : RawData)
  /-- An error packet of the host. -/
  | error (errorCode : ErrorCode) (errorMessage : Str)
  deriving DecidableEq

/-- The messages of the host. -/
def hostSends : Host.Output → Option Message
  | .clientWriteOperation _ _ file => some (.requestFile file)
  | .errorOperation _ errorCode errorMessage => some (.error errorCode errorMessage)
  | .abortOperation _ status => some (.error .notDefined (abortErrorMessage status))
  | .gracefulAbort _ errorCode errorMessage => some (.error errorCode errorMessage)
  | _ => none

/-- The messages of the target. Its error packets are failures of transfers to the host,
whatever their text. -/
def targetSends : Target.Output → Option Message
  | .readOperation _ _ file => some (.initialisationFile file)
  | .statusFile _ _ _ _ file => some (.statusFile file)
  | .listFile _ _ _ file checkValue => some (.listFile file checkValue)
  | _ => none

/-- The file that a transfer of the host delivers. -/
def hostDelivery (kind : Host.TransferKind) (data : RawData) : Option Message :=
  match kind with
  | .initialisation => some (.initialisationFile data)
  | .statusFile => some (.statusFile data)
  | .listFile checkValue => some (.listFile data checkValue)
  | .sentFile => none

/-- An error packet that the client takes for an ABORT with this status. -/
def Message.aborts (status : TransferStatus) : Message → Bool
  | error errorCode errorMessage =>
    Client.answer ⟨0, true⟩ .requestError (some (errorCode, errorMessage)) = .final status
  | _ => false

/-- The file that a transfer of the target delivers. -/
def targetDelivery (kind : Target.TransferKind) (data : RawData) : Option Message :=
  match kind with
  | .requestFile => some (.requestFile data)
  | _ => none

def hostTakes (s : Host.State) : Host.Event → Option (Message → Bool)
  | .clientCompleted operation .successful data | .serverCompleted operation .successful data =>
    ((Host.transfer? s operation).bind fun t => hostDelivery t.kind data).map fun m m' => m' = m
  | _ => none

def targetTakes (s : Target.State) : Target.Event → Option (Message → Bool)
  | .serverCompleted operation .successful data =>
    ((Target.transfer? s operation).bind fun t => targetDelivery t.kind data).map
      fun m m' => m' = m
  | .clientCompleted _ .operationAbortedByOperator =>
    some (Message.aborts .operationAbortedByOperator)
  | _ => none

/-! ## The session -/

/-- Both parties run the same operation, with the check value generators of one library. -/
structure Session where
  host : Host.Configuration
  target : Target.Configuration
  operation_eq : host.operation = target.operation
  targetId_eq : host.targetId = target.targetId
  checkValue_eq : host.checkValue = target.checkValue
  /-- What generates check values of a type generates values of that type. -/
  type_checkValue : ∀ type data, (target.checkValue type data).type = type
  /-- Where the request for the initialisation file came from. -/
  hostAddress : Endpoint
  port : Option UInt16

namespace Session

abbrev network (session : Session) : Network Party Message where
  State := Party.State
  Event := Party.Event
  Output := Party.Output
  machine
    | .host => Host.machine session.host
    | .target => Target.machine session.target
  sends
    | .host => hostSends
    | .target => targetSends
  takes
    | .host => hostTakes
    | .target => targetTakes

/-- The session as one machine. -/
abbrev system (session : Session) :=
  session.network.system

/-- The output of the start of the target. -/
def initialisationOutputs (session : Session) : List Target.Output :=
  match InitializationFile.encode ⟨session.target.protocolVersion, ⟨.operationAccepted, []⟩⟩ with
  | .error _ => []
  | .ok file => [.readOperation session.hostAddress 0 file]

/-- The host has started, and the target answers its request with the initialisation file. -/
def start (session : Session) : session.network.Snapshot where
  party
    | .host => Host.started
    | .target => Target.started session.target session.hostAddress session.port
  sent := session.initialisationOutputs.filterMap targetSends

/-- Both parties stand behind their `start()`. -/
theorem start_run (session : Session) :
    (Host.start session.host).run {} = some (session.start.party .host,
      [.clientReadOperation 0
        (Host.protocolFilename session.host
          (Host.initialisationFileType session.host.operation))]) ∧
      (Target.start session.target session.hostAddress session.port).run
          (Target.newOperation session.target) =
        some (session.start.party .target, session.initialisationOutputs) := by
  refine ⟨Host.start_run session.host, ?_⟩
  obtain ⟨file, hencode, hrun⟩ :=
    Target.start_run session.target session.hostAddress session.port
  rw [hrun, initialisationOutputs, hencode]
  rfl

variable {session : Session} {c c' : session.network.Snapshot}
  {es : List (Σ i : Party, i.Event)} {tr out : List (Σ i : Party, i.Output)}
  {e : Σ i : Party, i.Event}

/-- What the host does in a session is a run of the host. -/
theorem host_run (h : session.system.exec session.start es = some (c, tr)) :
    (Host.machine session.host).exec Host.started (own .host es) =
      some (c.party .host, own .host tr) :=
  Network.exec_own h .host

theorem target_run (h : session.system.exec session.start es = some (c, tr)) :
    (Target.machine session.target).exec
        (Target.started session.target session.hostAddress session.port) (own .target es) =
      some (c.party .target, own .target tr) :=
  Network.exec_own h .target

/-- An output of the host is one of a step of the host. -/
theorem host_step {o : Host.Output} (h : session.system.step c e = some (c', out))
    (ho : ⟨.host, o⟩ ∈ out) :
    ∃ f s os, e = ⟨.host, f⟩ ∧ session.network.supplied c ⟨.host, f⟩ = true ∧
      (Host.machine session.host).step (c.party .host) f = some (s, os) ∧ o ∈ os := by
  obtain ⟨f, s, os, he, hsupplied, hstep, -, hos⟩ :=
    Network.exists_step_of_mem (i := .host) h ho
  exact ⟨f, s, os, he, hsupplied, hstep, hos⟩

theorem target_step {o : Target.Output} (h : session.system.step c e = some (c', out))
    (ho : ⟨.target, o⟩ ∈ out) :
    ∃ f s os, e = ⟨.target, f⟩ ∧ session.network.supplied c ⟨.target, f⟩ = true ∧
      (Target.machine session.target).step (c.party .target) f = some (s, os) ∧ o ∈ os := by
  obtain ⟨f, s, os, he, hsupplied, hstep, -, hos⟩ :=
    Network.exists_step_of_mem (i := .target) h ho
  exact ⟨f, s, os, he, hsupplied, hstep, hos⟩

/-- A file can be taken exactly if it was sent. -/
theorem supplied_iff {i : Party} {f : i.Event} {m : Message}
    (htakes : session.network.takes i (c.party i) f = some fun m' => decide (m' = m)) :
    session.network.supplied c ⟨i, f⟩ = true ↔ m ∈ c.sent := by
  rw [Network.supplied, htakes]
  simp

theorem supplied_clientCompleted {operation : Host.TransferId} {data : RawData}
    {t : Host.Transfer} {m : Message} (ht : Host.transfer? (c.party .host) operation = some t)
    (hm : hostDelivery t.kind data = some m) :
    session.network.supplied c ⟨.host, .clientCompleted operation .successful data⟩ = true ↔
      m ∈ c.sent :=
  supplied_iff (by simp [hostTakes, ht, hm])

theorem supplied_serverCompleted {operation : Host.TransferId} {data : RawData}
    {t : Host.Transfer} {m : Message} (ht : Host.transfer? (c.party .host) operation = some t)
    (hm : hostDelivery t.kind data = some m) :
    session.network.supplied c ⟨.host, .serverCompleted operation .successful data⟩ = true ↔
      m ∈ c.sent :=
  supplied_iff (by simp [hostTakes, ht, hm])

theorem supplied_target {operation : Target.TransferId} {data : RawData} {t : Target.Transfer}
    {m : Message} (ht : Target.transfer? (c.party .target) operation = some t)
    (hm : targetDelivery t.kind data = some m) :
    session.network.supplied c ⟨.target, .serverCompleted operation .successful data⟩ = true ↔
      m ∈ c.sent :=
  supplied_iff (by simp [targetTakes, ht, hm])

end Session

/-- The host and the target of the examples. -/
def exampleSession (operation : OperationType) : Session where
  host := Host.exampleConfiguration operation
  target := Target.exampleConfiguration operation
  operation_eq := rfl
  targetId_eq := rfl
  checkValue_eq := rfl
  type_checkValue _ _ := rfl
  hostAddress := Target.exampleHost
  port := none

/-- The host has accepted the response, and the target was told that its file was read. -/
def exampleStart : List (Σ i : Party, i.Event) :=
  [⟨.host, .clientCompleted 0 .successful (insertHeader .arinc615a34 [0, 1, 0])⟩,
    ⟨.host, .callbackReturned⟩, ⟨.target, .serverCompleted 0 .successful []⟩]

end Arinc615a.System
