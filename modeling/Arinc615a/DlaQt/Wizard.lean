import Arinc615a.DlaQt.Operations
import Arinc615a.Host.Machine

/-!
# The wizard of the operator defined download

`OperatorDefinedDownloadOperationWizard` with its pages, over the operation of the GUI and
the host operation that it creates. The slots of wizard and pages run in the GUI thread,
one after the other; the signals of the operation are queued for them, and the callbacks of
the host operation come from the I/O thread. Of the pages, only what decides over the
buttons is modelled: the rest shows texts.
-/

namespace Arinc615a.DlaQt.Wizard

open Actions Actions.Action Machines
open Information

/-- `Pages`, in their order. -/
inductive Pages where
  | settings
  | selectFiles
  | status
  | completed
  deriving DecidableEq

/-- The following page, and the one before. -/
def Pages.nextId : Pages → Option Pages
  | settings => some selectFiles
  | selectFiles => some status
  | status => some completed
  | completed => none

def Pages.previous : Pages → Option Pages
  | settings => none
  | selectFiles => some settings
  | status => some selectFiles
  | completed => some status

/-- The pages with `setCommitPage( true )`, which are not left backwards. -/
def Pages.isCommitPage : Pages → Bool
  | settings => true
  | selectFiles => true
  | _ => false

/-- The last page has no back button (`NoBackButtonOnLastPage`). -/
def Pages.backEnabled (page : Pages) : Bool :=
  match page.previous with
  | none => false
  | some before => !before.isCommitPage && page ≠ .completed

/-- A queued call of a slot of the wizard, of the selection page or of the status page. -/
inductive Delivery where
  | wizardFinished
  | selectFilesFinished
  | statusFinished
  | downloadingList (list : List DownloadFileInformation)
  deriving DecidableEq

/-- The slots that are connected with a signal, in this order. Those that only show
something are left out. -/
def deliveries : Signal → List Delivery
  | .operationFinished _ _ => [.wizardFinished, .selectFilesFinished, .statusFinished]
  | .receivedDownloadingList list => [.downloadingList list]
  | _ => []

/-- The host operation that the wizard's operation creates, and how the calls of its
`startOperation` end. -/
structure Configuration where
  host : Host.Configuration
  operation_eq : host.operation = .operatorDefinedDownload
  results : StartResults

structure State where
  page : Pages := .settings
  /-- The files that can be selected, and the rows that are. -/
  available : List DownloadFileInformation := []
  selection : List Nat := []
  /-- `filesV`. -/
  files : List Str := []
  /-- The button that leads to the next page is enabled. -/
  nextEnabled : Bool := true
  /-- `isCompleted` of the status page. -/
  statusCompleted : Bool := false
  /-- The operation of the GUI and the host operation. -/
  operation : DlaQt.State := {}
  core : Option Host.State := none
  /-- The event loop of the GUI thread. -/
  posted : List Delivery := []

/-- The names of the files in these rows. -/
def State.names (s : State) (rows : List Nat) : List Str :=
  (rows.filterMap (s.available[·]?)).map (·.filename)

/-- A slot or a callback; its outputs are those of the host operation. -/
abbrev Handler := Action State Host.Output

/-! ## Calls of the operation and of the host operation -/

/-- Run a slot or a callback of the operation. Its signals are queued. -/
def runSlot (slot : Slot Unit) : Handler Unit := do
  let s ← get
  match run slot s.operation with
  | none => undefined
  | some (operation, signals) =>
    modify fun s =>
      { s with operation := operation, posted := s.posted ++ signals.flatMap deliveries }

/-- The host operation takes a step, if it can. -/
def stepCore (cfg : Configuration) (e : Host.Event) : Handler (List Host.Output) := do
  let s ← get
  match s.core with
  | none => undefined
  | some core =>
    match (Host.machine cfg.host).step core e with
    | none => undefined
    | some (core', out) => do
      modify fun s => { s with core := some core' }
      emitAll out
      pure out

def isThrown : Host.Output → Bool
  | .thrown _ => true
  | _ => false

/-- How a call of the host operation ends: it throws `Arinc615aException` only. -/
def resultOf (out : List Host.Output) : CallResult :=
  if out.any isThrown then .thrown .boost else .returned

/-- A slot that calls the host operation, if there is one. -/
def callCore (cfg : Configuration) (e : Host.Event) (slot : CallResult → Slot Unit) :
    Handler Unit := do
  let s ← get
  match s.operation.operation with
  | none => runSlot (slot .returned)
  | some _ => do
    let out ← stepCore cfg e
    runSlot (slot (resultOf out))

/-! ## Slots of the wizard -/

/-- `startOperation`. A host operation whose `start()` has thrown is there, but does not
run. -/
def startOperation (cfg : Configuration) : Handler Unit := do
  runSlot (OperatorDefinedDownloadOperation.startOperation cfg.results)
  let s ← get
  match s.operation.operation with
  | none => pure ()
  | some operation =>
    if operation ∈ s.operation.running then
      match (Host.start cfg.host).run {} with
      | none => undefined
      | some (core, out) => do
        modify fun s => { s with core := some core }
        emitAll out
    else modify fun s => { s with core := some {} }

/-- `filesSelected` transmits the files that were selected last. -/
def filesSelected (cfg : Configuration) : Handler Unit := do
  let s ← get
  callCore cfg (.answer s.files) (OperatorDefinedDownloadOperation.transmitFiles .returned)

def pageChanged (cfg : Configuration) : Pages → Handler Unit
  | .selectFiles => startOperation cfg
  | .status => filesSelected cfg
  | _ => pure ()

/-- `isComplete` of the current page. The settings page is left with complete settings, and
`aborted` of the selection page is never set. -/
def isComplete (s : State) : Bool :=
  match s.page with
  | .settings => true
  | .selectFiles => !s.selection.isEmpty
  | .status => s.statusCompleted
  | .completed => true

/-- `completeChanged` of a page updates the button. -/
def completeChanged : Handler Unit :=
  modify fun s => { s with nextEnabled := isComplete s }

def goTo (cfg : Configuration) (page : Pages) : Handler Unit := do
  modify fun s => { s with page := page }
  completeChanged
  pageChanged cfg page

/-- `QWizard::next()`, which does not ask `isComplete()`. -/
def next (cfg : Configuration) : Handler Unit := do
  let s ← get
  match s.page.nextId with
  | none => pure ()
  | some page => goTo cfg page

/-- `operationFinished`. -/
def operationFinished (cfg : Configuration) : Handler Unit := next cfg

/-- `updateSelectedFiles` of the selection page and of the wizard. -/
def updateSelectedFiles (rows : List Nat) : Handler Unit := do
  modify fun s => { s with selection := rows, files := s.names rows }
  completeChanged

/-- `downloadingList`: the model is reset, which clears the selection without a signal. -/
def downloadingList (list : List DownloadFileInformation) : Handler Unit :=
  modify fun s => { s with available := list, selection := [] }

def deliver (cfg : Configuration) : Delivery → Handler Unit
  | .wizardFinished => operationFinished cfg
  | .selectFilesFinished => completeChanged
  | .statusFinished => do
    modify fun s => { s with statusCompleted := true }
    completeChanged
  | .downloadingList list => downloadingList list

/-- The callback for an output of the host operation. `saved` is how saving the download
information ends. -/
def callback (saved : CallResult) : Host.Output → Handler Unit
  | .finished code description =>
    runSlot (OperatorDefinedDownloadOperation.finished code description saved)
  | .initialisationDeferred waitTime => runSlot (initialisationDeferred waitTime)
  | .initialisationResponse response => runSlot (initialisationResponse response)
  | .status reported => runSlot (status reported)
  | .downloadingList files => runSlot (OperatorDefinedDownloadOperation.downloadingList files)
  | _ => pure ()

def callbacks (saved : CallResult) : List Host.Output → Handler Unit
  | [] => pure ()
  | o :: out => do
    callback saved o
    callbacks saved out

/-! ## The machine -/

inductive Event where
  /-- The operator goes on to the next page or back, selects files, or aborts. -/
  | next
  | back
  | select (rows : List Nat)
  | abort
  /-- The first queued call of a slot. -/
  | deliver
  /-- The host operation, on its own. -/
  | core (e : Host.Event) (saved : CallResult)

/-- What happens to the host operation on its own: the calls of its user are made by the
slots, and the callbacks throw no exception of the core. -/
def ofCore : Host.Event → Bool
  | .callbackThrew => false
  | .abort _ => false
  | .terminate _ => false
  | .loadList _ => false
  | .request _ _ => false
  | .answer _ => false
  | _ => true

def react (cfg : Configuration) : Event → Handler Unit
  | .next => do
    let s ← get
    require s.nextEnabled
    next cfg
  | .back => do
    let s ← get
    require s.page.backEnabled
    match s.page.previous with
    | none => undefined
    | some page => goTo cfg page
  | .select rows => do
    let s ← get
    require (s.page = .selectFiles ∧ ∀ row ∈ rows, row < s.available.length)
    updateSelectedFiles rows
  | .abort => do
    let s ← get
    require (s.page = .selectFiles ∨ s.page = .status)
    callCore cfg (.abort .operator) abortOperation
  | .deliver => do
    let s ← get
    match s.posted with
    | [] => undefined
    | first :: rest => do
      modify fun s => { s with posted := rest }
      deliver cfg first
  | .core e saved => do
    require (ofCore e)
    let out ← stepCore cfg e
    callbacks saved out

/-- One wizard, from its settings page on. -/
def machine (cfg : Configuration) : Machine State Event Host.Output where
  step s e := if s.operation.terminated then none else (react cfg e).run s

end Arinc615a.DlaQt.Wizard
