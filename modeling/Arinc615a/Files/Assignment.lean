import Arinc615a.Files.ListFiles
import Arinc615a.Files.LoadConfigurationListFile
import Arinc615a.Files.StatusFiles

/-!
# Assignment of raw data

Each protocol file class has a constructor from raw data and an `operator=` for
raw data. Both call `decode`, the constructor on a fresh object and the
assignment on the object it assigns to. `assign_eq` says what becomes of the
previous content: the decoders that fill a list append to it, the others
replace every field.
-/

namespace Arinc615a.Files

open Readers Readers.Reader

/-- What is made of the content in the end can be made of the file. -/
theorem decodeFile_map {α β : Type} {minimumSize : Nat} {tooSmall : String}
    {content : Arinc615aVersion → Decoder α} {content' : Arinc615aVersion → Decoder β}
    {f : α → β} (h : ∀ v, content' v = content v >>= fun a => pure (f a)) :
    decodeFile minimumSize tooSmall content' =
      decodeFile minimumSize tooSmall content >>= fun a => pure (f a) := by
  funext rawData
  simp only [decodeFile, bind_apply, remaining_apply, Outcome.bind_done, h]
  split
  · rfl
  · exact congrFun (Reader.bind_bind decodeHeader content fun a => pure (f a)) rawData |>.symm

/-- The protocol file classes with `operator=( ConstRawDataSpan )`. -/
inductive ProtocolFileClass where
  | uploadRequest
  | downloadRequest
  | downloadList
  | downloadAnswer
  | loadConfigurationList
  | uploadStatus
  | downloadStatus
  | informationStatus
  | initialization
  deriving DecidableEq

namespace ProtocolFileClass

/-- The objects of a class. -/
abbrev Object : ProtocolFileClass → Type
  | uploadRequest => UploadOperationRequestFile
  | downloadRequest => DownloadOperationRequestFile
  | downloadList => DownloadOperationListFile
  | downloadAnswer => DownloadOperationAnswerFile
  | loadConfigurationList => LoadConfigurationListFile
  | uploadStatus => UploadOperationStatusFile
  | downloadStatus => DownloadOperationStatusFile
  | informationStatus => InformationOperationStatusFile
  | initialization => InitializationFile

/-- The object a constructor starts with: the default members. -/
def fresh : (T : ProtocolFileClass) → T.Object
  | uploadRequest => ({} : UploadOperationRequestFile)
  | downloadRequest => ({} : DownloadOperationRequestFile)
  | downloadList => ({} : DownloadOperationListFile)
  | downloadAnswer => ({} : DownloadOperationAnswerFile)
  | loadConfigurationList => ({} : LoadConfigurationListFile)
  | uploadStatus => ({} : UploadOperationStatusFile)
  | downloadStatus => ({} : DownloadOperationStatusFile)
  | informationStatus => ({} : InformationOperationStatusFile)
  | initialization => ({} : InitializationFile)

/-- `decode` of the class, into an object. -/
def decode : (T : ProtocolFileClass) → T.Object → Decoder T.Object
  | uploadRequest => UploadOperationRequestFile.decode
  | downloadRequest => DownloadOperationRequestFile.decode
  | downloadList => DownloadOperationListFile.decode
  | downloadAnswer => DownloadOperationAnswerFile.decode
  | loadConfigurationList => LoadConfigurationListFile.decode
  | uploadStatus => UploadOperationStatusFile.decode
  | downloadStatus => DownloadOperationStatusFile.decode
  | informationStatus => InformationOperationStatusFile.decode
  | initialization => InitializationFile.decode

/-- `T::operator=`: the object it leaves, or the exception. -/
def assign (T : ProtocolFileClass) (self : T.Object) (rawData : RawData) :
    Outcome Arinc615aException T.Object :=
  (T.decode self rawData).bind fun (object, _) => .done object

/-- `T::T( rawData )`. -/
def construct (T : ProtocolFileClass) (rawData : RawData) :
    Outcome Arinc615aException T.Object :=
  (T.decode T.fresh rawData).bind fun (object, _) => .done object

/-! ## What is left of the previous content -/

/-- The object that is left when `read` was decoded into `self`. -/
def appended : (T : ProtocolFileClass) → (self read : T.Object) → T.Object
  | uploadRequest => fun (self read : UploadOperationRequestFile) =>
    { read with loads := self.loads ++ read.loads }
  | downloadRequest => fun (self read : DownloadOperationRequestFile) =>
    { read with files := self.files ++ read.files }
  | downloadList => fun (self read : DownloadOperationListFile) =>
    { read with files := self.files ++ read.files }
  | downloadAnswer => fun (self read : DownloadOperationAnswerFile) =>
    { read with files := self.files ++ read.files }
  | loadConfigurationList => fun (self read : LoadConfigurationListFile) =>
    { read with targetsHardware := self.targetsHardware ++ read.targetsHardware }
  | uploadStatus => fun _ read => read
  | downloadStatus => fun _ read => read
  | informationStatus => fun _ read => read
  | initialization => fun _ read => read

/-- No entry of the object stands in a list that its decoder appends to. -/
def NothingToKeep : (T : ProtocolFileClass) → T.Object → Prop
  | uploadRequest => fun (self : UploadOperationRequestFile) => self.loads = []
  | downloadRequest => fun (self : DownloadOperationRequestFile) => self.files = []
  | downloadList => fun (self : DownloadOperationListFile) => self.files = []
  | downloadAnswer => fun (self : DownloadOperationAnswerFile) => self.files = []
  | loadConfigurationList => fun (self : LoadConfigurationListFile) =>
    self.targetsHardware = []
  | uploadStatus => fun _ => True
  | downloadStatus => fun _ => True
  | informationStatus => fun _ => True
  | initialization => fun _ => True

/-- What was read is left alone exactly if there was nothing to keep. -/
theorem appended_eq_iff (T : ProtocolFileClass) (self read : T.Object) :
    T.appended self read = read ↔ T.NothingToKeep self := by
  cases T with
  | uploadRequest =>
    obtain ⟨_, loads⟩ := read
    show UploadOperationRequestFile.mk _ _ = _ ↔ _
    rw [UploadOperationRequestFile.mk.injEq]
    simp [NothingToKeep]
  | downloadRequest =>
    obtain ⟨_, files, _⟩ := read
    show DownloadOperationRequestFile.mk _ _ _ = _ ↔ _
    rw [DownloadOperationRequestFile.mk.injEq]
    simp [NothingToKeep]
  | downloadList =>
    obtain ⟨_, files⟩ := read
    show DownloadOperationListFile.mk _ _ = _ ↔ _
    rw [DownloadOperationListFile.mk.injEq]
    simp [NothingToKeep]
  | downloadAnswer =>
    obtain ⟨_, files⟩ := read
    show DownloadOperationAnswerFile.mk _ _ = _ ↔ _
    rw [DownloadOperationAnswerFile.mk.injEq]
    simp [NothingToKeep]
  | loadConfigurationList =>
    obtain ⟨_, targetsHardware⟩ := read
    show LoadConfigurationListFile.mk _ _ = _ ↔ _
    rw [LoadConfigurationListFile.mk.injEq]
    simp [NothingToKeep]
  | uploadStatus => simp [appended, NothingToKeep]
  | downloadStatus => simp [appended, NothingToKeep]
  | informationStatus => simp [appended, NothingToKeep]
  | initialization => simp [appended, NothingToKeep]

/-- The previous content plays no part but this: the result is what the
constructor reads, behind the entries kept. -/
theorem decode_eq (T : ProtocolFileClass) (self : T.Object) :
    T.decode self = T.decode T.fresh >>= fun read => pure (T.appended self read) := by
  cases T with
  | downloadRequest =>
    apply decodeFile_map
    intro v
    simp only [Reader.bind_bind, ite_throw_bind]
    rfl
  | _ =>
    apply decodeFile_map
    intro v
    simp only [Reader.bind_bind]
    rfl

/-- The assignment accepts what the constructor accepts. -/
theorem assign_eq (T : ProtocolFileClass) (self : T.Object) (rawData : RawData) :
    T.assign self rawData =
      (T.construct rawData).bind fun read => .done (T.appended self read) := by
  unfold assign construct
  rw [T.decode_eq self, bind_apply, Outcome.bind_bind, Outcome.bind_bind]
  rfl

end ProtocolFileClass

/-- **Assignment of raw data**: for every class, object and accepted data, the
object is as if constructed from the data exactly if the decoder had nothing to
append to. -/
theorem assign_eq_construct_iff (T : ProtocolFileClass) (self : T.Object) (rawData : RawData)
    (h : (T.construct rawData).isDone) :
    T.assign self rawData = T.construct rawData ↔ T.NothingToKeep self := by
  rw [T.assign_eq]
  cases hread : T.construct rawData with
  | done read =>
    rw [Outcome.bind_done, Outcome.done.injEq]
    exact T.appended_eq_iff self read
  | thrown e => simp [hread] at h
  | overrun => simp [hread, Outcome.isDone] at h

/-- A status that is assigned to a completed one replaces it. -/
theorem assign_status_replaces :
    ProtocolFileClass.informationStatus.assign
        ⟨.arinc615a34, { counter := 7, code := .operationCompleted }⟩
        (insertHeader .arinc615a34 [0, 1, 0, 1, 0, 0, 0, 0, 0]) =
      ProtocolFileClass.informationStatus.construct
        (insertHeader .arinc615a34 [0, 1, 0, 1, 0, 0, 0, 0, 0]) :=
  (assign_eq_construct_iff .informationStatus _ _ (by decide)).mpr trivial

/-- A request of no load, assigned to a request of one: the load stays. -/
theorem assign_keeps_loads :
    ¬ ∀ (T : ProtocolFileClass) (self : T.Object) (rawData : RawData),
      (T.construct rawData).isDone → T.assign self rawData = T.construct rawData := by
  intro h
  have hassign := h .uploadRequest (⟨.arinc615a34, [⟨str "A.LUH", str "PN"⟩]⟩ :
    UploadOperationRequestFile) (insertHeader .arinc615a34 [0, 0]) (by decide)
  cases hassign

end Arinc615a.Files
