import Arinc615a.Configuration
import Arinc615a.Text

/-!
# The configuration of the data loader

`DataLoaderConfiguration.cpp`: the FIND and the ARINC 615A configuration share their
subtrees with values of the data loader, and values that are the default ones may be left
out. A subtree that is left out is not always read as the one that was written: the ARINC
615A configuration is read into a new one only where there is a subtree.
-/

namespace Arinc615a.DlaQt

open PropertyTrees PropertyTrees.PropertyTree
open Find

/-- `DataLoaderConfiguration`. -/
structure DataLoaderConfiguration (Address Tftp TftpOptions : Type) where
  findConfiguration : FindConfiguration Address
  findTimeout : Int64
  dynamicFindPort : Bool
  dataLoaderConfiguration : Arinc615aConfiguration Address Tftp TftpOptions
  dlpTimeout : Int64
  portOption : Bool
  mediaSetConfigurationDirectory : Str
  downloadBaseDirectory : Str
  verifyDownloadFiles : Bool

namespace DataLoaderConfiguration

/-- `DefaultReceiveTimeout`. -/
def defaultReceiveTimeout : Int64 := 3

/-- `DefaultArinc615aDlpTimeout`. -/
def defaultDlpTimeout : Int64 := 13

/-- `DynamicFindPortDefault`. -/
def dynamicFindPortDefault : Bool := true

/-- `PortOptionDefault`. -/
def portOptionDefault : Bool := false

variable {Address Tftp TftpOptions : Type} [DecidableEq Address]

/-- `DataLoaderConfiguration::fromProperties`: it assigns all members. -/
def fromProperties (lib : ConfigurationLibrary Address Tftp TftpOptions)
    (properties : Properties) :
    Option (DataLoaderConfiguration Address Tftp TftpOptions) := do
  let findConfiguration ←
    (FindConfiguration.properties lib).read (str "arinc_615a_find") properties
  let findTimeout :=
    properties.get lib.seconds [str "arinc_615a_find", str "timeout"] defaultReceiveTimeout
  let dynamicFindPort :=
    properties.get lib.bool [str "arinc_615a_find", str "dynamic_port"] dynamicFindPortDefault
  let dataLoaderConfiguration ←
    (Arinc615aConfiguration.properties lib).read (str "arinc_615a") properties
  let dlpTimeout :=
    properties.get lib.seconds [str "arinc_615a", str "dlp_timeout"] defaultDlpTimeout
  let portOption :=
    properties.get lib.bool [str "arinc_615a", str "port_option"] portOptionDefault
  let mediaSetConfigurationDirectory := properties.get Translator.data
    [str "media_set_manager"] (lib.appConfigLocation ++ str "/MediaSetManager")
  let downloadBaseDirectory := properties.get Translator.data
    [str "download_base_directory"] lib.documentsLocation
  let verifyDownloadFiles := properties.get lib.bool [str "verify_download_files"] true
  some ⟨findConfiguration, findTimeout, dynamicFindPort, dataLoaderConfiguration, dlpTimeout,
    portOption, mediaSetConfigurationDirectory, downloadBaseDirectory, verifyDownloadFiles⟩

/-- The part of `DataLoaderConfiguration::toProperties` for the FIND protocol. -/
def findProperties (lib : ConfigurationLibrary Address Tftp TftpOptions)
    (configuration : DataLoaderConfiguration Address Tftp TftpOptions) (full : Bool)
    (properties : Properties) : Properties :=
  let properties := (FindConfiguration.properties lib).write (str "arinc_615a_find") full
    configuration.findConfiguration properties
  let properties := properties.addUnless lib.seconds [str "arinc_615a_find", str "timeout"]
    full defaultReceiveTimeout configuration.findTimeout
  properties.addUnless lib.bool [str "arinc_615a_find", str "dynamic_port"] full
    dynamicFindPortDefault configuration.dynamicFindPort

/-- The part for the protocol of the host. -/
def hostProperties (lib : ConfigurationLibrary Address Tftp TftpOptions)
    (configuration : DataLoaderConfiguration Address Tftp TftpOptions) (full : Bool)
    (properties : Properties) : Properties :=
  let properties := (Arinc615aConfiguration.properties lib).write (str "arinc_615a") full
    configuration.dataLoaderConfiguration properties
  let properties := properties.addUnless lib.seconds [str "arinc_615a", str "dlp_timeout"]
    full defaultDlpTimeout configuration.dlpTimeout
  properties.addUnless lib.bool [str "arinc_615a", str "port_option"] full portOptionDefault
    configuration.portOption

/-- `DataLoaderConfiguration::toProperties`. The two directories are always stored. -/
def toProperties (lib : ConfigurationLibrary Address Tftp TftpOptions)
    (configuration : DataLoaderConfiguration Address Tftp TftpOptions) (full : Bool) :
    Properties :=
  let properties := configuration.findProperties lib full empty
  let properties := configuration.hostProperties lib full properties
  let properties := properties.add Translator.data [str "media_set_manager"]
    configuration.mediaSetConfigurationDirectory
  let properties := properties.add Translator.data [str "download_base_directory"]
    configuration.downloadBaseDirectory
  properties.addUnless lib.bool [str "verify_download_files"] full true
    configuration.verifyDownloadFiles

variable {lib : ConfigurationLibrary Address Tftp TftpOptions}
  {configuration : DataLoaderConfiguration Address Tftp TftpOptions} {full : Bool}
  {t : Properties}

/-! ## Reading and writing -/

theorem findProperties_eq : configuration.findProperties lib full t =
    (FindConfiguration.properties lib).writeShared (str "arinc_615a_find") full
      configuration.findConfiguration lib.seconds (str "timeout") defaultReceiveTimeout
      configuration.findTimeout lib.bool (str "dynamic_port") dynamicFindPortDefault
      configuration.dynamicFindPort t := rfl

theorem hostProperties_eq : configuration.hostProperties lib full t =
    (Arinc615aConfiguration.properties lib).writeShared (str "arinc_615a") full
      configuration.dataLoaderConfiguration lib.seconds (str "dlp_timeout") defaultDlpTimeout
      configuration.dlpTimeout lib.bool (str "port_option") portOptionDefault
      configuration.portOption t := rfl

/-- What stands behind the two subtrees. -/
theorem child?_toProperties {key : Str} (hmedia : str "media_set_manager" ≠ key)
    (hdownload : str "download_base_directory" ≠ key)
    (hverify : str "verify_download_files" ≠ key) :
    (configuration.toProperties lib full).child? key =
      (configuration.hostProperties lib full
        (configuration.findProperties lib full empty)).child? key := by
  simp only [toProperties, child?_addUnless_ne hverify, child?_add_ne hdownload,
    child?_add_ne hmedia]

/-- The FIND subtree. -/
theorem child?_find : (configuration.toProperties lib full).child? (str "arinc_615a_find") =
    (configuration.findProperties lib full empty).child? (str "arinc_615a_find") := by
  rw [child?_toProperties (by decide) (by decide) (by decide), hostProperties_eq,
    Section.child?_writeShared_ne (by decide)]

/-- The ARINC 615A subtree. -/
theorem child?_host : (configuration.toProperties lib full).child? (str "arinc_615a") =
    (configuration.hostProperties lib full
      (configuration.findProperties lib full empty)).child? (str "arinc_615a") :=
  child?_toProperties (by decide) (by decide) (by decide)

theorem child?_findProperties_host :
    (configuration.findProperties lib full empty).child? (str "arinc_615a") = none := by
  rw [findProperties_eq, Section.child?_writeShared_ne (by decide), child?_empty]

/-- A value of a subtree is read from the subtree alone. -/
theorem get_of_child {β : Type} {tr : Translator Str β} {key k : Str} {fallback : β}
    {t t' : Properties} (h : t.child? key = t'.child? key) :
    t.get tr [key, k] fallback = t'.get tr [key, k] fallback := by
  rw [get_cons (List.cons_ne_nil _ _), subtree_congr h, get_cons (List.cons_ne_nil _ _)]

/-- The ARINC 615A configuration is left out, and a new one has another TFTP
configuration: nothing of the subtree differs from the defaults but the TFTP configuration,
which is the one of the TFTP library with its own default port. -/
def LeftOut (lib : ConfigurationLibrary Address Tftp TftpOptions)
    (configuration : DataLoaderConfiguration Address Tftp TftpOptions) (full : Bool) : Prop :=
  full = false ∧
    (Arinc615aConfiguration.toProperties lib configuration.dataLoaderConfiguration
      full).isEmpty = true ∧
    configuration.dlpTimeout = defaultDlpTimeout ∧
    configuration.portOption = portOptionDefault ∧
    configuration.dataLoaderConfiguration.tftpConfiguration ≠
      lib.tftpConfigurationOf Arinc615aConfiguration.defaultTftpPort

/-- There is no ARINC 615A subtree where nothing was to be written to it. -/
theorem child?_host_eq_none_iff :
    (configuration.toProperties lib full).child? (str "arinc_615a") = none ↔
      full = false ∧
        (Arinc615aConfiguration.toProperties lib configuration.dataLoaderConfiguration
          full).isEmpty = true ∧
        configuration.dlpTimeout = defaultDlpTimeout ∧
        configuration.portOption = portOptionDefault := by
  rw [child?_host, hostProperties_eq]
  exact Section.child?_writeShared_eq_none_iff child?_findProperties_host

/-- The ARINC 615A configuration is read, unless it is left out. -/
theorem read_host_iff (h : lib.Lawful) :
    (Arinc615aConfiguration.properties lib).read (str "arinc_615a")
        (configuration.toProperties lib full) =
      some configuration.dataLoaderConfiguration ↔ ¬ configuration.LeftOut lib full := by
  by_cases hchild : (configuration.toProperties lib full).child? (str "arinc_615a") = none
  · obtain ⟨hfull, hblank, htimeout, hport⟩ := child?_host_eq_none_iff.mp hchild
    have hleft := Arinc615aConfiguration.eq_of_isEmpty h hblank
    have hread : (Arinc615aConfiguration.properties lib).read (str "arinc_615a")
        (configuration.toProperties lib full) = some (Arinc615aConfiguration.new lib) := by
      rw [Section.read, hchild]
      rfl
    rw [hread, Option.some.injEq]
    simp only [LeftOut, hfull, htimeout, hport, true_and, ne_eq, not_and, not_not]
    constructor
    · intro hnew _
      rw [← hnew]
      rfl
    · intro htftp
      have hdefault := htftp (hfull ▸ hblank)
      rw [hleft] at hdefault ⊢
      simp only at hdefault
      rw [hdefault]
      rfl
  · refine iff_of_true ?_ fun hleft => hchild (child?_host_eq_none_iff.mpr
      ⟨hleft.1, hleft.2.1, hleft.2.2.1, hleft.2.2.2.1⟩)
    refine (Arinc615aConfiguration.properties_readsWritten h).read_of_child
      Arinc615aConfiguration.properties_readsOnly full hchild ?_
    rw [subtree_congr child?_host, hostProperties_eq]
    exact Section.child?_subtree_writeShared child?_findProperties_host (by decide) (by decide)

/-- The FIND configuration is read in any case. -/
theorem read_find (h : lib.Lawful) :
    (FindConfiguration.properties lib).read (str "arinc_615a_find")
      (configuration.toProperties lib full) = some configuration.findConfiguration := by
  refine (FindConfiguration.properties_lawful h).read_of_agrees
    FindConfiguration.properties_readsOnly full ?_
  rw [subtree_congr child?_find, findProperties_eq]
  exact Section.child?_subtree_writeShared child?_empty (by decide) (by decide)

/-- The values beside the two configurations are read. -/
theorem get_toProperties_shared (h : lib.Lawful) :
    ((configuration.toProperties lib full).get lib.seconds
        [str "arinc_615a_find", str "timeout"] defaultReceiveTimeout =
          configuration.findTimeout ∧
      (configuration.toProperties lib full).get lib.bool
        [str "arinc_615a_find", str "dynamic_port"] dynamicFindPortDefault =
          configuration.dynamicFindPort) ∧
      (configuration.toProperties lib full).get lib.seconds
        [str "arinc_615a", str "dlp_timeout"] defaultDlpTimeout = configuration.dlpTimeout ∧
      (configuration.toProperties lib full).get lib.bool
        [str "arinc_615a", str "port_option"] portOptionDefault = configuration.portOption := by
  rw [get_of_child child?_find, get_of_child child?_find, get_of_child child?_host,
    get_of_child child?_host]
  refine ⟨⟨?_, ?_⟩, ?_, ?_⟩
  · exact Section.get_writeShared child?_empty FindConfiguration.properties_writesOnly
      (by decide) h.seconds (by decide)
  · exact Section.get_writeShared' child?_empty FindConfiguration.properties_writesOnly
      (by decide) h.bool (by decide)
  · exact Section.get_writeShared child?_findProperties_host
      Arinc615aConfiguration.properties_writesOnly (by decide) h.seconds (by decide)
  · exact Section.get_writeShared' child?_findProperties_host
      Arinc615aConfiguration.properties_writesOnly (by decide) h.bool (by decide)

/-- The two subtrees leave the other keys alone. -/
theorem child?_subtrees_ne {key : Str} (hfind : str "arinc_615a_find" ≠ key)
    (hhost : str "arinc_615a" ≠ key) :
    (configuration.hostProperties lib full
      (configuration.findProperties lib full empty)).child? key = none := by
  rw [hostProperties_eq, Section.child?_writeShared_ne hhost, findProperties_eq,
    Section.child?_writeShared_ne hfind, child?_empty]

/-- The values behind the subtrees are read. -/
theorem get_toProperties (h : lib.Lawful) :
    (configuration.toProperties lib full).get Translator.data
        [str "media_set_manager"] (lib.appConfigLocation ++ str "/MediaSetManager") =
          configuration.mediaSetConfigurationDirectory ∧
      (configuration.toProperties lib full).get Translator.data
        [str "download_base_directory"] lib.documentsLocation =
          configuration.downloadBaseDirectory ∧
      (configuration.toProperties lib full).get lib.bool
        [str "verify_download_files"] true = configuration.verifyDownloadFiles := by
  refine ⟨?_, ?_, ?_⟩
  · simp (disch := decide) only [toProperties, get_addUnless_ne, get_add_ne]
    exact get_add Translator.data_inverse (child?_subtrees_ne (by decide) (by decide))
  · simp (disch := decide) only [toProperties, get_addUnless_ne]
    apply get_add Translator.data_inverse
    simp (disch := decide) only [child?_add_ne, child?_subtrees_ne]
  · apply get_addUnless h.bool
    simp (disch := decide) only [child?_add_ne, child?_subtrees_ne]

/-- **Saving the configuration**: what the data loader writes is read again, exactly unless
it is written without the default values and its ARINC 615A part is left out. -/
theorem configuration_roundTrip_iff (h : lib.Lawful)
    (configuration : DataLoaderConfiguration Address Tftp TftpOptions) (full : Bool) :
    fromProperties lib (configuration.toProperties lib full) = some configuration ↔
      ¬ configuration.LeftOut lib full := by
  obtain ⟨⟨htimeout, hdynamic⟩, hdlp, hport⟩ :=
    @get_toProperties_shared _ _ _ _ lib configuration full h
  obtain ⟨hmedia, hdownload, hverify⟩ := @get_toProperties _ _ _ _ lib configuration full h
  rw [← read_host_iff h]
  simp only [fromProperties, read_find h, htimeout, hdynamic, hdlp, hport, hmedia, hdownload,
    hverify]
  cases (Arinc615aConfiguration.properties lib).read (str "arinc_615a")
      (configuration.toProperties lib full) with
  | none =>
    constructor
    · intro hread
      cases hread
    · intro hread
      cases hread
  | some host =>
    constructor
    · intro hread
      exact congrArg (Option.map dataLoaderConfiguration) hread
    · intro hread
      rw [Option.some.inj hread]
      rfl

/-! ## An example -/

/-- Numbers below a power of two. -/
def exampleNumber (width : Nat) {β : Type} (toNat : β → Nat) (ofNat : Nat → β) :
    Translator Str β :=
  ⟨fun value => decimal (toNat value), fun text => (fromChars 10 width text).map ofNat⟩

theorem exampleNumber_inverse {width : Nat} {β : Type} {toNat : β → Nat} {ofNat : Nat → β}
    (hlt : ∀ value, toNat value < 2 ^ width) (hof : ∀ value, ofNat (toNat value) = value) :
    (exampleNumber width toNat ofNat).Inverse := by
  intro value
  simp only [exampleNumber, fromChars_decimal (hlt value), Option.map_some, hof]

def exampleUInt16 : Translator Str UInt16 := exampleNumber 16 UInt16.toNat UInt16.ofNat

theorem exampleUInt16_inverse : exampleUInt16.Inverse :=
  exampleNumber_inverse UInt16.toNat_lt fun _ => UInt16.ofNat_toNat

/-- A TFTP library whose configuration is a port. -/
def exampleLibrary : ConfigurationLibrary UInt32 UInt16 Unit where
  any := 0
  address := exampleNumber 32 UInt32.toNat UInt32.ofNat
  uint16 := exampleUInt16
  bool :=
    ⟨fun value => if value then str "true" else str "false", fun text =>
      if text = str "true" then some true
      else if text = str "false" then some false else none⟩
  seconds :=
    exampleNumber 64 (fun value => value.toUInt64.toNat) fun n => (UInt64.ofNat n).toInt64
  tftpConfiguration :=
    ⟨69, fun port t => some (t.get exampleUInt16 [str "port"] port),
      fun port full => empty.addUnless exampleUInt16 [str "port"] full 69 port⟩
  tftpConfigurationOf port := port
  tftpOptionsConfiguration := ⟨(), fun _ _ => some (), fun _ _ => empty⟩
  appConfigLocation := str "/config"
  documentsLocation := str "/documents"

theorem exampleLibrary_lawful : exampleLibrary.Lawful where
  address := exampleNumber_inverse UInt32.toNat_lt fun _ => UInt32.ofNat_toNat
  uint16 := exampleUInt16_inverse
  bool value := by cases value <;> rfl
  seconds := exampleNumber_inverse (fun value => value.toUInt64.toNat_lt) fun value => by
    rw [UInt64.ofNat_toNat, Int64.toInt64_toUInt64]
  tftpConfiguration :=
    { read_written := fun _ _ =>
        congrArg some (get_addUnless exampleUInt16_inverse child?_empty)
      blank := fun port t hblank => by
        have hnone : t.child? (str "port") = none := child?_of_isEmpty hblank
        show some (t.get exampleUInt16 [str "port"] port) = some port
        rw [PropertyTree.get, get?_single, hnone]
        rfl }
  tftpOptionsConfiguration := ⟨fun _ _ => rfl, fun _ _ _ => rfl⟩

/-- All values are the default ones, but for the port 69 of TFTP. -/
def exampleConfiguration : DataLoaderConfiguration UInt32 UInt16 Unit where
  findConfiguration := FindConfiguration.new exampleLibrary
  findTimeout := defaultReceiveTimeout
  dynamicFindPort := dynamicFindPortDefault
  dataLoaderConfiguration := { Arinc615aConfiguration.new exampleLibrary with
    tftpConfiguration := 69 }
  dlpTimeout := defaultDlpTimeout
  portOption := portOptionDefault
  mediaSetConfigurationDirectory := str "/media"
  downloadBaseDirectory := str "/downloads"
  verifyDownloadFiles := true

/-- Saved in full it is read, but the port is lost where default values are left out. -/
theorem configuration_roundTrip_port :
    fromProperties exampleLibrary (exampleConfiguration.toProperties exampleLibrary true) =
        some exampleConfiguration ∧
      fromProperties exampleLibrary (exampleConfiguration.toProperties exampleLibrary false) ≠
        some exampleConfiguration := by
  constructor
  · refine (configuration_roundTrip_iff exampleLibrary_lawful _ _).mpr ?_
    rintro ⟨hfull, -⟩
    cases hfull
  · intro hread
    refine (configuration_roundTrip_iff exampleLibrary_lawful _ _).mp hread ?_
    exact ⟨rfl, rfl, rfl, rfl, by decide⟩

end DataLoaderConfiguration

end Arinc615a.DlaQt
