import Arinc615a.Lib.PropertyTree
import Arinc615a.StatusCode

/-!
# Configurations

`find/FindConfiguration.cpp`, `Arinc615aConfiguration.cpp` and the configuration of the data
loader, `arinc_615a_dla_qt/DataLoaderConfiguration.cpp`, in property trees. Values that are
the default ones may be left out; the two first configurations and further values of the data
loader share a subtree each.
-/

namespace Arinc615a

open PropertyTrees PropertyTrees.PropertyTree

/-- `boost::property_tree::ptree`. -/
abbrev Properties := PropertyTree Str Str

/-- What the configurations take from other libraries. -/
structure ConfigurationLibrary (Address Tftp TftpOptions : Type) where
  /-- `boost::asio::ip::address_v4::any()`. -/
  any : Address
  /-- `to_string` and `make_address`, which may throw. -/
  address : Translator Str Address
  uint16 : Translator Str UInt16
  bool : Translator Str Bool
  /-- `std::chrono::seconds::rep`. -/
  seconds : Translator Str Int64
  /-- `::Tftp::TftpConfiguration`, also with a default port of its own. -/
  tftpConfiguration : Section Str Str Tftp
  tftpConfigurationOf : UInt16 → Tftp
  /-- `::Tftp::TftpOptionsConfiguration`. -/
  tftpOptionsConfiguration : Section Str Str TftpOptions
  /-- `QStandardPaths::writableLocation`. -/
  appConfigLocation : Str
  documentsLocation : Str

/-- The libraries read what they write. -/
structure ConfigurationLibrary.Lawful {Address Tftp TftpOptions : Type}
    (lib : ConfigurationLibrary Address Tftp TftpOptions) : Prop where
  address : lib.address.Inverse
  uint16 : lib.uint16.Inverse
  bool : lib.bool.Inverse
  seconds : lib.seconds.Inverse
  tftpConfiguration : lib.tftpConfiguration.Lawful
  tftpOptionsConfiguration : lib.tftpOptionsConfiguration.Lawful

variable {Address Tftp TftpOptions : Type} [DecidableEq Address]
  {lib : ConfigurationLibrary Address Tftp TftpOptions}

/-! ## The FIND configuration -/

namespace Find

structure FindConfiguration (Address : Type) where
  localInterfaceAddress : Address
  findPort : UInt16
  deriving DecidableEq

namespace FindConfiguration

/-- `DefaultPort`. -/
def defaultPort : UInt16 := 1001

/-- A new configuration. -/
def new (lib : ConfigurationLibrary Address Tftp TftpOptions) : FindConfiguration Address :=
  ⟨lib.any, defaultPort⟩

/-- `FindConfiguration::fromProperties`. -/
def fromProperties (lib : ConfigurationLibrary Address Tftp TftpOptions)
    (configuration : FindConfiguration Address) (properties : Properties) :
    Option (FindConfiguration Address) := do
  let localInterfaceAddress ← properties.getOrFail lib.address [str "local_find_address"]
    configuration.localInterfaceAddress
  let findPort := properties.get lib.uint16 [str "find_port"] configuration.findPort
  some ⟨localInterfaceAddress, findPort⟩

/-- `FindConfiguration::toProperties`. -/
def toProperties (lib : ConfigurationLibrary Address Tftp TftpOptions)
    (configuration : FindConfiguration Address) (full : Bool) : Properties :=
  let properties := empty.addUnless lib.address [str "local_find_address"] full lib.any
    configuration.localInterfaceAddress
  properties.addUnless lib.uint16 [str "find_port"] full defaultPort configuration.findPort

/-- The configuration as a section. -/
def properties (lib : ConfigurationLibrary Address Tftp TftpOptions) :
    Section Str Str (FindConfiguration Address) :=
  ⟨new lib, fromProperties lib, toProperties lib⟩

/-- The keys of the configuration. -/
def keys : List Str := [str "local_find_address", str "find_port"]

omit [DecidableEq Address] in
theorem fromProperties_congr {configuration : FindConfiguration Address} {t t' : Properties}
    (h : ∀ key ∈ keys, t.child? key = t'.child? key) :
    fromProperties lib configuration t = fromProperties lib configuration t' := by
  simp only [fromProperties, getOrFail_congr (h (str "local_find_address") (by decide)),
    get_congr (h (str "find_port") (by decide))]

theorem properties_readsOnly : (properties lib).ReadsOnly keys :=
  fun _ _ _ => fromProperties_congr

theorem properties_writesOnly : (properties lib).WritesOnly keys := by
  intro configuration full key hkey
  simp only [keys, List.mem_cons, List.not_mem_nil, or_false, not_or] at hkey
  show (toProperties lib configuration full).child? key = none
  simp only [toProperties, child?_addUnless_ne (Ne.symm hkey.1),
    child?_addUnless_ne (Ne.symm hkey.2), child?_empty]

theorem properties_lawful (h : lib.Lawful) : (properties lib).Lawful where
  read_written configuration full := by
    show fromProperties lib (new lib) (toProperties lib configuration full) = _
    have haddress : (toProperties lib configuration full).getOrFail lib.address
        [str "local_find_address"] lib.any = some configuration.localInterfaceAddress := by
      simp (disch := decide) only [toProperties, getOrFail_addUnless_ne]
      exact getOrFail_addUnless h.address child?_empty
    have hport : (toProperties lib configuration full).get lib.uint16 [str "find_port"]
        defaultPort = configuration.findPort :=
      get_addUnless h.uint16 (child?_addUnless_ne (by decide))
    simp only [fromProperties, new, haddress, hport]
    rfl
  blank configuration t hblank := by
    have hsame : ∀ key ∈ keys, t.child? key = (empty : Properties).child? key := by
      intro key _
      rw [child?_of_isEmpty hblank, child?_empty]
    exact (fromProperties_congr hsame).trans rfl

end FindConfiguration

end Find

/-! ## The ARINC 615A configuration -/

structure Arinc615aConfiguration (Address Tftp TftpOptions : Type) where
  localInterfaceAddress : Address
  dlpRetries : UInt16
  tftpConfiguration : Tftp
  tftpOptionsConfiguration : TftpOptions
  protocolFileLogging : Bool

namespace Arinc615aConfiguration

/-- `DefaultArinc615aDlpRetries`. -/
def defaultDlpRetries : UInt16 := 1

/-- `DefaultArinc615aTftpPort`. -/
def defaultTftpPort : UInt16 := 59

/-- A new configuration. -/
def new (lib : ConfigurationLibrary Address Tftp TftpOptions) :
    Arinc615aConfiguration Address Tftp TftpOptions where
  localInterfaceAddress := lib.any
  dlpRetries := defaultDlpRetries
  tftpConfiguration := lib.tftpConfigurationOf defaultTftpPort
  tftpOptionsConfiguration := lib.tftpOptionsConfiguration.initial
  protocolFileLogging := false

/-- `Arinc615aConfiguration::fromProperties`. -/
def fromProperties (lib : ConfigurationLibrary Address Tftp TftpOptions)
    (configuration : Arinc615aConfiguration Address Tftp TftpOptions)
    (properties : Properties) : Option (Arinc615aConfiguration Address Tftp TftpOptions) := do
  let localInterfaceAddress ← properties.getOrFail lib.address [str "local_tftp_address"]
    configuration.localInterfaceAddress
  let dlpRetries := properties.get lib.uint16 [str "dlp_retries"] configuration.dlpRetries
  -- Without the child this is not the TFTP configuration of a new configuration: its port
  -- is the default one of the TFTP library.
  let tftpConfiguration ← lib.tftpConfiguration.read (str "tftp") properties
  let tftpOptionsConfiguration ←
    lib.tftpOptionsConfiguration.read (str "tftp_options") properties
  let protocolFileLogging :=
    properties.get lib.bool [str "protocol_file_logging"] configuration.protocolFileLogging
  some ⟨localInterfaceAddress, dlpRetries, tftpConfiguration, tftpOptionsConfiguration,
    protocolFileLogging⟩

/-- `Arinc615aConfiguration::toProperties`. -/
def toProperties (lib : ConfigurationLibrary Address Tftp TftpOptions)
    (configuration : Arinc615aConfiguration Address Tftp TftpOptions) (full : Bool) :
    Properties :=
  let properties := empty.addUnless lib.address [str "local_tftp_address"] full lib.any
    configuration.localInterfaceAddress
  let properties := properties.addUnless lib.uint16 [str "dlp_retries"] full
    defaultDlpRetries configuration.dlpRetries
  let properties := lib.tftpConfiguration.write (str "tftp") full
    configuration.tftpConfiguration properties
  let properties := lib.tftpOptionsConfiguration.write (str "tftp_options") full
    configuration.tftpOptionsConfiguration properties
  properties.addUnless lib.bool [str "protocol_file_logging"] full false
    configuration.protocolFileLogging

/-- The configuration as a section. -/
def properties (lib : ConfigurationLibrary Address Tftp TftpOptions) :
    Section Str Str (Arinc615aConfiguration Address Tftp TftpOptions) :=
  ⟨new lib, fromProperties lib, toProperties lib⟩

/-- The keys of the configuration. -/
def keys : List Str :=
  [str "local_tftp_address", str "dlp_retries", str "tftp", str "tftp_options",
    str "protocol_file_logging"]

omit [DecidableEq Address] in
theorem fromProperties_congr {configuration : Arinc615aConfiguration Address Tftp TftpOptions}
    {t t' : Properties} (h : ∀ key ∈ keys, t.child? key = t'.child? key) :
    fromProperties lib configuration t = fromProperties lib configuration t' := by
  simp only [fromProperties, getOrFail_congr (h (str "local_tftp_address") (by decide)),
    get_congr (h (str "dlp_retries") (by decide)),
    Section.read_congr (h (str "tftp") (by decide)),
    Section.read_congr (h (str "tftp_options") (by decide)),
    get_congr (h (str "protocol_file_logging") (by decide))]

theorem properties_readsOnly : (properties lib).ReadsOnly keys :=
  fun _ _ _ => fromProperties_congr

theorem properties_writesOnly : (properties lib).WritesOnly keys := by
  intro configuration full key hkey
  simp only [keys, List.mem_cons, List.not_mem_nil, or_false, not_or] at hkey
  obtain ⟨haddress, hretries, htftp, hoptions, hlogging⟩ := hkey
  show (toProperties lib configuration full).child? key = none
  simp only [toProperties, child?_addUnless_ne (Ne.symm hlogging),
    Section.child?_write_ne (Ne.symm hoptions), Section.child?_write_ne (Ne.symm htftp),
    child?_addUnless_ne (Ne.symm hretries), child?_addUnless_ne (Ne.symm haddress),
    child?_empty]

/-- What is written is read again by a new configuration. -/
theorem properties_readsWritten (h : lib.Lawful) : (properties lib).ReadsWritten := by
  intro configuration full
  show fromProperties lib (new lib) (toProperties lib configuration full) = _
  have haddress : (toProperties lib configuration full).getOrFail lib.address
      [str "local_tftp_address"] lib.any = some configuration.localInterfaceAddress := by
    simp (disch := decide) only [toProperties, getOrFail_addUnless_ne,
      Section.getOrFail_write_ne]
    exact getOrFail_addUnless h.address child?_empty
  have hretries : (toProperties lib configuration full).get lib.uint16 [str "dlp_retries"]
      defaultDlpRetries = configuration.dlpRetries := by
    simp (disch := decide) only [toProperties, get_addUnless_ne, Section.get_write_ne]
    exact get_addUnless h.uint16 (child?_addUnless_ne (by decide))
  have htftp : lib.tftpConfiguration.read (str "tftp") (toProperties lib configuration full) =
      some configuration.tftpConfiguration := by
    simp (disch := decide) only [toProperties, Section.read_addUnless_ne, Section.read_write_ne]
    apply h.tftpConfiguration.read_write
    simp (disch := decide) only [child?_addUnless_ne, child?_empty]
  have hoptions : lib.tftpOptionsConfiguration.read (str "tftp_options")
      (toProperties lib configuration full) = some configuration.tftpOptionsConfiguration := by
    simp (disch := decide) only [toProperties, Section.read_addUnless_ne]
    apply h.tftpOptionsConfiguration.read_write
    simp (disch := decide) only [child?_addUnless_ne, Section.child?_write_ne, child?_empty]
  have hlogging : (toProperties lib configuration full).get lib.bool
      [str "protocol_file_logging"] false = configuration.protocolFileLogging := by
    apply get_addUnless h.bool
    simp (disch := decide) only [child?_addUnless_ne, Section.child?_write_ne, child?_empty]
  simp only [fromProperties, new, haddress, hretries, htftp, hoptions, hlogging]
  rfl

omit [DecidableEq Address] in
/-- A tree without children gives a new configuration, but for its TFTP configuration. -/
theorem fromProperties_of_isEmpty {t : Properties} (h : t.isEmpty = true) :
    fromProperties lib (new lib) t =
      some { new lib with tftpConfiguration := lib.tftpConfiguration.initial } := by
  have hsame : ∀ key ∈ keys, t.child? key = (empty : Properties).child? key := by
    intro key _
    rw [child?_of_isEmpty h, child?_empty]
  exact (fromProperties_congr hsame).trans rfl

/-- The configuration that is left out. -/
theorem eq_of_isEmpty (h : lib.Lawful)
    {configuration : Arinc615aConfiguration Address Tftp TftpOptions} {full : Bool}
    (hblank : (toProperties lib configuration full).isEmpty = true) :
    configuration = { new lib with tftpConfiguration := lib.tftpConfiguration.initial } :=
  Option.some.inj ((properties_readsWritten h configuration full).symm.trans
    (fromProperties_of_isEmpty hblank))

end Arinc615aConfiguration

end Arinc615a
