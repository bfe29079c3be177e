import Arinc615a.Tftp.Options

/-!
# Option negotiation

The two readers of ARINC 615A options: `OperationImpl::handleOptionNegotiation`
of the TFTP client, for the options that a server acknowledges, and
`ServerImpl::tftpRequestHandler` of the TFTP server, for those of a request.
-/

namespace Arinc615a.Tftp

open FiniteMaps

/-- `std::bad_function_call`. -/
structure BadFunctionCall where
  deriving DecidableEq

/-- `OptionNegotiationHandler`: a `std::function`, which may be empty. -/
abbrev OptionNegotiationHandler := Option (Arinc615aOptions → Bool)

/-- The call of the handler. -/
def OptionNegotiationHandler.call (handler : OptionNegotiationHandler)
    (options : Arinc615aOptions) : Except BadFunctionCall Bool :=
  match handler with
  | none => .error ⟨⟩
  | some handler => .ok (handler options)

/-- `OperationImpl::handleOptionNegotiation`, and the options it leaves. -/
def handleOptionNegotiation (lib : OptionLibrary)
    (optionNegotiationHandler : OptionNegotiationHandler) (serverOptions : Options) :
    Except BadFunctionCall Bool × Options :=
  let ((portValid, portValue), serverOptions) :=
    lib.getOption serverOptions KnownOptions.port.name
  if ¬ portValid then (.ok false, serverOptions)
  else
    let (partNumber, serverOptions) := serverOptions.extract KnownOptions.partNumber.name
    -- Whether the checksum is valid is not asked for.
    let ((_, checksumValue), serverOptions) := arinc615aOptionsChecksum lib serverOptions
    let options : Arinc615aOptions :=
      { port := portValue, partNumber := partNumber.getD [], checksum := checksumValue }
    (optionNegotiationHandler.call options, serverOptions)

/-- `::Tftp::Packets::TransferMode`. -/
inductive TransferMode where
  | octet
  | netascii
  | mail
  | invalid
  deriving DecidableEq

/-- What a server does with a request. -/
inductive RequestReaction where
  | errorOperation (remote : Endpoint) (errorCode : ErrorCode) (errorMessage : Str)
  | request (request : Request)
  deriving DecidableEq

/-- `ServerImpl::tftpRequestHandler`, and the options it ignores. -/
def tftpRequestHandler (lib : OptionLibrary) (remote : Endpoint) (requestType : RequestType)
    (filename : Str) (mode : TransferMode) (clientOptions : TftpOptions)
    (additionalClientOptions : Options) : RequestReaction × Options :=
  if mode ≠ .octet then
    (.errorOperation remote .illegalTftpOperation (str "Wrong transfer mode"),
      additionalClientOptions)
  else
    let ((_, portValue), remainingOptions) :=
      lib.getOption additionalClientOptions KnownOptions.port.name
    let (partNumber, remainingOptions) := remainingOptions.extract KnownOptions.partNumber.name
    let ((_, checksumValue), remainingOptions) := arinc615aOptionsChecksum lib remainingOptions
    let options : Arinc615aOptions :=
      { port := portValue, partNumber := partNumber.getD [], checksum := checksumValue }
    (.request
      { remote, requestType, filename, clientTftpOptions := clientOptions,
        clientArinc615aOptions := options }, remainingOptions)

/-! ## What is assumed of the libraries -/

/-- `Options_getOption` removes the option it reads. -/
def OptionLibrary.Removes (lib : OptionLibrary) : Prop :=
  ∀ options name, (lib.getOption options name).2 = options.erase name

/-- The conversions are inverse to the formatting on valid values. -/
structure OptionLibrary.Inverse (lib : OptionLibrary) : Prop where
  absent : ∀ {options : Options} {name : Str}, name ∉ options →
    (lib.getOption options name).1 = (true, none)
  port : ∀ {options : Options} {name : Str} {port : UInt16},
    options.lookup name = some (decimal port.toNat) →
    (lib.getOption options name).1 = (true, some port)
  checkValue : ∀ {v : CheckValue}, lib.isValid v = true →
    lib.checkValue v.type (lib.toString v) = .ok v
  used : ∀ {v : CheckValue}, lib.isValid v = true → v.type ≠ .notUsed

/-! ## The options in turn -/

theorem CheckValueType.name_ne_port (type : CheckValueType) :
    type.name ≠ KnownOptions.port.name := by
  cases type with
  | _ => decide

theorem CheckValueType.name_ne_partNumber (type : CheckValueType) :
    type.name ≠ KnownOptions.partNumber.name := by
  cases type with
  | _ => decide

theorem partNumber_ne_port : KnownOptions.partNumber.name ≠ KnownOptions.port.name := by
  decide

/-- The options without port and part number have the same checksum options. -/
theorem lookup_checksum (options : Options) (type : CheckValueType) :
    ((options.erase KnownOptions.port.name).erase KnownOptions.partNumber.name).lookup
      type.name = options.lookup type.name := by
  rw [Finmap.lookup_erase_ne type.name_ne_partNumber, Finmap.lookup_erase_ne type.name_ne_port]

section Congruence

variable {lib : OptionLibrary} {m m' : Options}

private theorem mem_congr (h : ∀ type : CheckValueType, m'.lookup type.name = m.lookup type.name)
    (type : CheckValueType) : type.name ∈ m' ↔ type.name ∈ m := by
  rw [← Finmap.lookup_isSome, ← Finmap.lookup_isSome, h]

theorem noChecksum_congr
    (h : ∀ type : CheckValueType, m'.lookup type.name = m.lookup type.name) :
    NoChecksum m' ↔ NoChecksum m := by
  simp only [NoChecksum, mem_congr h]

theorem oneChecksum_congr
    (h : ∀ type : CheckValueType, m'.lookup type.name = m.lookup type.name)
    {type : CheckValueType} {text : Str} :
    OneChecksum m' type text ↔ OneChecksum m type text := by
  simp only [OneChecksum, mem_congr h, h]

/-- Whether the checksum options are in order depends on them alone. -/
theorem checksumOk_congr
    (h : ∀ type : CheckValueType, m'.lookup type.name = m.lookup type.name)
    {v : CheckValue} : ChecksumOk lib m' v ↔ ChecksumOk lib m v := by
  simp only [ChecksumOk, noChecksum_congr h, oneChecksum_congr h]

theorem checksumWrong_congr
    (h : ∀ type : CheckValueType, m'.lookup type.name = m.lookup type.name) :
    ChecksumWrong lib m' ↔ ChecksumWrong lib m := by
  simp only [checksumWrong_iff, noChecksum_congr h, oneChecksum_congr h]

end Congruence

/-! ## What both readers make of a packet -/

/-- The port option of the packet is no port number. -/
def PortInvalid (lib : OptionLibrary) (options : Options) : Prop :=
  (lib.getOption options KnownOptions.port.name).1.1 = false

/-- The ARINC 615A options of a packet, where all of them are in order. -/
def DecodedOptions (lib : OptionLibrary) (options : Options) (o : Arinc615aOptions) : Prop :=
  (lib.getOption options KnownOptions.port.name).1 = (true, o.port) ∧
    o.partNumber = (options.lookup KnownOptions.partNumber.name).getD [] ∧
    ChecksumOk lib options o.checksum

/-- The port and the part number of a packet. -/
def withoutChecksum (lib : OptionLibrary) (options : Options) : Arinc615aOptions :=
  { port := (lib.getOption options KnownOptions.port.name).1.2
    partNumber := (options.lookup KnownOptions.partNumber.name).getD [] }

/-- The options that are read, and those that are left. -/
def readOptions (lib : OptionLibrary) (options : Options) : Arinc615aOptions × Options :=
  let read := arinc615aOptionsChecksum lib
    ((options.erase KnownOptions.port.name).erase KnownOptions.partNumber.name)
  ({ withoutChecksum lib options with checksum := read.1.2 }, read.2)

section Readers

variable {lib : OptionLibrary} {handler : OptionNegotiationHandler} {options : Options}

theorem negotiation_of_portInvalid (h : PortInvalid lib options) :
    (handleOptionNegotiation lib handler options).1 = .ok false := by
  rw [handleOptionNegotiation]
  exact congrArg Prod.fst (if_pos (by simpa [PortInvalid] using h))

/-- With a valid port, the client's handler decides on what was read. -/
theorem negotiation_of_portValid (hremoves : lib.Removes) (h : ¬ PortInvalid lib options) :
    handleOptionNegotiation lib handler options =
      (handler.call (readOptions lib options).1, (readOptions lib options).2) := by
  have hvalid : (lib.getOption options KnownOptions.port.name).1.1 = true := by
    simpa [PortInvalid] using h
  have herase := hremoves options KnownOptions.port.name
  rw [handleOptionNegotiation, readOptions, withoutChecksum]
  cases hget : lib.getOption options KnownOptions.port.name with
  | mk read left =>
    obtain ⟨valid, port⟩ := read
    rw [hget] at hvalid herase
    have hleft : left = options.erase KnownOptions.port.name := herase
    subst hleft
    simp only [show valid = true from hvalid, not_true, if_false,
      Finmap.extract_eq_lookup_erase, Finmap.lookup_erase_ne partNumber_ne_port]

/-- The server hands on what was read, whether it was valid or not. -/
theorem tftpRequestHandler_octet (hremoves : lib.Removes) (remote : Endpoint)
    (requestType : RequestType) (filename : Str) (clientOptions : TftpOptions) :
    tftpRequestHandler lib remote requestType filename .octet clientOptions options =
      (.request ⟨remote, requestType, filename, clientOptions, (readOptions lib options).1⟩,
        (readOptions lib options).2) := by
  have herase := hremoves options KnownOptions.port.name
  rw [tftpRequestHandler, readOptions, withoutChecksum]
  cases hget : lib.getOption options KnownOptions.port.name with
  | mk read left =>
    rw [hget] at herase
    have hleft : left = options.erase KnownOptions.port.name := herase
    subst hleft
    simp only [ne_eq, not_true, if_false, Finmap.extract_eq_lookup_erase,
      Finmap.lookup_erase_ne partNumber_ne_port]

/-- A packet in order is read as what it says. -/
theorem readOptions_of_decoded (hvalid : lib.ValidDiffers) {o : Arinc615aOptions}
    (h : DecodedOptions lib options o) : (readOptions lib options).1 = o := by
  obtain ⟨hport, hpart, hchecksum⟩ := h
  have hread := (checksum_eq_true_iff hvalid).mpr
    ((checksumOk_congr (lookup_checksum options)).mpr hchecksum)
  simp only [readOptions, withoutChecksum, hread, hport, ← hpart]

/-- A wrong checksum is read as none. -/
theorem readOptions_of_wrong (hvalid : lib.ValidDiffers) (h : ChecksumWrong lib options) :
    (readOptions lib options).1 = withoutChecksum lib options := by
  have hread := (checksum_eq_false_iff hvalid).mpr
    ((checksumWrong_congr (lookup_checksum options)).mpr h)
  simp only [readOptions, hread]
  rfl

theorem DecodedOptions.not_portInvalid {o : Arinc615aOptions} (h : DecodedOptions lib options o) :
    ¬ PortInvalid lib options := by
  intro hinvalid
  rw [PortInvalid, h.1] at hinvalid
  cases hinvalid

/-- With a port that is valid, the packet is in order or its checksum is wrong. -/
theorem decoded_or_wrong (h : ¬ PortInvalid lib options) :
    (∃ o, DecodedOptions lib options o) ∨ ChecksumWrong lib options := by
  have hport : (lib.getOption options KnownOptions.port.name).1.1 = true := by
    simpa [PortInvalid] using h
  by_cases hok : ∃ v, ChecksumOk lib options v
  · obtain ⟨v, hv⟩ := hok
    exact .inl ⟨{ withoutChecksum lib options with checksum := v },
      Prod.ext hport rfl, rfl, hv⟩
  · right
    rw [checksumWrong_iff]
    refine ⟨fun hnone => hok ⟨{}, .inl ⟨hnone, rfl⟩⟩, ?_⟩
    rintro ⟨v, type, text, hone, hv⟩
    exact hok ⟨v, .inr ⟨type, text, hone, hv⟩⟩

end Readers

/-! ## The client -/

/-- What is asked of the client: it rejects answers that are not in order, and
leaves the decision to the handler; without a handler it accepts. -/
def NegotiationCorrect (lib : OptionLibrary) (handler : OptionNegotiationHandler)
    (options : Options) : Prop :=
  (PortInvalid lib options ∨ ChecksumWrong lib options →
    (handleOptionNegotiation lib handler options).1 = .ok false) ∧
  ∀ o, DecodedOptions lib options o →
    (handleOptionNegotiation lib handler options).1 =
      .ok ((handler.map fun decide => decide o).getD true)

/-- The port option is invalid, or there is a handler, and the checksum options
are in order or this handler rejects the others without them. -/
def NegotiationKept (lib : OptionLibrary) (handler : OptionNegotiationHandler)
    (options : Options) : Prop :=
  PortInvalid lib options ∨ ∃ decide, handler = some decide ∧
    ((∃ v, ChecksumOk lib options v) ∨ decide (withoutChecksum lib options) = false)

section Client

variable {lib : OptionLibrary} {handler : OptionNegotiationHandler} {options : Options}

/-- Where the packet is in order, all that is missing is a handler. -/
theorem negotiationCorrect_of_decoded (hvalid : lib.ValidDiffers) (hremoves : lib.Removes)
    {o : Arinc615aOptions} (ho : DecodedOptions lib options o) :
    NegotiationCorrect lib handler options ↔ handler ≠ none := by
  have hport := ho.not_portInvalid
  have hresult : (handleOptionNegotiation lib handler options).1 = handler.call o := by
    rw [negotiation_of_portValid hremoves hport, readOptions_of_decoded hvalid ho]
  cases handler with
  | none =>
    refine iff_of_false (fun hcorrect => ?_) (fun hne => hne rfl)
    cases hresult.symm.trans (hcorrect.2 o ho)
  | some decide =>
    refine iff_of_true ⟨?_, ?_⟩ (Option.some_ne_none _)
    · rintro (hinvalid | hwrong)
      · exact absurd hinvalid hport
      · exact absurd ho.2.2 hwrong.not_ok
    · intro o' ho'
      have hunique : o' = o :=
        (readOptions_of_decoded hvalid ho').symm.trans (readOptions_of_decoded hvalid ho)
      rw [hunique, hresult]
      rfl

/-- A wrong checksum is not seen: it is left to the handler. -/
theorem negotiationCorrect_of_wrong (hvalid : lib.ValidDiffers) (hremoves : lib.Removes)
    (hport : ¬ PortInvalid lib options) (hwrong : ChecksumWrong lib options) :
    NegotiationCorrect lib handler options ↔
      ∃ decide, handler = some decide ∧ decide (withoutChecksum lib options) = false := by
  have hresult : (handleOptionNegotiation lib handler options).1 =
      handler.call (withoutChecksum lib options) := by
    rw [negotiation_of_portValid hremoves hport, readOptions_of_wrong hvalid hwrong]
  constructor
  · intro hcorrect
    have hfalse := hresult.symm.trans (hcorrect.1 (.inr hwrong))
    cases handler with
    | none => cases hfalse
    | some decide => exact ⟨decide, rfl, Except.ok.inj hfalse⟩
  · rintro ⟨decide, rfl, hfalse⟩
    refine ⟨fun _ => hresult.trans (congrArg Except.ok hfalse), ?_⟩
    exact fun o ho => absurd ho.2.2 hwrong.not_ok

end Client

/-- **The client's answer**: it rejects what is not in order and leaves the rest
to the handler, exactly if it has one, and the checksum options are in order or
the handler rejects the others by itself; a port out of range is rejected anyway. -/
theorem client_negotiation_iff (lib : OptionLibrary) (hvalid : lib.ValidDiffers)
    (hremoves : lib.Removes) (handler : OptionNegotiationHandler) (options : Options) :
    NegotiationCorrect lib handler options ↔ NegotiationKept lib handler options := by
  by_cases hport : PortInvalid lib options
  · refine iff_of_true ⟨fun _ => negotiation_of_portInvalid hport, ?_⟩ (.inl hport)
    exact fun o ho => absurd hport ho.not_portInvalid
  · rw [NegotiationKept, or_iff_right hport]
    rcases decoded_or_wrong hport with ⟨o, ho⟩ | hwrong
    · rw [negotiationCorrect_of_decoded hvalid hremoves ho, Option.ne_none_iff_exists']
      exact exists_congr fun decide => (and_iff_left (.inl ⟨_, ho.2.2⟩)).symm
    · have hnone : ¬ ∃ v, ChecksumOk lib options v := by
        rintro ⟨v, hv⟩
        exact hwrong.not_ok hv
      simp only [negotiationCorrect_of_wrong hvalid hremoves hport hwrong, hnone, false_or]

theorem hexLibrary_removes : hexLibrary.Removes := by
  intro options name
  simp only [hexLibrary, Finmap.extract_eq_lookup_erase]
  cases options.lookup name with
  | none => rfl
  | some text =>
    by_cases hdigits : text.all (fun c => decide (digitValue c < 10)) = true
    · simp only [if_pos hdigits]
      cases fromChars 10 16 text with
      | none => rfl
      | some value => rfl
    · simp only [if_neg hdigits]

/-- A client whose handler accepts all, and a server that acknowledges a check value. -/
theorem client_negotiation_crc8 :
    NegotiationCorrect hexLibrary (some fun _ => true)
      (optionsOf [(str "checksum_1", str "0001")]) := by
  refine (client_negotiation_iff hexLibrary hexLibrary_validDiffers hexLibrary_removes _ _).mpr
    (.inr ⟨_, rfl, .inl ⟨⟨.crc8, [0, 1]⟩, .inr ⟨.crc8, str "0001", ?_, by decide, by decide⟩⟩⟩)
  unfold OneChecksum
  decide

/-- Two check values are accepted as none. -/
theorem client_negotiation_accepts :
    ¬ ∀ (lib : OptionLibrary), lib.ValidDiffers → lib.Removes →
      ∀ handler options, NegotiationCorrect lib handler options := by
  intro h
  have hcorrect := h hexLibrary hexLibrary_validDiffers hexLibrary_removes (some fun _ => true)
    (optionsOf [(str "checksum_1", str "0001"), (str "checksum_2", str "0203")])
  have hseveral : SeveralChecksums
      (optionsOf [(str "checksum_1", str "0001"), (str "checksum_2", str "0203")]) :=
    ⟨.crc8, by decide, .crc16, by decide, by decide, by decide, by decide⟩
  have hrejects := hcorrect.1 (.inr (.inl hseveral))
  revert hrejects
  decide

/-! ## What is written is read back -/

section RoundTrip

variable {lib : OptionLibrary}

theorem lookup_tryEmplace (options : Options) (name value a : Str) :
    (tryEmplace options name value).lookup a =
      if a = name then some ((options.lookup name).getD value) else options.lookup a := by
  by_cases hin : name ∈ options
  · obtain ⟨text, htext⟩ := Finmap.mem_iff.mp hin
    rw [tryEmplace, if_pos hin]
    by_cases ha : a = name
    · rw [if_pos ha, ha, htext, Option.getD_some]
    · rw [if_neg ha]
  · rw [tryEmplace, if_neg hin, Finmap.lookup_eq_none.mpr hin, Option.getD_none]
    by_cases ha : a = name
    · rw [if_pos ha, ha, Finmap.lookup_insert]
    · rw [if_neg ha, Finmap.lookup_insert_of_ne _ ha]

/-- An option that is only written where there is a value. -/
theorem lookup_emplaceUnless (c : Prop) [Decidable c] (options : Options) (name value a : Str) :
    (if c then options else tryEmplace options name value).lookup a =
      if ¬ c ∧ a = name then some ((options.lookup name).getD value) else options.lookup a := by
  by_cases hc : c
  · rw [if_pos hc, if_neg fun h => h.1 hc]
  · rw [if_neg hc, lookup_tryEmplace]
    simp only [hc, not_false_eq_true, true_and]

theorem lookup_portOption (port : Option UInt16) (a : Str) :
    (port.elim ∅ fun port =>
        tryEmplace ∅ KnownOptions.port.name (decimal port.toNat) : Options).lookup a =
      if a = KnownOptions.port.name then port.map fun port => decimal port.toNat else none := by
  cases port with
  | none => simp
  | some port =>
    rw [Option.elim_some, lookup_tryEmplace, Finmap.lookup_empty, Finmap.lookup_empty,
      Option.getD_none]
    rfl

/-- The options made of the values, by name. -/
theorem lookup_options (o : Arinc615aOptions) (name : Str) :
    (o.options lib).lookup name =
      if name = KnownOptions.port.name then o.port.map fun port => decimal port.toNat
      else if name = KnownOptions.partNumber.name then
        if o.partNumber.isEmpty then none else some o.partNumber
      else if o.checksum ≠ {} ∧ name = o.checksum.type.name then some (lib.toString o.checksum)
      else none := by
  have hport := o.checksum.type.name_ne_port
  have hpart := o.checksum.type.name_ne_partNumber
  have hnames := partNumber_ne_port
  simp only [Arinc615aOptions.options, lookup_emplaceUnless, lookup_portOption]
  by_cases hname : name = KnownOptions.port.name
  · simp [hname, hnames.symm, hport.symm]
  · by_cases hname' : name = KnownOptions.partNumber.name
    · simp [hname', hnames, hpart.symm]
    · simp [hname, hname', hport, hpart]

/-- All names. -/
def arinc615aNames : List Str :=
  KnownOptions.port.name :: KnownOptions.partNumber.name :: checksumNames

theorem mem_arinc615aNames {name : Str} :
    name ∈ arinc615aNames ↔ ∃ option : KnownOptions, name = option.name := by
  constructor
  · intro h
    have hall : ∀ name ∈ arinc615aNames, ∃ option ∈ [KnownOptions.port, .partNumber,
        .checksumCrc8, .checksumCrc16, .checksumCrc32, .checksumMd5, .checksumSha1,
        .checksumSha256, .checksumSha512, .checksumCrc64], name = option.name := by
      decide
    obtain ⟨option, -, hname⟩ := hall name h
    exact ⟨option, hname⟩
  · rintro ⟨option, rfl⟩
    cases option with
    | _ => decide

theorem name_mem_arinc615aNames {type : CheckValueType} (h : type ≠ .notUsed) :
    type.name ∈ arinc615aNames := by
  simp only [arinc615aNames, List.mem_cons, checksumNames]
  exact .inr (.inr (List.mem_map_of_mem (mem_checksumTypes.mpr h)))

/-- The options that are made of values have these names. -/
theorem mem_arinc615aNames_of_mem_options {o : Arinc615aOptions} {name : Str}
    (hused : o.checksum ≠ {} → o.checksum.type ≠ .notUsed) (h : name ∈ o.options lib) :
    name ∈ arinc615aNames := by
  rw [← Finmap.lookup_isSome, lookup_options] at h
  by_cases hport : name = KnownOptions.port.name
  · exact mem_arinc615aNames.mpr ⟨_, hport⟩
  · by_cases hpart : name = KnownOptions.partNumber.name
    · exact mem_arinc615aNames.mpr ⟨_, hpart⟩
    · rw [if_neg hport, if_neg hpart] at h
      by_cases hchecksum : o.checksum ≠ {} ∧ name = o.checksum.type.name
      · rw [hchecksum.2]
        exact name_mem_arinc615aNames (hused hchecksum.1)
      · simp [if_neg hchecksum] at h

variable {o : Arinc615aOptions} {m : Options}

/-- Options made of values, among others, say what the values are. -/
theorem decodedOptions_union (hinverse : lib.Inverse)
    (ho : o.checksum = {} ∨ lib.isValid o.checksum = true)
    (hm : ∀ option : KnownOptions, option.name ∉ m) :
    DecodedOptions lib (m ∪ o.options lib) o := by
  have hlookup (option : KnownOptions) :
      (m ∪ o.options lib).lookup option.name = (o.options lib).lookup option.name :=
    Finmap.lookup_union_right (hm option)
  have hchecksums (type : CheckValueType) (h : type ≠ .notUsed) :
      (m ∪ o.options lib).lookup type.name =
        if o.checksum ≠ {} ∧ type.name = o.checksum.type.name then
          some (lib.toString o.checksum) else none := by
    obtain ⟨option, hname⟩ := mem_arinc615aNames.mp (name_mem_arinc615aNames h)
    rw [hname, hlookup, lookup_options, ← hname, if_neg type.name_ne_port,
      if_neg type.name_ne_partNumber]
  refine ⟨?_, ?_, ?_⟩
  · have hport := hlookup .port
    rw [lookup_options, if_pos rfl] at hport
    cases hvalue : o.port with
    | none =>
      rw [hvalue, Option.map_none] at hport
      exact hinverse.absent (Finmap.lookup_eq_none.mp hport)
    | some port =>
      rw [hvalue, Option.map_some] at hport
      exact hinverse.port hport
  · rw [hlookup, lookup_options, if_neg partNumber_ne_port, if_pos rfl]
    by_cases hempty : o.partNumber.isEmpty
    · rw [if_pos hempty, Option.getD_none]
      exact List.isEmpty_iff.mp hempty
    · rw [if_neg hempty, Option.getD_some]
  · by_cases hnone : o.checksum = {}
    · left
      refine ⟨?_, hnone⟩
      intro type htype
      rw [← Finmap.lookup_eq_none, hchecksums type (mem_checksumTypes.mp htype),
        if_neg fun h => h.1 hnone]
    · have hvalid : lib.isValid o.checksum = true := ho.resolve_left hnone
      have hused := hinverse.used hvalid
      refine .inr ⟨o.checksum.type, lib.toString o.checksum,
        ⟨mem_checksumTypes.mpr hused, ?_, ?_⟩, hinverse.checkValue hvalid, hvalid⟩
      · rw [hchecksums _ hused, if_pos ⟨hnone, rfl⟩]
      · intro other hother hin
        rw [← Finmap.lookup_isSome, hchecksums other (mem_checksumTypes.mp hother)] at hin
        by_cases hsame : o.checksum ≠ {} ∧ other.name = o.checksum.type.name
        · exact CheckValueType.name_injective hsame.2
        · simp [if_neg hsame] at hin

/-- They are all taken out, and the others stay. -/
theorem readOptions_union (hvalid : lib.ValidDiffers) (hinverse : lib.Inverse)
    (ho : o.checksum = {} ∨ lib.isValid o.checksum = true)
    (hm : ∀ option : KnownOptions, option.name ∉ m) :
    readOptions lib (m ∪ o.options lib) = (o, m) := by
  have hdecoded := decodedOptions_union hinverse ho hm
  refine Prod.ext (readOptions_of_decoded hvalid hdecoded) ?_
  have hused : o.checksum ≠ {} → o.checksum.type ≠ .notUsed :=
    fun hne => hinverse.used (ho.resolve_left hne)
  have hport : KnownOptions.port.name ∈ arinc615aNames := by simp [arinc615aNames]
  have hpart : KnownOptions.partNumber.name ∈ arinc615aNames := by simp [arinc615aNames]
  have herased := (Less.erase hport (m ∪ o.options lib)).trans (Less.erase hpart _)
  have hchecksum := checksum_less lib (((m ∪ o.options lib).erase
    KnownOptions.port.name).erase KnownOptions.partNumber.name)
  have hless := herased.trans (hchecksum.mono (by simp +contextual [arinc615aNames]))
  refine hless.eq_of_union ?_ (fun name => mem_arinc615aNames_of_mem_options hused) ?_
  · intro name hname
    obtain ⟨option, rfl⟩ := mem_arinc615aNames.mp hname
    exact hm option
  · intro name hname
    simp only [arinc615aNames, List.mem_cons, checksumNames, List.mem_map] at hname
    rcases hname with rfl | rfl | ⟨type, htype, rfl⟩
    · apply hchecksum.notMem
      rw [Finmap.mem_erase]
      exact fun h => Finmap.notMem_erase_self h.2
    · exact hchecksum.notMem Finmap.notMem_erase_self
    · exact checksum_cleared ((checksumOk_congr (lookup_checksum _)).mpr hdecoded.2.2) type htype

end RoundTrip

theorem OptionLibrary.Inverse.validDiffers {lib : OptionLibrary} (h : lib.Inverse) :
    lib.ValidDiffers := by
  intro type text v hv heq
  subst heq
  exact h.used hv.2 rfl

/-- **Options are read back**: a client and a server that read the options made
of values, among unknown ones, get these values and leave the unknown ones. -/
theorem options_round_trip (lib : OptionLibrary) (hremoves : lib.Removes)
    (hinverse : lib.Inverse) (o : Arinc615aOptions)
    (ho : o.checksum = {} ∨ lib.isValid o.checksum = true)
    (m : Options) (hm : ∀ option : KnownOptions, option.name ∉ m) :
    (∀ handler, handleOptionNegotiation lib handler (m ∪ o.options lib) =
      (handler.call o, m)) ∧
    ∀ remote requestType filename clientOptions,
      tftpRequestHandler lib remote requestType filename .octet clientOptions
        (m ∪ o.options lib) =
      (.request ⟨remote, requestType, filename, clientOptions, o⟩, m) := by
  have hvalid := hinverse.validDiffers
  have hread := readOptions_union hvalid hinverse ho hm
  have hport := (decodedOptions_union hinverse ho hm).not_portInvalid
  constructor
  · intro handler
    rw [negotiation_of_portValid hremoves hport, hread]
  · intro remote requestType filename clientOptions
    rw [tftpRequestHandler_octet hremoves, hread]

theorem hexLibrary_inverse : hexLibrary.Inverse where
  absent {options name} h := by
    simp only [hexLibrary, Finmap.extract_eq_lookup_erase, Finmap.lookup_eq_none.mpr h]
  port {options name port} h := by
    have hdigits : (decimal port.toNat).all (fun c => decide (digitValue c < 10)) = true :=
      List.all_eq_true.mpr fun c hc => decide_eq_true ((isNumber_decimal _).2.1 c hc)
    have hread : fromChars 10 16 (decimal port.toNat) = some port.toNat :=
      fromChars_decimal port.toNat_lt
    simp only [hexLibrary, Finmap.extract_eq_lookup_erase, h, if_pos hdigits, hread,
      UInt16.ofNat_toNat]
  checkValue {v} _ := by
    simp only [hexLibrary, ofHexText_hexText]
  used {v} h := by
    simp only [hexLibrary, decide_eq_true_eq] at h
    exact h.1

/-- A port, a part number and a CRC16, with an unknown option. -/
theorem options_round_trip_crc16 :
    handleOptionNegotiation hexLibrary (some fun options => decide (options.port = some 1059))
      (optionsOf [(str "key", str "value")] ∪
        (⟨some 1059, str "PART", ⟨.crc16, [1, 2]⟩⟩ : Arinc615aOptions).options hexLibrary) =
      (.ok true, optionsOf [(str "key", str "value")]) := by
  refine (options_round_trip hexLibrary hexLibrary_removes hexLibrary_inverse
    ⟨some 1059, str "PART", ⟨.crc16, [1, 2]⟩⟩ (.inr (by decide)) _ ?_).1 _
  intro option
  cases option with
  | _ => decide

end Arinc615a.Tftp
