import Arinc615a.Lib.Extract
import Arinc615a.Text
import Arinc615a.Tftp.Transfer

/-!
# ARINC 615A TFTP options

`tftp/Arinc615aOptions.cpp`: the names of the options, the checksum option that
is taken out of the options of a packet, and the options made of the values.

The check values of ARINC 649 and the reader for numbers of the TFTP library
are not part of the repository: they are an `OptionLibrary`.
-/

namespace Arinc615a.Tftp

open FiniteMaps

/-- `::Tftp::Packets::Options`. -/
abbrev Options := Finmap fun _ : Str => Str

/-- The options of an initializer list: the first of a name counts. -/
def optionsOf (entries : List (Str × Str)) : Options :=
  List.toFinmap (entries.map fun entry => ⟨entry.1, entry.2⟩)

/-- `KnownOptions`. -/
inductive KnownOptions where
  | partNumber
  | checksumCrc8
  | checksumCrc16
  | checksumCrc32
  | checksumMd5
  | checksumSha1
  | checksumSha256
  | checksumSha512
  | checksumCrc64
  | port
  deriving DecidableEq

/-- `Arinc615aOptions_name( KnownOptions )`. -/
def KnownOptions.name : KnownOptions → Str
  | partNumber => str "part number"
  | checksumCrc8 => str "checksum_1"
  | checksumCrc16 => str "checksum_2"
  | checksumCrc32 => str "checksum_3"
  | checksumMd5 => str "checksum_4"
  | checksumSha1 => str "checksum_5"
  | checksumSha256 => str "checksum_6"
  | checksumSha512 => str "checksum_7"
  | checksumCrc64 => str "checksum_8"
  | port => str "port"

/-- `Arinc615aOptions_name( Arinc649::CheckValueType )`. -/
def CheckValueType.name : CheckValueType → Str
  | crc8 => str "checksum_1"
  | crc16 => str "checksum_2"
  | crc32 => str "checksum_3"
  | md5 => str "checksum_4"
  | sha1 => str "checksum_5"
  | sha256 => str "checksum_6"
  | sha512 => str "checksum_7"
  | crc64 => str "checksum_8"
  | notUsed => []

/-- `Arinc649::Arinc649Exception`. -/
structure Arinc649Exception where
  deriving DecidableEq

/-- What the options take from other libraries. -/
structure OptionLibrary where
  /-- `::Tftp::Packets::Options_getOption< uint16_t >`: whether the option is
  valid, its value, and the options that are left. -/
  getOption : Options → Str → (Bool × Option UInt16) × Options
  /-- `Arinc649::CheckValue{ type, text }`. -/
  checkValue : CheckValueType → Str → Except Arinc649Exception CheckValue
  /-- `CheckValue::operator bool`. -/
  isValid : CheckValue → Bool
  /-- `CheckValue::toString`. -/
  toString : CheckValue → Str

/-- The check value types, in the order in which `Arinc615aOptions_checksum`
looks for them. -/
def checksumTypes : List CheckValueType :=
  [.crc8, .crc16, .crc32, .md5, .sha1, .sha256, .sha512, .crc64]

/-- The names of the checksum options. -/
def checksumNames : List Str := checksumTypes.map CheckValueType.name

/-- The loop of `Arinc615aOptions_checksum`. -/
def checksumLoop (lib : OptionLibrary) :
    List CheckValueType → Bool × CheckValue → Options →
      Except Arinc649Exception (Bool × CheckValue) × Options
  | [], retVal, options => (.ok retVal, options)
  | type :: types, retVal, options =>
    match options.extract type.name with
    | (none, options) => checksumLoop lib types retVal options
    | (some mapped, options) =>
      if retVal ≠ (true, {}) then (.ok (false, {}), options)
      else
        match lib.checkValue type mapped with
        | .error exception => (.error exception, options)
        | .ok checkValue =>
          if ¬ lib.isValid checkValue then (.ok (false, {}), options)
          else checksumLoop lib types (true, checkValue) options

/-- `Arinc615aOptions_checksum`. -/
def arinc615aOptionsChecksum (lib : OptionLibrary) (options : Options) :
    (Bool × CheckValue) × Options :=
  match checksumLoop lib checksumTypes (true, {}) options with
  | (.ok retVal, options) => (retVal, options)
  | (.error _, options) => ((false, {}), options)

/-- `std::map::try_emplace`. -/
def tryEmplace (options : Options) (name value : Str) : Options :=
  if name ∈ options then options else options.insert name value

/-- `Arinc615aOptions::options`. -/
def Arinc615aOptions.options (lib : OptionLibrary) (options : Arinc615aOptions) : Options :=
  let tftpOptions : Options := options.port.elim ∅ fun port =>
    tryEmplace ∅ KnownOptions.port.name (decimal port.toNat)
  let tftpOptions :=
    if options.partNumber.isEmpty then tftpOptions
    else tryEmplace tftpOptions KnownOptions.partNumber.name options.partNumber
  if options.checksum = {} then tftpOptions
  else tryEmplace tftpOptions options.checksum.type.name (lib.toString options.checksum)

/-! ## The names -/

theorem mem_checksumTypes {type : CheckValueType} : type ∈ checksumTypes ↔ type ≠ .notUsed := by
  cases type with
  | _ => decide

/-- Different types have different names. -/
theorem CheckValueType.name_injective : Function.Injective CheckValueType.name := by
  intro type type' h
  revert h
  cases type with
  | _ => cases type' with
    | _ => decide

/-! ## What a packet says about the checksum -/

/-- No checksum option. -/
def NoChecksum (options : Options) : Prop :=
  ∀ type ∈ checksumTypes, type.name ∉ options

/-- The checksum option of this type, with this text, and no other. -/
def OneChecksum (options : Options) (type : CheckValueType) (text : Str) : Prop :=
  type ∈ checksumTypes ∧ options.lookup type.name = some text ∧
    ∀ other ∈ checksumTypes, other.name ∈ options → other = type

/-- Two checksum options or more. -/
def SeveralChecksums (options : Options) : Prop :=
  ∃ type ∈ checksumTypes, ∃ other ∈ checksumTypes, type ≠ other ∧
    type.name ∈ options ∧ other.name ∈ options

/-- The text is that of a valid check value of the type. -/
def Decodes (lib : OptionLibrary) (type : CheckValueType) (text : Str) (v : CheckValue) : Prop :=
  lib.checkValue type text = .ok v ∧ lib.isValid v = true

/-- The checksum options of a packet are in order: there is none, or a single
one that decodes. The value is the default one where there is none. -/
def ChecksumOk (lib : OptionLibrary) (options : Options) (v : CheckValue) : Prop :=
  (NoChecksum options ∧ v = {}) ∨ ∃ type text, OneChecksum options type text ∧
    Decodes lib type text v

/-- They are not: there are several, or one that does not decode. -/
def ChecksumWrong (lib : OptionLibrary) (options : Options) : Prop :=
  SeveralChecksums options ∨ ∃ type text, OneChecksum options type text ∧
    ∀ v, ¬ Decodes lib type text v

/-- A check value that is made from a text and valid is not the default one. -/
def OptionLibrary.ValidDiffers (lib : OptionLibrary) : Prop :=
  ∀ type text v, Decodes lib type text v → v ≠ {}

theorem checksum_trichotomy (options : Options) :
    NoChecksum options ∨ (∃ type text, OneChecksum options type text) ∨
      SeveralChecksums options := by
  by_cases hnone : NoChecksum options
  · exact .inl hnone
  · simp only [NoChecksum, not_forall, not_not] at hnone
    obtain ⟨type, htype, hin⟩ := hnone
    obtain ⟨text, htext⟩ := Finmap.mem_iff.mp hin
    by_cases hother : ∀ other ∈ checksumTypes, other.name ∈ options → other = type
    · exact .inr (.inl ⟨type, text, htype, htext, hother⟩)
    · simp only [not_forall] at hother
      obtain ⟨other, hmem, hin', hne⟩ := hother
      exact .inr (.inr ⟨other, hmem, type, htype, hne, hin', hin⟩)

theorem OneChecksum.not_none {options : Options} {type : CheckValueType} {text : Str}
    (h : OneChecksum options type text) : ¬ NoChecksum options :=
  fun hnone => hnone type h.1 (Finmap.mem_of_lookup_eq_some h.2.1)

theorem OneChecksum.unique {options : Options} {type type' : CheckValueType} {text text' : Str}
    (h : OneChecksum options type text) (h' : OneChecksum options type' text') :
    type = type' ∧ text = text' := by
  obtain ⟨htype, htext, -⟩ := h
  have heq : type = type' := h'.2.2 type htype (Finmap.mem_of_lookup_eq_some htext)
  subst heq
  exact ⟨rfl, Option.some.inj (htext.symm.trans h'.2.1)⟩

theorem SeveralChecksums.not_none {options : Options} (h : SeveralChecksums options) :
    ¬ NoChecksum options := by
  obtain ⟨type, htype, _, _, _, hin, _⟩ := h
  exact fun hnone => hnone type htype hin

theorem SeveralChecksums.not_one {options : Options} {type : CheckValueType} {text : Str}
    (h : SeveralChecksums options) : ¬ OneChecksum options type text := by
  obtain ⟨a, ha, b, hb, hne, hina, hinb⟩ := h
  intro hone
  exact hne ((hone.2.2 a ha hina).trans (hone.2.2 b hb hinb).symm)

/-! ## The loop -/

section Loop

variable (lib : OptionLibrary) {retVal : Bool × CheckValue} {options : Options}

/-- Types whose option is not there are passed over. -/
theorem checksumLoop_skip (retVal : Bool × CheckValue) {front : List CheckValueType}
    (h : ∀ type ∈ front, type.name ∉ options) (rest : List CheckValueType) :
    checksumLoop lib (front ++ rest) retVal options = checksumLoop lib rest retVal options := by
  induction front with
  | nil => rfl
  | cons type front ih =>
    have hout : type.name ∉ options := h type List.mem_cons_self
    rw [List.cons_append, checksumLoop, Finmap.extract_eq_lookup_erase,
      Finmap.lookup_eq_none.mpr hout, erase_eq_self hout]
    exact ih fun other hother => h other (List.mem_cons_of_mem _ hother)

/-- The first type whose option is there. -/
theorem exists_first_checksum {types : List CheckValueType}
    (h : ∃ type ∈ types, type.name ∈ options) :
    ∃ front type rest text, types = front ++ type :: rest ∧
      (∀ other ∈ front, other.name ∉ options) ∧ options.lookup type.name = some text := by
  induction types with
  | nil => simp at h
  | cons head types ih =>
    by_cases hhead : head.name ∈ options
    · obtain ⟨text, htext⟩ := Finmap.mem_iff.mp hhead
      exact ⟨[], head, types, text, rfl, by simp, htext⟩
    · obtain ⟨type, hmem, hin⟩ := h
      have hne : type ≠ head := fun heq => hhead (heq ▸ hin)
      obtain ⟨front, first, rest, text, rfl, hfront, htext⟩ :=
        ih ⟨type, (List.mem_cons.mp hmem).resolve_left hne, hin⟩
      refine ⟨head :: front, first, rest, text, rfl, ?_, htext⟩
      intro other hother
      rcases List.mem_cons.mp hother with rfl | hother
      · exact hhead
      · exact hfront other hother

/-- The first checksum option that is found: it fails, or the loop goes on with
its value. -/
theorem checksumLoop_first {type : CheckValueType} {text : Str}
    (h : options.lookup type.name = some text) (types : List CheckValueType) :
    (∃ v, Decodes lib type text v ∧ checksumLoop lib (type :: types) (true, {}) options =
        checksumLoop lib types (true, v) (options.erase type.name)) ∨
      ((∀ v, ¬ Decodes lib type text v) ∧
        (checksumLoop lib (type :: types) (true, {}) options =
            (.ok (false, {}), options.erase type.name) ∨
          ∃ exception, checksumLoop lib (type :: types) (true, {}) options =
            (.error exception, options.erase type.name))) := by
  have hunfold : checksumLoop lib (type :: types) (true, {}) options =
      match lib.checkValue type text with
      | .error exception => (.error exception, options.erase type.name)
      | .ok checkValue =>
        if ¬ lib.isValid checkValue then (.ok (false, {}), options.erase type.name)
        else checksumLoop lib types (true, checkValue) (options.erase type.name) := by
    rw [checksumLoop, Finmap.extract_eq_lookup_erase, h]
    exact if_neg (by simp)
  rw [hunfold]
  cases hvalue : lib.checkValue type text with
  | error exception =>
    right
    refine ⟨?_, .inr ⟨exception, rfl⟩⟩
    intro v hv
    cases hvalue.symm.trans hv.1
  | ok v =>
    by_cases hvalid : lib.isValid v = true
    · exact .inl ⟨v, ⟨hvalue, hvalid⟩, if_neg (by simpa using hvalid)⟩
    · right
      refine ⟨?_, .inl (if_pos hvalid)⟩
      intro w hw
      have heq : v = w := Except.ok.inj (hvalue.symm.trans hw.1)
      exact hvalid (heq ▸ hw.2)

/-- Behind a value, another checksum option is one too many. -/
theorem checksumLoop_again {types : List CheckValueType} (hret : retVal ≠ (true, {}))
    (h : ∃ type ∈ types, type.name ∈ options) :
    (checksumLoop lib types retVal options).1 = .ok (false, {}) := by
  obtain ⟨front, type, rest, text, rfl, hfront, htext⟩ := exists_first_checksum h
  rw [checksumLoop_skip lib _ hfront, checksumLoop, Finmap.extract_eq_lookup_erase, htext]
  simp only [if_pos hret]

/-- The loop takes checksum options out, and nothing else. -/
theorem checksumLoop_less (types : List CheckValueType) (retVal : Bool × CheckValue)
    (options : Options) :
    Less (types.map CheckValueType.name) options
      (checksumLoop lib types retVal options).2 := by
  induction types generalizing retVal options with
  | nil => exact .refl _ _
  | cons type types ih =>
    have herase : Less ((type :: types).map CheckValueType.name) options
        (options.erase type.name) := .erase (by simp) _
    have hrest (ret : Bool × CheckValue) (m : Options) (h : Less
        ((type :: types).map CheckValueType.name) options m) :
        Less ((type :: types).map CheckValueType.name) options
          (checksumLoop lib types ret m).2 :=
      h.trans ((ih ret m).mono (by simp +contextual))
    rw [checksumLoop, Finmap.extract_eq_lookup_erase]
    cases options.lookup type.name with
    | none => exact hrest _ _ herase
    | some text =>
      show Less _ options (if retVal ≠ (true, {}) then _ else _ : _ × Options).2
      split
      · exact herase
      · cases lib.checkValue type text with
        | error exception => exact herase
        | ok v =>
          show Less _ options (if ¬ lib.isValid v then _ else _ : _ × Options).2
          split
          · exact herase
          · exact hrest _ _ herase

end Loop

/-! ## The checksum option -/

section Checksum

variable {lib : OptionLibrary} {options : Options}

theorem checksum_none (h : NoChecksum options) :
    arinc615aOptionsChecksum lib options = ((true, {}), options) := by
  have hskip := checksumLoop_skip lib (true, {}) h []
  rw [List.append_nil] at hskip
  rw [arinc615aOptionsChecksum, hskip, checksumLoop]

/-- The first of the checksum options is found where the loop begins. -/
theorem checksumLoop_start {front rest : List CheckValueType} {type : CheckValueType}
    (hsplit : checksumTypes = front ++ type :: rest)
    (hfront : ∀ other ∈ front, other.name ∉ options) :
    checksumLoop lib checksumTypes (true, {}) options =
      checksumLoop lib (type :: rest) (true, {}) options := by
  rw [hsplit, checksumLoop_skip lib _ hfront]

theorem checksum_one (lib : OptionLibrary) {type : CheckValueType} {text : Str}
    (h : OneChecksum options type text) :
    (∃ v, Decodes lib type text v ∧ arinc615aOptionsChecksum lib options =
        ((true, v), options.erase type.name)) ∨
      ((∀ v, ¬ Decodes lib type text v) ∧ arinc615aOptionsChecksum lib options =
        ((false, {}), options.erase type.name)) := by
  obtain ⟨hmem, htext, hother⟩ := h
  obtain ⟨front, first, rest, text', hsplit, hfront, htext'⟩ := exists_first_checksum
    ⟨type, hmem, Finmap.mem_of_lookup_eq_some htext⟩
  have hfirst : first = type :=
    hother first (by rw [hsplit]; simp) (Finmap.mem_of_lookup_eq_some htext')
  subst hfirst
  have hrest : ∀ other ∈ rest, other.name ∉ options.erase first.name := by
    intro other hrest hin
    rw [Finmap.mem_erase] at hin
    have hsame := hother other (by rw [hsplit]; simp [hrest]) hin.2
    exact hin.1 (congrArg CheckValueType.name hsame)
  rcases checksumLoop_first lib htext rest with
    ⟨v, hv, hloop⟩ | ⟨hv, hloop | ⟨exception, hloop⟩⟩
  · left
    refine ⟨v, hv, ?_⟩
    have hskip := checksumLoop_skip lib (true, v) hrest []
    rw [List.append_nil] at hskip
    rw [arinc615aOptionsChecksum, checksumLoop_start hsplit hfront, hloop, hskip, checksumLoop]
  · right
    exact ⟨hv, by rw [arinc615aOptionsChecksum, checksumLoop_start hsplit hfront, hloop]⟩
  · right
    exact ⟨hv, by rw [arinc615aOptionsChecksum, checksumLoop_start hsplit hfront, hloop]⟩

theorem checksum_several (hlib : lib.ValidDiffers) (h : SeveralChecksums options) :
    (arinc615aOptionsChecksum lib options).1 = (false, {}) := by
  obtain ⟨a, ha, b, hb, hne, hina, hinb⟩ := h
  obtain ⟨front, first, rest, text, hsplit, hfront, htext⟩ :=
    exists_first_checksum ⟨a, ha, hina⟩
  -- One of the two is not the first one: it stands behind it.
  obtain ⟨other, hother, hin, hdiffers⟩ :
      ∃ other ∈ checksumTypes, other.name ∈ options ∧ other ≠ first := by
    by_cases hfirst : a = first
    · exact ⟨b, hb, hinb, fun heq => hne (hfirst.trans heq.symm)⟩
    · exact ⟨a, ha, hina, hfirst⟩
  have hrest : ∃ other ∈ rest, other.name ∈ options.erase first.name := by
    rw [hsplit, List.mem_append, List.mem_cons] at hother
    refine ⟨other, ?_, Finmap.mem_erase.mpr ⟨?_, hin⟩⟩
    · exact (hother.resolve_left fun hmem => hfront other hmem hin).resolve_left hdiffers
    · exact fun hname => hdiffers (CheckValueType.name_injective hname)
  rcases checksumLoop_first lib htext rest with
    ⟨v, hv, hloop⟩ | ⟨-, hloop | ⟨exception, hloop⟩⟩
  · have hret : (true, v) ≠ ((true, {}) : Bool × CheckValue) :=
      fun heq => hlib _ _ _ hv (Prod.mk.inj heq).2
    have hagain := checksumLoop_again lib hret hrest
    rw [arinc615aOptionsChecksum, checksumLoop_start hsplit hfront, hloop]
    cases hresult : checksumLoop lib rest (true, v) (options.erase first.name) with
    | mk result left =>
      rw [hresult] at hagain
      have hfails : result = .ok (false, {}) := hagain
      rw [hfails]
  · rw [arinc615aOptionsChecksum, checksumLoop_start hsplit hfront, hloop]
  · rw [arinc615aOptionsChecksum, checksumLoop_start hsplit hfront, hloop]

/-- What is left are the options, less some checksum options. -/
theorem checksum_less (lib : OptionLibrary) (options : Options) :
    Less checksumNames options (arinc615aOptionsChecksum lib options).2 := by
  have hless := checksumLoop_less lib checksumTypes (true, {}) options
  rw [arinc615aOptionsChecksum]
  cases hresult : checksumLoop lib checksumTypes (true, {}) options with
  | mk result left =>
    rw [hresult] at hless
    cases result with
    | error exception => exact hless
    | ok retVal => exact hless

/-- The options are in order, or wrong; this is what is made of them. -/
theorem checksum_cases (hlib : lib.ValidDiffers) (options : Options) :
    (∃ v, ChecksumOk lib options v ∧ (arinc615aOptionsChecksum lib options).1 = (true, v)) ∨
      (ChecksumWrong lib options ∧ (arinc615aOptionsChecksum lib options).1 = (false, {})) := by
  rcases checksum_trichotomy options with hnone | ⟨type, text, hone⟩ | hseveral
  · exact .inl ⟨{}, .inl ⟨hnone, rfl⟩, by rw [checksum_none hnone]⟩
  · rcases checksum_one lib hone with ⟨v, hv, hresult⟩ | ⟨hv, hresult⟩
    · exact .inl ⟨v, .inr ⟨type, text, hone, hv⟩, by rw [hresult]⟩
    · exact .inr ⟨.inr ⟨type, text, hone, hv⟩, by rw [hresult]⟩
  · exact .inr ⟨.inl hseveral, checksum_several hlib hseveral⟩

theorem ChecksumOk.unique {v w : CheckValue} (hv : ChecksumOk lib options v)
    (hw : ChecksumOk lib options w) : v = w := by
  rcases hv with ⟨hnone, rfl⟩ | ⟨type, text, hone, hv⟩
  · rcases hw with ⟨-, rfl⟩ | ⟨type, text, hone, hw⟩
    · rfl
    · exact absurd hnone hone.not_none
  · rcases hw with ⟨hnone, rfl⟩ | ⟨type', text', hone', hw⟩
    · exact absurd hnone hone.not_none
    · obtain ⟨rfl, rfl⟩ := hone.unique hone'
      exact Except.ok.inj (hv.1.symm.trans hw.1)

theorem ChecksumWrong.not_ok {v : CheckValue} (h : ChecksumWrong lib options) :
    ¬ ChecksumOk lib options v := by
  intro hok
  rcases h with hseveral | ⟨type, text, hone, hfails⟩
  · rcases hok with ⟨hnone, -⟩ | ⟨type, text, hone, -⟩
    · exact hseveral.not_none hnone
    · exact hseveral.not_one hone
  · rcases hok with ⟨hnone, -⟩ | ⟨type', text', hone', hv⟩
    · exact hone.not_none hnone
    · obtain ⟨rfl, rfl⟩ := hone.unique hone'
      exact hfails v hv

/-- Where the checksum options are in order, none of them is left. -/
theorem checksum_cleared {v : CheckValue} (h : ChecksumOk lib options v) :
    ∀ type ∈ checksumTypes, type.name ∉ (arinc615aOptionsChecksum lib options).2 := by
  intro type htype
  rcases h with ⟨hnone, -⟩ | ⟨type', text, hone, hv⟩
  · rw [checksum_none hnone]
    exact hnone type htype
  · have hleft : (arinc615aOptionsChecksum lib options).2 = options.erase type'.name := by
      rcases checksum_one lib hone with ⟨_, -, hresult⟩ | ⟨-, hresult⟩
      · rw [hresult]
      · rw [hresult]
    rw [hleft, Finmap.mem_erase]
    rintro ⟨hne, hin⟩
    exact hne (congrArg CheckValueType.name (hone.2.2 type htype hin))

theorem checksum_eq_true_iff (hlib : lib.ValidDiffers) {v : CheckValue} :
    (arinc615aOptionsChecksum lib options).1 = (true, v) ↔ ChecksumOk lib options v := by
  rcases checksum_cases hlib options with ⟨w, hw, hresult⟩ | ⟨hwrong, hresult⟩
  · rw [hresult, Prod.mk.injEq]
    constructor
    · rintro ⟨-, rfl⟩
      exact hw
    · intro hv
      exact ⟨rfl, hw.unique hv⟩
  · rw [hresult]
    exact iff_of_false (by simp) hwrong.not_ok

theorem checksum_eq_false_iff (hlib : lib.ValidDiffers) :
    (arinc615aOptionsChecksum lib options).1 = (false, {}) ↔ ChecksumWrong lib options := by
  rcases checksum_cases hlib options with ⟨w, hw, hresult⟩ | ⟨hwrong, hresult⟩
  · rw [hresult]
    exact iff_of_false (by simp) fun hwrong => hwrong.not_ok hw
  · exact iff_of_true hresult hwrong

/-- The options are wrong where there are some, but not a single one that decodes. -/
theorem checksumWrong_iff (lib : OptionLibrary) (options : Options) :
    ChecksumWrong lib options ↔ ¬ NoChecksum options ∧
      ¬ ∃ v type text, OneChecksum options type text ∧ Decodes lib type text v := by
  constructor
  · intro h
    refine ⟨fun hnone => h.not_ok (.inl ⟨hnone, rfl⟩), ?_⟩
    rintro ⟨v, type, text, hone, hv⟩
    exact h.not_ok (.inr ⟨type, text, hone, hv⟩)
  · rintro ⟨hsome, hfails⟩
    rcases checksum_trichotomy options with hnone | ⟨type, text, hone⟩ | hseveral
    · exact absurd hnone hsome
    · exact .inr ⟨type, text, hone, fun v hv => hfails ⟨v, type, text, hone, hv⟩⟩
    · exact .inl hseveral

end Checksum

/-! ## A library -/

/-- Bytes as hexadecimal digits. -/
def hexText (value : RawData) : Str :=
  value.flatMap fun byte => [hexDigit (byte.toNat / 16), hexDigit (byte.toNat % 16)]

/-- Hexadecimal digits as bytes. -/
def ofHexText : Str → Option RawData
  | [] => some []
  | [_] => none
  | high :: low :: rest =>
    if digitValue high < 16 ∧ digitValue low < 16 then
      (ofHexText rest).map (UInt8.ofNat (16 * digitValue high + digitValue low) :: ·)
    else none

/-- The bytes of a check value of the type. -/
def checkValueSize : CheckValueType → Nat
  | .notUsed => 0
  | .crc8 => 2
  | .crc16 => 2
  | .crc32 => 4
  | .md5 => 16
  | .sha1 => 20
  | .sha256 => 32
  | .sha512 => 64
  | .crc64 => 8

/-- A library that writes check values as hexadecimal digits, and takes a text
for a number if it is nothing else. -/
def hexLibrary : OptionLibrary where
  getOption options name :=
    match options.extract name with
    | (none, options) => ((true, none), options)
    | (some text, options) =>
      if text.all fun c => digitValue c < 10 then
        match fromChars 10 16 text with
        | none => ((false, none), options)
        | some value => ((true, some (UInt16.ofNat value)), options)
      else ((false, none), options)
  checkValue type text :=
    match ofHexText text with
    | none => .error ⟨⟩
    | some value => .ok ⟨type, value⟩
  isValid v := v.type ≠ .notUsed ∧ v.value.length = checkValueSize v.type
  toString v := hexText v.value

theorem ofHexText_hexText (value : RawData) : ofHexText (hexText value) = some value := by
  induction value with
  | nil => rfl
  | cons byte value ih =>
    have hhigh : byte.toNat / 16 < 16 := Nat.div_lt_of_lt_mul byte.toNat_lt
    have hlow : byte.toNat % 16 < 16 := Nat.mod_lt _ (by omega)
    have hbyte : 16 * (byte.toNat / 16) + byte.toNat % 16 = byte.toNat := Nat.div_add_mod ..
    show ofHexText (hexDigit (byte.toNat / 16) :: hexDigit (byte.toNat % 16) :: hexText value) = _
    rw [ofHexText, digitValue_hexDigit hhigh, digitValue_hexDigit hlow, if_pos ⟨hhigh, hlow⟩, ih,
      Option.map_some, hbyte, UInt8.ofNat_toNat]

theorem hexLibrary_validDiffers : hexLibrary.ValidDiffers := by
  intro type text v hv heq
  subst heq
  simpa [hexLibrary] using hv.2

/-! ## The result -/

/-- **The checksum option**: no value without one, the value of a single one
that decodes, and a failure otherwise; the other options stay. -/
theorem checksum_option_exact (lib : OptionLibrary) (hlib : lib.ValidDiffers)
    (options : Options) :
    ((arinc615aOptionsChecksum lib options).1 = (true, {}) ↔ NoChecksum options) ∧
    (∀ v, v ≠ {} → ((arinc615aOptionsChecksum lib options).1 = (true, v) ↔
      ∃ type text, OneChecksum options type text ∧ Decodes lib type text v)) ∧
    ((arinc615aOptionsChecksum lib options).1 = (false, {}) ↔
      ¬ NoChecksum options ∧
        ¬ ∃ v type text, OneChecksum options type text ∧ Decodes lib type text v) ∧
    ((arinc615aOptionsChecksum lib options).1 = (false, {}) ↔
      SeveralChecksums options ∨ ∃ type text, OneChecksum options type text ∧
        ∀ v, ¬ Decodes lib type text v) ∧
    ∀ name, name ∉ checksumNames →
      (arinc615aOptionsChecksum lib options).2.lookup name = options.lookup name := by
  refine ⟨?_, ?_, ?_, checksum_eq_false_iff hlib, fun name => (checksum_less lib options).lookup⟩
  · rw [checksum_eq_true_iff hlib]
    constructor
    · rintro (⟨hnone, -⟩ | ⟨type, text, -, hv⟩)
      · exact hnone
      · exact absurd rfl (hlib type text {} hv)
    · exact fun hnone => .inl ⟨hnone, rfl⟩
  · intro v hv
    rw [checksum_eq_true_iff hlib]
    constructor
    · rintro (⟨-, heq⟩ | hone)
      · exact absurd heq hv
      · exact hone
    · exact .inr
  · rw [checksum_eq_false_iff hlib, checksumWrong_iff]

/-- The packet of a CRC64 and an unknown option. -/
theorem checksum_option_crc64 :
    (arinc615aOptionsChecksum hexLibrary (optionsOf
      [(str "key", str "value"), (str "checksum_8", str "0123456789ABCDEF")])).1 =
        (true, ⟨.crc64, [0x01, 0x23, 0x45, 0x67, 0x89, 0xAB, 0xCD, 0xEF]⟩) := by
  refine ((checksum_option_exact hexLibrary hexLibrary_validDiffers _).2.1 _ (by decide)).mpr
    ⟨.crc64, str "0123456789ABCDEF", ?_, by decide, by decide⟩
  unfold OneChecksum
  decide

end Arinc615a.Tftp
