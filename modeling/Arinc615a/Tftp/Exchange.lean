import Arinc615a.Tftp.OptionNegotiation

/-!
# The exchange of options

`tftpOperation()` of the two operations of the TFTP client writes the options of a request.
The TFTP server reads them, its user acknowledges some by `negotiatedArinc615aOptions()`,
and the option negotiation handler of the client decides on the acknowledgement.
-/

namespace Arinc615a.Tftp

/-- `Arinc615aOptions::operator bool`: any option is set. -/
def Arinc615aOptions.anySet (options : Arinc615aOptions) : Bool :=
  options.port.isSome || !options.partNumber.isEmpty ||
    decide (CheckValueType.notUsed ≠ options.checksum.type)

/-- The additional options of `ReadOperationImpl::tftpOperation`. -/
def ReadOperation.additionalOptions (lib : OptionLibrary) (portOption : Option UInt16)
    (partNumberOption : Str) (checksumOption : CheckValue) : Options :=
  let additionalOptions : Options := portOption.elim ∅ fun port =>
    tryEmplace ∅ KnownOptions.port.name (decimal port.toNat)
  let additionalOptions :=
    if ¬ partNumberOption.isEmpty then
      tryEmplace additionalOptions KnownOptions.partNumber.name partNumberOption
    else additionalOptions
  if CheckValueType.notUsed ≠ checksumOption.type then
    tryEmplace additionalOptions checksumOption.type.name (lib.toString checksumOption)
  else additionalOptions

/-- The additional options of `WriteOperationImpl::tftpOperation`: it has no port option. -/
def WriteOperation.additionalOptions (lib : OptionLibrary) (partNumberOption : Str)
    (checksumOption : CheckValue) : Options :=
  let additionalOptions : Options := ∅
  let additionalOptions :=
    if ¬ partNumberOption.isEmpty then
      tryEmplace additionalOptions KnownOptions.partNumber.name partNumberOption
    else additionalOptions
  if CheckValueType.notUsed ≠ checksumOption.type then
    tryEmplace additionalOptions checksumOption.type.name (lib.toString checksumOption)
  else additionalOptions

/-- A check value that the ARINC 649 library makes: none, or a valid one. -/
def CheckValue.Made (lib : OptionLibrary) (v : CheckValue) : Prop :=
  v = {} ∨ lib.isValid v = true

/-- The options have no ARINC 615A option among them. -/
def Foreign (options : Options) : Prop := ∀ option : KnownOptions, option.name ∉ options

theorem foreign_empty : Foreign ∅ := fun _ => Finmap.notMem_empty

variable {lib : OptionLibrary}

/-! ## What is written -/

theorem CheckValue.Made.eq_none_iff (hinverse : lib.Inverse) {v : CheckValue}
    (h : v.Made lib) : v.type = .notUsed ↔ v = {} := by
  constructor
  · intro htype
    rcases h with hnone | hvalid
    · exact hnone
    · exact absurd htype (hinverse.used hvalid)
  · rintro rfl
    rfl

/-- A client writes what a server would acknowledge of the same values. -/
theorem ReadOperation.additionalOptions_eq (hinverse : lib.Inverse) (port : Option UInt16)
    (partNumber : Str) {checksum : CheckValue} (h : checksum.Made lib) :
    ReadOperation.additionalOptions lib port partNumber checksum =
      (⟨port, partNumber, checksum⟩ : Arinc615aOptions).options lib := by
  simp only [ReadOperation.additionalOptions, Arinc615aOptions.options, ne_eq, ite_not,
    eq_comm (a := CheckValueType.notUsed), h.eq_none_iff hinverse]

theorem WriteOperation.additionalOptions_eq (hinverse : lib.Inverse) (partNumber : Str)
    {checksum : CheckValue} (h : checksum.Made lib) :
    WriteOperation.additionalOptions lib partNumber checksum =
      (⟨none, partNumber, checksum⟩ : Arinc615aOptions).options lib :=
  ReadOperation.additionalOptions_eq hinverse none partNumber h

/-- Without an option, nothing is written. -/
theorem Arinc615aOptions.anySet_eq_false_iff (hinverse : lib.Inverse) {o : Arinc615aOptions}
    (h : o.checksum.Made lib) : o.anySet = false ↔ o = {} := by
  obtain ⟨port, partNumber, checksum⟩ := o
  have hchecksum := h.eq_none_iff hinverse
  simp only [Arinc615aOptions.anySet, Bool.or_eq_false_iff, Option.isSome_eq_false_iff,
    Option.isNone_iff_eq_none, Bool.not_eq_false', List.isEmpty_iff, decide_eq_false_iff_not,
    ne_eq, not_not, eq_comm (a := CheckValueType.notUsed), Arinc615aOptions.mk.injEq,
    and_assoc] at hchecksum ⊢
  rw [hchecksum]

/-! ## What is read -/

/-- The request that a server hands on for the options of a client. -/
theorem request_of_written (hremoves : lib.Removes) (hinverse : lib.Inverse)
    {o : Arinc615aOptions} (ho : o.checksum.Made lib) {m : Options} (hm : Foreign m)
    (remote : Endpoint) (requestType : RequestType) (filename : Str)
    (clientOptions : TftpOptions) :
    (tftpRequestHandler lib remote requestType filename .octet clientOptions
        (m ∪ o.options lib)).1 =
      .request ⟨remote, requestType, filename, clientOptions, o⟩ := by
  rw [tftpRequestHandler_octet hremoves, readOptions_union hinverse.validDiffers hinverse ho hm]

/-- The handler of a client decides on what the server acknowledged. -/
theorem negotiation_of_acknowledged (hremoves : lib.Removes) (hinverse : lib.Inverse)
    {o : Arinc615aOptions} (ho : o.checksum.Made lib) {m : Options} (hm : Foreign m)
    (handler : OptionNegotiationHandler) :
    (handleOptionNegotiation lib handler (m ∪ o.options lib)).1 = handler.call o := by
  have hport := (decodedOptions_union hinverse ho hm).not_portInvalid
  rw [negotiation_of_portValid hremoves hport,
    readOptions_union hinverse.validDiffers hinverse ho hm]

end Arinc615a.Tftp
