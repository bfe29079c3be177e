import Arinc615a.Files.Fields

/-!
# The frame of protocol files

The header of `files/ProtocolFile.cpp` (file size and protocol version) and
what all decoders do around their content: the check of the minimum size, the
header, and the check that nothing follows.

`decodeFile_insertHeader` says what becomes of a file that an encoder framed,
`decodeFile_overrun_iff` when a decoder overruns: both reduce the file to its
content.
-/

namespace Arinc615a.Files

open Readers Readers.Reader BigEndian

/-- `ProtocolFile::HeaderSize`. -/
def headerSize : Nat := 6

/-- `ProtocolFile::insertHeader`: the header in front of the content. The size
is cast to `uint32_t`. -/
def insertHeader (protocolVersion : Arinc615aVersion) (content : RawData) : RawData :=
  setUInt32 (UInt32.ofNat (headerSize + content.length)) ++
    setUInt16 protocolVersion.toUInt16 ++ content

/-- `ProtocolFile::decodeHeader`. -/
def decodeHeader : Decoder Arinc615aVersion := do
  let rawData ← remaining
  if rawData.length < headerSize then
    throw ⟨"Data packet to small"⟩
  else do
    let length ← getUInt32
    if length.toNat ≠ rawData.length then
      throw ⟨"internal length field and data size differs"⟩
    else do
      let protocolVersion ← getUInt16
      if protocolVersion = Arinc615aVersion.arinc615a2.toUInt16 then
        pure .arinc615a2
      else if protocolVersion = Arinc615aVersion.arinc615a34.toUInt16 then
        pure .arinc615a34
      else
        throw ⟨"Invalid or unsupported protocol version"⟩

/-- The start of every decoder: the minimum size, the header, then the content
for the protocol version of the header. -/
def decodeFile {α : Type} (minimumSize : Nat) (tooSmall : String)
    (content : Arinc615aVersion → Decoder α) : Decoder α := do
  let rawData ← remaining
  if rawData.length < minimumSize then
    throw ⟨tooSmall⟩
  else do
    let protocolVersion ← decodeHeader
    content protocolVersion

/-- The end of most decoders: "Final Check for additional data". -/
def noMoreData (message : String) : Decoder Unit := do
  let rawData ← remaining
  if rawData.isEmpty then pure () else throw ⟨message⟩

/-! ## The header -/

@[simp] theorem length_insertHeader (v : Arinc615aVersion) (content : RawData) :
    (insertHeader v content).length = headerSize + content.length := by
  simp only [insertHeader, List.length_append, length_setUInt32, length_setUInt16,
    headerSize]

/-- The header reader behind its size check. -/
private theorem decodeHeader_append {size version rest : RawData}
    (hsize : size.length = 4) (hversion : version.length = 2) :
    decodeHeader (size ++ version ++ rest) =
      if beNat size ≠ headerSize + rest.length then
        .thrown ⟨"internal length field and data size differs"⟩
      else if UInt16.ofNat (beNat version) = Arinc615aVersion.arinc615a2.toUInt16 then
        .done (.arinc615a2, rest)
      else if UInt16.ofNat (beNat version) = Arinc615aVersion.arinc615a34.toUInt16 then
        .done (.arinc615a34, rest)
      else .thrown ⟨"Invalid or unsupported protocol version"⟩ := by
  have hlen : (size ++ version ++ rest).length = headerSize + rest.length := by
    simp only [List.length_append, hsize, hversion, headerSize]
  have hget : getUInt32 (size ++ version ++ rest)
      = .done (UInt32.ofNat (beNat size), version ++ rest) := by
    rw [List.append_assoc]
    exact (parses_getUInt32_iff.mpr ⟨hsize, rfl⟩) _
  have hget' : getUInt16 (version ++ rest)
      = .done (UInt16.ofNat (beNat version), rest) :=
    (parses_getUInt16_iff.mpr ⟨hversion, rfl⟩) _
  have hval : (UInt32.ofNat (beNat size)).toNat = beNat size := by
    have hlt : beNat size < 256 ^ 4 := hsize ▸ beNat_lt size
    rw [UInt32.toNat_ofNat']
    exact Nat.mod_eq_of_lt hlt
  have hlarge : ¬ headerSize + rest.length < headerSize := by omega
  simp only [decodeHeader, bind_apply, remaining_apply, Outcome.bind_done, hlen,
    if_neg hlarge, hget, hval]
  split
  · rfl
  · simp only [bind_apply, hget', Outcome.bind_done]
    split
    · rfl
    · split <;> rfl

private theorem split_header {rawData : RawData} (h : headerSize ≤ rawData.length) :
    ∃ size version rest, rawData = size ++ version ++ rest ∧
      size.length = 4 ∧ version.length = 2 := by
  unfold headerSize at h
  refine ⟨rawData.take 4, (rawData.drop 4).take 2, (rawData.drop 4).drop 2, ?_,
    List.length_take_of_le (by omega), List.length_take_of_le ?_⟩
  · rw [List.append_assoc, List.take_append_drop, List.take_append_drop]
  · rw [List.length_drop]
    omega

private theorem decodeHeader_short {rawData : RawData}
    (h : rawData.length < headerSize) :
    decodeHeader rawData = .thrown ⟨"Data packet to small"⟩ := by
  simp [decodeHeader, bind_apply, h]

/-- The header reader checks for its six bytes. -/
theorem safe_decodeHeader : Safe decodeHeader := by
  intro rawData
  by_cases h : rawData.length < headerSize
  · simp [decodeHeader_short h]
  · obtain ⟨size, version, rest, rfl, hsize, hversion⟩ := split_header (Nat.le_of_not_lt h)
    rw [decodeHeader_append hsize hversion]
    repeat' split
    all_goals simp

/-- Two bytes are read as a number exactly if they are how it is written. -/
private theorem eq_setUInt16_iff {version : RawData} (h : version.length = 2) {value : UInt16} :
    version = setUInt16 value ↔ UInt16.ofNat (beNat version) = value := by
  have hlt : beNat version < 256 ^ 2 := h ▸ beNat_lt version
  have hread : (UInt16.ofNat (beNat version)).toNat = beNat version := by
    rw [UInt16.toNat_ofNat']
    exact Nat.mod_eq_of_lt hlt
  rw [setUInt16, eq_beBytes_iff (UInt16.toNat_lt _), ← UInt16.toNat_inj, hread]
  simp [h]

private theorem eq_setUInt32_iff {size : RawData} (h : size.length = 4) {n : Nat}
    (hn : n < 2 ^ 32) : size = setUInt32 (UInt32.ofNat n) ↔ beNat size = n := by
  rw [setUInt32, eq_beBytes_iff (UInt32.toNat_lt _), UInt32.toNat_ofNat', Nat.mod_eq_of_lt hn]
  simp [h]

/-- A framed file is its size, its version and its content. -/
private theorem eq_insertHeader_iff {size version rest rest' : RawData} {v : Arinc615aVersion}
    (hsize : size.length = 4) (hversion : version.length = 2) :
    size ++ version ++ rest' = insertHeader v rest ↔
      size = setUInt32 (UInt32.ofNat (headerSize + rest'.length)) ∧
        version = setUInt16 v.toUInt16 ∧ rest' = rest := by
  constructor
  · intro heq
    have hrest : rest'.length = rest.length := by
      have hlen := congrArg List.length heq
      simp only [List.length_append, hsize, hversion, length_insertHeader, headerSize] at hlen
      omega
    obtain ⟨hhead, rfl⟩ := List.append_inj' heq hrest
    obtain ⟨h₁, h₂⟩ := List.append_inj' hhead (by simp [hversion])
    exact ⟨h₁, h₂, rfl⟩
  · intro hparts
    rcases hparts with ⟨h₁, h₂, rfl⟩
    rw [insertHeader, ← h₁, ← h₂]

/-- The header reader is done exactly on files that `insertHeader` framed, of
a supported version and a size that fits the length field. -/
theorem decodeHeader_done_iff {rawData rest : RawData} {v : Arinc615aVersion} :
    decodeHeader rawData = .done (v, rest) ↔
      v.Supported ∧ rawData.length < 2 ^ 32 ∧ rawData = insertHeader v rest := by
  by_cases h : rawData.length < headerSize
  · rw [decodeHeader_short h]
    constructor
    · intro hd
      cases hd
    · intro hfile
      rcases hfile with ⟨-, -, rfl⟩
      simp at h
  · obtain ⟨size, version, rest', rfl, hsize, hversion⟩ := split_header (Nat.le_of_not_lt h)
    have hlen : (size ++ version ++ rest').length = headerSize + rest'.length := by
      simp only [List.length_append, hsize, hversion, headerSize]
    have hlt : beNat size < 256 ^ 4 := hsize ▸ beNat_lt size
    rw [decodeHeader_append hsize hversion, hlen, eq_insertHeader_iff hsize hversion,
      eq_setUInt16_iff hversion]
    constructor
    · intro hd
      split at hd
      · cases hd
      · rename_i heq
        have heq' : beNat size = headerSize + rest'.length := not_not.mp heq
        have hfit : headerSize + rest'.length < 2 ^ 32 := heq' ▸ hlt
        have hwritten := (eq_setUInt32_iff hsize hfit).mpr heq'
        split at hd
        · rename_i hv
          simp only [Outcome.done.injEq, Prod.mk.injEq] at hd
          obtain ⟨rfl, rfl⟩ := hd
          exact ⟨.inl rfl, hfit, hwritten, hv, rfl⟩
        · split at hd
          · rename_i hv
            simp only [Outcome.done.injEq, Prod.mk.injEq] at hd
            obtain ⟨rfl, rfl⟩ := hd
            exact ⟨.inr rfl, hfit, hwritten, hv, rfl⟩
          · cases hd
    · intro hfile
      rcases hfile with ⟨hv, hfit, hwritten, hver, rfl⟩
      rw [if_neg (not_not.mpr ((eq_setUInt32_iff hsize hfit).mp hwritten))]
      rcases hv with rfl | rfl
      · rw [if_pos hver]
      · -- The two versions have different numbers.
        have hne : ¬ UInt16.ofNat (beNat version) = Arinc615aVersion.arinc615a2.toUInt16 := by
          rw [hver]
          decide
        rw [if_neg hne, if_pos hver]

/-- The header reader refuses a file that does not fit the length field. -/
theorem decodeHeader_too_long {v : Arinc615aVersion} {content : RawData}
    (h : 2 ^ 32 ≤ headerSize + content.length) :
    decodeHeader (insertHeader v content) =
      .thrown ⟨"internal length field and data size differs"⟩ := by
  rw [insertHeader, decodeHeader_append (length_setUInt32 _) (length_setUInt16 _)]
  have hlt : beNat (setUInt32 (UInt32.ofNat (headerSize + content.length))) < 2 ^ 32 := by
    have := beNat_lt (setUInt32 (UInt32.ofNat (headerSize + content.length)))
    rw [length_setUInt32] at this
    exact this
  rw [if_pos (by omega)]

/-! ## The frame -/

/-- **A framed file**: it is refused when it is too small or does not fit the
length field, else its content is read. -/
theorem decodeFile_insertHeader {α : Type} {minimumSize : Nat} {tooSmall : String}
    {content : Arinc615aVersion → Decoder α} {v : Arinc615aVersion} (hv : v.Supported)
    (body : RawData) :
    decodeFile minimumSize tooSmall content (insertHeader v body) =
      if headerSize + body.length < minimumSize then .thrown ⟨tooSmall⟩
      else if 2 ^ 32 ≤ headerSize + body.length then
        .thrown ⟨"internal length field and data size differs"⟩
      else content v body := by
  simp only [decodeFile, bind_apply, remaining_apply, Outcome.bind_done,
    length_insertHeader]
  split
  · rfl
  · split
    · rename_i hlong
      simp only [bind_apply, decodeHeader_too_long hlong, Outcome.bind_thrown]
    · rename_i hfit
      have hhead : decodeHeader (insertHeader v body) = .done (v, body) :=
        decodeHeader_done_iff.mpr ⟨hv, by rw [length_insertHeader]; omega, rfl⟩
      simp only [bind_apply, hhead, Outcome.bind_done]

/-- The version of a framed file is the one it was framed with. -/
theorem insertHeader_version {v v' : Arinc615aVersion} {body body' : RawData}
    (h : insertHeader v body = insertHeader v' body') : v = v' := by
  obtain ⟨hhead, -⟩ := List.append_inj h (by
    simp only [List.length_append, length_setUInt32, length_setUInt16])
  obtain ⟨-, hversion⟩ := List.append_inj' hhead (by simp only [length_setUInt16])
  have hnumber : v.toUInt16.toNat = v'.toUInt16.toNat := by
    rw [← beNat_setUInt16, ← beNat_setUInt16, hversion]
  have hcode : v.toUInt16 = v'.toUInt16 := UInt16.toNat_inj.mp hnumber
  cases v <;> cases v' <;> first | rfl | exact absurd hcode (by decide)

/-- Only files of a supported version are read. -/
theorem supported_of_decodeFile {α : Type} {minimumSize : Nat} {tooSmall : String}
    {content : Arinc615aVersion → Decoder α} {v : Arinc615aVersion} {body : RawData}
    {result : α × RawData}
    (h : decodeFile minimumSize tooSmall content (insertHeader v body) = .done result) :
    v.Supported := by
  simp only [decodeFile, bind_apply, remaining_apply, Outcome.bind_done] at h
  split at h
  · cases h
  · rw [bind_apply] at h
    cases hhead : decodeHeader (insertHeader v body) with
    | overrun =>
      rw [hhead] at h
      cases h
    | thrown e =>
      rw [hhead] at h
      cases h
    | done header =>
      obtain ⟨hsupported, -, hsame⟩ := decodeHeader_done_iff.mp hhead
      rw [insertHeader_version hsame]
      exact hsupported

/-- **A decoder overruns** exactly on framed files of at least its minimum
size whose content overruns. -/
theorem decodeFile_overrun_iff {α : Type} {minimumSize : Nat} {tooSmall : String}
    {content : Arinc615aVersion → Decoder α} {rawData : RawData} :
    decodeFile minimumSize tooSmall content rawData = .overrun ↔
      ∃ v body, v.Supported ∧ rawData = insertHeader v body ∧
        rawData.length < 2 ^ 32 ∧ minimumSize ≤ rawData.length ∧
        content v body = .overrun := by
  simp only [decodeFile, bind_apply, remaining_apply, Outcome.bind_done]
  split
  · rename_i hsmall
    constructor
    · intro h
      cases h
    · intro hfile
      rcases hfile with ⟨v, body, -, -, -, hmin, -⟩
      omega
  · rename_i hlarge
    rw [bind_eq_overrun]
    constructor
    · intro hfile
      rcases hfile with h | ⟨v, body, h₁, h₂⟩
      · exact absurd h (safe_decodeHeader rawData)
      · obtain ⟨hv, hfit, hraw⟩ := decodeHeader_done_iff.mp h₁
        exact ⟨v, body, hv, hraw, hfit, by omega, h₂⟩
    · intro hfile
      rcases hfile with ⟨v, body, hv, hraw, hfit, -, h⟩
      exact .inr ⟨v, body, decodeHeader_done_iff.mpr ⟨hv, hfit, hraw⟩, h⟩

theorem safe_noMoreData (message : String) : Safe (noMoreData message) := by
  intro bs
  cases bs <;> simp [noMoreData, bind_apply]

@[simp] theorem noMoreData_nil (message : String) :
    noMoreData message [] = .done ((), []) := rfl

end Arinc615a.Files
