import Arinc615a.StatusCode
import Arinc615a.Lib.BigEndian
import Arinc615a.Lib.Loop
import Arinc615a.Lib.Terminated

/-!
# FIND packets

`find/packets/Packet.cpp`: an opcode of two bytes, strings that end with a NUL,
and the packet terminator. The decoder looks for the packet terminator at the
end of the data only, so that a string may have that byte in it.
-/

namespace Arinc615a.Find

open BigEndian Loops Terminated

/-- `Packets::Opcode`. -/
inductive Opcode where
  | informationRequest
  | informationAnswer
  | invalid
  deriving DecidableEq, Repr

/-- `std::to_underlying` of an opcode. -/
def Opcode.toUInt16 : Opcode → UInt16
  | informationRequest => 1
  | informationAnswer => 2
  | invalid => 0xFFFF

/-- `InvalidFindPacket`, with its additional information. -/
structure InvalidFindPacket where
  additionalInfo : String
  deriving DecidableEq

/-- `StringTerminator`. -/
def stringTerminator : UInt8 := 0

/-- `PacketTerminator`. -/
def packetTerminator : UInt8 := 0x10

/-- `Packets::Packet`. -/
structure Packet where
  opcode : Opcode
  parameters : List Str
  deriving DecidableEq

/-- `Helper::RawData_getInt< uint16_t >`, on data of at least two bytes. -/
def getOpcode (rawPacket : RawData) : RawData × UInt16 :=
  (rawPacket.drop 2, UInt16.ofNat (beNat (rawPacket.take 2)))

/-- The two `switch` statements over the opcode. -/
def Opcode.ofUInt16 (opcode : UInt16) : Option Opcode :=
  if opcode = Opcode.informationRequest.toUInt16 then some informationRequest
  else if opcode = Opcode.informationAnswer.toUInt16 then some informationAnswer
  else none

/-- `Packet::packetType`. -/
def packetType (rawPacket : RawData) : Opcode :=
  if rawPacket.length < 2 then .invalid
  else (Opcode.ofUInt16 (getOpcode rawPacket).2).getD .invalid

/-! ## Decoding -/

/-- The variables of the loop over the parameters. -/
structure ParametersLoop where
  parameters : List Str := []
  parametersString : Str

/-- A round of the loop: the string up to the first terminator is a parameter. -/
def decodeParameter (loop : ParametersLoop) :
    Round ParametersLoop (Except InvalidFindPacket (List Str)) :=
  if loop.parametersString.isEmpty then .leave (.ok loop.parameters)
  else
    match loop.parametersString.idxOf? stringTerminator with
    | none => .leave (.error ⟨"String Terminator missing"⟩)
    | some parameterEnd => .next
        { parameters := loop.parameters ++ [loop.parametersString.take parameterEnd]
          parametersString := loop.parametersString.drop (parameterEnd + 1) }

/-- What a round that goes on does: it found a terminator. -/
theorem decodeParameter_next {loop loop' : ParametersLoop}
    (h : decodeParameter loop = .next loop') :
    ∃ parameter, stringTerminator ∉ parameter ∧
      loop.parametersString = parameter ++ stringTerminator :: loop'.parametersString ∧
      loop'.parameters = loop.parameters ++ [parameter] := by
  rw [decodeParameter] at h
  split at h
  · cases h
  · cases hfind : loop.parametersString.idxOf? stringTerminator with
    | none => simp [hfind] at h
    | some parameterEnd =>
      simp only [hfind, Round.next.injEq] at h
      obtain ⟨hsplit, hfree⟩ := eq_of_idxOf? hfind
      subst h
      exact ⟨_, hfree, hsplit, rfl⟩

/-- A round whose string starts with a parameter. -/
theorem decodeParameter_append {parameters : List Str} {parameter rest : Str}
    (h : stringTerminator ∉ parameter) :
    decodeParameter ⟨parameters, parameter ++ stringTerminator :: rest⟩ =
      .next ⟨parameters ++ [parameter], rest⟩ := by
  have hcut : (parameter ++ stringTerminator :: rest).drop (parameter.length + 1) = rest := by
    simp
  simp only [decodeParameter, idxOf?_append h, List.take_left, hcut]
  simp

/-- The loop: each round takes a terminator off the string. -/
def parametersLoop : Loop ParametersLoop (Except InvalidFindPacket (List Str)) where
  round := decodeParameter
  measure loop := loop.parametersString.length
  decreases loop loop' h := by
    obtain ⟨parameter, -, hsplit, -⟩ := decodeParameter_next h
    rw [hsplit, List.length_append, List.length_cons]
    omega

/-- `Packet::Packet( ConstRawDataSpan )`. -/
def Packet.decode (rawPacket : RawData) : Except InvalidFindPacket Packet :=
  if rawPacket.length ≤ 2 then
    .error ⟨"Packet to small: " ++ toString rawPacket.length⟩
  else if rawPacket.getLast? ≠ some packetTerminator then
    .error ⟨"Packet is not terminated by packet terminator"⟩
  else
    let (remainingData, intOpcode) := getOpcode (rawPacket.take (rawPacket.length - 1))
    match Opcode.ofUInt16 intOpcode with
    | none => .error ⟨"Invalid opcode"⟩
    | some opcode => do
      let parameters ← parametersLoop.result { parametersString := remainingData }
      if parameters.isEmpty then
        .error ⟨"Packet must contain at least one (empty) parameter"⟩
      else
        .ok ⟨opcode, parameters⟩

/-- `Packet::encode`. -/
def Packet.encode (packet : Packet) : RawData :=
  beBytes 2 packet.opcode.toUInt16.toNat ++
    packet.parameters.flatMap (fun parameter => parameter ++ [stringTerminator]) ++
    [packetTerminator]

/-! ## The parameters -/

/-- A row of parameters is taken off the string, one in a round. -/
theorem parametersLoop_joined (parameters rest : List Str)
    (h : Free stringTerminator rest) :
    parametersLoop.result ⟨parameters, joined stringTerminator rest⟩ =
      .ok (parameters ++ rest) := by
  induction rest generalizing parameters with
  | nil =>
    rw [parametersLoop.result_of_leave (show decodeParameter _ = .leave (.ok parameters) from rfl),
      List.append_nil]
  | cons parameter rest ih =>
    rw [free_cons] at h
    obtain ⟨hfree, hrest⟩ := h
    rw [joined_cons, parametersLoop.result_of_next (decodeParameter_append hfree), ih _ hrest,
      List.append_assoc, List.singleton_append]

/-- The loop accepts nothing else. -/
theorem joined_of_parametersLoop (loop : ParametersLoop) {parameters : List Str}
    (h : parametersLoop.result loop = .ok parameters) :
    ∃ rest, Free stringTerminator rest ∧
      loop.parametersString = joined stringTerminator rest ∧
      parameters = loop.parameters ++ rest := by
  revert h
  apply parametersLoop.result_induction (P := fun loop result => result = .ok parameters →
    ∃ rest, Free stringTerminator rest ∧
      loop.parametersString = joined stringTerminator rest ∧
      parameters = loop.parameters ++ rest)
  · intro loop result hleave hresult
    subst hresult
    have hround : decodeParameter loop = .leave (.ok parameters) := hleave
    rw [decodeParameter] at hround
    split at hround
    · rename_i hempty
      simp only [Round.leave.injEq, Except.ok.injEq] at hround
      exact ⟨[], free_nil, List.isEmpty_iff.mp hempty, by rw [hround, List.append_nil]⟩
    · split at hround
      · simp at hround
      · simp at hround
  · intro loop loop' result hround ih hresult
    obtain ⟨parameter, hfree, hsplit, hparameters⟩ := decodeParameter_next hround
    obtain ⟨rest, hrest, hstring, rfl⟩ := ih hresult
    refine ⟨parameter :: rest, free_cons.mpr ⟨hfree, hrest⟩, ?_, ?_⟩
    · rw [hsplit, hstring, joined_cons]
    · rw [hparameters, List.append_assoc, List.singleton_append]

/-! ## The opcode -/

theorem Opcode.ofUInt16_eq_some_iff {value : UInt16} {opcode : Opcode} :
    Opcode.ofUInt16 value = some opcode ↔
      opcode ≠ .invalid ∧ value = opcode.toUInt16 := by
  unfold Opcode.ofUInt16
  cases opcode with
  | informationRequest =>
    by_cases h : value = Opcode.informationRequest.toUInt16
    · simp [h]
    · simp [h]
  | informationAnswer =>
    by_cases h : value = Opcode.informationAnswer.toUInt16
    · subst h
      simp [Opcode.toUInt16]
    · simp [h]
  | invalid =>
    by_cases hrequest : value = Opcode.informationRequest.toUInt16
    · simp [hrequest]
    · by_cases hanswer : value = Opcode.informationAnswer.toUInt16
      · simp [hanswer, Opcode.toUInt16]
      · simp [hrequest, hanswer]

/-- The opcode that was written is read back. -/
theorem getOpcode_encode (opcode : Opcode) (rest : RawData) :
    getOpcode (beBytes 2 opcode.toUInt16.toNat ++ rest) = (rest, opcode.toUInt16) := by
  have htake : (beBytes 2 opcode.toUInt16.toNat ++ rest).take 2 =
      beBytes 2 opcode.toUInt16.toNat := by
    rw [List.take_left' (length_beBytes ..)]
  rw [getOpcode, htake, beNat_beBytes_of_lt (UInt16.toNat_lt _), UInt16.ofNat_toNat,
    List.drop_left' (length_beBytes ..)]

/-- Two bytes are read as an opcode exactly if they are how it is written. -/
theorem eq_beBytes_of_getOpcode {bs rest : RawData} {value : UInt16} (hlen : 2 ≤ bs.length)
    (h : getOpcode bs = (rest, value)) : bs = beBytes 2 value.toNat ++ rest := by
  rw [getOpcode, Prod.mk.injEq] at h
  obtain ⟨rfl, rfl⟩ := h
  have hfront : (bs.take 2).length = 2 := List.length_take_of_le hlen
  have hlt : beNat (bs.take 2) < 256 ^ 2 := by
    have hbound := beNat_lt (bs.take 2)
    rwa [hfront] at hbound
  have hread : (UInt16.ofNat (beNat (bs.take 2))).toNat = beNat (bs.take 2) := by
    rw [UInt16.toNat_ofNat']
    exact Nat.mod_eq_of_lt hlt
  have hcode : bs.take 2 = beBytes 2 (beNat (bs.take 2)) := by
    rw [eq_beBytes_iff hlt]
    exact ⟨hfront, rfl⟩
  rw [hread, ← hcode, List.take_append_drop]

/-! ## The packet -/

/-- What a decoded packet is like: a known opcode, parameters without a
terminator, and at least one of them. -/
structure Packet.WellFormed (packet : Packet) : Prop where
  opcode : packet.opcode ≠ .invalid
  nonempty : packet.parameters ≠ []
  free : Free stringTerminator packet.parameters

theorem Packet.encode_eq (packet : Packet) :
    packet.encode = beBytes 2 packet.opcode.toUInt16.toNat ++
      joined stringTerminator packet.parameters ++ [packetTerminator] := rfl

/-- The type of an encoded packet is its opcode. -/
theorem packetType_encode {packet : Packet} (h : packet.WellFormed) :
    packetType packet.encode = packet.opcode := by
  have hlen : ¬ packet.encode.length < 2 := by
    rw [Packet.encode_eq, List.length_append, List.length_append, length_beBytes]
    omega
  have hcode : Opcode.ofUInt16 packet.opcode.toUInt16 = some packet.opcode :=
    Opcode.ofUInt16_eq_some_iff.mpr ⟨h.opcode, rfl⟩
  rw [packetType, if_neg hlen, Packet.encode_eq, List.append_assoc, getOpcode_encode, hcode,
    Option.getD_some]

/-- A packet of three bytes or more with the terminator at its end. -/
theorem Packet.decode_terminated {body : RawData} (h : 2 ≤ body.length) :
    Packet.decode (body ++ [packetTerminator]) =
      match Opcode.ofUInt16 (getOpcode body).2 with
      | none => .error ⟨"Invalid opcode"⟩
      | some opcode => (do
        let parameters ← parametersLoop.result { parametersString := (getOpcode body).1 }
        if parameters.isEmpty then
          .error ⟨"Packet must contain at least one (empty) parameter"⟩
        else
          .ok ⟨opcode, parameters⟩) := by
  have hlen : ¬ (body ++ [packetTerminator]).length ≤ 2 := by
    rw [List.length_append, List.length_singleton]
    omega
  have hbody : (body ++ [packetTerminator]).take ((body ++ [packetTerminator]).length - 1) =
      body := by
    rw [List.length_append, List.length_singleton, Nat.add_sub_cancel, List.take_left]
  rw [Packet.decode, if_neg hlen, if_neg (by simp), hbody]

/-- **The decoder** accepts exactly what the encoder makes of well-formed
packets, and reads the packet back. -/
theorem Packet.decode_eq_ok_iff {rawPacket : RawData} {packet : Packet} :
    Packet.decode rawPacket = .ok packet ↔
      packet.WellFormed ∧ rawPacket = packet.encode := by
  constructor
  · intro h
    by_cases hsmall : rawPacket.length ≤ 2
    · rw [Packet.decode, if_pos hsmall] at h
      cases h
    by_cases hlast : rawPacket.getLast? = some packetTerminator
    · obtain ⟨body, rfl⟩ := List.getLast?_eq_some_iff.mp hlast
      have hlen : 2 ≤ body.length := by
        rw [List.length_append, List.length_singleton] at hsmall
        omega
      rw [Packet.decode_terminated hlen] at h
      cases hopcode : Opcode.ofUInt16 (getOpcode body).2 with
      | none => simp [hopcode] at h
      | some opcode =>
        obtain ⟨hvalid, hvalue⟩ := Opcode.ofUInt16_eq_some_iff.mp hopcode
        cases hloop : parametersLoop.result { parametersString := (getOpcode body).1 } with
        | error e => simp [hopcode, hloop, bind, Except.bind] at h
        | ok parameters =>
          obtain ⟨rest, hfree, hstring, hrest⟩ := joined_of_parametersLoop _ hloop
          simp only [List.nil_append] at hrest
          subst hrest
          simp only [hopcode, hloop, bind, Except.bind] at h
          split at h
          · cases h
          · rename_i hne
            simp only [Except.ok.injEq] at h
            subst h
            refine ⟨⟨hvalid, by simpa using hne, hfree⟩, ?_⟩
            have hcode := eq_beBytes_of_getOpcode hlen (Prod.mk.eta (p := getOpcode body)).symm
            rw [hvalue] at hcode
            rw [Packet.encode_eq, ← hstring, ← hcode]
    · rw [Packet.decode, if_neg hsmall, if_pos hlast] at h
      cases h
  · intro h
    obtain ⟨hwell, rfl⟩ := h
    have hlen : 2 ≤ (beBytes 2 packet.opcode.toUInt16.toNat ++
        joined stringTerminator packet.parameters).length := by
      rw [List.length_append, length_beBytes]
      omega
    have hcode : Opcode.ofUInt16 packet.opcode.toUInt16 = some packet.opcode :=
      Opcode.ofUInt16_eq_some_iff.mpr ⟨hwell.opcode, rfl⟩
    rw [Packet.encode_eq, Packet.decode_terminated hlen, getOpcode_encode]
    simp only [hcode, parametersLoop_joined [] packet.parameters hwell.free, List.nil_append,
      bind, Except.bind]
    rw [if_neg (by simpa using hwell.nonempty)]

/-- The packets of the documentation: an opcode, strings and the packet
terminator. -/
def packetGrammar : Language UInt8 :=
  ({[0, 1]} + {[0, 2]}) * (string stringTerminator * KStar.kstar (string stringTerminator)) *
    {[packetTerminator]}

/-- The grammar says what the encoder makes of well-formed packets. -/
theorem mem_packetGrammar_iff {rawPacket : RawData} :
    rawPacket ∈ packetGrammar ↔
      ∃ packet : Packet, packet.WellFormed ∧ rawPacket = packet.encode := by
  rw [packetGrammar, Language.mem_mul]
  constructor
  · intro h
    rcases h with ⟨body, hbody, _, rfl, rfl⟩
    obtain ⟨code, hcode, row, hrow, rfl⟩ := Language.mem_mul.mp hbody
    obtain ⟨parameters, hfree, hne, rfl⟩ := mem_string_mul_kstar.mp hrow
    rcases hcode with rfl | rfl
    · refine ⟨⟨.informationRequest, parameters⟩, ⟨by simp, hne, hfree⟩, ?_⟩
      rw [Packet.encode_eq, show beBytes 2 Opcode.informationRequest.toUInt16.toNat = [0, 1] by
        decide]
    · refine ⟨⟨.informationAnswer, parameters⟩, ⟨by simp, hne, hfree⟩, ?_⟩
      rw [Packet.encode_eq, show beBytes 2 Opcode.informationAnswer.toUInt16.toNat = [0, 2] by
        decide]
  · intro h
    rcases h with ⟨packet, hwell, rfl⟩
    refine ⟨_, Language.append_mem_mul ?_ (mem_string_mul_kstar.mpr
      ⟨packet.parameters, hwell.free, hwell.nonempty, rfl⟩), [packetTerminator], rfl, rfl⟩
    have hopcode := hwell.opcode
    cases hcode : packet.opcode with
    | informationRequest => exact .inl rfl
    | informationAnswer => exact .inr rfl
    | invalid => exact absurd hcode hopcode

/-- **The packet codec**: the decoder accepts the grammar and nothing else,
accepted data is what its packet is encoded to, a well-formed packet is read
back, and the loop over the parameters is left on every string. -/
theorem packet_codec :
    (∀ rawPacket, (∃ packet, Packet.decode rawPacket = .ok packet) ↔
      rawPacket ∈ packetGrammar) ∧
    (∀ rawPacket packet, Packet.decode rawPacket = .ok packet → packet.encode = rawPacket) ∧
    (∀ packet : Packet, packet.opcode ≠ .invalid → packet.parameters ≠ [] →
      (∀ parameter ∈ packet.parameters, 0 ∉ parameter) →
      Packet.decode packet.encode = .ok packet) ∧
    (∀ loop : ParametersLoop, ∃ rounds result,
      run decodeParameter rounds loop = some result) := by
  refine ⟨?_, ?_, ?_, ?_⟩
  · intro rawPacket
    rw [mem_packetGrammar_iff]
    exact exists_congr fun packet => Packet.decode_eq_ok_iff
  · intro rawPacket packet h
    exact (Packet.decode_eq_ok_iff.mp h).2.symm
  · intro packet hopcode hne hfree
    exact Packet.decode_eq_ok_iff.mpr ⟨⟨hopcode, hne, hfree⟩, rfl⟩
  · intro loop
    exact ⟨_, _, parametersLoop.run_eq_result (Nat.lt_succ_self _)⟩

/-- An answer whose first string is the packet terminator is read back. -/
theorem packet_codec_terminator :
    Packet.decode (Packet.encode ⟨.informationAnswer, [[0x10], []]⟩) =
      .ok ⟨.informationAnswer, [[0x10], []]⟩ :=
  packet_codec.2.2.1 _ (by simp) (by simp) (by simp)

end Arinc615a.Find
