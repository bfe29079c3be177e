import Arinc615a.Files.ListFiles
import Arinc615a.Files.LoadConfigurationListFile
import Arinc615a.Files.StatusFiles

/-!
# Bounds of the decoders

Which files make a decoder read past the end of its data. The string and the
ratio reader check for the bytes they read; the integers behind them are read
unchecked. The grammar of each file says where that happens: `...Broken` are
the spans that end inside such an integer.
-/

namespace Arinc615a.Files

open Readers Readers.Reader BigEndian

/-! ## Grammars shared by the files -/

/-- The two bytes of a status code that `statusCode` accepts. -/
def statusCodeField : Language UInt8 :=
  {bs | bs.length = 2 ∧ ∃ code, statusCode (UInt16.ofNat (beNat bs)) = .ok code}

/-- A two byte count and that many records. -/
def counted (record : Language UInt8) : Language UInt8 :=
  {bs | ∃ count records, bs = count ++ records ∧ count.length = 2 ∧
    records ∈ record ^ beNat count}

/-- A two byte count, fewer records, and one that is broken off. -/
def countedBroken (record broken : Language UInt8) : Language UInt8 :=
  {bs | ∃ count records, bs = count ++ records ∧ count.length = 2 ∧
    ∃ k < beNat count, records ∈ record ^ k * broken}

private theorem toNat_ofNat_beNat {bs : RawData} (h : bs.length = 2) :
    (UInt16.ofNat (beNat bs)).toNat = beNat bs := by
  have hlt : beNat bs < 256 ^ 2 := h ▸ beNat_lt bs
  rw [UInt16.toNat_ofNat']
  exact Nat.mod_eq_of_lt hlt

/-- What is read behind a count depends on the two bytes of the count. -/
private theorem behind_count_iff {bs : RawData} {P : Nat → RawData → Prop} :
    (∃ p count q, bs = p ++ q ∧ Parses getUInt16 p count ∧ P count.toNat q) ↔
      ∃ p q, bs = p ++ q ∧ p.length = 2 ∧ P (beNat p) q := by
  constructor
  · intro h
    rcases h with ⟨p, count, q, rfl, hp, hq⟩
    obtain ⟨hlen, rfl⟩ := parses_getUInt16_iff.mp hp
    rw [toNat_ofNat_beNat hlen] at hq
    exact ⟨p, q, rfl, hlen, hq⟩
  · intro h
    rcases h with ⟨p, q, rfl, hlen, hq⟩
    refine ⟨p, _, q, rfl, parses_getUInt16_iff.mpr ⟨hlen, rfl⟩, ?_⟩
    rw [toNat_ofNat_beNat hlen]
    exact hq

section Counted

variable {α β : Type} {r : Decoder α}

theorem regular_counted {k : List α → Decoder β} (hr : Regular r)
    (hk : ∀ as, Regular (k as)) :
    Regular (getUInt16 >>= fun count => times count.toNat r >>= k) :=
  regular_bind regular_getUInt16 fun _ => regular_bind (regular_times hr _) hk

theorem language_counted {f : List α → β} (hr : Regular r) :
    language (getUInt16 >>= fun count => times count.toNat r >>= fun as => pure (f as))
      = counted (language r) := by
  have hloop : ∀ n, language (times n r >>= fun as => (pure (f as) : Decoder β))
      = language r ^ n := by
    intro n
    rw [language_bind (regular_times hr n) (fun as => regular_pure (f as))
      fun as => language_pure (f as), language_times hr, mul_one]
  ext bs
  rw [mem_language_bind regular_getUInt16 fun count =>
    regular_bind (regular_times hr _) fun as => regular_pure (f as)]
  simp only [hloop]
  exact behind_count_iff (P := fun n q => q ∈ language r ^ n)

/-- A counted loop overruns in its count, or in a record. -/
theorem overruns_counted {k : List α → Decoder β} (hr : Regular r)
    (hk : ∀ as, Safe (k as)) :
    overruns (getUInt16 >>= fun count => times count.toNat r >>= k)
      = shorter 2 + countedBroken (language r) (overruns r) := by
  ext bs
  rw [mem_overruns, bind_overrun_iff regular_getUInt16, ← mem_overruns,
    overruns_getUInt16, Language.mem_add]
  apply or_congr Iff.rfl
  simp only [← mem_overruns, overruns_bind_of_safe (regular_times hr _) hk,
    mem_overruns_times hr]
  exact behind_count_iff (P := fun count q => ∃ n < count, q ∈ language r ^ n * overruns r)

/-- A counted loop of safe records overruns in its count, or behind all the
records when nothing is left there. -/
theorem overruns_behind_counted {k : List α → Decoder β} (hr : Regular r) (hs : Safe r)
    (hk : ∀ as, overruns (k as) = 1) :
    overruns (getUInt16 >>= fun count => times count.toNat r >>= k)
      = shorter 2 + counted (language r) := by
  have hloop : ∀ n, overruns (times n r >>= k) = language r ^ n := by
    intro n
    rw [overruns_safe_bind (regular_times hr n) (safe_times hs n) hk, mul_one,
      language_times hr]
  ext bs
  rw [mem_overruns, bind_overrun_iff regular_getUInt16, ← mem_overruns,
    overruns_getUInt16, Language.mem_add]
  apply or_congr Iff.rfl
  simp only [← mem_overruns, hloop]
  exact behind_count_iff (P := fun n q => q ∈ language r ^ n)

end Counted

section StatusCode

variable {β : Type}

/-- A status code in front: the language of what follows does not depend on
it. -/
theorem language_statusCode {k : UInt16 → StatusCode → Decoder β} {L : Language UInt8}
    (hk : ∀ int code, Regular (k int code)) (h : ∀ int code, language (k int code) = L) :
    language (getUInt16 >>= fun int => ofExcept (statusCode int) >>= k int)
      = statusCodeField * L := by
  ext bs
  rw [mem_language_bind regular_getUInt16 fun int =>
    regular_bind (regular_ofExcept _) (hk int), Language.mem_mul]
  constructor
  · intro hmem
    rcases hmem with ⟨p, int, q, rfl, hp, hq⟩
    obtain ⟨hlen, rfl⟩ := parses_getUInt16_iff.mp hp
    obtain ⟨p', code, q', rfl, hcode, hq'⟩ :=
      (mem_language_bind (regular_ofExcept _) (hk _)).mp hq
    obtain ⟨rfl, hok⟩ := parses_ofExcept_iff.mp hcode
    exact ⟨p, ⟨hlen, code, hok⟩, q', h _ code ▸ hq', rfl⟩
  · intro hmem
    rcases hmem with ⟨p, ⟨hlen, code, hok⟩, q, hq, rfl⟩
    refine ⟨p, _, q, rfl, parses_getUInt16_iff.mpr ⟨hlen, rfl⟩, ?_⟩
    exact (mem_language_bind (regular_ofExcept _) (hk _)).mpr
      ⟨[], code, q, rfl, parses_ofExcept_iff.mpr ⟨rfl, hok⟩, (h _ code).symm ▸ hq⟩

theorem overruns_statusCode {k : UInt16 → StatusCode → Decoder β} {L : Language UInt8}
    (h : ∀ int code, overruns (k int code) = L) :
    overruns (getUInt16 >>= fun int => ofExcept (statusCode int) >>= k int)
      = shorter 2 + statusCodeField * L := by
  ext bs
  rw [mem_overruns, bind_overrun_iff regular_getUInt16, ← mem_overruns,
    overruns_getUInt16, Language.mem_add, Language.mem_mul]
  apply or_congr Iff.rfl
  constructor
  · intro hraw
    rcases hraw with ⟨p, int, q, rfl, hp, hq⟩
    obtain ⟨hlen, rfl⟩ := parses_getUInt16_iff.mp hp
    rcases (bind_overrun_iff (regular_ofExcept _)).mp hq with
      hthrow | ⟨p', code, q', rfl, hcode, hover⟩
    · exact absurd hthrow (safe_ofExcept _ q)
    · obtain ⟨rfl, hok⟩ := parses_ofExcept_iff.mp hcode
      have hmem : q' ∈ overruns (k (UInt16.ofNat (beNat p)) code) := hover
      rw [h] at hmem
      exact ⟨p, ⟨hlen, code, hok⟩, q', hmem, rfl⟩
  · intro hraw
    rcases hraw with ⟨p, ⟨hlen, code, hok⟩, q, hq, rfl⟩
    refine ⟨p, _, q, rfl, parses_getUInt16_iff.mpr ⟨hlen, rfl⟩, ?_⟩
    refine (bind_overrun_iff (regular_ofExcept _)).mpr
      (.inr ⟨[], code, q, rfl, parses_ofExcept_iff.mpr ⟨rfl, hok⟩, ?_⟩)
    rw [← h (UInt16.ofNat (beNat p)) code] at hq
    exact hq

end StatusCode

/-! ## Records -/

/-- A part number of the load configuration list. -/
def partNumberField : Language UInt8 := stringField * (stringField * stringField)

/-- A target hardware of the load configuration list. -/
def targetHardwareField : Language UInt8 :=
  stringField * (stringField * counted partNumberField)

/-- A target hardware that ends in the count of its part numbers. -/
def targetHardwareBroken : Language UInt8 := stringField * (stringField * shorter 2)

/-- A load of the upload status. -/
def uploadLoadStatusField : Language UInt8 :=
  stringField * (stringField * (ratioField * (statusCodeField * stringField)))

/-- A load of the upload status that ends in its status code. -/
def uploadLoadStatusBroken : Language UInt8 :=
  stringField * (stringField * (ratioField * shorter 2))

/-- A file of the download status. -/
def downloadFileStatusField : Language UInt8 :=
  stringField * (statusCodeField * stringField)

/-- A file of the download status that ends in its status code. -/
def downloadFileStatusBroken : Language UInt8 := stringField * shorter 2

/-- The status code of a record is checked behind its description. -/
private theorem regular_recordCode {β : Type} (f : Str → StatusCode → β) :
    Regular (getUInt16 >>= fun int => stringDecode >>= fun description =>
      ofExcept (statusCode int) >>= fun code => pure (f description code) : Decoder β) :=
  regular_bind regular_getUInt16 fun _ => regular_bind regular_stringDecode fun _ =>
    regular_bind (regular_ofExcept _) fun _ => regular_pure _

private theorem language_recordCode {β : Type} (f : Str → StatusCode → β) :
    language (getUInt16 >>= fun int => stringDecode >>= fun description =>
      ofExcept (statusCode int) >>= fun code => pure (f description code) : Decoder β)
      = statusCodeField * stringField := by
  have hcheck : ∀ int description, Regular (ofExcept (statusCode int) >>= fun code =>
      pure (f description code) : Decoder β) :=
    fun int description => regular_bind (regular_ofExcept _) fun code => regular_pure _
  ext bs
  rw [mem_language_bind regular_getUInt16 fun int =>
    regular_bind regular_stringDecode (hcheck int), Language.mem_mul]
  simp only [mem_language_bind regular_stringDecode (hcheck _),
    mem_language_bind (regular_ofExcept _) fun code => regular_pure _, language_pure,
    Language.mem_one]
  constructor
  · intro h
    rcases h with ⟨p, int, _, rfl, hp, q, description, _, rfl, hq, r, code, _, rfl, hr, rfl⟩
    obtain ⟨hlen, rfl⟩ := parses_getUInt16_iff.mp hp
    obtain ⟨rfl, hok⟩ := parses_ofExcept_iff.mp hr
    refine ⟨p, ⟨hlen, code, hok⟩, q, ?_, by simp⟩
    rw [← language_stringDecode]
    exact ⟨description, hq⟩
  · intro h
    rcases h with ⟨p, ⟨hlen, code, hok⟩, q, hq, rfl⟩
    rw [← language_stringDecode] at hq
    obtain ⟨description, hq⟩ := hq
    exact ⟨p, _, q, rfl, parses_getUInt16_iff.mpr ⟨hlen, rfl⟩, q, description, [],
      by simp, hq, [], code, [], rfl, parses_ofExcept_iff.mpr ⟨rfl, hok⟩, rfl⟩

private theorem overruns_recordCode {β : Type} (f : Str → StatusCode → β) :
    overruns (getUInt16 >>= fun int => stringDecode >>= fun description =>
      ofExcept (statusCode int) >>= fun code => pure (f description code) : Decoder β)
      = shorter 2 := by
  rw [overruns_bind_of_safe regular_getUInt16 fun int => safe_bind safe_stringDecode
    fun description => safe_bind (safe_ofExcept _) fun code => safe_pure _,
    overruns_getUInt16]

/-! The readers of the records: regular, their language, and where they overrun. -/

theorem regular_decodePartNumber : Regular decodePartNumber :=
  regular_bind regular_stringDecode fun _ => regular_bind regular_stringDecode fun _ =>
    regular_bind regular_stringDecode fun _ => regular_pure _

theorem safe_decodePartNumber : Safe decodePartNumber :=
  safe_bind safe_stringDecode fun _ => safe_bind safe_stringDecode fun _ =>
    safe_bind safe_stringDecode fun _ => safe_pure _

theorem language_decodePartNumber : language decodePartNumber = partNumberField := by
  have hlast : ∀ a b : Str, language (stringDecode >>= fun c =>
      pure ⟨a, b, c⟩ : Decoder Information.PartNumber) = stringField := by
    intro a b
    rw [language_string (fun _ => regular_pure _) fun _ => language_pure _, mul_one]
  exact language_string (fun _ => regular_bind regular_stringDecode fun _ =>
    regular_bind regular_stringDecode fun _ => regular_pure _) fun a =>
      language_string (fun _ => regular_bind regular_stringDecode fun _ => regular_pure _)
        (hlast a)

theorem regular_decodeTargetHardware : Regular decodeTargetHardware :=
  regular_bind regular_stringDecode fun _ => regular_bind regular_stringDecode fun _ =>
    regular_counted regular_decodePartNumber fun _ => regular_pure _

theorem language_decodeTargetHardware :
    language decodeTargetHardware = targetHardwareField := by
  rw [targetHardwareField, ← language_decodePartNumber]
  exact language_string (fun _ => regular_bind regular_stringDecode fun _ =>
    regular_counted regular_decodePartNumber fun _ => regular_pure _) fun a =>
      language_string (fun _ => regular_counted regular_decodePartNumber fun _ =>
        regular_pure _) fun b => language_counted regular_decodePartNumber

/-- An entry of the list overruns in the count of its part numbers. -/
theorem overruns_decodeTargetHardware :
    overruns decodeTargetHardware = targetHardwareBroken := by
  have hcount : ∀ a b : Str, overruns (getUInt16 >>= fun count =>
      times count.toNat decodePartNumber >>= fun ps =>
        pure ⟨a, b, ps⟩ : Decoder Information.TargetHardware) = shorter 2 := by
    intro a b
    rw [overruns_bind_of_safe regular_getUInt16 fun _ =>
      safe_bind (safe_times safe_decodePartNumber _) fun _ => safe_pure _,
      overruns_getUInt16]
  exact overruns_string fun a => overruns_string (hcount a)

theorem regular_decodeUploadLoadStatus : Regular decodeUploadLoadStatus :=
  regular_bind regular_stringDecode fun _ => regular_bind regular_stringDecode fun _ =>
    regular_bind regular_ratioDecode fun _ => regular_recordCode _

theorem language_decodeUploadLoadStatus :
    language decodeUploadLoadStatus = uploadLoadStatusField :=
  language_string (fun _ => regular_bind regular_stringDecode fun _ =>
    regular_bind regular_ratioDecode fun _ => regular_recordCode _) fun _ =>
      language_string (fun _ => regular_bind regular_ratioDecode fun _ =>
        regular_recordCode _) fun _ =>
          language_ratio (fun _ => regular_recordCode _) fun _ => language_recordCode _

/-- A load of the upload status overruns in its status code. -/
theorem overruns_decodeUploadLoadStatus :
    overruns decodeUploadLoadStatus = uploadLoadStatusBroken :=
  overruns_string fun _ => overruns_string fun _ =>
    overruns_ratio fun _ => overruns_recordCode _

theorem regular_decodeDownloadFileStatus : Regular decodeDownloadFileStatus :=
  regular_bind regular_stringDecode fun _ => regular_recordCode _

theorem language_decodeDownloadFileStatus :
    language decodeDownloadFileStatus = downloadFileStatusField :=
  language_string (fun _ => regular_recordCode _) fun _ => language_recordCode _

/-- A file of the download status overruns in its status code. -/
theorem overruns_decodeDownloadFileStatus :
    overruns decodeDownloadFileStatus = downloadFileStatusBroken :=
  overruns_string fun _ => overruns_recordCode _

/-! ## The front of the upload and download status -/

/-- Status code, description, three numbers and the list ratio. -/
def statusFront : Language UInt8 :=
  statusCodeField * (stringField * (exactly 6 * ratioField))

/-- A front that ends in one of its three numbers. -/
def statusFrontBroken : Language UInt8 := statusCodeField * (stringField * shorter 6)

section Front

open Information

/-- The three numbers behind the description and the list ratio. -/
private theorem regular_numbers {β : Type} (f : UInt16 → UInt16 → Int16 → Ratio → β) :
    Regular (getUInt16 >>= fun a => getUInt16 >>= fun b => getInt16 >>= fun c =>
      ratioDecode >>= fun r => pure (f a b c r) : Decoder β) :=
  regular_bind regular_getUInt16 fun _ => regular_bind regular_getUInt16 fun _ =>
    regular_bind regular_getInt16 fun _ => regular_bind regular_ratioDecode fun _ =>
      regular_pure _

private theorem language_numbers {β : Type} (f : UInt16 → UInt16 → Int16 → Ratio → β) :
    language (getUInt16 >>= fun a => getUInt16 >>= fun b => getInt16 >>= fun c =>
      ratioDecode >>= fun r => pure (f a b c r) : Decoder β) = exactly 6 * ratioField := by
  have h₃ : ∀ a b c, language (ratioDecode >>= fun r => pure (f a b c r) : Decoder β)
      = ratioField := by
    intro a b c
    rw [language_ratio (fun _ => regular_pure _) fun _ => language_pure _, mul_one]
  have h₂ := fun a b => language_bind regular_getInt16
    (fun _ => regular_bind regular_ratioDecode fun _ => regular_pure _) (h₃ a b)
  have h₁ := fun a => language_bind regular_getUInt16
    (fun _ => regular_bind regular_getInt16 fun _ =>
      regular_bind regular_ratioDecode fun _ => regular_pure _) (h₂ a)
  rw [language_bind regular_getUInt16 (fun _ => regular_bind regular_getUInt16 fun _ =>
    regular_bind regular_getInt16 fun _ => regular_bind regular_ratioDecode fun _ =>
      regular_pure _) h₁, language_getUInt16, language_getInt16, ← mul_assoc, ← mul_assoc,
    exactly_mul, exactly_mul]

private theorem overruns_numbers {β : Type} (f : UInt16 → UInt16 → Int16 → Ratio → β) :
    overruns (getUInt16 >>= fun a => getUInt16 >>= fun b => getInt16 >>= fun c =>
      ratioDecode >>= fun r => pure (f a b c r) : Decoder β) = shorter 6 := by
  have h₂ : ∀ a b, overruns (getInt16 >>= fun c => ratioDecode >>= fun r =>
      pure (f a b c r) : Decoder β) = shorter 2 := by
    intro a b
    rw [overruns_bind_of_safe regular_getInt16 fun _ => safe_bind safe_ratioDecode
      fun _ => safe_pure _, overruns_getInt16]
  have h₁ := fun a => overruns_bind regular_getUInt16 (h₂ a)
  rw [overruns_bind regular_getUInt16 h₁, overruns_getUInt16, language_getUInt16,
    shorter_add, shorter_add]

theorem regular_decodeStatusFront (status : Status) :
    Regular (decodeStatusFront status) :=
  regular_bind regular_getUInt16 fun _ => regular_bind (regular_ofExcept _) fun _ =>
    regular_bind regular_stringDecode fun _ => regular_numbers _

theorem language_decodeStatusFront (status : Status) :
    language (decodeStatusFront status) = statusFront :=
  language_statusCode
    (fun _ _ => regular_bind regular_stringDecode fun _ => regular_numbers _)
    fun _ _ => language_string (fun _ => regular_numbers _) fun _ => language_numbers _

theorem overruns_decodeStatusFront (status : Status) :
    overruns (decodeStatusFront status) = shorter 2 + statusFrontBroken :=
  overruns_statusCode fun _ _ => overruns_string fun _ => overruns_numbers _

end Front

/-! ## Whole files -/

/-- A file of at least the minimum size, with a header that is accepted, and
content of the given language. -/
def framed (minimumSize : Nat) (content : Language UInt8) : Language UInt8 :=
  {rawData | ∃ v body, Arinc615aVersion.Supported v ∧ rawData = insertHeader v body ∧
    rawData.length < 2 ^ 32 ∧ minimumSize ≤ rawData.length ∧ body ∈ content}

/-- A decoder overruns on framed content that overruns. -/
private theorem overruns_decodeFile {α : Type} {minimumSize : Nat} {tooSmall : String}
    {content : Arinc615aVersion → Decoder α} {L : Language UInt8}
    (h : ∀ v, overruns (content v) = L) :
    overruns (decodeFile minimumSize tooSmall content) = framed minimumSize L := by
  ext rawData
  rw [mem_overruns, decodeFile_overrun_iff]
  simp only [← mem_overruns, h]
  rfl

/-- The minimum size rules out content that is too short. -/
private theorem framed_shorter_add {minimumSize n : Nat} {L : Language UInt8}
    (h : headerSize + n ≤ minimumSize) :
    framed minimumSize (shorter n + L) = framed minimumSize L := by
  ext rawData
  constructor
  · intro hmem
    rcases hmem with ⟨v, body, hv, rfl, hfit, hmin, hbody | hbody⟩
    · have hlen : body.length < n := hbody
      rw [length_insertHeader] at hmin
      omega
    · exact ⟨v, body, hv, rfl, hfit, hmin, hbody⟩
  · intro hmem
    rcases hmem with ⟨v, body, hv, rfl, hfit, hmin, hbody⟩
    exact ⟨v, body, hv, rfl, hfit, hmin, .inr hbody⟩

/-- Content that only overruns when it is too short does not overrun. -/
private theorem framed_eq_zero {minimumSize n : Nat} {L : Language UInt8}
    (hL : ∀ bs ∈ L, bs ∈ shorter n) (h : headerSize + n ≤ minimumSize) :
    framed minimumSize L = 0 := by
  ext rawData
  constructor
  · intro hmem
    rcases hmem with ⟨v, body, -, rfl, -, hmin, hbody⟩
    have hlen : body.length < n := hL body hbody
    rw [length_insertHeader] at hmin
    omega
  · intro hraw
    exact absurd hraw (Language.notMem_zero _)

/-- The decoders of the protocol files, each for an object it decodes into,
and the two field readers. -/
inductive ProtocolFileDecoder where
  | initialization (self : InitializationFile)
  | loadConfigurationList (self : LoadConfigurationListFile)
  | informationStatus (self : InformationOperationStatusFile)
  | uploadRequest (self : UploadOperationRequestFile)
  | uploadStatus (self : UploadOperationStatusFile)
  | downloadRequest (self : DownloadOperationRequestFile)
  | downloadStatus (self : DownloadOperationStatusFile)
  | downloadList (self : DownloadOperationListFile)
  | downloadAnswer (self : DownloadOperationAnswerFile)
  | string
  | ratio

/-- Run a decoder, forgetting what it decoded. -/
def ProtocolFileDecoder.run : ProtocolFileDecoder → Decoder Unit
  | initialization self => self.decode >>= fun _ => pure ()
  | loadConfigurationList self => self.decode >>= fun _ => pure ()
  | informationStatus self => self.decode >>= fun _ => pure ()
  | uploadRequest self => self.decode >>= fun _ => pure ()
  | uploadStatus self => self.decode >>= fun _ => pure ()
  | downloadRequest self => self.decode >>= fun _ => pure ()
  | downloadStatus self => self.decode >>= fun _ => pure ()
  | downloadList self => self.decode >>= fun _ => pure ()
  | downloadAnswer self => self.decode >>= fun _ => pure ()
  | string => stringDecode >>= fun _ => pure ()
  | ratio => ratioDecode >>= fun _ => pure ()

/-- The files that end inside an unchecked integer: the load configuration
list in the part number count of an entry, the status of an upload or a
download in the three numbers, the count of the records or the status code of
a record, and the download request in front of its user defined data. -/
def ProtocolFileDecoder.truncated : ProtocolFileDecoder → Language UInt8
  | loadConfigurationList _ =>
    framed 19 (countedBroken targetHardwareField targetHardwareBroken)
  | uploadStatus _ =>
    framed 15 (statusFrontBroken + statusFront *
      (shorter 2 + countedBroken uploadLoadStatusField uploadLoadStatusBroken))
  | downloadStatus _ =>
    framed 15 (statusFrontBroken + statusFront *
      (shorter 2 + countedBroken downloadFileStatusField downloadFileStatusBroken))
  | downloadRequest _ => framed 9 (counted stringField)
  | _ => 0

private theorem mem_overruns_discard {α : Type} {r : Decoder α} {rawData : RawData} :
    (r >>= fun _ => pure () : Decoder Unit) rawData = .overrun ↔ rawData ∈ overruns r := by
  rw [bind_eq_overrun, mem_overruns]
  simp

/-! Where each decoder overruns. -/

private theorem overruns_initialization (self : InitializationFile) :
    overruns self.decode = 0 := by
  have h : overruns self.decode = framed 9 (shorter 2) :=
    overruns_decodeFile fun v => by
      rw [overruns_bind_of_safe regular_getUInt16 fun _ => safe_bind (safe_ofExcept _)
        fun _ => safe_bind safe_stringDecode fun _ => safe_bind (safe_noMoreData _)
        fun _ => safe_pure _, overruns_getUInt16]
  exact h.trans (framed_eq_zero (fun _ => id) (by decide))

private theorem overruns_loadConfigurationList (self : LoadConfigurationListFile) :
    overruns self.decode =
      framed 19 (countedBroken targetHardwareField targetHardwareBroken) := by
  have h : overruns self.decode =
      framed 19 (shorter 2 + countedBroken targetHardwareField targetHardwareBroken) :=
    overruns_decodeFile fun v => by
      rw [← language_decodeTargetHardware, ← overruns_decodeTargetHardware]
      exact overruns_counted regular_decodeTargetHardware fun _ =>
        safe_bind (safe_noMoreData _) fun _ => safe_pure _
  exact h.trans (framed_shorter_add (by decide))

/-- The five fields of the information status fit the minimum size. -/
private theorem overruns_informationStatus (self : InformationOperationStatusFile) :
    overruns self.decode = 0 := by
  have hend : ∀ f : Str → InformationOperationStatusFile, ∀ message : String,
      Safe (stringDecode >>= fun description => noMoreData message >>= fun _ =>
        pure (f description) : Decoder InformationOperationStatusFile) := fun f _ =>
    safe_bind safe_stringDecode fun _ => safe_bind (safe_noMoreData _) fun _ => safe_pure _
  have htimes : ∀ f : UInt16 → Int16 → Str → InformationOperationStatusFile,
      ∀ message : String, overruns (getUInt16 >>= fun a => getInt16 >>= fun b =>
        stringDecode >>= fun description => noMoreData message >>= fun _ =>
        pure (f a b description) : Decoder InformationOperationStatusFile) = shorter 4 := by
    intro f message
    rw [overruns_bind regular_getUInt16 fun a =>
      overruns_bind_of_safe regular_getInt16 fun b => hend (f a b) message,
      overruns_getUInt16, language_getUInt16, overruns_getInt16, shorter_add]
  have h : overruns self.decode = framed 15 (shorter 2 + exactly 2 *
      (shorter 2 + statusCodeField * shorter 4)) :=
    overruns_decodeFile fun v => by
      rw [overruns_bind regular_getUInt16 fun counter =>
        overruns_statusCode fun int code => htimes _ _, overruns_getUInt16,
        language_getUInt16]
  have hcode : statusCodeField ≤ exactly 2 := fun bs hbs => hbs.1
  -- Eight bytes in all, which the minimum size leaves behind the header.
  have hshort : shorter 2 + exactly 2 * (shorter 2 + statusCodeField * shorter 4)
      ≤ shorter 8 :=
    calc shorter 2 + exactly 2 * (shorter 2 + statusCodeField * shorter 4)
        ≤ shorter 2 + exactly 2 * (shorter 2 + exactly 2 * shorter 4) := by gcongr
      _ = shorter 8 := by rw [shorter_add, shorter_add]
  exact h.trans (framed_eq_zero (fun _ => @hshort _) (by decide))

private theorem overruns_uploadRequest (self : UploadOperationRequestFile) :
    overruns self.decode = 0 := by
  have hload : Safe decodeUploadLoad := safe_bind safe_stringDecode fun _ =>
    safe_bind safe_stringDecode fun _ => safe_pure _
  have h : overruns self.decode = framed 8 (shorter 2) :=
    overruns_decodeFile fun v => by
      rw [overruns_bind_of_safe regular_getUInt16 fun _ => safe_bind (safe_times hload _)
        fun _ => safe_bind (safe_noMoreData _) fun _ => safe_pure _, overruns_getUInt16]
  exact h.trans (framed_eq_zero (fun _ => id) (by decide))

private theorem overruns_uploadStatus (self : UploadOperationStatusFile) :
    overruns self.decode = framed 15 (statusFrontBroken + statusFront *
      (shorter 2 + countedBroken uploadLoadStatusField uploadLoadStatusBroken)) := by
  have h : overruns self.decode = framed 15 (shorter 2 + statusFrontBroken + statusFront *
      (shorter 2 + countedBroken uploadLoadStatusField uploadLoadStatusBroken)) :=
    overruns_decodeFile fun v => by
      rw [← overruns_decodeStatusFront self.status.toStatus,
        ← language_decodeStatusFront self.status.toStatus,
        ← language_decodeUploadLoadStatus, ← overruns_decodeUploadLoadStatus]
      exact overruns_bind (regular_decodeStatusFront _) fun _ =>
        overruns_counted regular_decodeUploadLoadStatus fun _ =>
          safe_bind (safe_noMoreData _) fun _ => safe_pure _
  rw [h, add_assoc]
  exact framed_shorter_add (by decide)

private theorem overruns_downloadStatus (self : DownloadOperationStatusFile) :
    overruns self.decode = framed 15 (statusFrontBroken + statusFront *
      (shorter 2 + countedBroken downloadFileStatusField downloadFileStatusBroken)) := by
  have h : overruns self.decode = framed 15 (shorter 2 + statusFrontBroken + statusFront *
      (shorter 2 + countedBroken downloadFileStatusField downloadFileStatusBroken)) :=
    overruns_decodeFile fun v => by
      rw [← overruns_decodeStatusFront self.status.toStatus,
        ← language_decodeStatusFront self.status.toStatus,
        ← language_decodeDownloadFileStatus, ← overruns_decodeDownloadFileStatus]
      exact overruns_bind (regular_decodeStatusFront _) fun _ =>
        overruns_counted regular_decodeDownloadFileStatus fun _ =>
          safe_bind (safe_noMoreData _) fun _ => safe_pure _
  rw [h, add_assoc]
  exact framed_shorter_add (by decide)

private theorem overruns_downloadList (self : DownloadOperationListFile) :
    overruns self.decode = 0 := by
  have hfile : Safe decodeDownloadFileInformation := safe_bind safe_stringDecode fun _ =>
    safe_bind safe_stringDecode fun _ => safe_pure _
  have h : overruns self.decode = framed 8 (shorter 2) :=
    overruns_decodeFile fun v => by
      rw [overruns_bind_of_safe regular_getUInt16 fun _ => safe_bind (safe_times hfile _)
        fun _ => safe_bind (safe_noMoreData _) fun _ => safe_pure _, overruns_getUInt16]
  exact h.trans (framed_eq_zero (fun _ => id) (by decide))

private theorem overruns_downloadAnswer (self : DownloadOperationAnswerFile) :
    overruns self.decode = 0 := by
  have h : overruns self.decode = framed 8 (shorter 2) :=
    overruns_decodeFile fun v => by
      rw [overruns_bind_of_safe regular_getUInt16 fun _ =>
        safe_bind (safe_times safe_stringDecode _) fun _ => safe_bind (safe_noMoreData _)
        fun _ => safe_pure _, overruns_getUInt16]
  exact h.trans (framed_eq_zero (fun _ => id) (by decide))

/-- The download request overruns when nothing follows its files. -/
private theorem overruns_downloadRequest (self : DownloadOperationRequestFile) :
    overruns self.decode = framed 9 (counted stringField) := by
  have hcheck : ∀ v : Arinc615aVersion, ∀ files : List Str, ∀ length : UInt8,
      Safe (remaining >>= fun rawData =>
        if rawData.length ≠ length.toNat then throw ⟨"user defined data length"⟩
        else pure ⟨v, self.files ++ files, rawData⟩ :
          Decoder DownloadOperationRequestFile) := by
    intro v files length bs
    simp only [bind_apply, remaining_apply, Outcome.bind_done]
    split <;> simp
  have h : overruns self.decode = framed 9 (shorter 2 + counted stringField) :=
    overruns_decodeFile fun v => by
      rw [← language_stringDecode]
      refine overruns_behind_counted regular_stringDecode safe_stringDecode fun files => ?_
      rw [overruns_bind_of_safe regular_getUInt8 (hcheck v files), overruns_getUInt8,
        shorter_one]
  exact h.trans (framed_shorter_add (by decide))

/-- **Bounds of the decoders**: on any bytes, a decoder reads only what is
there exactly when the bytes are not truncated inside an unchecked integer. -/
theorem protocolFileDecoder_in_bounds_iff (decoder : ProtocolFileDecoder)
    (rawData : RawData) :
    decoder.run rawData ≠ .overrun ↔ rawData ∉ decoder.truncated := by
  apply not_congr
  cases decoder with
  | initialization self => exact mem_overruns_discard.trans (by rw [overruns_initialization]; rfl)
  | loadConfigurationList self =>
    exact mem_overruns_discard.trans (by rw [overruns_loadConfigurationList]; rfl)
  | informationStatus self =>
    exact mem_overruns_discard.trans (by rw [overruns_informationStatus]; rfl)
  | uploadRequest self => exact mem_overruns_discard.trans (by rw [overruns_uploadRequest]; rfl)
  | uploadStatus self => exact mem_overruns_discard.trans (by rw [overruns_uploadStatus]; rfl)
  | downloadRequest self =>
    exact mem_overruns_discard.trans (by rw [overruns_downloadRequest]; rfl)
  | downloadStatus self => exact mem_overruns_discard.trans (by rw [overruns_downloadStatus]; rfl)
  | downloadList self => exact mem_overruns_discard.trans (by rw [overruns_downloadList]; rfl)
  | downloadAnswer self => exact mem_overruns_discard.trans (by rw [overruns_downloadAnswer]; rfl)
  | string =>
    exact mem_overruns_discard.trans (by rw [safe_iff_overruns.mp safe_stringDecode]; rfl)
  | ratio =>
    exact mem_overruns_discard.trans (by rw [safe_iff_overruns.mp safe_ratioDecode]; rfl)

/-- A load configuration list of 19 bytes whose only entry has two strings and
then one byte for the two of its part number count. -/
theorem loadConfigurationList_reads_past_end :
    ¬ ∀ (decoder : ProtocolFileDecoder) (rawData : RawData),
      decoder.run rawData ≠ .overrun := by
  intro h
  apply h (.loadConfigurationList {}) ([0, 0, 0, 19, 0x41, 0x34, 0, 1] ++
    (8 :: str "LITERAL" ++ [0]) ++ [0] ++ [0])
  rfl

end Arinc615a.Files
