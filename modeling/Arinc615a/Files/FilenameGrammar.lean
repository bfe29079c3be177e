import Arinc615a.Files.ProtocolFilename

/-!
# The grammar of protocol filenames

The parts of a valid filename are free of the point and the underscore that
separate them, and the two columns of the table of extensions belong together:
a filename that is accepted says exactly one target and one file type.
-/

namespace Arinc615a.Files.ProtocolFilename

/-! ## The table of extensions -/

theorem extension_of_mem_index :
    ∀ element ∈ extensionTypeInfoIndex, extension element.2 = element.1 := by
  decide

/-- The extension of a type that was found is the one it was found by. -/
theorem extension_fileTypeOf {s : Str} (h : fileTypeOf s ≠ .invalid) :
    extension (fileTypeOf s) = s := by
  rw [fileTypeOf] at h ⊢
  cases hfind : extensionTypeInfoIndex.find? (·.1 = s) with
  | none =>
    rw [hfind] at h
    exact absurd rfl h
  | some element =>
    have hsame : element.1 = s := by simpa using List.find?_some hfind
    show extension element.2 = s
    rw [extension_of_mem_index element (List.mem_of_find?_eq_some hfind), hsame]

theorem fileTypeOf_extension {fileType : ProtocolFileType} (h : fileType ≠ .invalid) :
    fileTypeOf (extension fileType) = fileType := by
  cases fileType with
  | invalid => exact absurd rfl h
  | _ => decide

/-! ## Reading and writing -/

theorem isValid_iff {filename : ProtocolFilename} :
    filename.isValid = true ↔
      filename.targetId.isValid = true ∧ filename.fileType ≠ .invalid := by
  rw [isValid, Bool.and_eq_true, decide_eq_true_eq]

/-- The check of a filename is that of what the constructor makes of it. -/
theorem isProtocolFilename_eq (s : Str) : isProtocolFilename s = (ofString s).isValid := rfl

/-- The point ends the target ID of a valid filename. -/
theorem split_toString {filename : ProtocolFilename} (h : filename.targetId.isValid = true) :
    split filename.toString = (filename.targetId.toString, extension filename.fileType) := by
  obtain ⟨hthwId, hposition⟩ :=
    TargetId.notMem_of_isValid h (show TargetId.isAlnum 46 = false by decide)
  have hfree : 46 ∉ filename.targetId.toString := by
    rw [TargetId.toString, List.mem_append, List.mem_cons, not_or, not_or]
    exact ⟨hthwId, by decide, hposition⟩
  rw [split, toString, splitAt?_eq_some_iff.mpr ⟨rfl, hfree⟩, Option.getD_some]

/-- A valid filename is read back. -/
theorem ofString_toString {filename : ProtocolFilename} (h : filename.isValid = true) :
    ofString filename.toString = filename := by
  obtain ⟨htarget, htype⟩ := isValid_iff.mp h
  have hunderscore :=
    TargetId.notMem_of_isValid htarget (show TargetId.isAlnum 95 = false by decide)
  rw [ofString, split_toString htarget]
  show (⟨.ofString filename.targetId.toString, fileTypeOf (extension filename.fileType)⟩ :
    ProtocolFilename) = filename
  rw [TargetId.ofString_toString hunderscore.1, fileTypeOf_extension htype]

/-- A filename that is accepted is written again. -/
theorem toString_ofString {s : Str} (h : isProtocolFilename s = true) :
    (ofString s).toString = s := by
  rw [isProtocolFilename_eq] at h
  obtain ⟨htarget, htype⟩ := isValid_iff.mp h
  cases hsplit : splitAt? 46 s with
  | none =>
    rw [ofString, split, hsplit] at htype
    exact absurd rfl htype
  | some parts =>
    obtain ⟨targetId, ending⟩ := parts
    have hread : ofString s = ⟨.ofString targetId, fileTypeOf ending⟩ := by
      rw [ofString, split, hsplit]
      rfl
    rw [hread] at htarget htype ⊢
    rw [toString, TargetId.toString_ofString (TargetId.thwId_ne_nil_of_isValid htarget),
      extension_fileTypeOf htype]
    exact (splitAt?_eq_some_iff.mp hsplit).1.symm

theorem isProtocolFilename_toString {filename : ProtocolFilename} (h : filename.isValid = true) :
    isProtocolFilename filename.toString = true := by
  rw [isProtocolFilename_eq, ofString_toString h, h]

/-- **The grammar**: the accepted filenames are a THW ID, an underscore, a
position, a point and an extension, of one valid target ID and one file type;
reading and writing are inverse to each other on them. -/
theorem protocol_filename_grammar :
    (∀ s, isProtocolFilename s = true ↔ ∃! pair : TargetId × ProtocolFileType,
      (TargetId.isThwId pair.1.thwId = true ∧ TargetId.isPosition pair.1.position = true ∧
        pair.2 ≠ .invalid) ∧
      s = pair.1.thwId ++ 95 :: (pair.1.position ++ 46 :: extension pair.2)) ∧
    (∀ filename : ProtocolFilename, filename.isValid = true →
      ofString filename.toString = filename) ∧
    (∀ s, isProtocolFilename s = true → (ofString s).toString = s) ∧
    ∀ filename filename' : ProtocolFilename, filename.isValid = true →
      filename'.isValid = true → filename.toString = filename'.toString →
      filename = filename' := by
  have hinjective : ∀ filename filename' : ProtocolFilename, filename.isValid = true →
      filename'.isValid = true → filename.toString = filename'.toString →
      filename = filename' := by
    intro filename filename' h h' heq
    rw [← ofString_toString h, heq, ofString_toString h']
  have hwritten (targetId : TargetId) (fileType : ProtocolFileType) :
      (⟨targetId, fileType⟩ : ProtocolFilename).toString =
        targetId.thwId ++ 95 :: (targetId.position ++ 46 :: extension fileType) := by
    rw [toString, TargetId.toString, List.append_assoc, List.cons_append]
  refine ⟨?_, fun _ => ofString_toString, fun _ => toString_ofString, hinjective⟩
  intro s
  constructor
  · intro h
    obtain ⟨htarget, htype⟩ := isValid_iff.mp (isProtocolFilename_eq s ▸ h)
    obtain ⟨hthwId, hposition⟩ := TargetId.isValid_iff.mp htarget
    refine ⟨((ofString s).targetId, (ofString s).fileType), ⟨⟨hthwId, hposition, htype⟩, ?_⟩, ?_⟩
    · exact (toString_ofString h).symm.trans (hwritten _ _)
    · rintro ⟨targetId, fileType⟩ ⟨⟨hthwId', hposition', htype'⟩, hs⟩
      have hvalid : (⟨targetId, fileType⟩ : ProtocolFilename).isValid = true :=
        isValid_iff.mpr ⟨TargetId.isValid_iff.mpr ⟨hthwId', hposition'⟩, htype'⟩
      rw [hs, ← hwritten, ofString_toString hvalid]
  · rintro ⟨⟨targetId, fileType⟩, ⟨⟨hthwId, hposition, htype⟩, hs⟩, -⟩
    rw [hs, ← hwritten]
    exact isProtocolFilename_toString
      (isValid_iff.mpr ⟨TargetId.isValid_iff.mpr ⟨hthwId, hposition⟩, htype⟩)

end Arinc615a.Files.ProtocolFilename
