import Arinc615a.Lib.OrderedMap
import Arinc615a.Tftp.Transfer
import Mathlib.Algebra.BigOperators.Group.Finset.Basic
import Mathlib.Algebra.GroupWithZero.Nat

/-!
# The information about a download

`host/DownloadInformation.cpp`: what the data loader writes next to the files
that it has received. A record is found by the name of its file only. The
clock is read outside.
-/

namespace Arinc615a.Host

open OrderedMaps Tftp

/-- `DownloadInformation::TransferOk`. -/
def transferOk : Str := str "Transfer OK"

/-- `DownloadInformation::TransferError`. -/
def transferError : Str := str "Transfer Error"

/-- `DownloadInformation::FileTransferInformation`. -/
structure FileTransferInformation where
  start : Int := 0
  «end» : Int := 0
  filePath : Str := []
  fileStatus : Str := []
  fileSize : UInt64 := 0
  partNumber : Str := []
  checkValue : CheckValue := {}
  deriving DecidableEq

/-- `std::map< std::string, FileTransferInformation >`. -/
abbrev FilesInformation :=
  OrderedMap (compare : Str → Str → Ordering) FileTransferInformation

/-- `DownloadInformation`, what changes behind its start. -/
structure DownloadInformation where
  «end» : Int := 0
  filesInformation : FilesInformation := .empty _ _
  overallStatus : Str × UInt64 := ([], 0)

namespace DownloadInformation

/-- `DownloadInformation::fileStart`: a new record, in place of an old one. -/
def fileStart (information : DownloadInformation) (now : Int) (filename filePath partNumber : Str)
    (checkValue : CheckValue) : DownloadInformation :=
  { information with
    filesInformation := information.filesInformation.update filename fun _ =>
      { start := now, filePath := filePath, partNumber := partNumber, checkValue := checkValue } }

/-- `DownloadInformation::fileFinished`. -/
def fileFinished (information : DownloadInformation) (now : Int) (filename status : Str)
    (fileSize : UInt64) : DownloadInformation :=
  { information with
    filesInformation := information.filesInformation.update filename fun fileInformation =>
      { fileInformation.getD {} with
        «end» := now, fileStatus := status, fileSize := fileSize } }

/-- The loop of `DownloadInformation::finished`. -/
def overallSize (information : DownloadInformation) : UInt64 :=
  information.filesInformation.entries.foldl
    (fun overallSize fileStatus => overallSize + fileStatus.2.fileSize) 0

/-- `DownloadInformation::finished`. -/
def finished (information : DownloadInformation) (now : Int) (status : Str) :
    DownloadInformation :=
  { information with «end» := now, overallStatus := (status, information.overallSize) }

/-! ## What the records say -/

/-- The status and the size in the record of a file. -/
def result (information : DownloadInformation) (filename : Str) : Option (Str × UInt64) :=
  (information.filesInformation.lookup filename).map fun record =>
    (record.fileStatus, record.fileSize)

/-- The records of other files are left alone. -/
theorem result_update_ne (information : DownloadInformation) {filename other : Str}
    (f : Option FileTransferInformation → FileTransferInformation) (h : filename ≠ other) :
    result { information with filesInformation := information.filesInformation.update filename f }
      other = information.result other := by
  have hne : compare other filename ≠ .eq := fun heq => h (Std.LawfulEqCmp.eq_of_compare heq).symm
  rw [result, result, OrderedMap.lookup_update_ne hne]

theorem result_fileStart (information : DownloadInformation) (now : Int)
    (filename filePath partNumber : Str) (checkValue : CheckValue) (other : Str) :
    (information.fileStart now filename filePath partNumber checkValue).result other =
      if filename = other then some ([], 0) else information.result other := by
  by_cases h : filename = other
  · subst h
    rw [if_pos rfl, result, fileStart, OrderedMap.lookup_update_self]
    rfl
  · rw [if_neg h, fileStart, result_update_ne _ _ h]

theorem result_fileFinished (information : DownloadInformation) (now : Int)
    (filename status : Str) (fileSize : UInt64) (other : Str) :
    (information.fileFinished now filename status fileSize).result other =
      if filename = other then some (status, fileSize) else information.result other := by
  by_cases h : filename = other
  · subst h
    rw [if_pos rfl, result, fileFinished, OrderedMap.lookup_update_self]
    rfl
  · rw [if_neg h, fileFinished, result_update_ne _ _ h]

/-- The sum of a row of sizes, as far as it fits. -/
private theorem toNat_foldl_add (records : List (Str × FileTransferInformation))
    (size : UInt64) :
    (records.foldl (fun overallSize fileStatus => overallSize + fileStatus.2.fileSize)
        size).toNat =
      (size.toNat + (records.map fun record => record.2.fileSize.toNat).sum) % 2 ^ 64 := by
  induction records generalizing size with
  | nil =>
    rw [List.foldl_nil, List.map_nil, List.sum_nil, Nat.add_zero]
    exact (Nat.mod_eq_of_lt size.toNat_lt).symm
  | cons record records ih =>
    rw [List.foldl_cons, ih, UInt64.toNat_add, List.map_cons, List.sum_cons, Nat.mod_add_mod,
      Nat.add_assoc]

/-- **The overall size** is the sum of the sizes of the files that have a
record, as far as it fits. -/
theorem toNat_overallSize (information : DownloadInformation) {filenames : Finset Str}
    (h : ∀ filename, filename ∈ filenames ↔ information.result filename ≠ none) :
    information.overallSize.toNat =
      (∑ filename ∈ filenames, ((information.result filename).elim 0 (·.2.toNat))) % 2 ^ 64 := by
  have hkeys : filenames = (information.filesInformation.entries.map Prod.fst).toFinset := by
    ext filename
    rw [h, List.mem_toFinset, List.mem_map, result, ne_eq, Option.map_eq_none_iff]
    constructor
    · intro hlookup
      obtain ⟨record, hrecord⟩ := Option.ne_none_iff_exists'.mp hlookup
      exact ⟨_, OrderedMap.mem_entries_iff.mpr hrecord, rfl⟩
    · intro hmem
      obtain ⟨⟨key, record⟩, hentry, rfl⟩ := hmem
      rw [OrderedMap.mem_entries_iff.mp hentry]
      simp
  have hvalues : information.filesInformation.entries.map
        (fun record => record.2.fileSize.toNat) =
      (information.filesInformation.entries.map Prod.fst).map fun filename =>
        (information.result filename).elim 0 (·.2.toNat) := by
    rw [List.map_map]
    apply List.map_congr_left
    intro record hmem
    show _ = Option.elim (information.result record.1) 0 _
    rw [result, OrderedMap.mem_entries_iff.mp hmem]
    rfl
  rw [overallSize, toNat_foldl_add, hvalues, hkeys,
    List.sum_toFinset _ (OrderedMap.nodup_keys _)]
  simp

end DownloadInformation

end Arinc615a.Host
