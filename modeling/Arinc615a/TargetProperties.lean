import Arinc615a.Configuration
import Arinc615a.Find.Targets
import Arinc615a.Information

/-!
# Targets and their hardware in property trees

`information/PartNumber.cpp`, `information/TargetHardware.cpp` and the property trees of
`find/TargetInformation.cpp`. A list is a tree whose children are the elements: the readers
take all children and ignore their keys. The targets that a query has found are written in
the order of the map, and the map is made of them again.
-/

namespace Arinc615a

open PropertyTrees PropertyTrees.PropertyTree

/-! ## Part numbers and target hardware -/

namespace Information

namespace PartNumber

/-- `PartNumber::PartNumber( ptree )`. -/
def ofProperties (properties : Properties) : PartNumber where
  partNumber := properties.get Translator.data [str "part_number"] []
  amendment := properties.get Translator.data [str "amendment"] []
  partDesignation := properties.get Translator.data [str "part_designation"] []

/-- `PartNumber::toProperties`. -/
def toProperties (partNumber : PartNumber) : Properties :=
  let ptree := empty.add Translator.data [str "part_number"] partNumber.partNumber
  let ptree := ptree.add Translator.data [str "amendment"] partNumber.amendment
  ptree.add Translator.data [str "part_designation"] partNumber.partDesignation

/-- `PartNumber::partNumbers( ptree )`. -/
def partNumbersOf (properties : Properties) : List PartNumber :=
  (properties.children.map Prod.snd).map ofProperties

/-- `PartNumber::partNumbers( PartNumbers )`. -/
def partNumbers : List PartNumber → Properties := ofList (str "part_number") toProperties

theorem ofProperties_toProperties (partNumber : PartNumber) :
    ofProperties partNumber.toProperties = partNumber := by
  have hpartNumber : partNumber.toProperties.get Translator.data [str "part_number"] [] =
      partNumber.partNumber := by
    simp (disch := decide) only [toProperties, get_add_ne]
    exact get_add Translator.data_inverse child?_empty
  have hamendment : partNumber.toProperties.get Translator.data [str "amendment"] [] =
      partNumber.amendment := by
    simp (disch := decide) only [toProperties, get_add_ne]
    exact get_add Translator.data_inverse (child?_add_ne (by decide))
  have hdesignation : partNumber.toProperties.get Translator.data [str "part_designation"] [] =
      partNumber.partDesignation := by
    apply get_add Translator.data_inverse
    simp (disch := decide) only [child?_add_ne, child?_empty]
  rw [ofProperties, hpartNumber, hamendment, hdesignation]

theorem partNumbersOf_partNumbers (l : List PartNumber) : partNumbersOf (partNumbers l) = l :=
  map_values_ofList ofProperties_toProperties l

end PartNumber

namespace TargetHardware

/-- `TargetHardware::fromProperties`: it assigns all members. -/
def ofProperties (properties : Properties) : TargetHardware where
  literalName := properties.get Translator.data [str "literal_name"] []
  serialNumber := properties.get Translator.data [str "serial_number"] []
  partNumbers :=
    ((properties.getChild? [str "part_numbers"]).map PartNumber.partNumbersOf).getD []

/-- `TargetHardware::toProperties`. -/
def toProperties (targetHardware : TargetHardware) : Properties :=
  let properties := empty.add Translator.data [str "literal_name"] targetHardware.literalName
  let properties :=
    properties.add Translator.data [str "serial_number"] targetHardware.serialNumber
  properties.addChild [str "part_numbers"] (PartNumber.partNumbers targetHardware.partNumbers)

/-- `TargetHardware::targetsHardware( ptree )`. -/
def targetsHardwareOf (properties : Properties) : List TargetHardware :=
  (properties.children.map Prod.snd).map ofProperties

/-- `TargetHardware::targetsHardware( TargetsHardware )`. -/
def targetsHardware : List TargetHardware → Properties :=
  ofList (str "target_hardware") toProperties

theorem ofProperties_toProperties (targetHardware : TargetHardware) :
    ofProperties targetHardware.toProperties = targetHardware := by
  have hname : targetHardware.toProperties.get Translator.data [str "literal_name"] [] =
      targetHardware.literalName := by
    simp (disch := decide) only [toProperties, get_addChild_ne, get_add_ne]
    exact get_add Translator.data_inverse child?_empty
  have hserial : targetHardware.toProperties.get Translator.data [str "serial_number"] [] =
      targetHardware.serialNumber := by
    simp (disch := decide) only [toProperties, get_addChild_ne]
    exact get_add Translator.data_inverse (child?_add_ne (by decide))
  have hparts : targetHardware.toProperties.getChild? [str "part_numbers"] =
      some (PartNumber.partNumbers targetHardware.partNumbers) := by
    apply getChild?_addChild
    simp (disch := decide) only [child?_add_ne, child?_empty]
  rw [ofProperties, hname, hserial, hparts, Option.map_some, Option.getD_some,
    PartNumber.partNumbersOf_partNumbers]

/-- **Target hardware**: a list of target hardware, with the part numbers of each, is read
as it was written. -/
theorem targetsHardware_roundTrip (l : List TargetHardware) :
    targetsHardwareOf (targetsHardware l) = l :=
  map_values_ofList ofProperties_toProperties l

end TargetHardware

end Information

/-! ## Targets -/

namespace Find

open OrderedMaps OrderedMap

namespace TargetInformation

/-- `TargetInformation::fromProperties`. -/
def fromProperties (information : TargetInformation) (properties : Properties) :
    TargetInformation where
  thwId := properties.get Translator.data [str "thwId"] information.thwId
  thwTypeName := properties.get Translator.data [str "thwTypeName"] information.thwTypeName
  thwPosition := properties.get Translator.data [str "thwPosition"] information.thwPosition
  literalName := properties.get Translator.data [str "literalName"] information.literalName
  manufacturerCode :=
    properties.get Translator.data [str "manufacturerCode"] information.manufacturerCode

/-- `TargetInformation::TargetInformation( ptree )`. -/
def ofProperties (properties : Properties) : TargetInformation :=
  fromProperties ⟨[], [], [], [], []⟩ properties

/-- `TargetInformation::toProperties`. -/
def toProperties (information : TargetInformation) : Properties :=
  let properties := empty.add Translator.data [str "thwId"] information.thwId
  let properties := properties.add Translator.data [str "thwTypeName"] information.thwTypeName
  let properties := properties.add Translator.data [str "thwPosition"] information.thwPosition
  let properties := properties.add Translator.data [str "literalName"] information.literalName
  properties.add Translator.data [str "manufacturerCode"] information.manufacturerCode

/-- `TargetInformation::targetsInformation( ptree )`. -/
def targetsInformationOf (properties : Properties) : List TargetInformation :=
  (properties.children.map Prod.snd).map ofProperties

/-- `TargetInformation::targetsInformation( TargetsInformation )`. -/
def targetsInformation : List TargetInformation → Properties :=
  ofList (str "target") toProperties

theorem ofProperties_congr {t t' : Properties}
    (h : ∀ key, key ≠ str "address" → t.child? key = t'.child? key) :
    ofProperties t = ofProperties t' := by
  simp only [ofProperties, fromProperties, get_congr (h (str "thwId") (by decide)),
    get_congr (h (str "thwTypeName") (by decide)), get_congr (h (str "thwPosition") (by decide)),
    get_congr (h (str "literalName") (by decide)),
    get_congr (h (str "manufacturerCode") (by decide))]

theorem ofProperties_toProperties (information : TargetInformation) :
    ofProperties information.toProperties = information := by
  have hthwId : information.toProperties.get Translator.data [str "thwId"] [] =
      information.thwId := by
    simp (disch := decide) only [toProperties, get_add_ne]
    exact get_add Translator.data_inverse child?_empty
  have hthwTypeName : information.toProperties.get Translator.data [str "thwTypeName"] [] =
      information.thwTypeName := by
    simp (disch := decide) only [toProperties, get_add_ne]
    exact get_add Translator.data_inverse (child?_add_ne (by decide))
  have hthwPosition : information.toProperties.get Translator.data [str "thwPosition"] [] =
      information.thwPosition := by
    simp (disch := decide) only [toProperties, get_add_ne]
    apply get_add Translator.data_inverse
    simp (disch := decide) only [child?_add_ne, child?_empty]
  have hliteralName : information.toProperties.get Translator.data [str "literalName"] [] =
      information.literalName := by
    simp (disch := decide) only [toProperties, get_add_ne]
    apply get_add Translator.data_inverse
    simp (disch := decide) only [child?_add_ne, child?_empty]
  have hmanufacturerCode : information.toProperties.get Translator.data
      [str "manufacturerCode"] [] = information.manufacturerCode := by
    apply get_add Translator.data_inverse
    simp (disch := decide) only [child?_add_ne, child?_empty]
  rw [ofProperties, fromProperties, hthwId, hthwTypeName, hthwPosition, hliteralName,
    hmanufacturerCode]

/-- A list of targets without addresses. -/
theorem targetsInformationOf_targetsInformation (l : List TargetInformation) :
    targetsInformationOf (targetsInformation l) = l :=
  map_values_ofList ofProperties_toProperties l

end TargetInformation

/-! ## Targets with their addresses -/

/-- `make_address` and `to_string`, and `address_v4::any()`. -/
structure AddressLibrary where
  any : Nat
  address : Translator Str Nat

/-- `TargetInformation::targetAddressInformation( ptree )`. A text that is no address
throws. -/
def targetAddressInformationOf (lib : AddressLibrary) (properties : Properties) :
    Option TargetAddressInformation := do
  let address ← properties.getOrFail lib.address [str "address"] lib.any
  some ⟨address, TargetInformation.ofProperties properties⟩

/-- `TargetInformation::targetAddressInformation( TargetAddressInformation )`. -/
def targetAddressInformation (lib : AddressLibrary) (information : TargetAddressInformation) :
    Properties :=
  let properties := empty.add lib.address [str "address"] information.address
  insertChildren properties information.information.toProperties

/-- `TargetInformation::targetsAddressInformation( ptree )`. -/
def targetsAddressInformationOf (lib : AddressLibrary) (properties : Properties) :
    Option (List TargetAddressInformation) :=
  (properties.children.map Prod.snd).mapM (targetAddressInformationOf lib)

/-- `TargetInformation::targetsAddressInformation( TargetsAddressInformation )`. -/
def targetsAddressInformation (lib : AddressLibrary) :
    List TargetAddressInformation → Properties :=
  ofList (str "target") (targetAddressInformation lib)

/-- `TargetInformation::targetsAddressInformation( TargetsAddressInformationMap )`. -/
def targetsAddressInformationOfMap (lib : AddressLibrary)
    (information : TargetsAddressInformationMap) : Properties :=
  ofList (str "target") (targetAddressInformation lib) (information.entries.map Prod.snd)

variable {lib : AddressLibrary}

theorem child?_targetAddressInformation_ne {information : TargetAddressInformation} {key : Str}
    (h : key ≠ str "address") : (targetAddressInformation lib information).child? key =
      information.information.toProperties.child? key := by
  rw [targetAddressInformation, child?_insertChildren, child?_add_ne h.symm, child?_empty,
    Option.none_or]

theorem targetAddressInformationOf_eq {information : TargetAddressInformation}
    (h : lib.address.get (lib.address.put information.address) = some information.address) :
    targetAddressInformationOf lib (targetAddressInformation lib information) =
      some information := by
  have haddress : (targetAddressInformation lib information).getOrFail lib.address
      [str "address"] lib.any = some information.address := by
    have hchild : (targetAddressInformation lib information).child? (str "address") =
        some (.node (lib.address.put information.address) []) := by
      rw [targetAddressInformation, child?_insertChildren, add, child?_addChild_self child?_empty,
        Option.some_or]
    rw [getOrFail, getChild?, hchild]
    exact h
  have hinformation : TargetInformation.ofProperties (targetAddressInformation lib information) =
      information.information :=
    (TargetInformation.ofProperties_congr fun _ => child?_targetAddressInformation_ne).trans
      (TargetInformation.ofProperties_toProperties _)
  rw [targetAddressInformationOf, haddress, hinformation]
  rfl

/-- The list is read as it was written. -/
theorem targetsAddressInformationOf_eq {l : List TargetAddressInformation}
    (h : ∀ target ∈ l, lib.address.get (lib.address.put target.address) = some target.address) :
    targetsAddressInformationOf lib (targetsAddressInformation lib l) = some l :=
  mapM_values_ofList fun target htarget => targetAddressInformationOf_eq (h target htarget)

/-- The entries of a map that is made of answers are those of its answers. -/
theorem entries_targetsAddressInformationMap (answers : List TargetAddressInformation) :
    ((targetsAddressInformationMap answers).entries.map Prod.snd).map entryOf =
      (targetsAddressInformationMap answers).entries := by
  rw [List.map_map]
  refine (List.map_congr_left fun entry hentry => ?_).trans (List.map_id _)
  obtain ⟨hid, -⟩ := mem_targetsAddressInformationMap.mp hentry
  exact Prod.ext hid rfl

/-- **The targets that were found**: written to a property tree, the map of the answers of a
query is read as the list of its targets in order, and the map that is made of this list is
the map again. -/
theorem targetsAddressInformation_roundTrip (answers : List TargetAddressInformation)
    (h : ∀ answer ∈ answers,
      lib.address.get (lib.address.put answer.address) = some answer.address) :
    ∃ targets,
      targetsAddressInformationOf lib
          (targetsAddressInformationOfMap lib (targetsAddressInformationMap answers)) =
        some targets ∧
      targets = (targetsAddressInformationMap answers).entries.map Prod.snd ∧
      targetsAddressInformationMap targets = targetsAddressInformationMap answers := by
  refine ⟨_, targetsAddressInformationOf_eq ?_, rfl, ?_⟩
  · intro target htarget
    obtain ⟨entry, hentry, rfl⟩ := List.mem_map.mp htarget
    obtain ⟨-, hfind⟩ := mem_targetsAddressInformationMap.mp hentry
    exact h _ (List.mem_of_find?_eq_some hfind)
  · rw [targetsAddressInformationMap_eq, entries_targetsAddressInformationMap,
      ofEntries_entries]

/-- The addresses of two targets. -/
def exampleAddresses : AddressLibrary where
  any := 0
  address :=
    ⟨fun address => if address = 1 then str "0.0.0.1" else str "0.0.0.2", fun text =>
      if text = str "0.0.0.1" then some 1
      else if text = str "0.0.0.2" then some 2 else none⟩

/-- Two targets are written in the order of their texts. -/
theorem targetsAddressInformation_roundTrip_order :
    targetsAddressInformationOf exampleAddresses
        (targetsAddressInformationOfMap exampleAddresses (targetsAddressInformationMap
          [⟨2, ⟨str "HNPFMS", [], str "R", [], []⟩⟩,
            ⟨1, ⟨str "HNPFMS", [], str "L", [], []⟩⟩])) =
      some [⟨1, ⟨str "HNPFMS", [], str "L", [], []⟩⟩,
        ⟨2, ⟨str "HNPFMS", [], str "R", [], []⟩⟩] := by
  obtain ⟨targets, hread, rfl, -⟩ := @targetsAddressInformation_roundTrip exampleAddresses
    [⟨2, ⟨str "HNPFMS", [], str "R", [], []⟩⟩, ⟨1, ⟨str "HNPFMS", [], str "L", [], []⟩⟩]
    (by decide)
  exact hread

end Find

end Arinc615a
