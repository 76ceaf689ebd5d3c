import CanSniffer.Lib.JsonLaws
import CanSniffer.Logging.MetaData

namespace CanSniffer.Logging.CanLogMetaData

open Lib Decimal Storage

def tree (data : CanLogMetaData) : Json :=
  .object [(ascii "epoch", .number (unsigned data.epoch.toNat)),
    (ascii "index", .number (unsigned data.fileIndex.toNat)),
    (ascii "offset", .number (unsigned data.byteOffset.toNat)),
    (ascii "crc", .number (unsigned data.crc.toNat))]

theorem metaFormat_eq (data : CanLogMetaData) :
    metaFormat data = data.tree.pretty 0 ++ ascii "\n" := by
  have h1 : ascii "\x7b\n    \"epoch\":" =
      0x7B :: (Json.newline 4 ++ (0x22 :: (ascii "epoch" ++ [0x22, 0x3A]))) := by decide
  have h2 : ascii ",\n    \"index\":" =
      0x2C :: (Json.newline 4 ++ (0x22 :: (ascii "index" ++ [0x22, 0x3A]))) := by decide
  have h3 : ascii ",\n    \"offset\":" =
      0x2C :: (Json.newline 4 ++ (0x22 :: (ascii "offset" ++ [0x22, 0x3A]))) := by decide
  have h4 : ascii ",\n    \"crc\":" =
      0x2C :: (Json.newline 4 ++ (0x22 :: (ascii "crc" ++ [0x22, 0x3A]))) := by decide
  have h5 : ascii "\n\x7d\n" = Json.newline 0 ++ (0x7D :: ascii "\n") := by decide
  simp [metaFormat, h1, h2, h3, h4, h5, tree, Json.pretty, Json.prettyMembers]

theorem tree_lexical (data : CanLogMetaData) : data.tree.Lexical :=
  ⟨Json.scanString_key rfl, Json.lexical_unsigned _, Json.scanString_key rfl,
    Json.lexical_unsigned _, Json.scanString_key rfl, Json.lexical_unsigned _,
    Json.scanString_key rfl, Json.lexical_unsigned _, trivial⟩

theorem parse_metaFormat (data : CanLogMetaData) (rest : List UInt8) :
    Json.parse (metaFormat data ++ rest) =
      if rest.all Json.isWs then some data.tree else none := by
  rw [metaFormat_eq, Json.parse_line 0 data.tree_lexical]

def formatLength (data : CanLogMetaData) : Nat :=
  (unsigned data.epoch.toNat).length + (unsigned data.fileIndex.toNat).length +
    (unsigned data.byteOffset.toNat).length + (unsigned data.crc.toNat).length + 58

theorem length_metaFormat (data : CanLogMetaData) :
    (metaFormat data).length = data.formatLength := by
  have h1 : (ascii "\x7b\n    \"epoch\":").length = 14 := by decide
  have h2 : (ascii ",\n    \"index\":").length = 14 := by decide
  have h3 : (ascii ",\n    \"offset\":").length = 15 := by decide
  have h4 : (ascii ",\n    \"crc\":").length = 12 := by decide
  have h5 : (ascii "\n\x7d\n").length = 3 := by decide
  simp only [metaFormat, List.length_append, h1, h2, h3, h4, h5, formatLength]
  omega

theorem formatLength_lt (data : CanLogMetaData) : data.formatLength < contentSize := by
  have h1 := length_unsigned_le_ten data.epoch.toNat_lt
  have h2 := length_unsigned_le_ten data.fileIndex.toNat_lt
  have h3 := length_unsigned_le_ten data.byteOffset.toNat_lt
  have h4 := length_unsigned_le_ten data.crc.toNat_lt
  unfold formatLength contentSize
  omega

section

variable {json : CoreJson} (hjson : json.Documented) {doc : List UInt8} {data : CanLogMetaData}

include hjson

theorem parseMetaData_tree (hdoc : Json.parse doc = some data.tree) (stack data0 : CanLogMetaData) :
    (parseMetaData json stack doc data0).1 =
      { epoch := convertToInteger (unsigned data.epoch.toNat) stack.epoch
        fileIndex := convertToInteger (unsigned data.fileIndex.toNat) stack.fileIndex
        byteOffset := convertToInteger (unsigned data.byteOffset.toNat) stack.byteOffset
        crc := convertToInteger (unsigned data.crc.toNat) stack.crc } := by
  have hvalid := hjson.validate_some hdoc
  have hepoch := hjson.getValue hdoc "epoch" [ascii "epoch"] (by decide) (by decide) rfl rfl
  have hindex := hjson.getValue hdoc "index" [ascii "index"] (by decide) (by decide) rfl rfl
  have hoffset := hjson.getValue hdoc "offset" [ascii "offset"] (by decide) (by decide) rfl rfl
  have hcrc := hjson.getValue hdoc "crc" [ascii "crc"] (by decide) (by decide) rfl rfl
  simp only [parseMetaData, hvalid, if_true, parseNumber, hepoch, hindex, hoffset, hcrc]

theorem parseMetaData_invalid (hdoc : Json.parse doc = none) (stack data0 : CanLogMetaData) :
    (parseMetaData json stack doc data0).1 = data0 := by
  rw [parseMetaData, if_neg (hjson.validate_none hdoc)]

end

def Readable (data : CanLogMetaData) : Prop :=
  data.epoch.toNat < 0x80000000 ∧ data.fileIndex.toNat < 0x80000000 ∧
    data.byteOffset.toNat < 0x80000000 ∧ data.crc.toNat < 0x80000000

theorem parsed_eq_iff (data stack : CanLogMetaData) :
    ({ epoch := convertToInteger (unsigned data.epoch.toNat) stack.epoch
       fileIndex := convertToInteger (unsigned data.fileIndex.toNat) stack.fileIndex
       byteOffset := convertToInteger (unsigned data.byteOffset.toNat) stack.byteOffset
       crc := convertToInteger (unsigned data.crc.toNat) stack.crc } : CanLogMetaData) = data ↔
      data.Readable := by
  cases data
  simp only [mk.injEq, convertToInteger_unsigned_iff, Readable]

def RoundTrips (json : CoreJson) (found : Option (List UInt8)) (data : CanLogMetaData) : Prop :=
  ∀ dev stack data0,
    (store found dev data).1 = .ok ∧
      load json (store found dev data).2 dev stack data0 = (data, .ok)

variable {found : Option (List UInt8)} {data : CanLogMetaData}

theorem store_eq (found : Option (List UInt8)) (dev : FatFsDevice) (data : CanLogMetaData) :
    store found dev data = (.ok, some (overwrite found (metaFormat data))) := by
  have hlt := formatLength_lt data
  rw [← length_metaFormat] at hlt
  have hstring : (data.toJsonString contentSize).take contentSize = metaFormat data := by
    have hcut : (metaFormat data).take (contentSize - 1) = metaFormat data :=
      List.take_of_length_le (by omega)
    rw [toJsonString, hcut, List.take_of_length_le (by omega)]
  simp [store, hstring, FatFsDevice.written]

theorem load_some (json : CoreJson) (content : List UInt8) (dev : FatFsDevice)
    (stack data0 : CanLogMetaData) :
    load json (some content) dev stack data0 =
      ((parseMetaData json stack (content.take contentSize) data0).1, .ok) := by
  rw [load, FatFsDevice.openFileForRead_success]
  simp [FatFsDevice.readFile_reading, MetaDataResult.ofFResult]

theorem roundTrips_iff {json : CoreJson} (hjson : json.Documented) :
    RoundTrips json found data ↔
      Blank found data.formatLength contentSize ∧ data.Readable := by
  have hlt := formatLength_lt data
  rw [← length_metaFormat] at hlt ⊢
  have hsize := Nat.le_of_lt hlt
  simp only [RoundTrips, store_eq, load_some, true_and]
  by_cases hblank : Blank found (metaFormat data).length contentSize
  · have hparse := parse_overwrite (parse_metaFormat data) hsize hblank
    simp only [parseMetaData_tree hjson hparse, hblank, true_and, Prod.mk.injEq, and_true,
      parsed_eq_iff]
    exact ⟨fun hall => hall .opened data data, fun hreadable _ _ _ => hreadable⟩
  · have hparse := parse_overwrite_eq_none (parse_metaFormat data) hsize hblank
    simp only [parseMetaData_invalid hjson hparse, hblank, false_and, iff_false]
    intro hall
    have hdata := congrArg Prod.fst (hall .opened data { data with epoch := data.epoch + 1 })
    have hepoch : data.epoch + 1 = data.epoch := congrArg epoch hdata
    exact absurd hepoch (by simp)

end CanSniffer.Logging.CanLogMetaData
