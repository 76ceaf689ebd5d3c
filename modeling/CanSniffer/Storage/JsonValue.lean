import CanSniffer.Lib.Json

/-! Values of a JSON document (`FileHandler_GetValue`, `FileHandler_ConvertToInteger`).  The library
that validates and searches the document is not part of the repository. -/

namespace CanSniffer.Storage

open Lib Decimal

/-- `JSON_Validate` and `JSON_Search` of `core_json.h`. -/
structure CoreJson where
  validate : List UInt8 → Bool
  search : List UInt8 → List UInt8 → Option (List UInt8)

namespace CoreJson

def query (path : List (List UInt8)) : List UInt8 := [0x2E].intercalate path

/-- Names that a query can spell: no dot, and no bracket for the index of an array. -/
def Spellable (path : List (List UInt8)) : Prop :=
  path ≠ [] ∧ ∀ key ∈ path, key ≠ [] ∧ 0x2E ∉ key ∧ 0x5B ∉ key

instance (path : List (List UInt8)) : Decidable (Spellable path) :=
  inferInstanceAs (Decidable (_ ∧ _))

/-- What the library promises: it accepts the documents of the grammar, and finds in them the
values that the path leads to. -/
structure Documented (json : CoreJson) : Prop where
  validate_iff : ∀ doc, json.validate doc = true ↔ ∃ t, Json.parse doc = some t
  search_some : ∀ doc t path value text, Json.parse doc = some t → Spellable path →
    t.find path = some value → value.scalar = some text →
    json.search doc (query path) = some text
  search_none : ∀ doc t path, Json.parse doc = some t → Spellable path →
    t.find path = none → json.search doc (query path) = none

def reference : CoreJson where
  validate doc := (Json.parse doc).isSome
  search doc q := (Json.parse doc).bind fun t => (t.find (q.splitOn 0x2E)).bind Json.scalar

theorem splitOn_query {path : List (List UInt8)} (h : Spellable path) :
    (query path).splitOn 0x2E = path :=
  List.splitOn_intercalate _ (fun key hkey => (h.2 key hkey).2.1) h.1

theorem reference_documented : reference.Documented where
  validate_iff doc := Option.isSome_iff_exists
  search_some doc t path value text hparse hpath hfind hscalar := by
    simp [reference, hparse, splitOn_query hpath, hfind, hscalar]
  search_none doc t path hparse hpath hfind := by
    simp [reference, hparse, splitOn_query hpath, hfind]

variable (json : CoreJson)

def getValue (buff : List UInt8) (key : String) : Option (List UInt8) :=
  json.search buff (ascii key)

theorem Documented.validate_some {json : CoreJson} (h : json.Documented) {doc : List UInt8}
    {t : Json} (hdoc : Json.parse doc = some t) : json.validate doc = true :=
  (h.validate_iff doc).mpr ⟨t, hdoc⟩

theorem Documented.validate_none {json : CoreJson} (h : json.Documented) {doc : List UInt8}
    (hdoc : Json.parse doc = none) : ¬json.validate doc = true := by
  rw [h.validate_iff, hdoc]
  rintro ⟨t, ⟨⟩⟩

theorem Documented.getValue {json : CoreJson} (h : json.Documented) {doc : List UInt8} {t : Json}
    (hdoc : Json.parse doc = some t) (key : String) (path : List (List UInt8)) {value : Json}
    {text : List UInt8} (hkey : ascii key = query path) (hpath : Spellable path)
    (hfind : t.find path = some value) (htext : value.scalar = some text) :
    json.getValue doc key = some text := by
  rw [CoreJson.getValue, hkey]
  exact h.search_some _ _ _ _ _ hdoc hpath hfind htext

end CoreJson

def longMin : Int := -2147483648
def longMax : Int := 2147483647

/-- Base 10.  When the number does not end where the string ends, `val` keeps what it was, and the
caller is not told. -/
def convertToInteger (data : List UInt8) (val : UInt32) : UInt32 :=
  let (value, endptr) := strtol longMin longMax data
  if endptr.headD 0 ≠ 0 then val else UInt32.ofInt value

theorem convertToInteger_signed (z : Int) (val : UInt32) :
    convertToInteger (signed z) val = UInt32.ofInt (clamp longMin longMax z) := by
  simp [convertToInteger, strtol_signed]

def asLong (n : UInt32) : Int := n.toInt32.toInt

theorem clamp_of_mem {lo hi z : Int} (hlo : lo ≤ z) (hhi : z ≤ hi) : clamp lo hi z = z := by
  rw [clamp, if_neg (by omega), if_neg (by omega)]

theorem ofInt_asLong (n : UInt32) : UInt32.ofInt (asLong n) = n := by
  have hint : asLong n = if 2 * n.toNat < 4294967296 then (n.toNat : Int)
      else (n.toNat : Int) - 4294967296 := BitVec.toInt_eq_toNat_cond n.toBitVec
  have hlt := n.toNat_lt
  apply UInt32.toNat_inj.mp
  rw [UInt32.ofInt, UInt32.toNat_ofNat', hint]
  split <;> omega

theorem convertToInteger_digits {s rest : List UInt8} (val : UInt32) (hne : s ≠ [])
    (hs : ∀ b ∈ s, isDigit b = true) (hlt : value s < 0x80000000) (hrest : rest.headD 0 = 0) :
    convertToInteger (s ++ rest) val = UInt32.ofNat (value s) := by
  have hclamp : clamp longMin longMax (value s) = value s :=
    clamp_of_mem (by unfold longMin; omega) (by unfold longMax; omega)
  have hend : isDigit (rest.headD 0) = false := by
    rw [hrest]
    rfl
  simp only [convertToInteger, strtol_digits _ _ hne hs hend, hrest, hclamp, ne_eq,
    not_true_eq_false, if_false]
  apply UInt32.toNat_inj.mp
  rw [UInt32.ofInt, UInt32.toNat_ofNat', UInt32.toNat_ofNat']
  omega

theorem convertToInteger_asLong (n val : UInt32) :
    convertToInteger (signed (asLong n)) val = n := by
  have hlo : longMin ≤ asLong n := Int32.le_toInt _
  have hhi : asLong n ≤ longMax := Int.le_of_lt_add_one (Int32.toInt_lt _)
  rw [convertToInteger_signed, clamp_of_mem hlo hhi, ofInt_asLong]

theorem ofInt_clamp_eq_iff (n : UInt32) :
    UInt32.ofInt (clamp longMin longMax n.toNat) = n ↔ n.toNat < 0x80000000 := by
  by_cases hn : n.toNat < 0x80000000
  · rw [clamp_of_mem (by unfold longMin; omega) (by unfold longMax; omega)]
    refine ⟨fun _ => hn, fun _ => UInt32.toNat_inj.mp ?_⟩
    have hlt := n.toNat_lt
    rw [UInt32.ofInt, UInt32.toNat_ofNat']
    omega
  · have hclamp : clamp longMin longMax n.toNat = longMax := by
      rw [clamp, if_neg (by unfold longMin; omega), if_pos (by unfold longMax; omega)]
    rw [hclamp]
    refine ⟨fun h => ?_, fun h => absurd h hn⟩
    rw [← h] at hn
    exact absurd (by decide) hn

theorem convertToInteger_unsigned_iff (n val : UInt32) :
    convertToInteger (unsigned n.toNat) val = n ↔ n.toNat < 0x80000000 := by
  have hsigned : unsigned n.toNat = signed n.toNat := rfl
  rw [hsigned, convertToInteger_signed, ofInt_clamp_eq_iff]

theorem convertToInteger_integer {text : List UInt8} {z : Int} (h : IsInteger text z)
    (val : UInt32) : convertToInteger text val = UInt32.ofInt (clamp longMin longMax z) := by
  simp [convertToInteger, strtol_integer _ _ h]

end CanSniffer.Storage
