import CanSniffer.Lib.JsonLaws
import CanSniffer.Config.SettingsHandler

namespace CanSniffer.Config

open Lib Decimal Storage

def fdcanTree (c : App.AppFcdanConfig) : Json :=
  .object [(ascii "Baudrate", .number (signed (asLong c.baudrate))),
    (ascii "Mode", .number (unsigned c.mode.toNat))]

def AppConfig.tree (cfg : AppConfig) : Json :=
  .object [(ascii "CAN1", fdcanTree cfg.can1), (ascii "CAN2", fdcanTree cfg.can2),
    (ascii "HTTP", .object [(ascii "IP", .string cfg.ip.dotted)])]

theorem configFormat_eq (cfg : AppConfig) :
    configFormat cfg = cfg.tree.pretty 0 ++ ascii "\n" := by
  have h1 : ascii "\x7b\n    \"CAN1\":\x7b\n        \"Baudrate\":" =
      0x7B :: (Json.newline 4 ++ (0x22 :: (ascii "CAN1" ++ (0x22 :: 0x3A :: 0x7B ::
        (Json.newline 8 ++ (0x22 :: (ascii "Baudrate" ++ [0x22, 0x3A]))))))) := by decide
  have h2 : ascii ",\n        \"Mode\":" =
      0x2C :: (Json.newline 8 ++ (0x22 :: (ascii "Mode" ++ [0x22, 0x3A]))) := by decide
  have h3 : ascii "\n    \x7d,\n    \"CAN2\":\x7b\n        \"Baudrate\":" =
      Json.newline 4 ++ (0x7D :: 0x2C :: (Json.newline 4 ++ (0x22 :: (ascii "CAN2" ++
        (0x22 :: 0x3A :: 0x7B :: (Json.newline 8 ++ (0x22 :: (ascii "Baudrate" ++
          [0x22, 0x3A])))))))) := by decide
  have h4 : ascii "\n    \x7d,\n    \"HTTP\":\x7b\n        \"IP\":\"" =
      Json.newline 4 ++ (0x7D :: 0x2C :: (Json.newline 4 ++ (0x22 :: (ascii "HTTP" ++
        (0x22 :: 0x3A :: 0x7B :: (Json.newline 8 ++ (0x22 :: (ascii "IP" ++
          [0x22, 0x3A, 0x22])))))))) := by decide
  have h5 : ascii "\"\n    \x7d\n\x7d\n" =
      0x22 :: (Json.newline 4 ++ (0x7D :: (Json.newline 0 ++ (0x7D :: ascii "\n")))) := by decide
  simp [configFormat, h1, h2, h3, h4, h5, AppConfig.tree, fdcanTree, Json.pretty,
    Json.prettyMembers]

theorem isPlain_dotted (ip : IpAddress) : ∀ b ∈ ip.dotted, Json.isPlain b = true := by
  have hnumber (n : Nat) : ∀ b ∈ unsigned n, Json.isPlain b = true :=
    fun b hb => Json.isPlain_of_digit (isDigit_of_mem_unsigned b hb)
  have hdot : ∀ b ∈ ascii ".", Json.isPlain b = true := List.all_eq_true.mp rfl
  simp only [IpAddress.dotted, List.forall_mem_append]
  exact ⟨⟨⟨⟨⟨⟨hnumber _, hdot⟩, hnumber _⟩, hdot⟩, hnumber _⟩, hdot⟩, hnumber _⟩

theorem fdcanTree_lexical (c : App.AppFcdanConfig) : (fdcanTree c).Lexical :=
  ⟨Json.scanString_key rfl, Json.lexical_signed _, Json.scanString_key rfl,
    Json.lexical_signed c.mode.toNat, trivial⟩

theorem AppConfig.tree_lexical (cfg : AppConfig) : cfg.tree.Lexical :=
  ⟨Json.scanString_key rfl, fdcanTree_lexical _, Json.scanString_key rfl, fdcanTree_lexical _,
    Json.scanString_key rfl, ⟨Json.scanString_key rfl, Json.scanString_plain (isPlain_dotted _), trivial⟩, trivial⟩

theorem parse_configFormat (cfg : AppConfig) (rest : List UInt8) :
    Json.parse (configFormat cfg ++ rest) =
      if rest.all Json.isWs then some cfg.tree else none := by
  rw [configFormat_eq, Json.parse_line 0 cfg.tree_lexical]

theorem convertToInteger_octet (n : UInt8) (val : UInt32) :
    convertToInteger (unsigned n.toNat) val = n.toUInt32 := by
  have hlt : n.toUInt32.toNat < 0x80000000 := by
    rw [UInt8.toNat_toUInt32]
    exact Nat.lt_trans n.toNat_lt (by decide)
  have h := (convertToInteger_unsigned_iff n.toUInt32 val).mpr hlt
  rwa [UInt8.toNat_toUInt32] at h

theorem octet_unsigned (n : UInt8) : octet (unsigned n.toNat) = some n := by
  have hlt := n.toNat_lt
  have hle : ¬255 < n.toUInt32 := by
    rw [UInt32.lt_iff_toNat_lt, UInt8.toNat_toUInt32]
    simp
    omega
  simp [octet, convertToInteger_octet, hle]

theorem length_octet (n : UInt8) : (unsigned n.toNat).length ≤ 3 := by
  have hlt := n.toNat_lt
  exact (length_unsigned_le_iff (by decide)).mpr (Nat.lt_trans hlt (by decide))

theorem ipLoop_digits {ds : List UInt8} (hds : ∀ b ∈ ds, isDigit b = true) (rest : List UInt8)
    (arr : List UInt8) : ∀ {element : List UInt8}, element.length + ds.length ≤ 3 →
      ipLoop (ds ++ rest) element arr = ipLoop rest (element ++ ds) arr := by
  induction ds with
  | nil => simp
  | cons d ds ih =>
    intro element hlen
    obtain ⟨hd, hds⟩ := List.forall_mem_cons.mp hds
    rw [List.length_cons] at hlen
    rw [List.cons_append, ipLoop, if_pos hd, if_pos (by omega), ih hds (by simp; omega),
      List.append_assoc, List.singleton_append]

theorem ipLoop_group (n : UInt8) (rest : List UInt8) {arr : List UInt8} (harr : arr.length < 3) :
    ipLoop (unsigned n.toNat ++ (0x2E :: rest)) [] arr = ipLoop rest [] (arr ++ [n]) := by
  have hdot : isDigit 0x2E = false := rfl
  have hlen : ¬3 < (arr ++ [n]).length := by
    rw [List.length_append, List.length_singleton]
    omega
  rw [ipLoop_digits isDigit_of_mem_unsigned _ _ (by simpa using length_octet n), List.nil_append,
    ipLoop, if_neg (by simp [hdot]), if_pos rfl, if_neg (unsigned_ne_nil _), octet_unsigned,
    Option.bind_some, if_neg hlen]

theorem ipStringToIntArray_dotted (ip : IpAddress) :
    ipStringToIntArray ip.dotted (UInt8.ofNat ip.dotted.length) = some ip := by
  have htext : ip.dotted = unsigned ip.ip0.toNat ++ (0x2E :: (unsigned ip.ip1.toNat ++
      (0x2E :: (unsigned ip.ip2.toNat ++ (0x2E :: (unsigned ip.ip3.toNat ++ [])))))) := by
    have hdot : ascii "." = [0x2E] := rfl
    simp [IpAddress.dotted, hdot]
  have hlen : ip.dotted.length < 256 := by
    have h0 := length_octet ip.ip0
    have h1 := length_octet ip.ip1
    have h2 := length_octet ip.ip2
    have h3 := length_octet ip.ip3
    rw [htext]
    simp only [List.length_append, List.length_cons, List.length_nil]
    omega
  have htake : ip.dotted.take (UInt8.ofNat ip.dotted.length).toNat = ip.dotted := by
    rw [UInt8.toNat_ofNat_of_lt' hlen, List.take_length]
  rw [ipStringToIntArray, htake, htext, ipLoop_group _ _ (by simp), ipLoop_group _ _ (by simp),
    ipLoop_group _ _ (by simp), ipLoop_digits isDigit_of_mem_unsigned _ _
      (by simpa using length_octet ip.ip3), ipLoop, List.nil_append, if_neg (unsigned_ne_nil _),
    octet_unsigned]
  rfl

def formatLength (cfg : AppConfig) : Nat :=
  (signed (asLong cfg.can1.baudrate)).length + (unsigned cfg.can1.mode.toNat).length +
    (signed (asLong cfg.can2.baudrate)).length + (unsigned cfg.can2.mode.toNat).length +
    (unsigned cfg.ip.ip0.toNat).length + (unsigned cfg.ip.ip1.toNat).length +
    (unsigned cfg.ip.ip2.toNat).length + (unsigned cfg.ip.ip3.toNat).length + 156

theorem length_configFormat (cfg : AppConfig) : (configFormat cfg).length = formatLength cfg := by
  have h1 : (ascii "\x7b\n    \"CAN1\":\x7b\n        \"Baudrate\":").length = 34 := by decide
  have h2 : (ascii ",\n        \"Mode\":").length = 17 := by decide
  have h3 : (ascii "\n    \x7d,\n    \"CAN2\":\x7b\n        \"Baudrate\":").length = 40 := by
    decide
  have h4 : (ascii "\n    \x7d,\n    \"HTTP\":\x7b\n        \"IP\":\"").length = 35 := by
    decide
  have h5 : (ascii "\"\n    \x7d\n\x7d\n").length = 10 := by decide
  have hdot : (ascii ".").length = 1 := rfl
  simp only [configFormat, IpAddress.dotted, List.length_append, h1, h2, h3, h4, h5, hdot,
    formatLength]
  omega

theorem length_asLong (n : UInt32) : (signed (asLong n)).length ≤ 11 := by
  have hlo : longMin ≤ asLong n := Int32.le_toInt _
  have hhi : asLong n ≤ longMax := Int.le_of_lt_add_one (Int32.toInt_lt _)
  have hdigits : (unsigned (asLong n).natAbs).length ≤ 10 := by
    refine (length_unsigned_le_iff (by decide)).mpr
      (Nat.lt_of_le_of_lt ?_ (by decide) (m := 2147483648))
    unfold longMin at hlo
    unfold longMax at hhi
    omega
  unfold signed
  split
  · rw [List.length_cons]
    omega
  · omega

theorem formatLength_lt (cfg : AppConfig) : formatLength cfg < 511 := by
  have h1 := length_asLong cfg.can1.baudrate
  have h2 := length_octet cfg.can1.mode
  have h3 := length_asLong cfg.can2.baudrate
  have h4 := length_octet cfg.can2.mode
  have h5 := length_octet cfg.ip.ip0
  have h6 := length_octet cfg.ip.ip1
  have h7 := length_octet cfg.ip.ip2
  have h8 := length_octet cfg.ip.ip3
  unfold formatLength
  omega

section

variable {json : CoreJson} (hjson : json.Documented) {doc : List UInt8} {cfg : AppConfig}

include hjson

theorem parseConfig_tree (hdoc : Json.parse doc = some cfg.tree) (stack : ParseStack)
    (cfg0 : AppConfig) :
    parseConfig json stack doc cfg0 =
      ({ cfg0 with can1 := cfg.can1, can2 := cfg.can2, ip := cfg.ip }, true) := by
  have hvalid := hjson.validate_some hdoc
  have hbaud1 := hjson.getValue hdoc "CAN1.Baudrate" [ascii "CAN1", ascii "Baudrate"]
    (by decide) (by decide) rfl rfl
  have hmode1 := hjson.getValue hdoc "CAN1.Mode" [ascii "CAN1", ascii "Mode"]
    (by decide) (by decide) rfl rfl
  have hbaud2 := hjson.getValue hdoc "CAN2.Baudrate" [ascii "CAN2", ascii "Baudrate"]
    (by decide) (by decide) rfl rfl
  have hmode2 := hjson.getValue hdoc "CAN2.Mode" [ascii "CAN2", ascii "Mode"]
    (by decide) (by decide) rfl rfl
  have hip := hjson.getValue hdoc "HTTP.IP" [ascii "HTTP", ascii "IP"]
    (by decide) (by decide) rfl rfl
  simp only [parseConfig, hvalid, if_true, parseNumber, hbaud1, hmode1, hbaud2, hmode2, hip,
    convertToInteger_asLong, convertToInteger_octet, ipStringToIntArray_dotted,
    AppConfig.setBaudrate1, AppConfig.setMode1, AppConfig.setBaudrate2, AppConfig.setMode2,
    AppConfig.setIp, UInt8.toUInt8_toUInt32]

theorem parseConfig_invalid (hdoc : Json.parse doc = none) (stack : ParseStack)
    (cfg0 : AppConfig) : parseConfig json stack doc cfg0 = (cfg0, false) := by
  rw [parseConfig, if_neg (hjson.validate_none hdoc)]

end

end CanSniffer.Config
