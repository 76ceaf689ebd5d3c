import CanSniffer.Web.FsCustom
import CanSniffer.Web.StatusPage

namespace CanSniffer.Web

open Lib Decimal

variable (snapshot : String → UInt64)

theorem ascii_append (s t : String) : ascii (s ++ t) = ascii s ++ ascii t := by
  unfold ascii
  rw [String.toList_append, List.map_append]

def counterMembers (name : String) : List (List UInt8 × Json) :=
  [(ascii (name ++ "_hi"), luTree (snapshot name >>> 32).toNat),
    (ascii (name ++ "_lo"), luTree (snapshot name).toNat)]

def debugTree : Json := .object (debugCounters.flatMap (counterMembers snapshot))

theorem debugCounterPair_eq (name : String) (rest : List UInt8) :
    debugCounterPair name (snapshot name) ++ rest =
      ascii "\"" ++ (ascii (name ++ "_hi") ++ (ascii "\":" ++
        ((luTree (snapshot name >>> 32).toNat).compact ++ (ascii ",\"" ++
          (ascii (name ++ "_lo") ++ (ascii "\":" ++
            ((luTree (snapshot name).toNat).compact ++ rest))))))) := by
  simp only [debugCounterPair, ascii_append, lu_eq, List.append_assoc]
  rfl

theorem compactMembers_counters (names : List String) :
    (names.flatMap fun name => 0x2C :: debugCounterPair name (snapshot name)) ++ ascii "\x7d" =
      Json.compactMembers (names.flatMap (counterMembers snapshot)) := by
  induction names with
  | nil => rfl
  | cons name names ih =>
    rw [List.flatMap_cons, List.flatMap_cons, List.append_assoc, ih, List.cons_append,
      debugCounterPair_eq]
    rfl

theorem flatten_intersperse_cons (sep x : List UInt8) (xs : List (List UInt8)) :
    ((x :: xs).intersperse sep).flatten = x ++ xs.flatMap (sep ++ ·) := by
  induction xs generalizing x with
  | nil => simp
  | cons y ys ih =>
    rw [List.intersperse_cons_cons, List.flatten_cons, List.flatten_cons, ih, List.flatMap_cons,
      List.append_assoc]

theorem debugText_eq : ∃ s, (debugTree snapshot).compact = 0x7B :: s ∧
    debugText snapshot = 0x7B :: 0x20 :: s := by
  have hcons : debugCounters = "can_rx_frames" :: debugCounters.tail := rfl
  refine ⟨((debugCounters.map fun name => debugCounterPair name (snapshot name)).intersperse
    (ascii ",")).flatten ++ ascii "\x7d", ?_, rfl⟩
  rw [debugTree, hcons, List.map_cons, flatten_intersperse_cons, List.flatMap_map,
    List.append_assoc]
  have hrest := compactMembers_counters snapshot debugCounters.tail
  have hsep : (fun name => ascii "," ++ debugCounterPair name (snapshot name)) =
      fun name => 0x2C :: debugCounterPair name (snapshot name) := rfl
  rw [hsep, hrest, debugCounterPair_eq]
  rfl

theorem length_debugCounters {name : String} (h : name ∈ debugCounters) :
    (ascii name).length ≤ 29 := by
  have hall : ∀ name ∈ debugCounters, (ascii name).length ≤ 29 := by decide +kernel
  exact hall name h

theorem length_debugCounterPair_le {name : String} (h : name ∈ debugCounters) :
    (debugCounterPair name (snapshot name)).length ≤ 91 := by
  have hname := length_debugCounters h
  have hhi := length_lu_le (snapshot name >>> 32).toNat
  have hlo := length_lu_le (snapshot name).toNat
  have hlen : (debugCounterPair name (snapshot name)).length =
      1 + (ascii name).length + 5 + (lu (snapshot name >>> 32).toNat).length +
        (2 + (ascii name).length + 5) + (lu (snapshot name).toNat).length := by
    simp only [debugCounterPair, ascii_append, List.length_append]
    rfl
  omega

theorem length_debugText_lt : (debugText snapshot).length < 4096 := by
  have hflat (names : List String) (hnames : names ⊆ debugCounters) :
      ((names.map fun name => debugCounterPair name (snapshot name)).intersperse
        (ascii ",")).flatten.length ≤ names.length * 92 := by
    cases names with
    | nil => exact Nat.zero_le _
    | cons name names =>
      have hrest : ((names.map fun name => debugCounterPair name (snapshot name)).flatMap
          (ascii "," ++ ·)).length ≤ names.length * 92 := by
        have htail : ∀ n ∈ names, n ∈ debugCounters :=
          fun n hn => hnames (List.mem_cons_of_mem name hn)
        clear hnames
        induction names with
        | nil => exact Nat.zero_le _
        | cons n ns ih =>
          have hone := length_debugCounterPair_le snapshot (htail n List.mem_cons_self)
          have hns := ih fun m hm => htail m (List.mem_cons_of_mem n hm)
          rw [List.map_cons, List.flatMap_cons, List.length_append, List.length_append,
            List.length_cons, Nat.succ_mul, show (ascii ",").length = 1 from rfl]
          omega
      have hone := length_debugCounterPair_le snapshot (hnames List.mem_cons_self)
      rw [List.map_cons, flatten_intersperse_cons, List.length_append, List.length_cons,
        Nat.succ_mul]
      omega
  have hall := hflat debugCounters (List.Subset.refl _)
  have hcount : debugCounters.length = 29 := rfl
  rw [hcount] at hall
  rw [debugText, List.length_append, List.length_append, show (ascii "\x7b ").length = 2 from rfl,
    show (ascii "\x7d").length = 1 from rfl]
  omega

theorem debugTree_lexical : (debugTree snapshot).Lexical := by
  have hplain : ∀ name ∈ debugCounters, (ascii (name ++ "_hi")).all Json.isPlain = true ∧
      (ascii (name ++ "_lo")).all Json.isPlain = true := by decide +kernel
  have hmembers (names : List String) (h : names ⊆ debugCounters) :
      Json.LexicalMembers (names.flatMap (counterMembers snapshot)) := by
    induction names with
    | nil => trivial
    | cons name names ih =>
      obtain ⟨hhi, hlo⟩ := hplain name (h List.mem_cons_self)
      exact ⟨Json.scanString_key hhi, Json.lexical_ofNat _, Json.scanString_key hlo,
        Json.lexical_ofNat _, ih fun n hn => h (List.mem_cons_of_mem name hn)⟩
  exact hmembers debugCounters (List.Subset.refl _)

theorem nodup_debugKeys :
    ((debugCounters.flatMap (counterMembers snapshot)).map Prod.fst).Nodup := by
  have hkeys : (debugCounters.flatMap (counterMembers snapshot)).map Prod.fst =
      debugCounters.flatMap fun name => [ascii (name ++ "_hi"), ascii (name ++ "_lo")] := by
    rw [List.map_flatMap]
    rfl
  rw [hkeys]
  decide +kernel

def ReadCounter (t : Json) (name : String) (value : UInt64) : Prop :=
  ∃ hi lo, t.find [ascii (name ++ "_hi")] = some (.ofNat hi) ∧
    t.find [ascii (name ++ "_lo")] = some (.ofNat lo) ∧ hi * 0x100000000 + lo = value.toNat

/-- Whatever the counters are, the page is served, and its halves make up each of them. -/
theorem debug_page : ∃ payload t,
    renderDebug (FsBuffer.debugData.size - FsCustom.headerSize true) snapshot = some payload ∧
      Json.parse payload = some t ∧
      ∀ name ∈ debugCounters, ReadCounter t name (snapshot name) := by
  obtain ⟨s, hcompact, htext⟩ := debugText_eq snapshot
  have hsize : FsBuffer.debugData.size - FsCustom.headerSize true = 4096 := by decide
  refine ⟨debugText snapshot, debugTree snapshot, ?_, ?_, ?_⟩
  · rw [hsize]
    exact if_neg (Nat.not_le.mpr (length_debugText_lt snapshot))
  · rw [htext]
    exact Json.parse_spaced (debugTree_lexical snapshot) hcompact
  · intro name hname
    have hfind {key : List UInt8} {v : Json} (h : (key, v) ∈ counterMembers snapshot name) :
        (debugTree snapshot).find [key] = some v :=
      Json.find_of_mem (nodup_debugKeys snapshot) (List.mem_flatMap.mpr ⟨name, hname, h⟩)
    have hlt := (snapshot name).toNat_lt
    have hhi : (snapshot name >>> 32).toNat = (snapshot name).toNat / 0x100000000 := by
      rw [UInt64.toNat_shiftRight, Nat.shiftRight_eq_div_pow]
      rfl
    refine ⟨_, _, hfind List.mem_cons_self, hfind (List.mem_cons_of_mem _ List.mem_cons_self), ?_⟩
    rw [hhi, show UInt32.size = 0x100000000 from rfl]
    omega

end CanSniffer.Web
