import CanSniffer.App.Formatting
import CanSniffer.Lib.JsonCompact

namespace CanSniffer.App

open Lib Decimal Storage

namespace LogConfig

structure Positive (c : LogConfig) : Prop where
  clusterSize : 0 < c.clusterSize
  logFileSize : 0 < c.logFileSize
  logFileCount : 0 < c.logFileCount

def tree (c : LogConfig) : Json :=
  .object [(ascii "cluster_size", .number (unsigned c.clusterSize.toNat)),
    (ascii "log_file_size", .number (unsigned c.logFileSize.toNat)),
    (ascii "log_file_count", .number (unsigned c.logFileCount.toNat))]

theorem configFormat_eq (c : LogConfig) : c.configFormat = c.tree.compact := by
  have h1 : ascii "\x7b\"cluster_size\":" =
      0x7B :: 0x22 :: (ascii "cluster_size" ++ [0x22, 0x3A]) := by decide
  have h2 : ascii ",\"log_file_size\":" =
      0x2C :: 0x22 :: (ascii "log_file_size" ++ [0x22, 0x3A]) := by decide
  have h3 : ascii ",\"log_file_count\":" =
      0x2C :: 0x22 :: (ascii "log_file_count" ++ [0x22, 0x3A]) := by decide
  have h4 : ascii "\x7d" = [0x7D] := by decide
  simp [configFormat, h1, h2, h3, h4, tree, Json.compact, Json.compactMembers]

theorem tree_lexical (c : LogConfig) : c.tree.Lexical :=
  ⟨Json.scanString_key rfl, Json.lexical_unsigned _, Json.scanString_key rfl,
    Json.lexical_unsigned _, Json.scanString_key rfl, Json.lexical_unsigned _, trivial⟩

theorem parse_configFormat (c : LogConfig) (rest : List UInt8) :
    Json.parse (c.configFormat ++ rest) = if rest.all Json.isWs then some c.tree else none := by
  rw [configFormat_eq]
  exact Json.parse_compact c.tree_lexical trivial

theorem length_configFormat (c : LogConfig) : c.configFormat.length ≤ bufferSize - 1 := by
  have h1 := length_unsigned_le_ten c.clusterSize.toNat_lt
  have h2 := length_unsigned_le_ten c.logFileSize.toNat_lt
  have h3 := length_unsigned_le_ten c.logFileCount.toNat_lt
  have h4 : (ascii "\x7b\"cluster_size\":").length = 16 := by decide
  have h5 : (ascii ",\"log_file_size\":").length = 17 := by decide
  have h6 : (ascii ",\"log_file_count\":").length = 18 := by decide
  have h7 : (ascii "\x7d").length = 1 := by decide
  simp only [configFormat, List.length_append, h4, h5, h6, h7, bufferSize]
  omega

theorem store_eq (c : LogConfig) (found : Option (List UInt8)) (dev : FatFsDevice) :
    c.store found dev = (.ok, some (overwrite found c.configFormat)) := by
  have hle := c.length_configFormat
  have hlen : ¬bufferSize ≤ c.configFormat.length := by
    unfold bufferSize at hle ⊢
    omega
  simp [store, hlen, FatFsDevice.written]

end LogConfig

namespace LogSettings

theorem limit_toNat (n : UInt32) : (limit n).toNat = min n.toNat 0x7FFFFFFF := by
  unfold limit
  split
  · next h =>
    rw [UInt32.lt_iff_toNat_lt] at h
    have h : 0x7FFFFFFF < n.toNat := h
    exact (Nat.min_eq_right (Nat.le_of_lt h)).symm
  · next h =>
    rw [UInt32.lt_iff_toNat_lt] at h
    have h : ¬0x7FFFFFFF < n.toNat := h
    exact (Nat.min_eq_left (Nat.not_lt.mp h)).symm

theorem limit_pos {n : UInt32} (h : 0 < n) : 0 < limit n := by
  rw [UInt32.lt_iff_toNat_lt, limit_toNat]
  rw [UInt32.lt_iff_toNat_lt] at h
  have h : 0 < n.toNat := h
  show 0 < min n.toNat 0x7FFFFFFF
  omega

@[simp] theorem limit_limit (n : UInt32) : limit (limit n) = limit n := by
  apply UInt32.toNat_inj.mp
  rw [limit_toNat, limit_toNat]
  omega

theorem convertToInteger_eq_limit (n val : UInt32) :
    convertToInteger (unsigned n.toNat) val = limit n := by
  have hsigned : unsigned n.toNat = signed n.toNat := rfl
  rw [hsigned, convertToInteger_signed]
  have hlt := n.toNat_lt
  apply UInt32.toNat_inj.mp
  rw [limit_toNat]
  by_cases hn : n.toNat < 0x80000000
  · rw [(ofInt_clamp_eq_iff n).mpr hn]
    omega
  · have hclamp : clamp longMin longMax n.toNat = longMax := by
      rw [clamp, if_neg (by unfold longMin; omega), if_pos (by unfold longMax; omega)]
    rw [hclamp]
    show 0x7FFFFFFF = min n.toNat 0x7FFFFFFF
    omega

theorem maxLogFileCount_pos (b : LogBuild) : 0 < b.maxLogFileCount := by
  unfold LogBuild.maxLogFileCount
  cases hn : b.fileCount with
  | none => decide
  | some n => exact b.fileCount_pos n hn

theorem positive_settle {b : LogBuild} {c : LogConfig} (h : c.Positive) :
    (settle b c).Positive := by
  have hcount := maxLogFileCount_pos b
  unfold settle LogBuild.fixCount
  split
  · exact ⟨limit_pos h.clusterSize, limit_pos h.logFileSize, hcount⟩
  · exact ⟨limit_pos h.clusterSize, limit_pos h.logFileSize, limit_pos h.logFileCount⟩

theorem settle_settle (b : LogBuild) (c : LogConfig) : settle b (settle b c) = settle b c := by
  unfold settle LogBuild.fixCount
  cases b.fileCount.isSome with
  | true => simp
  | false => simp

theorem settle_defaults (b : LogBuild) : settle b b.defaults = b.defaults := by
  unfold settle LogBuild.fixCount
  cases hn : b.fileCount with
  | none =>
    have hcount : b.defaults.logFileCount = 640 := by
      simp [LogBuild.defaults, LogBuild.maxLogFileCount, Logging.maxLogFileCount, hn]
    simp only [Option.isSome_none, Bool.false_eq_true, if_false, hcount]
    simp [LogBuild.defaults, LogBuild.maxLogFileCount, Logging.maxLogFileCount, hn]
    decide
  | some n =>
    simp [LogBuild.defaults]
    decide

end LogSettings

namespace LogConfig

variable {json : CoreJson} {c c' : LogConfig} {doc : List UInt8}

theorem positive_defaults (b : LogBuild) : b.defaults.Positive :=
  ⟨show (0 : UInt32) < 32768 by decide, show (0 : UInt32) < 10485760 by decide,
    LogSettings.maxLogFileCount_pos b⟩

theorem parseSetting_number (json : CoreJson) {key : String} {n : UInt32} (hn : 0 < n)
    (hvalue : json.getValue doc key = some (unsigned n.toNat))
    (set : LogConfig → UInt32 → LogConfig) (r : LogConfig × UInt32) :
    parseSetting json doc key set r = (set r.1 (LogSettings.limit n), LogSettings.limit n) := by
  have hlen : (unsigned n.toNat).length < 32 :=
    Nat.lt_of_le_of_lt (length_unsigned_le_ten n.toNat_lt) (by decide)
  unfold parseSetting
  rw [hvalue]
  dsimp only
  rw [if_pos hlen, LogSettings.convertToInteger_eq_limit, if_pos (LogSettings.limit_pos hn)]

theorem parse_tree (hjson : json.Documented) (hdoc : Json.parse doc = some c.tree) (h : c.Positive)
    (c' : LogConfig) : parse json doc c' =
      ({ clusterSize := LogSettings.limit c.clusterSize
         logFileSize := LogSettings.limit c.logFileSize
         logFileCount := LogSettings.limit c.logFileCount }, true) := by
  have hcluster := hjson.getValue hdoc "cluster_size" [ascii "cluster_size"] (by decide) (by decide)
    rfl rfl
  have hsize := hjson.getValue hdoc "log_file_size" [ascii "log_file_size"] (by decide) (by decide)
    rfl rfl
  have hcount := hjson.getValue hdoc "log_file_count" [ascii "log_file_count"] (by decide)
    (by decide) rfl rfl
  unfold parse
  rw [if_pos (hjson.validate_some hdoc)]
  dsimp only
  rw [parseSetting_number json h.clusterSize hcluster, parseSetting_number json h.logFileSize hsize,
    parseSetting_number json h.logFileCount hcount]

structure Reads (data : List UInt8) (c : LogConfig) : Prop where
  nonempty : data ≠ []
  parse : Json.parse (data.take (bufferSize - 1)) = some c.tree
  positive : c.Positive

theorem load_reads {data : List UInt8} (hjson : json.Documented) (h : Reads data c)
    (dev : FatFsDevice) (c' : LogConfig) : load json (some data) dev c' =
      ({ clusterSize := LogSettings.limit c.clusterSize
         logFileSize := LogSettings.limit c.logFileSize
         logFileCount := LogSettings.limit c.logFileCount }, true) := by
  have hsize : ¬(FatFsDevice.reading data).getFileSize = 0 :=
    fun hzero => h.nonempty (List.eq_nil_of_length_eq_zero hzero)
  have hread : load json (some data) dev c' = parse json (data.take (bufferSize - 1)) c' := by
    rw [load, FatFsDevice.openFileForRead_success]
    simp [read, hsize, FatFsDevice.readFile_reading]
  rw [hread]
  exact parse_tree hjson h.parse h.positive c'

theorem load_none (json : CoreJson) (dev : FatFsDevice) (c : LogConfig) :
    load json none dev c = (c, false) := rfl

theorem Reads.overwrite {found : Option (List UInt8)} (h : c.Positive)
    (hblank : Blank found c.configFormat.length (bufferSize - 1)) :
    Reads (overwrite found c.configFormat) c :=
  ⟨nofun, parse_overwrite c.parse_configFormat c.length_configFormat hblank, h⟩

theorem scale_pos {n k : UInt32} (hn : 0 < n) (hle : n.toNat * k.toNat < 4294967296) (hk : 0 < k) :
    0 < n * k := by
  rw [UInt32.lt_iff_toNat_lt] at hn hk ⊢
  rw [UInt32.toNat_mul, Nat.mod_eq_of_lt hle]
  exact Nat.mul_pos hn hk

theorem positive_config (b : LogBuild) (q : CtrlQuery) : (q.config b).Positive := by
  refine ⟨?_, ?_, ?_⟩
  · show 0 < (if 0 < q.clusterKb ∧ q.clusterKb ≤ 0xFFFFFFFF / 1024 then q.clusterKb * 1024
      else LogBuild.clusterSize)
    split
    · next h =>
      have hle : q.clusterKb.toNat ≤ 4194303 := UInt32.le_iff_toNat_le.mp h.2
      have hk : (1024 : UInt32).toNat = 1024 := rfl
      exact scale_pos h.1 (by rw [hk]; omega) (by decide)
    · decide
  · show 0 < (if 0 < q.fileSizeMb ∧ q.fileSizeMb ≤ 0xFFFFFFFF / (1024 * 1024) then
      q.fileSizeMb * 1024 * 1024 else Logging.maxLogFileSize)
    split
    · next h =>
      have hle : q.fileSizeMb.toNat ≤ 4095 := UInt32.le_iff_toNat_le.mp h.2
      have hk : (1024 * 1024 : UInt32).toNat = 1048576 := rfl
      rw [UInt32.mul_assoc]
      exact scale_pos h.1 (by rw [hk]; omega) (by decide)
    · decide
  · show 0 < (if 0 < q.fileCount then q.fileCount else b.maxLogFileCount)
    split
    · next h => exact h
    · exact LogSettings.maxLogFileCount_pos b

theorem positive_handler {b : LogBuild} {iIndex : Nat} {params : List (String × String)}
    (h : appCtrlCgiHandler b iIndex params = some c) : c.Positive := by
  unfold appCtrlCgiHandler at h
  split at h
  · dsimp only at h
    split at h
    · cases h
      exact positive_config b _
    · cases h
  · cases h

end LogConfig

namespace LogStore

variable {json : CoreJson} {b : LogBuild} {dev : FatFsDevice} {s t : LogStore} {a : LogSettings}
  {e : LogStoreEvent}

def Awaits (found : Option (List UInt8)) : Option LogConfig → Prop
  | none => found = none
  | some c => ∃ data, found = some data ∧ LogConfig.Reads data c

structure Unused (s : LogStore) (a : LogSettings) : Prop where
  card : s.card = if a.blank then none else some .empty
  mountRes : s.mountRes ≠ .ok
  pending : a.pending = none

structure Used (s : LogStore) (a : LogSettings) : Prop where
  blank : a.blank = false
  mountRes : s.mountRes = .ok
  card : ∃ v, s.card = some v ∧ v.logConfig = some a.current.configFormat ∧
    Awaits v.formatRequest a.pending

structure Shows (b : LogBuild) (s : LogStore) (a : LogSettings) : Prop where
  config : s.config = a.current
  erases : s.erases = a.formats
  positive : a.current.Positive
  settled : LogSettings.settle b a.current = a.current
  files : if a.booted then s.Used a else s.Unused a ∧ a.current = b.defaults

/-- The card answers, and no request is shorter than one that still waits. -/
def Careful (b : LogBuild) (s : LogStore) : LogStoreEvent → Prop
  | .boot r => r.mount = .ok ∧ r.erase = true ∧ r.format.formatFat32 = .ok ∧ r.remount = .ok
  | .request iIndex params => ∀ c, appCtrlCgiHandler b iIndex params = some c →
    Blank (s.card.getD .empty).formatRequest c.configFormat.length (LogConfig.bufferSize - 1)

theorem start_shows (b : LogBuild) (blank : Bool) :
    (start b (if blank then none else some .empty)).Shows b (.start b blank) :=
  ⟨rfl, rfl, LogConfig.positive_defaults b, LogSettings.settle_defaults b, ⟨rfl, nofun, rfl⟩, rfl⟩

theorem setConfig_of_positive {c : LogConfig} (h : c.Positive) : b.setConfig c = c := by
  have hne : ∀ n : UInt32, 0 < n → ¬n = 0 := by
    rintro n hn rfl
    exact absurd hn (by decide)
  cases c
  simp [LogBuild.setConfig, hne _ h.clusterSize, hne _ h.logFileSize, hne _ h.logFileCount]

theorem readFiles_empty : readFiles json b dev .empty = (b.defaults, false) := by
  have hfix : b.fixCount b.defaults = b.defaults := by
    unfold LogBuild.fixCount
    split <;> rfl
  show (b.fixCount b.defaults, false) = (b.defaults, false)
  rw [hfix]

theorem readFiles_logConfig (hjson : json.Documented) {c : LogConfig} {data : List UInt8}
    (h : LogConfig.Reads data c) :
    readFiles json b dev { logConfig := some data, formatRequest := none } =
      (LogSettings.settle b c, true) := by
  unfold readFiles
  dsimp only
  rw [LogConfig.load_reads hjson h, LogConfig.load_none]
  rfl

theorem readFiles_formatRequest (b : LogBuild) (dev : FatFsDevice) (hjson : json.Documented) {c : LogConfig} {data : List UInt8}
    (h : LogConfig.Reads data c) (v : Option (List UInt8)) :
    (readFiles json b dev { logConfig := v, formatRequest := some data }).1 =
      LogSettings.settle b c := by
  unfold readFiles
  dsimp only
  rw [LogConfig.load_reads hjson h]
  rfl

theorem overwrite_none (doc : List UInt8) : overwrite none doc = doc := by
  simp [overwrite]

theorem format_success {r : BootAnswers} (he : r.erase = true) (hf : r.format.formatFat32 = .ok)
    (hr : r.remount = .ok) (c : LogConfig) : s.format dev r c =
      { card := some { logConfig := some c.configFormat, formatRequest := none }
        mountRes := .ok
        config := s.config
        erases := s.erases + 1 } := by
  simp [format, he, hf, hr, mount, storeLogConfig, LogConfig.store_eq, LogVolume.empty,
    overwrite_none]

theorem reads_configFormat {c : LogConfig} (h : c.Positive) : LogConfig.Reads c.configFormat c := by
  have hblank : Blank none c.configFormat.length (LogConfig.bufferSize - 1) :=
    .of_length_le (Nat.zero_le _) _
  simpa only [overwrite_none] using LogConfig.Reads.overwrite h hblank

theorem boot_unused (hS : s.Unused a) {r : BootAnswers}
    (hc : Careful b s (.boot r)) : (s.mount r.mount).handleFormattingRequest json b dev r =
      { card := some { logConfig := some b.defaults.configFormat, formatRequest := none }
        mountRes := .ok
        config := b.defaults
        erases := s.erases + a.blank.toNat } := by
  obtain ⟨hm, he, hf, hr⟩ := hc
  have hset := setConfig_of_positive (b := b) (LogConfig.positive_defaults b)
  have hcard := hS.card
  cases hblank : a.blank with
  | true =>
    rw [hblank, if_pos rfl] at hcard
    have hmount : s.mount r.mount = { s with mountRes := .noFilesystem } := by
      simp [mount, hcard, hm]
    have hvolume : ({ s with mountRes := .noFilesystem } : LogStore).volume = .empty := rfl
    rw [hmount, handleFormattingRequest, hvolume, readFiles_empty]
    dsimp only
    rw [if_pos (.inr rfl), format_success he hf hr, hset]
    rfl
  | false =>
    rw [hblank, if_neg (by decide)] at hcard
    have hmount : s.mount r.mount = { s with mountRes := .ok } := by simp [mount, hcard, hm]
    have hvolume : ({ s with mountRes := .ok } : LogStore).volume = .empty := by
      simp [volume, hcard]
    rw [hmount, handleFormattingRequest, hvolume, readFiles_empty]
    dsimp only
    rw [if_neg (by simp [LogVolume.empty]), if_pos rfl, hset]
    simp [storeLogConfig, hcard, LogConfig.store_eq, LogVolume.empty, overwrite_none]

theorem mount_used (hS : s.Used a) {r : BootAnswers} (hm : r.mount = .ok) :
    s.mount r.mount = s := by
  obtain ⟨v, hv, -⟩ := hS.card
  have hres := hS.mountRes
  cases s
  simp_all [mount]

theorem boot_used (hjson : json.Documented) (hS : s.Shows b a) (hU : s.Used a)
    (hp : a.pending = none) {r : BootAnswers} (hc : Careful b s (.boot r)) :
    (s.mount r.mount).handleFormattingRequest json b dev r = s := by
  obtain ⟨v, hcard, hlog, hawaits⟩ := hU.card
  rw [hp] at hawaits
  have hvolume :
      s.volume = { logConfig := some a.current.configFormat, formatRequest := none } := by
    rw [volume, if_pos hU.mountRes, hcard, Option.getD_some, ← hlog]
    show v = { logConfig := v.logConfig, formatRequest := none }
    rw [← (show v.formatRequest = none from hawaits)]
  rw [mount_used hU hc.1, handleFormattingRequest, hvolume,
    readFiles_logConfig hjson (reads_configFormat hS.positive), hS.settled]
  have hres : ¬s.mountRes = .noFilesystem := by
    rw [hU.mountRes]
    decide
  dsimp only
  rw [setConfig_of_positive hS.positive, ← hS.config, if_neg (by simpa using hres)]
  rfl

theorem boot_request (hjson : json.Documented) (hU : s.Used a) {c : LogConfig}
    (hp : a.pending = some c) {r : BootAnswers} (hc : Careful b s (.boot r)) :
    (s.mount r.mount).handleFormattingRequest json b dev r =
      { card := some
          { logConfig := some (LogSettings.settle b c).configFormat, formatRequest := none }
        mountRes := .ok
        config := LogSettings.settle b c
        erases := s.erases + 1 } := by
  obtain ⟨hm, he, hf, hr⟩ := hc
  obtain ⟨v, hcard, -, hawaits⟩ := hU.card
  rw [hp] at hawaits
  obtain ⟨data, hdata, hreads⟩ := hawaits
  have hvolume : s.volume = { logConfig := v.logConfig, formatRequest := some data } := by
    rw [volume, if_pos hU.mountRes, hcard, Option.getD_some, ← hdata]
  have hread := readFiles_formatRequest b dev hjson hreads v.logConfig
  rw [mount_used hU hm, handleFormattingRequest, hvolume]
  dsimp only
  rw [if_pos (.inl rfl), format_success he hf hr, hread,
    setConfig_of_positive (LogSettings.positive_settle hreads.positive)]

theorem shows_booted {c : LogConfig} {n : Nat} (hc : c.Positive) (hs : LogSettings.settle b c = c) :
    Shows b
      { card := some { logConfig := some c.configFormat, formatRequest := none }
        mountRes := .ok
        config := c
        erases := n }
      { booted := true, blank := false, current := c, pending := none, formats := n } :=
  ⟨rfl, rfl, hc, hs, ⟨rfl, rfl, _, rfl, rfl, rfl⟩⟩

theorem boot_shows (hjson : json.Documented) (h : s.Shows b a) {r : BootAnswers}
    (hc : Careful b s (.boot r)) :
    ((s.mount r.mount).handleFormattingRequest json b dev r).Shows b (a.boot b) := by
  have hfiles := h.files
  cases hbooted : a.booted with
  | false =>
    rw [hbooted, if_neg (by decide)] at hfiles
    obtain ⟨hU, hcurrent⟩ := hfiles
    have ha : a.boot b =
        { booted := true
          blank := false
          current := b.defaults
          pending := none
          formats := s.erases + a.blank.toNat } := by
      rw [LogSettings.boot, hU.pending, h.erases, ← hcurrent]
    rw [boot_unused hU hc, ha]
    exact shows_booted (LogConfig.positive_defaults b) (LogSettings.settle_defaults b)
  | true =>
    rw [hbooted, if_pos rfl] at hfiles
    cases hp : a.pending with
    | none =>
      have ha : a.boot b = a := by
        obtain ⟨booted, blank, current, pending, formats⟩ := a
        have hblank : blank = false := hfiles.blank
        simp_all [LogSettings.boot]
      rw [boot_used hjson h hfiles hp hc, ha]
      exact h
    | some c =>
      have ha : a.boot b =
          { booted := true
            blank := false
            current := LogSettings.settle b c
            pending := none
            formats := s.erases + 1 } := by
        rw [LogSettings.boot, hp, h.erases, ← hbooted, ← hfiles.blank]
      obtain ⟨v, -, -, hawaits⟩ := hfiles.card
      rw [hp] at hawaits
      obtain ⟨data, -, hreads⟩ := hawaits
      rw [boot_request hjson hfiles hp hc, ha]
      exact shows_booted (LogSettings.positive_settle hreads.positive)
        (LogSettings.settle_settle b c)

theorem request_shows (h : s.Shows b a) {c : LogConfig} (hpos : c.Positive)
    (hblank : Blank (s.card.getD .empty).formatRequest c.configFormat.length
      (LogConfig.bufferSize - 1)) :
    (s.formattingRequest dev c).Shows b (a.request c) := by
  have hfiles := h.files
  cases hbooted : a.booted with
  | false =>
    rw [hbooted, if_neg (by decide)] at hfiles
    have hs : s.formattingRequest dev c = s := by
      rw [formattingRequest, if_neg hfiles.1.mountRes]
    have ha : a.request c = a := by
      rw [LogSettings.request, hbooted, if_neg (by decide)]
    rw [hs, ha]
    exact h
  | true =>
    rw [hbooted, if_pos rfl] at hfiles
    obtain ⟨v, hcard, hlog, -⟩ := hfiles.card
    have ha : a.request c = { a with pending := some c } := by
      rw [LogSettings.request, hbooted, if_pos rfl]
    have hs : s.formattingRequest dev c =
        { s with
          card := some
            { v with formatRequest := some (overwrite v.formatRequest c.configFormat) } } := by
      rw [formattingRequest, if_pos hfiles.mountRes, hcard, Option.map_some, LogConfig.store_eq]
    rw [hcard] at hblank
    have hreads := LogConfig.Reads.overwrite hpos hblank
    rw [hs, ha]
    refine ⟨h.config, h.erases, h.positive, h.settled, ?_⟩
    rw [if_pos hbooted]
    exact ⟨hfiles.blank, hfiles.mountRes, _, rfl, hlog, _, rfl, hreads⟩

theorem step_shows (hjson : json.Documented) (h : s.Shows b a) (hc : Careful b s e)
    (hstep : step json b dev s e = some t) : t.Shows b (a.next b e) := by
  cases e with
  | boot r =>
    cases hstep
    exact boot_shows hjson h hc
  | request iIndex params =>
    simp only [step] at hstep
    simp only [LogSettings.next]
    cases hq : appCtrlCgiHandler b iIndex params with
    | none =>
      rw [hq] at hstep
      cases hstep
      exact h
    | some c =>
      rw [hq] at hstep
      cases hstep
      exact request_shows h (LogConfig.positive_handler hq) (hc c hq)

/-- The settings in force are those of the last request that a start has carried out, and the card
keeps them. -/
theorem settings_follow (json : CoreJson) (b : LogBuild) (dev : FatFsDevice) (s : LogStore)
    (blank : Bool) (es : List LogStoreEvent) (hjson : json.Documented)
    (hc : Step.Along (step json b dev) (Careful b)
      (start b (if blank then none else some .empty)) es)
    (hrun : Step.run (step json b dev)
      (start b (if blank then none else some .empty)) es = some s) :
    let a := es.foldl (LogSettings.next b) (.start b blank)
    s.config = a.current ∧ s.erases = a.formats ∧
      (a.booted → s.volume.logConfig = some s.config.configFormat ∧
        (s.volume.formatRequest = none ↔ a.pending = none)) := by
  intro a
  have h : s.Shows b a :=
    Step.run_foldl_along (fun h hc hstep => step_shows hjson h hc hstep) (start_shows b blank) hc
      hrun
  refine ⟨h.config, h.erases, fun hbooted => ?_⟩
  have hfiles := h.files
  rw [if_pos hbooted] at hfiles
  obtain ⟨v, hcard, hlog, hawaits⟩ := hfiles.card
  have hvolume : s.volume = v := by rw [volume, if_pos hfiles.mountRes, hcard, Option.getD_some]
  rw [hvolume, h.config]
  refine ⟨hlog, ?_⟩
  cases hp : a.pending with
  | none =>
    rw [hp] at hawaits
    exact ⟨fun _ => rfl, fun _ => hawaits⟩
  | some c =>
    rw [hp] at hawaits
    obtain ⟨data, hdata, -⟩ := hawaits
    exact ⟨fun hnone => absurd (hdata.symm.trans hnone) nofun, nofun⟩

def goodAnswers : BootAnswers where
  mount := .ok
  erase := true
  format := { mkfs := .ok, readOk := true, signature := true, fdisk := .ok, again := .ok }
  remount := .ok
  left := none

def clusterEvents : List LogStoreEvent :=
  [.boot goodAnswers, .request 0 [("cluster_kb", "64"), ("action", "Format")], .boot goodAnswers]

theorem settings_follow_clusters :
    ∃ s, Step.run (step .reference ⟨none, nofun⟩ .opened) (start ⟨none, nofun⟩ none) clusterEvents =
        some s ∧
      s.config = { clusterSize := 65536, logFileSize := 10485760, logFileCount := 640 } ∧
      s.erases = 2 := by
  have hgood (s : LogStore) : Careful ⟨none, nofun⟩ s (.boot goodAnswers) := ⟨rfl, rfl, rfl, rfl⟩
  have hc : Step.Along (step .reference ⟨none, nofun⟩ .opened) (Careful ⟨none, nofun⟩)
      (start ⟨none, nofun⟩ none) clusterEvents := by
    refine ⟨hgood _, fun t ht => ?_⟩
    cases ht
    exact ⟨fun c _ => Blank.of_length_le (Nat.zero_le _) _,
      fun u _ => ⟨hgood u, fun _ _ => trivial⟩⟩
  obtain ⟨s, hs⟩ := Option.isSome_iff_exists.mp
    (show (Step.run (step .reference ⟨none, nofun⟩ .opened) (start ⟨none, nofun⟩ none)
      clusterEvents).isSome = true from rfl)
  obtain ⟨hconfig, herases, -⟩ := settings_follow .reference ⟨none, nofun⟩ .opened s true
    clusterEvents CoreJson.reference_documented hc hs
  exact ⟨s, hs, hconfig, herases⟩

end LogStore

end CanSniffer.App
