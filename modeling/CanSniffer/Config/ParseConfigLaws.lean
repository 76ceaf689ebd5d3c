import CanSniffer.Config.IpScanLaws

namespace CanSniffer.Config

open Lib Decimal Storage

def IsWord (text : List UInt8) (n : UInt32) : Prop := IsInteger text n.toNat

def IsByte (text : List UInt8) (n : UInt8) : Prop := IsInteger text n.toNat

section Convert

variable {text : List UInt8}

theorem convertToInteger_word_iff {n : UInt32} (h : IsWord text n) (val : UInt32) :
    convertToInteger text val = n ↔ n.toNat < 0x80000000 := by
  rw [convertToInteger_integer h, ofInt_clamp_eq_iff]

theorem convertToInteger_byte {n : UInt8} (h : IsByte text n) (val : UInt32) :
    (convertToInteger text val).toUInt8 = n := by
  have hlt : n.toUInt32.toNat < 0x80000000 := by
    rw [UInt8.toNat_toUInt32]
    exact Nat.lt_trans n.toNat_lt (by decide)
  have hword : IsWord text n.toUInt32 := by
    rw [IsWord, UInt8.toNat_toUInt32]
    exact h
  rw [(convertToInteger_word_iff hword val).mpr hlt, UInt8.toUInt8_toUInt32]

theorem length_of_isDotted {addr : IpAddress} (h : IsDotted text addr) : text.length ≤ 255 := by
  obtain ⟨g0, g1, g2, g3, hsplit, h0, h1, h2, h3⟩ := h
  have hl0 := h0.length
  have hl1 := h1.length
  have hl2 := h2.length
  have hl3 := h3.length
  have htext : [0x2E].intercalate (text.splitOn 0x2E) = text := List.intercalate_splitOn 0x2E
  rw [← htext, hsplit]
  simp [List.intercalate]
  omega

end Convert

section

variable (json : CoreJson) (stack : ParseStack) (buffer : List UInt8) (cfg : AppConfig)

def Gives (key : String) {α : Type} (stands : List UInt8 → α → Prop) (v : α) : Prop :=
  ∃ text, json.getValue buffer key = some text ∧ stands text v

def readNumber (key : String) (val : UInt32) : UInt32 :=
  match json.getValue buffer key with
  | some text => convertToInteger text val
  | none => val

def readField {α : Type} (key : String) (val : UInt32) (store : UInt32 → α) (old : α) : α :=
  match json.getValue buffer key with
  | some text => store (convertToInteger text val)
  | none => old

structure AllValid : Prop where
  baudrate1 : ∃ n, Gives json buffer "CAN1.Baudrate" IsWord n
  mode1 : ∃ n, Gives json buffer "CAN1.Mode" IsByte n
  baudrate2 : ∃ n, Gives json buffer "CAN2.Baudrate" IsWord n
  mode2 : ∃ n, Gives json buffer "CAN2.Mode" IsByte n
  ip : ∃ addr, Gives json buffer "HTTP.IP" IsDotted addr

structure FieldSound {α : Type} (given : α → Prop) (old new : α) : Prop where
  set : ∀ v, given v → new = v
  kept : (¬∃ v, given v) → new = old

structure ParseResultSound (r : AppConfig × Bool) : Prop where
  baudrate1 : FieldSound (Gives json buffer "CAN1.Baudrate" IsWord) cfg.can1.baudrate
    r.1.can1.baudrate
  mode1 : FieldSound (Gives json buffer "CAN1.Mode" IsByte) cfg.can1.mode r.1.can1.mode
  baudrate2 : FieldSound (Gives json buffer "CAN2.Baudrate" IsWord) cfg.can2.baudrate
    r.1.can2.baudrate
  mode2 : FieldSound (Gives json buffer "CAN2.Mode" IsByte) cfg.can2.mode r.1.can2.mode
  ip : FieldSound (Gives json buffer "HTTP.IP" IsDotted) cfg.ip r.1.ip
  updated : r.1.updated = cfg.updated
  ok : r.2 = true ↔ AllValid json buffer
  notOk : r.2 = false → r.1 = cfg
  stores : ∀ i ∈ tmpBufStores json buffer, i < tmpBufSize

def ParseSound : Prop :=
  json.validate buffer = true →
    ParseResultSound json buffer cfg (parseConfig json stack buffer cfg)

structure Repeats : Prop where
  baudrate1 : readField json buffer "CAN1.Baudrate" stack.baudrate id cfg.can1.baudrate =
    cfg.can1.baudrate
  mode1 : readField json buffer "CAN1.Mode" stack.mode UInt32.toUInt8 cfg.can1.mode = cfg.can1.mode
  baudrate2 : readField json buffer "CAN2.Baudrate"
    (readNumber json buffer "CAN1.Baudrate" stack.baudrate) id cfg.can2.baudrate =
    cfg.can2.baudrate
  mode2 : readField json buffer "CAN2.Mode" (readNumber json buffer "CAN1.Mode" stack.mode)
    UInt32.toUInt8 cfg.can2.mode = cfg.can2.mode

/-- The numbers fit the buffer and a `long`, and the document is complete, or it lacks the address
and says nothing new. -/
structure ParseClean : Prop where
  fits : ∀ key ∈ numberKeys, ∀ text, json.getValue buffer key = some text →
    text.length < tmpBufSize
  baudrate1 : ∀ n, Gives json buffer "CAN1.Baudrate" IsWord n → n.toNat < 0x80000000
  baudrate2 : ∀ n, Gives json buffer "CAN2.Baudrate" IsWord n → n.toNat < 0x80000000
  complete : AllValid json buffer ∨
    json.getValue buffer "HTTP.IP" = none ∧ Repeats json stack buffer cfg

variable {json stack buffer cfg}

theorem stores_iff (hvalid : json.validate buffer = true) :
    (∀ i ∈ tmpBufStores json buffer, i < tmpBufSize) ↔
      ∀ key ∈ numberKeys, ∀ text, json.getValue buffer key = some text →
        text.length < tmpBufSize := by
  rw [tmpBufStores, if_pos hvalid]
  simp only [List.mem_flatMap]
  constructor
  · intro h key hkey text htext
    refine h text.length ⟨key, hkey, ?_⟩
    rw [htext]
    simp
  · rintro h i ⟨key, hkey, hi⟩
    split at hi
    · next text htext =>
      have hlt := h key hkey text htext
      simp only [List.mem_append, List.mem_range, List.mem_singleton] at hi
      omega
    · cases hi

theorem setIp_eq (cfg : AppConfig) (ip : Option IpAddress) :
    cfg.setIp ip = { cfg with ip := ip.getD cfg.ip } := by
  cases ip <;> rfl

theorem parseNumber_eq {α : Type} (put : α → AppConfig) (store : UInt32 → α) {old : α}
    {set : UInt32 → AppConfig} (hset : ∀ n, set n = put (store n)) (hold : put old = cfg)
    (key : String) (val : UInt32) :
    parseNumber json buffer key val set cfg =
      (readNumber json buffer key val, put (readField json buffer key val store old)) := by
  unfold parseNumber readField readNumber
  cases json.getValue buffer key with
  | none => exact Prod.ext rfl hold.symm
  | some text => exact Prod.ext rfl (hset _)

theorem parseNumber_setBaudrate1 (key : String) (val : UInt32) (cfg : AppConfig) :
    parseNumber json buffer key val cfg.setBaudrate1 cfg = (readNumber json buffer key val,
      cfg.setBaudrate1 (readField json buffer key val id cfg.can1.baudrate)) :=
  parseNumber_eq cfg.setBaudrate1 id (fun _ => rfl) rfl key val

theorem parseNumber_setMode1 (key : String) (val : UInt32) (cfg : AppConfig) :
    parseNumber json buffer key val cfg.setMode1 cfg = (readNumber json buffer key val,
      { cfg with can1.mode := readField json buffer key val UInt32.toUInt8 cfg.can1.mode }) :=
  parseNumber_eq (fun mode => { cfg with can1.mode := mode }) _ (fun _ => rfl) rfl key val

theorem parseNumber_setBaudrate2 (key : String) (val : UInt32) (cfg : AppConfig) :
    parseNumber json buffer key val cfg.setBaudrate2 cfg = (readNumber json buffer key val,
      cfg.setBaudrate2 (readField json buffer key val id cfg.can2.baudrate)) :=
  parseNumber_eq cfg.setBaudrate2 id (fun _ => rfl) rfl key val

theorem parseNumber_setMode2 (key : String) (val : UInt32) (cfg : AppConfig) :
    parseNumber json buffer key val cfg.setMode2 cfg = (readNumber json buffer key val,
      { cfg with can2.mode := readField json buffer key val UInt32.toUInt8 cfg.can2.mode }) :=
  parseNumber_eq (fun mode => { cfg with can2.mode := mode }) _ (fun _ => rfl) rfl key val

theorem parseConfig_of_valid (hvalid : json.validate buffer = true) :
    parseConfig json stack buffer cfg =
      ({ cfg with
          can1 := { cfg.can1 with
            baudrate :=
              readField json buffer "CAN1.Baudrate" stack.baudrate id cfg.can1.baudrate
            mode := readField json buffer "CAN1.Mode" stack.mode UInt32.toUInt8 cfg.can1.mode }
          can2 := { cfg.can2 with
            baudrate := readField json buffer "CAN2.Baudrate"
              (readNumber json buffer "CAN1.Baudrate" stack.baudrate) id cfg.can2.baudrate
            mode := readField json buffer "CAN2.Mode"
              (readNumber json buffer "CAN1.Mode" stack.mode) UInt32.toUInt8 cfg.can2.mode }
          ip := ((json.getValue buffer "HTTP.IP").bind fun text =>
            ipStringToIntArray text (UInt8.ofNat text.length)).getD cfg.ip },
        (json.getValue buffer "HTTP.IP").isSome) := by
  rw [parseConfig, if_pos hvalid]
  simp only [parseNumber_setBaudrate1, parseNumber_setMode1, parseNumber_setBaudrate2,
    parseNumber_setMode2]
  cases json.getValue buffer "HTTP.IP" with
  | none => rfl
  | some text => exact Prod.ext (setIp_eq _ _) rfl

theorem readField_of_some {α : Type} {key : String} {text : List UInt8}
    (htext : json.getValue buffer key = some text) (val : UInt32) (store : UInt32 → α) (old : α) :
    readField json buffer key val store old = store (convertToInteger text val) := by
  rw [readField, htext]

theorem readField_word_iff {key : String} {n : UInt32} (h : Gives json buffer key IsWord n)
    (val old : UInt32) : readField json buffer key val id old = n ↔ n.toNat < 0x80000000 := by
  obtain ⟨text, htext, hword⟩ := h
  rw [readField_of_some htext, id, convertToInteger_word_iff hword]

theorem readField_byte {key : String} {n : UInt8} (h : Gives json buffer key IsByte n)
    (val : UInt32) (old : UInt8) :
    readField json buffer key val UInt32.toUInt8 old = n := by
  obtain ⟨text, htext, hbyte⟩ := h
  rw [readField_of_some htext, convertToInteger_byte hbyte]

theorem ip_of_gives {addr : IpAddress} (h : Gives json buffer "HTTP.IP" IsDotted addr) :
    ((json.getValue buffer "HTTP.IP").bind fun text =>
      ipStringToIntArray text (UInt8.ofNat text.length)).getD cfg.ip = addr := by
  obtain ⟨text, htext, hdotted⟩ := h
  rw [htext, Option.bind_some,
    (ipStringToIntArray_eq_some_iff (length_of_isDotted hdotted)).mpr hdotted, Option.getD_some]

theorem ParseClean.of_sound (hvalid : json.validate buffer = true)
    (h : ParseResultSound json buffer cfg (parseConfig json stack buffer cfg)) :
    ParseClean json stack buffer cfg := by
  rw [parseConfig_of_valid hvalid] at h
  refine ⟨(stores_iff hvalid).mp h.stores, fun n hn => ?_, fun n hn => ?_, ?_⟩
  · exact (readField_word_iff hn _ _).mp (h.baudrate1.set n hn)
  · exact (readField_word_iff hn _ _).mp (h.baudrate2.set n hn)
  · by_cases hall : AllValid json buffer
    · exact .inl hall
    · have hnot : (json.getValue buffer "HTTP.IP").isSome = false :=
        Bool.eq_false_iff.mpr (h.ok.not.mpr hall)
      have hsame := h.notOk hnot
      refine .inr ⟨by simpa using hnot, ?_, ?_, ?_, ?_⟩
      · exact congrArg (fun c : AppConfig => c.can1.baudrate) hsame
      · exact congrArg (fun c : AppConfig => c.can1.mode) hsame
      · exact congrArg (fun c : AppConfig => c.can2.baudrate) hsame
      · exact congrArg (fun c : AppConfig => c.can2.mode) hsame

theorem fieldSound_of {α : Type} {given : α → Prop} {old new : α}
    (hset : ∀ v, given v → new = v) (hkept : (∃ v, given v) ∨ new = old) :
    FieldSound given old new where
  set := hset
  kept hnone := hkept.resolve_left hnone

theorem ParseClean.sound (h : ParseClean json stack buffer cfg)
    (hvalid : json.validate buffer = true) :
    ParseResultSound json buffer cfg (parseConfig json stack buffer cfg) := by
  rw [parseConfig_of_valid hvalid]
  refine ⟨fieldSound_of (fun n hn => (readField_word_iff hn _ _).mpr (h.baudrate1 n hn)) ?_,
    fieldSound_of (fun n hn => readField_byte hn _ _) ?_,
    fieldSound_of (fun n hn => (readField_word_iff hn _ _).mpr (h.baudrate2 n hn)) ?_,
    fieldSound_of (fun n hn => readField_byte hn _ _) ?_,
    fieldSound_of (fun addr haddr => ip_of_gives haddr) ?_, rfl, ?_, ?_,
    (stores_iff hvalid).mpr h.fits⟩
  · exact h.complete.imp AllValid.baudrate1 fun hr => hr.2.baudrate1
  · exact h.complete.imp AllValid.mode1 fun hr => hr.2.mode1
  · exact h.complete.imp AllValid.baudrate2 fun hr => hr.2.baudrate2
  · exact h.complete.imp AllValid.mode2 fun hr => hr.2.mode2
  · refine h.complete.imp AllValid.ip fun hr => ?_
    simp [hr.1]
  · rcases h.complete with hall | ⟨hnone, -⟩
    · obtain ⟨_, text, htext, -⟩ := hall.ip
      exact iff_of_true (by simp [htext]) hall
    · refine iff_of_false (by simp [hnone]) fun hall => ?_
      obtain ⟨_, text, htext, -⟩ := hall.ip
      rw [hnone] at htext
      cases htext
  · intro hnot
    have hnone : json.getValue buffer "HTTP.IP" = none := by simpa using hnot
    rcases h.complete with hall | ⟨-, hrepeats⟩
    · obtain ⟨_, text, htext, -⟩ := hall.ip
      rw [hnone] at htext
      cases htext
    · simp only [hrepeats.baudrate1, hrepeats.mode1, hrepeats.baudrate2, hrepeats.mode2, hnone]
      rfl

end

/-- The parser keeps its promise for a valid document if and only if the numbers fit its buffer and
a `long`, and either all five values are there and valid or the address is missing and no number
says anything new. -/
theorem parseConfig_sound_iff (json : CoreJson) (stack : ParseStack) (buffer : List UInt8)
    (cfg : AppConfig) :
    ParseSound json stack buffer cfg ↔
      (json.validate buffer = true → ParseClean json stack buffer cfg) :=
  forall_congr' fun hvalid => ⟨ParseClean.of_sound hvalid, fun h => h.sound hvalid⟩

def oneKeyDocument : List UInt8 := ascii "\x7b\"HTTP\":\x7b\"IP\":\"x\"\x7d\x7d"

/-- An address that is none, and nothing else, is parsed with success. -/
theorem parseConfig_unsound :
    ¬ ∀ (json : CoreJson), json.Documented → ∀ stack buffer cfg,
      ParseSound json stack buffer cfg := by
  intro hsound
  have hvalid : CoreJson.reference.validate oneKeyDocument = true := by decide +kernel
  have hip : (CoreJson.reference.getValue oneKeyDocument "HTTP.IP").isSome = true := by
    decide +kernel
  have hbaudrate : CoreJson.reference.getValue oneKeyDocument "CAN1.Baudrate" = none := by
    decide +kernel
  have hok := (hsound .reference CoreJson.reference_documented ⟨0, 0⟩ oneKeyDocument
    ⟨⟨false, ⟨0, 0⟩, ⟨0, 0⟩⟩, ⟨0, 0, 0, 0⟩⟩ hvalid).ok
  rw [parseConfig_of_valid hvalid] at hok
  obtain ⟨n, text, htext, -⟩ := (hok.mp hip).baudrate1
  rw [hbaudrate] at htext
  cases htext

end CanSniffer.Config
