import CanSniffer.Config.ConfigManager
import CanSniffer.Config.SettingsHandlerLaws

namespace CanSniffer.Config.ConfigManager

open Lib Storage

variable {m : ConfigManager}

def Ready (m : ConfigManager) : Prop := m.mountRes = true ∧ m.initialized = true

theorem saveRaw_of_ready (found : Option (List UInt8)) {data : List UInt8} (h : m.Ready)
    (hdata : data ≠ []) :
    (m.saveRaw found data).1.Ready ∧
      (m.saveRaw found data).2 = (.ok, some (overwrite found data)) := by
  obtain ⟨hmount, hinit⟩ := h
  simp [saveRaw, validateManager, hmount, hdata, hinit, openForWrite, finish, Ready, closeFile,
    FatFsDevice.written]

theorem loadRaw_of_ready (data : List UInt8) (h : m.Ready) {size : Nat} (hsize : 0 < size) :
    (m.loadRaw (some data) size).2 = (.ok, data.take size) := by
  obtain ⟨hmount, hinit⟩ := h
  simp [loadRaw, validateManager, hmount, Nat.ne_of_gt hsize, hinit, openForRead,
    FatFsDevice.readFile_reading, finish]

def RoundTrips (json : CoreJson) (m : ConfigManager) (found : Option (List UInt8))
    (v : AppConfig) : Prop :=
  ∀ stack config,
    let saved := m.saveConfig found v
    saved.2.1 = .ok ∧
      (loadConfig json saved.1 saved.2.2 stack config).2 =
        (.ok, { config with can1 := v.can1, can2 := v.can2, ip := v.ip })

theorem loadConfig_of_ready (json : CoreJson) {data : List UInt8} (h : m.Ready)
    (stack : ParseStack) (config : AppConfig) :
    (loadConfig json m (some data) stack config).2 =
      let r := parseConfig json stack (data.take configBufferSize) config
      (if r.2 then .ok else .parseFailed, r.1) := by
  have hsize : 0 < configBufferSize := by decide
  have hload := loadRaw_of_ready data h hsize
  unfold loadConfig
  generalize m.loadRaw (some data) configBufferSize = loaded at hload ⊢
  obtain ⟨m', loaded⟩ := loaded
  subst hload
  generalize hparse : parseConfig json stack (data.take configBufferSize) config = parsed
  obtain ⟨config', found⟩ := parsed
  cases found <;> simp [hparse, finish]

theorem roundTrips_iff {json : CoreJson} (hjson : json.Documented) (h : m.Ready)
    {found : Option (List UInt8)} (v : AppConfig) :
    RoundTrips json m found v ↔ Blank found (formatLength v) configBufferSize := by
  have hlt := formatLength_lt v
  rw [← length_configFormat] at hlt ⊢
  have hsize : (configFormat v).length ≤ configBufferSize := by
    unfold configBufferSize
    omega
  have hstring : createJsonString v configBufferSize = configFormat v :=
    List.take_of_length_le (by unfold configBufferSize; omega)
  have hne : configFormat v ≠ [] := by
    rw [configFormat_eq]
    exact List.append_ne_nil_of_right_ne_nil _ (by decide)
  obtain ⟨hready, hsaved⟩ := saveRaw_of_ready found h hne
  simp only [RoundTrips, saveConfig, hstring, hsaved, loadConfig_of_ready json hready, true_and]
  by_cases hblank : Blank found (configFormat v).length configBufferSize
  · have hparse := parse_overwrite (parse_configFormat v) hsize hblank
    simp only [parseConfig_tree hjson hparse, if_true, hblank, iff_true]
    exact fun _ _ => trivial
  · have hparse := parse_overwrite_eq_none (parse_configFormat v) hsize hblank
    simp only [parseConfig_invalid hjson hparse, hblank, iff_false]
    intro hall
    have hresult : ConfigResult.parseFailed = .ok :=
      congrArg Prod.fst (hall { baudrate := 0, mode := 0 } v)
    cases hresult

end CanSniffer.Config.ConfigManager
