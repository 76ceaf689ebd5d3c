import CanSniffer.Config.ConfigManagerLaws
import CanSniffer.Logging.MetaDataLaws

namespace CanSniffer.Config

open Lib Storage Logging

/-- A file is overwritten in place and keeps what is beyond the new document, which must then be
whitespace; and the metadata are read back as a signed `long`. -/
theorem store_load_iff {json : CoreJson} (hjson : json.Documented) :
    (∀ {m : ConfigManager} (found : Option (List UInt8)) (v : AppConfig), m.Ready →
      (m.RoundTrips json found v ↔ Blank found (formatLength v) configBufferSize)) ∧
    ∀ (found : Option (List UInt8)) (data : CanLogMetaData),
      data.RoundTrips json found ↔
        Blank found data.formatLength CanLogMetaData.contentSize ∧ data.Readable :=
  ⟨fun _ v h => ConfigManager.roundTrips_iff hjson h v,
    fun _ _ => CanLogMetaData.roundTrips_iff hjson⟩

def readyManager : ConfigManager where
  mountRes := true
  initialized := true
  fileOpen := false
  needsSync := false
  fileSize := 0
  lastError := .ok
  writeFileDevice := .opened

def settingsAt (baudrate : UInt32) : AppConfig where
  updated := false
  can1 := { baudrate, mode := 1 }
  can2 := { baudrate, mode := 1 }
  ip := { ip0 := 192, ip1 := 168, ip2 := 0, ip3 := 10 }

theorem store_load_iff_reference :
    CoreJson.reference.Documented ∧ readyManager.Ready ∧
      readyManager.RoundTrips CoreJson.reference (some (configFormat (settingsAt 250000)))
        (settingsAt 500000) :=
  have hready : readyManager.Ready := ⟨rfl, rfl⟩
  ⟨CoreJson.reference_documented, hready,
    ((store_load_iff CoreJson.reference_documented).1 _ _ hready).mpr
      (.of_length_le (by decide +kernel) _)⟩

/-- Settings of 250 kbit/s over those of 1 Mbit/s leave a brace at the end, and a checksum above
the largest `long` comes back as the largest `long`. -/
theorem shorter_document_lost :
    (¬∀ (json : CoreJson) (m : ConfigManager) (found : Option (List UInt8)) (v : AppConfig),
      json.Documented → m.Ready → m.RoundTrips json found v) ∧
    ¬∀ (json : CoreJson) (found : Option (List UInt8)) (data : CanLogMetaData),
      json.Documented → data.RoundTrips json found := by
  constructor
  · intro h
    have hready : readyManager.Ready := ⟨rfl, rfl⟩
    have hblank := (ConfigManager.roundTrips_iff CoreJson.reference_documented hready _).mp
      (h .reference readyManager (some (configFormat (settingsAt 1000000))) (settingsAt 250000)
        CoreJson.reference_documented hready)
    exact absurd (hblank 0x7D (by decide +kernel)) (by decide)
  · intro h
    have hreadable := ((CanLogMetaData.roundTrips_iff CoreJson.reference_documented).mp
      (h .reference none { epoch := 0, fileIndex := 0, byteOffset := 0, crc := 0x80000000 }
        CoreJson.reference_documented)).2
    exact absurd hreadable.2.2.2 (by decide)

end CanSniffer.Config
