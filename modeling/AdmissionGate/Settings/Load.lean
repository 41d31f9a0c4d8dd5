import AdmissionGate.Error
import AdmissionGate.Settings.Codec
import AdmissionGate.Toml.Document

/-!
Settings out of a TOML text. They are checked before anyone sees them.
-/

namespace AdmissionGate.Settings

def validated (s : Settings) : Except SettingsError Settings :=
  match s.fault? with
  | none => .ok s
  | some fault => .error (.broken fault)

def ofToml (text : String) : Except SettingsError Settings :=
  match (Toml.read? text).bind (Settings.ofDatum? Toml.dialect) with
  | some s => s.validated
  | none => .error .invalidToml

def textOfBytes (bytes : List UInt8) : Except FileFault String :=
  match String.fromUTF8? (ByteArray.mk bytes.toArray) with
  | some text => .ok text
  | none => .error .notText

def ofFile (path : String) (content : Except FileFault (List UInt8)) :
    Except SettingsError Settings :=
  match content.bind textOfBytes with
  | .ok text => ofToml text
  | .error fault => .error (.unreadable path fault)

theorem ofToml_valid {text : String} {s : Settings} (h : ofToml text = .ok s) : s.Valid := by
  unfold ofToml at h
  split at h
  · unfold validated at h
    split at h
    · cases h
      assumption
    · contradiction
  · contradiction

end AdmissionGate.Settings
