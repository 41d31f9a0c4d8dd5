import AdmissionGate.Net.Endpoint
import AdmissionGate.Reason
import AdmissionGate.Settings.Validation

/-!
What can go wrong around admission, and how it is put into words.
-/

namespace AdmissionGate

inductive FileFault where
  | missing
  | isDirectory
  | notText
  | notDirectory
  | nameTooLong
  /-- A path holds a NUL, which no name does. -/
  | nulInPath
  | denied
  | other (what : String)
deriving DecidableEq, Repr

namespace FileFault

def text : FileFault → String
  | missing => "No such file or directory (os error 2)"
  | isDirectory => "Is a directory (os error 21)"
  | notText => "stream did not contain valid UTF-8"
  | notDirectory => "Not a directory (os error 20)"
  | nameTooLong => "File name too long (os error 36)"
  | nulInPath => "file name contained an unexpected NUL byte"
  | denied => "Permission denied (os error 13)"
  | other what => what

end FileFault

inductive SettingsError where
  | unreadable (path : String) (fault : FileFault)
  /-- The text is no TOML, or its data do not fit the settings. -/
  | invalidToml
  | broken (fault : SettingsFault)
deriving DecidableEq

namespace SettingsError

def message : SettingsError → String
  | unreadable path fault => "failed to read config file '" ++ path ++ "': " ++ fault.text
  | invalidToml => "invalid TOML"
  | broken fault => fault.message

end SettingsError

inductive GateError where
  | blocked (address : Address) (reason : Reason)
  | connectionLimit (address : Address) (current limit : Nat)
  | configuration (what : String)
  | internal (what : String)
deriving DecidableEq

namespace GateError

def message : GateError → String
  | blocked address reason => "address " ++ address.text ++ " is blocked: " ++ reason.name
  | connectionLimit address current limit =>
      "connection limit exceeded for " ++ address.text ++ ": " ++ Digits.decimal current ++ "/" ++
        Digits.decimal limit
  | configuration what => "configuration error: " ++ what
  | internal what => "internal error: " ++ what

def reason : GateError → Reason
  | blocked _ reason => reason
  | connectionLimit .. => .connectionLimit
  | configuration _ | internal _ => .internalFault

def ofSettings (e : SettingsError) : GateError := configuration e.message

end GateError

inductive ProxyError where
  | bindFailed (listen : Endpoint) (what : String)
  | backendConnect (backend what : String)
  | configuration (what : String)
  | gate (error : GateError)
  | io (what : String)
deriving DecidableEq

namespace ProxyError

def message : ProxyError → String
  | bindFailed listen what => "failed to bind to " ++ listen.text ++ ": " ++ what
  | backendConnect backend what => "failed to connect to backend " ++ backend ++ ": " ++ what
  | configuration what => "configuration error: " ++ what
  | gate error => error.message
  | io what => "io error: " ++ what

end ProxyError

end AdmissionGate
