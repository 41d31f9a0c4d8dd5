import AdmissionGate.CommandLine.Folder
import AdmissionGate.CommandLine.Help
import AdmissionGate.Proxy.Basic

/-!
What the program does about a request. A procedure asks for what it needs of the
files and goes on with the answer, until it replies or has a proxy to serve. So the
same procedure runs on a `Folder` and on the files of a machine.
-/

namespace AdmissionGate.CommandLine

structure Reply where
  status : Nat := 0
  output : String := ""
  errors : String := ""

inductive Procedure where
  | reply (r : Reply)
  | serve (p : Proxy)
  | read (path : String) (next : Except FileFault (List UInt8) → Procedure)
  | find (path : String) (next : Bool → Procedure)
  | write (path content : String) (next : Except FileFault Unit → Procedure)

namespace Reply

def usageError : Reply := { status := 2 }

def print (text : String) : Reply := { output := text }

def failure (message : String) : Reply := { status := 1, errors := "Error: " ++ message ++ "\n" }

def failureFrom (message cause : String) : Reply :=
  failure (message ++ "\n\nCaused by:\n    " ++ Indent.hang 4 cause)

def crash : Reply := { status := 101 }

def unbound (p : Proxy) (refusal : String) : Reply :=
  match p.bind (some refusal) with
  | .error e => failure e.message
  | .ok () => {}

end Reply

def versionText : String := "bastion 0.1.0\n"

def summary (path : String) (s : ProxySettings) : String :=
  "Configuration OK: " ++ path ++ "\n" ++
    "  listen:          " ++ s.listen.text ++ "\n" ++
    "  backend:         " ++ s.backend ++ "\n" ++
    "  max connections: " ++ Digits.decimal s.maxConnections.toNat ++ "\n" ++
    "  per-address cap: " ++
    Digits.decimal s.shield.registry.maxConnectionsPerAddress.toNat ++ "\n" ++
    "  rate limit:      " ++ Digits.decimal s.shield.limiter.maxEventsPerWindow.toNat ++ " per " ++
    s.shield.limiter.window.text ++ "\n" ++
    "  failure policy:  " ++ Journal.policyLabel s.shield.detection.failurePolicy ++ "\n"

namespace Procedure

def run (path : String) : Procedure :=
  read path fun content =>
    match ProxySettings.ofFile path content with
    | .error e => reply (.failureFrom ("failed to load config from " ++ path) e.message)
    | .ok s =>
        match Proxy.ofSettings s with
        | .ready p => serve p
        | .refused e => reply (.failureFrom "failed to build admission pipeline" e.message)
        | .tooManySlots => reply .crash

def initConfig (path : String) (force : Bool) : Procedure :=
  find path fun found =>
    if found && !force then
      reply (.failure (path ++ " already exists (use --force to overwrite)"))
    else
      match ({} : ProxySettings).toToml? with
      | none => reply (.failure "configuration error: cannot serialize")
      | some text =>
          write path text fun
            | .error fault =>
                reply (.failureFrom ("failed to write config to " ++ path) fault.text)
            | .ok () => reply (.print ("Configuration written to " ++ path ++ "\n"))

def checkConfig (path : String) : Procedure :=
  read path fun content =>
    match ProxySettings.ofFile path content with
    | .error e => reply (.failure e.message)
    | .ok s => reply (.print (summary path s))

def ofCommand : Command → Procedure
  | .run config => run config
  | .initConfig output force => initConfig output force
  | .checkConfig config => checkConfig config

/-- What the program does about its words. -/
def ofWords (env : Environment) (words : List String) : Procedure :=
  match Request.ofWords? env words with
  | none => reply .usageError
  | some .version => reply (.print versionText)
  | some (.help topic) => reply (.print (helpText env topic))
  | some (.command _ c) => ofCommand c

def runIn (d : Folder) : Procedure → Sum Reply Proxy × Folder
  | reply r => (.inl r, d)
  | serve p => (.inr p, d)
  | read path next => (next (d.read path)).runIn d
  | find path next => (next (d.contains path)).runIn d
  | write path content next =>
      match d.write path content with
      | .ok d => (next (.ok ())).runIn d
      | .error fault => (next (.error fault)).runIn d

end Procedure

end AdmissionGate.CommandLine
