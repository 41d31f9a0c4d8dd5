import AdmissionGate.CommandLine.Procedure

/-!
The program: it runs a procedure of the command line on the files of the machine.
-/

namespace AdmissionGate.CommandLine

def faultOf : IO.Error → FileFault
  | .noFileOrDirectory .. => .missing
  | .inappropriateType .. => .isDirectory
  | .permissionDenied .. => .denied
  | e => .other (toString e)

/-- What an action gives, or what is wrong with the file. -/
def attempt (act : IO α) : IO (Except FileFault α) := do
  match ← act.toBaseIO with
  | .ok a => return .ok a
  | .error e => return .error (faultOf e)

def isThere (path : String) : IO Bool := do
  match ← attempt (IO.FS.Handle.mk path .read) with
  | .error .missing | .error .notDirectory => return false
  | _ => return true

def say (r : Reply) : IO UInt32 := do
  (← IO.getStdout).putStr r.output
  (← IO.getStderr).putStr r.errors
  return UInt32.ofNat r.status

/-- Runs a procedure. There is no listener here, so a proxy ends it. -/
def Procedure.perform : Procedure → IO UInt32
  | reply r => say r
  | serve p => say (.unbound p "no listener")
  | read path next => do
      (next ((← attempt (IO.FS.readBinFile path)).map (·.toList))).perform
  | find path next => do (next (← isThere path)).perform
  | write path content next => do
      (next (← attempt (IO.FS.writeFile path content))).perform

end AdmissionGate.CommandLine

open AdmissionGate.CommandLine in
def main (words : List String) : IO UInt32 := do
  let env : Environment :=
    { config := ← IO.getEnv "BASTION_CONFIG", logFormat := ← IO.getEnv "BASTION_LOG_FORMAT" }
  (Procedure.ofWords env words).perform
