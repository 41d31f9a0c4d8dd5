import AdmissionGate.Error

/-!
A working directory with nothing but files in it, and where paths lead from there.
A path is walked part by part; empty parts and single points stay where they are.
Outside the directory stand other directories, whose names are not known, and the
device that holds nothing and keeps nothing.
-/

namespace AdmissionGate.CommandLine

structure Folder where
  files : List (String × String)

namespace Folder

inductive Place where
  | folder
  /-- A name in the working directory; a slash behind it asks for a directory. -/
  | entry (name : String) (slash : Bool)
  | nothing

def longestName : Nat := 255

def longestPath : Nat := 4095

def parts : List Char → List (List Char)
  | [] => [[]]
  | '/' :: cs => [] :: parts cs
  | c :: cs =>
      match parts cs with
      | [] => [[c]]
      | p :: ps => (c :: p) :: ps

def find? (d : Folder) (name : String) : Option String :=
  (d.files.find? (·.1 = name)).map (·.2)

def isTooLong (name : String) : Bool := longestName < name.utf8ByteSize

/-- What is wrong with going on behind a name as if it were a directory. -/
def faultBehind (d : Folder) (name : String) : FileFault :=
  if isTooLong name then .nameTooLong
  else if (d.find? name).isSome then .notDirectory
  else .missing

def walk (d : Folder) (outside slash : Bool) : List (List Char) → Except FileFault Place
  | [] => .ok .folder
  | ['.'] :: rest => d.walk outside slash rest
  | ['.', '.'] :: rest => d.walk true slash rest
  | part :: rest =>
      let name := String.ofList part
      if outside then .error (if isTooLong name then .nameTooLong else .missing)
      else if rest.isEmpty then .ok (.entry name slash)
      else .error (d.faultBehind name)

def nothingPath : List Char := ['/', 'd', 'e', 'v', '/', 'n', 'u', 'l', 'l']

def place (d : Folder) (path : String) : Except FileFault Place :=
  let cs := path.toList
  if cs.contains '\x00' then .error .nulInPath
  else if longestPath < path.utf8ByteSize then .error .nameTooLong
  else if cs = [] then .error .missing
  else if cs = nothingPath then .ok .nothing
  else d.walk (cs.head? = some '/') (cs.getLast? = some '/') ((parts cs).filter (· ≠ []))

def read (d : Folder) (path : String) : Except FileFault (List UInt8) := do
  match ← d.place path with
  | .folder => .error .isDirectory
  | .nothing => .ok []
  | .entry name slash =>
      match d.find? name, slash with
      | some content, false => .ok content.toUTF8.toList
      | _, _ => .error (d.faultBehind name)

def contains (d : Folder) (path : String) : Bool :=
  match d.place path with
  | .ok .folder | .ok .nothing => true
  | .ok (.entry name slash) => !slash && (d.find? name).isSome
  | .error _ => false

def put (d : Folder) (name content : String) : Folder where
  files := d.files.filter (·.1 ≠ name) ++ [(name, content)]

def write (d : Folder) (path content : String) : Except FileFault Folder := do
  match ← d.place path with
  | .folder | .entry _ true => .error .isDirectory
  | .nothing => .ok d
  | .entry name false => if isTooLong name then .error .nameTooLong else .ok (d.put name content)

end Folder

end AdmissionGate.CommandLine
