/-!
Text of several lines that stands in a column: the lines after the first begin with
blanks.
-/

namespace AdmissionGate.Indent

def lineStart (depth : Nat) : List Char := '\n' :: List.replicate depth ' '

def hang (depth : Nat) (text : String) : String :=
  String.ofList (text.toList.flatMap fun c => if c = '\n' then lineStart depth else [c])

end AdmissionGate.Indent
