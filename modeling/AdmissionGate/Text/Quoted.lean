import AdmissionGate.Text.Digits
import AdmissionGate.Text.Unprintable

/-!
Text in double quotes, so that every character of it can be told: quotes and
backslashes are escaped, and so is what shows nothing of its own.
-/

namespace AdmissionGate.Quoted

def escapeChar (c : Char) : List Char :=
  match c with
  | '\x00' => ['\\', '0']
  | '\t' => ['\\', 't']
  | '\n' => ['\\', 'n']
  | '\r' => ['\\', 'r']
  | '"' => ['\\', '"']
  | '\\' => ['\\', '\\']
  | c =>
      if Unprintable.isUnprintable c then
        ['\\', 'u', '\x7b'] ++ Digits.render 16 c.toNat ++ ['\x7d']
      else [c]

def toChars (cs : List Char) : List Char := '"' :: cs.flatMap escapeChar ++ ['"']

def text (s : String) : String := String.ofList (toChars s.toList)

def listText (items : List String) : String := "[" ++ ", ".intercalate (items.map text) ++ "]"

end AdmissionGate.Quoted
