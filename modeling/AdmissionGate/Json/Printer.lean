import AdmissionGate.Json.Basic

/-!
Writing JSON text, without blanks. Quotes, backslashes and control characters
are escaped, all else stands for itself.
-/

namespace AdmissionGate.Json

def escapeChar (c : Char) : List Char :=
  match c with
  | '"' => ['\\', '"']
  | '\\' => ['\\', '\\']
  | '\x08' => ['\\', 'b']
  | '\x0c' => ['\\', 'f']
  | '\n' => ['\\', 'n']
  | '\r' => ['\\', 'r']
  | '\t' => ['\\', 't']
  | c =>
      if c.toNat < 0x20 then '\\' :: 'u' :: Digits.padLeft 4 (Digits.render 16 c.toNat) else [c]

def renderText (cs : List Char) : List Char := '"' :: cs.flatMap escapeChar ++ ['"']

/-- A string that stands for no text is written as the replacement character. -/
def renderString (s : Option String) : List Char := renderText (s.getD "\ufffd").toList

def renderNumeral (n : Numeral) : List Char :=
  (if n.negative then ['-'] else []) ++ n.whole ++
    (if n.fraction = [] then [] else '.' :: n.fraction) ++
    (match n.exponent with
      | none => []
      | some e => 'e' :: (Digits.decimalOfInt e).toList)

mutual

def render : Json → List Char
  | null => ['n', 'u', 'l', 'l']
  | bool true => ['t', 'r', 'u', 'e']
  | bool false => ['f', 'a', 'l', 's', 'e']
  | number n => renderNumeral n
  | string s => renderString s
  | array items => '[' :: renderItems items
  | object members => '\x7b' :: renderMembers members

def renderItems : List Json → List Char
  | [] => [']']
  | [item] => render item ++ [']']
  | item :: items => render item ++ ',' :: renderItems items

def renderMembers : List (Option String × Json) → List Char
  | [] => ['\x7d']
  | [(key, item)] => renderString key ++ ':' :: render item ++ ['\x7d']
  | (key, item) :: members =>
      renderString key ++ ':' :: render item ++ ',' :: renderMembers members

end

def text (j : Json) : String := String.ofList j.render

end AdmissionGate.Json
