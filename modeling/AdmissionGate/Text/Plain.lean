/-!
Plain text: what is left for a reader who has no terminal. Sequences that steer a
terminal begin with an escape character and are left out, and so are single control
characters other than those that move to a new place on the page.
-/

namespace AdmissionGate.Plain

/-- Where reading stands between plain text and a steering sequence. -/
inductive State where
  | text
  | escape
  /-- In an escape that goes on until its final character. -/
  | escapeTail
  | control
  | device
  /-- In the numbers of a device string. -/
  | deviceNumbers
  /-- In the marks behind the numbers of a device string. -/
  | deviceMarks
  /-- In a string that a string terminator ends. -/
  | body
  /-- In a system command, which a bell ends. -/
  | command
deriving DecidableEq, Repr

/-- Controls that are kept: tabulator, line feed, form feed and carriage return. -/
def isSpacing (c : Char) : Bool := c = '\t' || c = '\n' || c = '\x0c' || c = '\r'

/-- Whether the encoded character has the byte that is a string terminator by itself. -/
def holdsTerminator (c : Char) : Bool := (String.utf8EncodeChar c).contains 0x9c

def isBetween (low high : Char) (c : Char) : Bool := low ≤ c && c ≤ high

def afterEscape (c : Char) : State :=
  if isBetween ' ' '/' c then .escapeTail
  else if c = 'P' then .device
  else if c = '[' then .control
  else if c = ']' then .command
  else if c = 'X' || c = '^' || c = '_' then .body
  else if isBetween '0' '~' c then .text
  else .escape

/-- The state behind a character that is no control and stands in front of a device string.
A character that spoils the string leaves nothing but its end to wait for. -/
def afterDevice (s : State) (spoils : Char → Bool) (c : Char) : State :=
  if isBetween ' ' '/' c then .deviceMarks
  else if spoils c then .body
  else if isBetween '0' '?' c then .deviceNumbers
  else if isBetween '@' '~' c then .body
  else s

def State.after (s : State) (c : Char) : State :=
  match s with
  | text => text
  | escape => afterEscape c
  | escapeTail => if isBetween '0' '~' c then text else escapeTail
  | control => if isBetween '@' '~' c then text else control
  | device => afterDevice device (fun _ => false) c
  | deviceNumbers => afterDevice deviceNumbers (isBetween '<' '?') c
  | deviceMarks => afterDevice deviceMarks (isBetween '0' '?') c
  | body => if holdsTerminator c then text else body
  | command => if c = '\x07' then text else command

def State.keeps (s : State) (c : Char) : Bool :=
  match s with
  | text => isSpacing c || (' ' ≤ c && c ≠ '\x7f')
  | escape | escapeTail | control => isSpacing c
  | device | deviceNumbers | deviceMarks | body | command => false

/-- The state behind any character. An escape character starts anew, and a cancelling one
goes back to the text. -/
def State.next (s : State) (c : Char) : State :=
  if c = '\x1b' then escape
  else if c = '\x18' || c = '\x1a' then text
  else s.after c

/-- The state behind a kept character. A character of several bytes ends what was open. -/
def State.behindKept (s : State) (c : Char) : State := if c.toNat < 128 then s else text

/-- Plain text from a state on. Behind a kept character the text runs on up to the next
control that is none, even if a sequence is open; the sequence goes on after that. -/
def stripFrom (s : State) (runs : Bool) : List Char → List Char
  | [] => []
  | c :: cs =>
      if s.keeps c || runs && State.text.keeps c then c :: stripFrom (s.behindKept c) true cs
      else stripFrom (s.next c) false cs

def strip (text : String) : String := String.ofList (stripFrom .text false text.toList)

end AdmissionGate.Plain
