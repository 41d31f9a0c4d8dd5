/-!
Host names as clients spell them: ASCII letters count the same in either case,
and dots at the end say nothing.
-/

namespace AdmissionGate.HostName

def dropTrailingDots (cs : List Char) : List Char :=
  (cs.reverse.dropWhile (· = '.')).reverse

def lower (cs : List Char) : List Char := cs.map Char.toLower

def sameName (a b : List Char) : Bool := lower a = lower b

def canonical (cs : List Char) : List Char := lower (dropTrailingDots cs)

end AdmissionGate.HostName
