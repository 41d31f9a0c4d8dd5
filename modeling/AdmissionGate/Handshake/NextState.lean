/-!
What a client wants to do once its handshake is through.
-/

namespace AdmissionGate

inductive NextState where
  | status
  | login
  | transfer
deriving DecidableEq, Repr

namespace NextState

def all : List NextState := [status, login, transfer]

def id : NextState → Int32
  | status => 1
  | login => 2
  | transfer => 3

def ofId? (n : Int32) : Option NextState := all.find? (·.id = n)

def name : NextState → String
  | status => "status"
  | login => "login"
  | transfer => "transfer"

def ofName? (s : String) : Option NextState := all.find? (·.name = s)

theorem ofName?_name (s : NextState) : ofName? s.name = some s := by
  cases s <;> decide

theorem ofId?_id (s : NextState) : ofId? s.id = some s := by
  cases s <;> decide

end NextState

end AdmissionGate
