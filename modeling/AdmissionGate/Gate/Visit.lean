import AdmissionGate.Gate.Admission

/-!
Connections that come to the gate one beside the other, on a clock that jumps from
one instant at which something is due to the next. At each instant first come the
interruptions, then the admissions, both in the order of the visits.
-/

namespace AdmissionGate

/-- Something that somebody does while a connection is decided on. -/
inductive Interruption where
  | cancel
  /-- Forget about the admission, and with it about the record. -/
  | abandon
  | release (key : ConnectionKey)
  | block (a : Address) (length : Option Duration)
  | unblock (a : Address)
  | penalize (a : Address) (amount : Float)

inductive VisitStage where
  | coming (peer : Peer)
  | waiting (c : Candidate) (w : Wait)
  /-- It is over, with an outcome unless it was abandoned. -/
  | over (ended : Instant) (o : Option Outcome)

structure Visit where
  address : Address
  start : Instant
  /-- In the order in which they happen. -/
  interruptions : List (Instant × Interruption) := []
  stage : VisitStage
  stop : Bool := false

namespace Visit

def isOver (v : Visit) : Bool :=
  match v.stage with
  | .over .. => true
  | _ => false

def advanced (v : Visit) (now : Instant) : Progress → Visit
  | .waiting c w => { v with stage := .waiting c w }
  | .finished o _ _ => { v with stage := .over now (some o) }

def interrupt (now : Instant) (g : Gate) (v : Visit) : Interruption → Gate × Visit
  | .cancel => (g, { v with stop := true })
  | .abandon =>
      let gone := { v with stage := .over now none }
      match v.stage with
      | .coming _ => (g, gone)
      | .waiting c _ => (g.release c.key now, gone)
      | .over .. => (g, v)
  | .release key => (g.release key now, v)
  | .block a length => ((g.block a .manualBlock length now).2, v)
  | .unblock a => ((g.unblock a).2, v)
  | .penalize a amount => ((g.penalizeBy a amount now).2, v)

def interruptDue (now : Instant) (g : Gate) (v : Visit) :
    List (Instant × Interruption) → Gate × Visit
  | [] => (g, { v with interruptions := [] })
  | (due, i) :: rest =>
      if due ≤ now && !v.isOver then
        let (g, v) := interrupt now g v i
        interruptDue now g v rest
      else (g, { v with interruptions := (due, i) :: rest })

/-- Starts a visit or goes on with it, if it is time. -/
def proceed (now : Instant) (g : Gate) (v : Visit) : Gate × Visit :=
  match v.stage with
  | .coming peer =>
      if v.start ≤ now then
        let (p, g) := g.receive now v.address peer v.stop
        (g, v.advanced now p)
      else (g, v)
  | .waiting c w =>
      if v.stop || g.wakeAt c w ≤ now then
        let (p, g) := g.resume now c w v.stop
        (g, v.advanced now p)
      else (g, v)
  | .over .. => (g, v)

def nextDue? (g : Gate) (v : Visit) : Option Instant :=
  let own :=
    match v.stage with
    | .coming _ => some v.start
    | .waiting c w => some (g.wakeAt c w)
    | .over .. => none
  match own, v.interruptions with
  | some t, (due, _) :: _ => some (min t due)
  | own, _ => own

def each (f : Gate → Visit → Gate × Visit) : Gate → List Visit → Gate × List Visit
  | g, [] => (g, [])
  | g, v :: vs =>
      let (g, v) := f g v
      let (g, vs) := each f g vs
      (g, v :: vs)

/-- All that happens at an instant. -/
def round (now : Instant) (g : Gate) (vs : List Visit) : Gate × List Visit :=
  let (g, vs) := each (fun g v => interruptDue now g v v.interruptions) g vs
  each (proceed now) g vs

def earliest? (g : Gate) (vs : List Visit) : Option Instant :=
  (vs.filterMap (nextDue? g)).min?

/-- Runs visits from an instant on, and gives the last instant at which something
happened. The clock does not pass `horizon`. -/
def run (horizon now : Instant) (g : Gate) (vs : List Visit) : Gate × List Visit × Instant :=
  let (g, vs) := round now g vs
  match earliest? g vs with
  | none => (g, vs, now)
  | some t =>
      if _h : now < t ∧ t ≤ horizon then run horizon t g vs else (g, vs, now)
termination_by horizon - now
decreasing_by exact Nat.sub_lt_sub_left (Nat.lt_of_lt_of_le _h.1 _h.2) _h.1

/-- The longest that the gate takes to decide on a connection. -/
def longestStay (s : Settings) : Duration :=
  s.pipeline.maxThrottleWait + s.handshake.timeout + s.detection.classifyTimeout

def runAll (now : Instant) (g : Gate) (vs : List Visit) : Gate × List Visit × Instant :=
  let lastStart := (vs.map (·.start)).foldl max now
  run (lastStart + longestStay g.settings) now g vs

end Visit

end AdmissionGate
