import AdmissionGate.Proofs.Registry.Numbering
import AdmissionGate.Gate.Admission

/-!
A gate in use: admissions beside each other, taken up again in any order and as often as one
likes, and whatever else is done to the gate between two turns. What holds of every reachable
traffic holds however connections, operators and upkeep are interleaved.
-/

namespace AdmissionGate

structure Admission where
  address : Address
  /-- What the peer does, from the start on. -/
  peer : Peer
  /-- Where the admission has got to; nothing, if it has not begun. -/
  progress : Option Progress := none

namespace Admission

def trail (x : Admission) : List StageResult :=
  match x.progress with
  | none => []
  | some (.waiting c _) => c.trail
  | some (.finished _ _ trail) => trail

def key? (x : Admission) : Option ConnectionKey :=
  match x.progress with
  | some (.waiting c _) => some c.key
  | _ => none

def isOver (x : Admission) : Bool :=
  match x.progress with
  | some (.finished ..) => true
  | _ => false

def connection? (x : Admission) : Option Accepted :=
  match x.progress with
  | some (.finished (.accepted c) _ _) => some c
  | _ => none

theorem progress_of_connection? {x : Admission} {c : Accepted} (found : x.connection? = some c) :
    ∃ rest trail, x.progress = some (.finished (.accepted c) rest trail) := by
  simp only [connection?] at found
  split at found
  · rename_i same
    cases found
    exact ⟨_, _, same⟩
  · contradiction

/-- Begins an admission or takes it up again; `stop` tells it to go away. -/
def proceed (x : Admission) (g : Gate) (now : Instant) (stop : Bool) : Admission × Gate :=
  match x.progress with
  | none =>
      let (p, g) := g.receive now x.address x.peer stop
      ({ x with progress := some p }, g)
  | some (.waiting c w) =>
      let (p, g) := g.resume now c w stop
      ({ x with progress := some p }, g)
  | some (.finished ..) => (x, g)

/-- The gate after an admission was given up from outside. -/
def abandoned (x : Admission) (g : Gate) (now : Instant) : Gate :=
  match x.progress with
  | some (.waiting c _) => g.release c.key now
  | _ => g

end Admission

inductive Operation where
  | register (a : Address)
  | update (k : ConnectionKey) (bytes : Nat)
  | move (k : ConnectionKey) (state : ConnectionState)
  | rate (k : ConnectionKey) (score : Float)
  | release (k : ConnectionKey)
  | block (a : Address) (reason : Reason) (length : Option Duration)
  | unblock (a : Address)
  | unblockAll
  | lookUp (a : Address)
  | check (a : Address)
  | penalize (a : Address) (amount : Float)
  | forget (a : Address)
  | sweep

namespace Operation

def key? : Operation → Option ConnectionKey
  | update k _ | move k _ | rate k _ | release k => some k
  | _ => none

/-- The key of the record whose bytes or state the operation changes. -/
def writes? : Operation → Option ConnectionKey
  | update k _ | move k _ => some k
  | _ => none

def releases? : Operation → Option ConnectionKey
  | release k => some k
  | _ => none

end Operation

def Gate.perform (g : Gate) (now : Instant) : Operation → Gate
  | .register a => (g.register a now).2
  | .update k bytes => g.update k bytes now
  | .move k state => g.setState k state
  | .rate k score => { g with registry := g.registry.setReputation k score }
  | .release k => g.release k now
  | .block a reason length => (g.block a reason length now).2
  | .unblock a => (g.unblock a).2
  | .unblockAll => { g with blocklist := g.blocklist.clear }
  | .lookUp a => (g.lookUp a now).2
  | .check a => (g.check a now).2
  | .penalize a amount => (g.penalizeBy a amount now).2
  | .forget a => { g with limiter := g.limiter.reset a }
  | .sweep => (g.sweep now).2

structure Traffic where
  now : Instant
  gate : Gate
  admissions : List Admission := []
  /-- Keys of connections that somebody other than their admission has released. -/
  released : List ConnectionKey := []

namespace Traffic

/-- One thing that happens, at the instant `now`. While an admission is under way it alone
counts its bytes and moves its state; others can only rate or release its connection. -/
inductive Step (t : Traffic) (now : Instant) : Traffic → Prop
  | arrival (a : Address) (peer : Peer) :
      Step t now { t with now, admissions := t.admissions ++ [{ address := a, peer }] }
  | turn (stop : Bool) {before after : List Admission} {x : Admission}
      (here : t.admissions = before ++ x :: after) :
      Step t now
        { t with
          now
          gate := (x.proceed t.gate now stop).2
          admissions := before ++ (x.proceed t.gate now stop).1 :: after }
  | abandonment {before after : List Admission} {x : Admission}
      (here : t.admissions = before ++ x :: after) :
      Step t now
        { t with now, gate := x.abandoned t.gate now, admissions := before ++ after }
  | operation (o : Operation)
      (own : ∀ x ∈ t.admissions, ∀ k, x.key? = some k → o.writes? ≠ some k) :
      Step t now
        { t with
          now
          gate := t.gate.perform now o
          released := o.releases?.toList ++ t.released }

/-- What can come of a gate, on a clock that never goes back. -/
inductive Reachable : Traffic → Prop
  | opened {now : Instant} {g : Gate} (numbered : g.registry.Numbered) :
      Reachable { now, gate := g }
  | next {t t' : Traffic} {now : Instant} (before : Reachable t) (later : t.now ≤ now)
      (step : t.Step now t') : Reachable t'

/-- A turn of the only admission. -/
theorem Reachable.turn_alone {t : Traffic} (before : t.Reachable) {x : Admission}
    (alone : t.admissions = [x]) {now : Instant} (later : t.now ≤ now) (stop : Bool) :
    Reachable
      { t with
        now
        gate := (x.proceed t.gate now stop).2
        admissions := [(x.proceed t.gate now stop).1] } :=
  before.next later (@Step.turn t now stop [] [] x alone)

end Traffic

namespace Sample

def gate : Gate where
  settings := {}
  detector := .engine .allowAll
  registry := .ofSettings {}
  limiter := .ofSettings {}
  blocklist := .ofSettings {}
  sink := .discard

/-- A handshake for `mc.org`, of which the last nine bytes come later, with one byte more. -/
def arrived : Admission where
  address := .v4 #v[192, 0, 2, 1]
  peer :=
    [⟨0, .send [0x0d, 0x00, 0xff, 0x05, 0x06, 0x6d]⟩,
      ⟨500, .send [0x63, 0x2e, 0x6f, 0x72, 0x67, 0x63, 0xdd, 0x02, 0x2a]⟩]

def begun : Traffic := { now := 0, gate, admissions := [arrived] }

def waiting : Admission × Gate := arrived.proceed begun.gate 0 false

def midway : Traffic := { begun with now := 0, gate := waiting.2, admissions := [waiting.1] }

def accepted : Admission × Gate := waiting.1.proceed midway.gate 500 false

def finale : Traffic := { midway with now := 500, gate := accepted.2, admissions := [accepted.1] }

theorem begun_reachable : begun.Reachable :=
  .next (.opened (Registry.numbered_ofSettings {})) (Nat.le_refl 0)
    (.arrival arrived.address arrived.peer)

theorem midway_reachable : midway.Reachable :=
  begun_reachable.turn_alone rfl (Nat.le_refl 0) false

theorem finale_reachable : finale.Reachable :=
  midway_reachable.turn_alone rfl (Nat.zero_le 500) false

end Sample

end AdmissionGate
