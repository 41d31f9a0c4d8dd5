import AdmissionGate.Proofs.Gate.Bytes

/-!
What the registry holds of a connection on its way through the gate. Nobody else writes to
its record, so at every point the record tells how far the connection has come and how many
of its bytes were counted, unless somebody has released it.
-/

namespace AdmissionGate

/-- The record of a connection tells this state and this many bytes; there is one, unless
the connection is `lost`. -/
structure Registry.Books (r : Registry) (lost : Prop) (k : ConnectionKey)
    (state : ConnectionState) (bytes : Nat) : Prop where
  tells : ∀ record, r.record? k = some record →
    record.key = k ∧ record.state = state ∧ record.bytesIn = bytes
  there : r.record? k = none → lost

namespace Registry.Books

variable {r r' : Registry} {lost : Prop} {k : ConnectionKey} {state : ConnectionState}
  {bytes : Nat}

theorem of_record? (books : r.Books lost k state bytes) (same : r'.record? k = r.record? k) :
    r'.Books lost k state bytes := by
  refine ⟨?_, ?_⟩
  · rw [same]
    exact books.tells
  · rw [same]
    exact books.there

theorem of_none (gone : r.record? k = none) (known : lost) : r.Books lost k state bytes := by
  refine ⟨?_, fun _ => known⟩
  intro record found
  rw [gone] at found
  contradiction

theorem mono {worse : Prop} (books : r.Books lost k state bytes) (still : lost → worse) :
    r.Books worse k state bytes :=
  ⟨books.tells, fun gone => still (books.there gone)⟩

theorem registered (numbered : r.Numbered) {b landed : Blocklist} {a : Address} {now : Instant}
    (free : r.register b landed a now = (.ok k, r')) : r'.Books lost k .registered 0 := by
  have found := numbered.record?_register free k
  rw [if_pos rfl] at found
  refine ⟨?_, ?_⟩
  · intro record there
    rw [found, Option.some.injEq] at there
    rw [← there]
    exact ⟨rfl, rfl, rfl⟩
  · intro gone
    rw [found] at gone
    contradiction

/-- A change of the record, which is made if there is one. -/
theorem mapped {f : ConnectionRecord → ConnectionRecord} {state' : ConnectionState}
    {bytes' : Nat} (books : r.Books lost k state bytes)
    (change : r'.record? k = (r.record? k).map f)
    (result : ∀ record, record.key = k → record.state = state → record.bytesIn = bytes →
      (f record).key = k ∧ (f record).state = state' ∧ (f record).bytesIn = bytes') :
    r'.Books lost k state' bytes' := by
  refine ⟨?_, ?_⟩
  · intro record found
    rw [change, Option.map_eq_some_iff] at found
    obtain ⟨old, there, rfl⟩ := found
    obtain ⟨key, state, bytes⟩ := books.tells old there
    exact result old key state bytes
  · intro gone
    rw [change, Option.map_eq_none_iff] at gone
    exact books.there gone

theorem update (books : r.Books lost k state bytes) {more : Nat} (now : Instant)
    (small : bytes + more ≤ max64) : (r.update k more now).Books lost k state (bytes + more) := by
  apply books.mapped
  · rw [record?_update, if_pos rfl]
  · intro record key state bytes
    exact ⟨key, state, by rw [bytes]; exact Nat.min_eq_left small⟩

theorem first_update (books : r.Books lost k state 0) {count : Nat} (now : Instant)
    (small : count ≤ max64) : (r.update k count now).Books lost k state count := by
  have counted : (r.update k count now).Books lost k state (0 + count) :=
    books.update now (by omega)
  rwa [Nat.zero_add] at counted

theorem setReputation (books : r.Books lost k state bytes) (score : Float) :
    (r.setReputation k score).Books lost k state bytes := by
  apply books.mapped
  · rw [record?_setReputation, if_pos rfl]
  · intro record key state bytes
    exact ⟨key, state, bytes⟩

theorem setState (books : r.Books lost k state bytes) {next : ConnectionState}
    (may : state.canMoveTo next = true) : (r.setState k next).Books lost k next bytes := by
  cases found : r.record? k with
  | none =>
      have gone : (r.setState k next).record? k = none := by
        rw [record?_setState]
        split <;> simp [found]
      exact .of_none gone (books.there found)
  | some record =>
      have moves : r.canMove k next = true := by
        simp [canMove, found, (books.tells record found).2.1, may]
      apply books.mapped
      · rw [record?_setState, if_pos ⟨rfl, moves⟩]
      · intro record key _ bytes
        exact ⟨key, rfl, bytes⟩

end Registry.Books

/-- The record at a point; `lost` are the connections that somebody has released. -/
def Point.Booked (lost : ConnectionKey → Prop) (g : Gate) : Point → Prop
  | .considering c | .delayed c _ | .greeting c _ | .greeted c _ | .resting (.waiting c (.delay _))
  | .resting (.waiting c (.greeting _)) => g.registry.Books (lost c.key) c.key .registered 0
  | .asking c _ | .unjudged c _ _ =>
      g.registry.Books (lost c.key) c.key .handshakeValidated c.buffered.length
  | .awaiting c q | .concluding c q _ | .resting (.waiting c (.opinion q)) =>
      g.registry.Books (lost c.key) c.key .handshakeValidated q.known
  | .judged c _ _ | .accepting c _ _ =>
      g.registry.Books (lost c.key) c.key .classified c.buffered.length
  | .resting (.finished (.accepted c) _ _) =>
      g.registry.Books (lost c.key) c.key .admitted c.buffered.length
  | .arriving .. | .rejecting .. | .cancelling _ | .resting (.finished _ _ _) => True

namespace Gate

variable {g : Gate} {lost : Prop} {k : ConnectionKey} {state : ConnectionState} {bytes : Nat}

theorem books_sampleReputation (now : Instant) (books : g.registry.Books lost k state bytes) :
    (g.sampleReputation k now).registry.Books lost k state bytes := by
  simp only [sampleReputation]
  split
  · exact books.setReputation _
  · exact books

theorem budget_le (s : HandshakeSettings) : s.budget ≤ max64 := by
  have small := s.maxBytes.toNat_lt
  simp only [HandshakeSettings.budget, max64, UInt64.size]
  omega

theorem books_counted (now : Instant) {c : Candidate} {q : Question}
    (books : g.registry.Books lost c.key state q.known) (known : q.known ≤ c.buffered.length)
    {s : HandshakeSettings} (fits : c.buffered.length ≤ s.budget) :
    (g.counted now c q).registry.Books lost c.key state c.buffered.length := by
  simp only [counted]
  split
  · rename_i nothing
    have same : c.buffered.length = q.known := by omega
    rw [same]
    exact books
  · have all : q.known + (c.buffered.length - q.known) = c.buffered.length := by omega
    have small := budget_le s
    have counted := books.update now (Nat.le_trans (Nat.le_of_eq all) (Nat.le_trans fits small))
    rwa [all] at counted

end Gate

open Registry Gate in
/-- What every edge preserves, for the bytes of a connection and for its record. -/
theorem Leads.booked {now : Instant} {stop : Bool} {g g' : Gate} {p p' : Point}
    (edge : Leads now stop g p g' p') {whole : List UInt8} {lost : ConnectionKey → Prop}
    (numbered : g.registry.Numbered) (bytes : p.Intact g.settings.handshake whole)
    (before : p.Booked lost g) : p'.Booked lost g' := by
  cases edge with
  | registered free => exact .registered numbered (registry_of_register _ _ free)
  | allowed v => exact before.of_record? (by rw [registry_of_check _ _ v])
  | throttled v _ => exact before.of_record? (by rw [registry_note, ← registry_of_check _ _ v])
  | welcomed =>
      have small := Nat.le_trans bytes.1.fits (budget_le _)
      exact books_sampleReputation now ((before.first_update now small).setState rfl)
  | ruled => exact (books_counted now before bytes.2 bytes.1.fits).setState rfl
  | failed | crashed | tooLate => exact books_counted now before bytes.2 bytes.1.fits
  | suspected penalty _ =>
      exact before.of_record? (by rw [registry_note, registry_of_penalizeBy _ _ penalty])
  | failsOpen => exact before.setState rfl
  | accepted => exact before.setState rfl
  | refused | exhausted | blocked | delayStopped | delayLeft | greetingStopped | disconnected
  | malformed | vanished | opinionStopped | opinionLeft | convicted | turnedAway | banned
  | failsClosed | rejected | cancelled => trivial
  | delayOver | delayLasts | greetingRead | greetingLate | greetingLasts | asked | answered
  | unanswered | opinionLasts | passed => exact before

end AdmissionGate
