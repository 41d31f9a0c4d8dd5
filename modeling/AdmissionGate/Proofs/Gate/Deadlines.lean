import Mathlib.Data.List.TakeDrop
import AdmissionGate.Gate.Visit
import AdmissionGate.Proofs.Gate.Delays
import AdmissionGate.Proofs.Gate.Soundness
import AdmissionGate.Proofs.Handshake.Reading

/-!
Every admission ends in time. Wherever it waits there is a timer, and the timers never go beyond
the sum of the longest delay, the time for the handshake and the time for an opinion: each delay
that is imposed is part of the sum of delays, and the other two waits come once. An admission that
is taken up when it is due has either ended or has something due later, so time goes on between
its turns. Nothing is assumed of what the gate has come to meanwhile but its settings.
-/

namespace AdmissionGate

variable {now t : Instant}

theorem Peer.lt_of_waiting {p : Peer} {want : Nat} (waits : p.read now want = .waiting)
    (next : p.nextDue? = some t) : now < t := by
  have gives := p.read_gives now want
  rw [waits] at gives
  cases gives with
  | silent => cases next
  | early early =>
      cases next
      exact early

/-- A watch that goes on has seen all that was due. -/
theorem lt_watchDue {limit : Nat} {buffered : List UInt8} {peer : Peer}
    (there : ¬(watch limit now buffered peer).closed = true)
    (next : watchDue? limit (watch limit now buffered peer).buffered
      (watch limit now buffered peer).peer = some t) : now < t := by
  fun_induction watch limit now buffered peer with
  | case1 buffered peer full =>
      rw [watchDue?, if_pos full] at next
      cases next
  | case2 buffered peer room waits =>
      rw [watchDue?, if_neg room] at next
      exact Peer.lt_of_waiting waits next
  | case3 | case4 => exact absurd rfl there
  | case5 buffered peer room b bs rest read ih => exact ih there next

/-- Reading that goes on has taken all that was due. -/
theorem HandshakeSettings.lt_collectDue {s : HandshakeSettings} {buffered : List UInt8}
    {peer : Peer} (missing : (s.collect now buffered peer).result = none)
    (next : (s.collect now buffered peer).peer.nextDue? = some t) : now < t :=
  Peer.lt_of_waiting (pauses_collect missing).read next

def Wait.timer : Wait → Instant
  | delay ends => ends
  | greeting deadline => deadline
  | opinion q => q.deadline

theorem foldl_earliest_le (known : Instant) (others : List (Option Instant)) :
    others.foldl (fun t o => min t (o.getD t)) known ≤ known := by
  induction others generalizing known with
  | nil => exact Nat.le_refl _
  | cons o rest ih => exact Nat.le_trans (ih _) (Nat.min_le_left ..)

theorem lt_foldl_earliest {known : Instant} {others : List (Option Instant)} (later : now < known)
    (each : ∀ o ∈ others, ∀ t, o = some t → now < t) :
    now < others.foldl (fun t o => min t (o.getD t)) known := by
  induction others generalizing known with
  | nil => exact later
  | cons o rest ih =>
      refine ih ?_ fun o member => each o (List.mem_cons_of_mem _ member)
      cases found : o with
      | none => exact Nat.lt_min.mpr ⟨later, later⟩
      | some t => exact Nat.lt_min.mpr ⟨later, each o (List.mem_cons_self ..) t found⟩

namespace Gate

variable {g g' : Gate} {c : Candidate} {w : Wait}

theorem wakeAt_le_timer (g : Gate) (c : Candidate) (w : Wait) : g.wakeAt c w ≤ w.timer := by
  cases w <;> exact foldl_earliest_le ..

theorem wakeAt_congr (same : g'.settings = g.settings) (c : Candidate) (w : Wait) :
    g'.wakeAt c w = g.wakeAt c w := by
  simp only [wakeAt, budget, same]

end Gate

/-- A connection comes to rest in a wait only if it was not told to go away, and then nothing is
left to do for it at this instant. -/
theorem Leads.rests {stop : Bool} {g g' : Gate} {p : Point} {c : Candidate} {w : Wait}
    (edge : Leads now stop g p g' (.resting (.waiting c w))) :
    stop = false ∧ now < g'.wakeAt c w := by
  have seen {g : Gate} {c : Candidate}
      (there : ¬(watch g.budget now c.buffered c.peer).closed = true) :
      ∀ o ∈ [watchDue? g.budget (c.watched g.budget now).buffered (c.watched g.budget now).peer],
        ∀ t, o = some t → now < t := by
    intro o member t next
    rw [List.mem_singleton.mp member] at next
    exact lt_watchDue there next
  generalize rest : Point.resting (.waiting c w) = p' at edge
  cases edge with
  | delayLasts untold there lasts =>
      cases rest
      exact ⟨Bool.eq_false_iff.mpr untold,
        lt_foldl_earliest (Nat.lt_of_not_le lasts) (seen there)⟩
  | greetingLasts untold missing lasts =>
      cases rest
      refine ⟨Bool.eq_false_iff.mpr untold, lt_foldl_earliest (Nat.lt_of_not_le lasts) ?_⟩
      intro o member t next
      rw [List.mem_singleton.mp member] at next
      exact HandshakeSettings.lt_collectDue missing next
  | @opinionLasts _ q untold silent lasts there =>
      cases rest
      refine ⟨Bool.eq_false_iff.mpr untold, lt_foldl_earliest (Nat.lt_of_not_le lasts) ?_⟩
      intro o member t next
      rcases List.mem_cons.mp member with rfl | member
      · obtain ⟨answer, found, rfl⟩ := Option.map_eq_some_iff.mp next
        have early := (Option.filter_eq_none_iff.mp silent) answer found
        simpa using early
      rcases List.mem_cons.mp member with rfl | member
      · obtain ⟨note, found, rfl⟩ := Option.map_eq_some_iff.mp next
        rw [List.span_eq_takeWhile_dropWhile] at found
        have early := List.head?_dropWhile_not (fun n => decide (n.1 ≤ now)) q.notes
        simp only [found] at early
        simpa using early
      · exact seen there o member t next
  | _ => cases rest

/-- The timer of a wait of an admission that started at `start`. -/
def Wait.InTime (s : Settings) (start : Instant) (c : Candidate) : Wait → Prop
  | delay ends => ends ≤ start + c.waited ∧ c.waited ≤ s.pipeline.maxThrottleWait
  | greeting deadline => deadline ≤ start + (s.pipeline.maxThrottleWait + s.handshake.timeout)
  | opinion q => q.deadline ≤ start + Visit.longestStay s

def Point.InTime (s : Settings) (start now : Instant) : Point → Prop
  | .arriving _ _ => now ≤ start
  | .considering c => now ≤ start + c.waited ∧ c.waited ≤ s.pipeline.maxThrottleWait
  | .delayed c ends => now ≤ ends ∧ (Wait.delay ends).InTime s start c
  | .greeting c deadline => now ≤ deadline ∧ (Wait.greeting deadline).InTime s start c
  | .greeted _ _ | .asking _ _ =>
      now ≤ start + (s.pipeline.maxThrottleWait + s.handshake.timeout)
  | .awaiting c q => now ≤ q.deadline ∧ (Wait.opinion q).InTime s start c
  | .resting (.waiting c w) => now ≤ w.timer ∧ w.InTime s start c
  | _ => now ≤ start + Visit.longestStay s

variable {s : Settings} {start : Instant} {c : Candidate} {w : Wait}

theorem Wait.InTime.timer_le (timely : w.InTime s start c) :
    w.timer ≤ start + Visit.longestStay s := by
  have handshake : s.pipeline.maxThrottleWait + s.handshake.timeout ≤ Visit.longestStay s :=
    Nat.le_add_right ..
  cases w with
  | delay ends =>
      calc ends
        _ ≤ start + c.waited := timely.1
        _ ≤ start + s.pipeline.maxThrottleWait := Nat.add_le_add_left timely.2 start
        _ ≤ start + Visit.longestStay s :=
            Nat.add_le_add_left (Nat.le_trans (Nat.le_add_right ..) handshake) start
  | greeting deadline => exact Nat.le_trans timely (Nat.add_le_add_left handshake start)
  | opinion q => exact timely

theorem Wait.InTime.point (timely : w.InTime s start c) (punctual : now ≤ w.timer) :
    (w.point c).InTime s start now := by
  cases w <;> exact ⟨punctual, timely⟩

theorem Leads.inTime {stop : Bool} {g g' : Gate} {p p' : Point}
    (edge : Leads now stop g p g' p') (same : g.settings = s)
    (before : p.InTime s start now) : p'.InTime s start now := by
  have handshake : s.pipeline.maxThrottleWait + s.handshake.timeout ≤ Visit.longestStay s :=
    Nat.le_add_right ..
  have soon {d : Duration} (le : d ≤ Visit.longestStay s) (by_then : now ≤ start + d) :
      now ≤ start + Visit.longestStay s :=
    Nat.le_trans by_then (Nat.add_le_add_left le start)
  have waits {c : Candidate} (considered : Point.InTime s start now (.considering c)) :
      now ≤ start + s.pipeline.maxThrottleWait :=
    Nat.le_trans considered.1 (Nat.add_le_add_left considered.2 start)
  have patience : s.pipeline.maxThrottleWait ≤ Visit.longestStay s :=
    Nat.le_trans (Nat.le_add_right ..) handshake
  -- A delay that is imposed has been added to the sum of delays before its wait begins; the two
  -- other waits begin once, each at an instant up to which the time is accounted for.
  cases edge with
  | registered => exact ⟨Nat.le_add_right_of_le before, Nat.zero_le _⟩
  | refused => exact Nat.le_add_right_of_le before
  | allowed v =>
      rw [Gate.settings_of_check _ _ v, same]
      refine ⟨Nat.le_add_right .., ?_⟩
      rw [Wait.InTime, ← Nat.add_assoc]
      exact Nat.add_le_add_right (waits before) _
  | blocked | exhausted => exact soon patience (waits before)
  | throttled v within =>
      rw [Gate.settings_of_check _ _ v, same] at within
      refine ⟨Nat.le_add_right .., ?_, Nat.le_of_not_lt within⟩
      simp only [plus_of_within s.pipeline.maxThrottleWait_lt within]
      rw [← Nat.add_assoc]
      exact Nat.add_le_add_right before.1 _
  | delayStopped | delayLeft =>
      exact Nat.le_trans before.1 (Wait.InTime.timer_le before.2)
  | delayOver untold there elapsed => exact ⟨Nat.le_trans before.1 before.2.1, before.2.2⟩
  | delayLasts | greetingLasts | opinionLasts => exact before
  | greetingStopped => exact Nat.le_trans before.1 (Wait.InTime.timer_le before.2)
  | greetingRead | greetingLate => exact Nat.le_trans before.1 before.2
  | welcomed => exact before
  | disconnected | malformed | vanished => exact soon handshake before
  | asked =>
      rw [Gate.question, same]
      refine ⟨Nat.le_add_right .., ?_⟩
      rw [Wait.InTime, Visit.longestStay, ← Nat.add_assoc]
      exact Nat.add_le_add_right before _
  | opinionStopped | answered | unanswered | opinionLeft => exact Nat.le_trans before.1 before.2
  | ruled | failed | crashed | tooLate | passed | suspected | convicted | turnedAway | banned
  | failsOpen | failsClosed | rejected | cancelled | accepted => exact before

namespace Gate

/-- An admission that is taken up again whenever something is due for it. At its turn `n` it comes
to the gate `meets n`, whatever others have made of that; from `cancel` on it is told to go
away. -/
def turns (meets : Nat → Gate) (start : Instant) (a : Address) (peer : Peer)
    (cancel : Option Instant) : Nat → Instant × Progress
  | 0 => (start, ((meets 0).receive start a peer (cancel.any (· ≤ start))).1)
  | n + 1 =>
      match turns meets start a peer cancel n with
      | (_, .waiting c w) =>
          let due := (meets (n + 1)).wakeAt c w
          let next := min due (cancel.getD due)
          (next, ((meets (n + 1)).resume next c w (cancel.any (· ≤ next))).1)
      | ended => ended

end Gate

namespace Path

variable {stop : Bool} {g g' : Gate} {p p' : Point}

theorem inTime (path : Path now stop g p g' p') (same : g.settings = s)
    (before : p.InTime s start now) : p'.InTime s start now :=
  (path.preserves (I := fun g p => g.settings = s ∧ p.InTime s start now)
    (fun edge before => ⟨edge.settings.trans before.1, edge.inTime before.1 before.2⟩)
    ⟨same, before⟩).2

theorem patient (path : Path now stop g p g' p') (same : g.settings = s)
    (before : p.Patient s.pipeline.maxThrottleWait) : p'.Patient s.pipeline.maxThrottleWait :=
  (path.preserves (I := fun g p => g.settings = s ∧ p.Patient s.pipeline.maxThrottleWait)
    (fun edge before => ⟨edge.settings.trans before.1, edge.patient before.1 before.2⟩)
    ⟨same, before⟩).2

theorem rests (path : Path now stop g p g' p') (waits : p' = .resting (.waiting c w))
    (moving : ∀ c w, p ≠ .resting (.waiting c w)) :
    stop = false ∧ ∀ g'' : Gate, g''.settings = g.settings → now < g''.wakeAt c w := by
  have last : stop = false ∧ now < g'.wakeAt c w :=
    path.preserves
      (I := fun g p => ∀ c w, p = .resting (.waiting c w) → stop = false ∧ now < g.wakeAt c w)
      (fun edge _ c w same => (same ▸ edge).rests) (fun c w same => absurd same (moving c w))
      c w waits
  refine ⟨last.1, fun g'' alike => ?_⟩
  rw [Gate.wakeAt_congr (alike.trans path.settings.symm)]
  exact last.2

end Path

/-- How an admission may stand after its turn `n`, at the instant `now`. -/
structure Progress.Ahead (s : Settings) (start : Instant) (n : Nat) (now : Instant)
    (p : Progress) : Prop where
  inTime : (Point.resting p).InTime s start now
  patient : (Point.resting p).Patient s.pipeline.maxThrottleWait
  /-- Each turn but the last takes time. -/
  moves : ∀ c w, p = .waiting c w → start + n ≤ now ∧
    ∀ g : Gate, g.settings = s → now < g.wakeAt c w

namespace Progress.Ahead

variable {stop : Bool} {n : Nat} {g : Gate} {p : Point} {r : Progress × Gate}

theorem of_follows (follows : g.Follows now stop p r) (same : g.settings = s)
    (inTime : p.InTime s start now) (patient : p.Patient s.pipeline.maxThrottleWait)
    (moving : ∀ c w, p ≠ .resting (.waiting c w)) (on : stop = false → start + n ≤ now) :
    r.1.Ahead s start n now := by
  refine ⟨follows.inTime same inTime, follows.patient same patient, fun c w waits => ?_⟩
  obtain ⟨untold, later⟩ := follows.rests (congrArg Point.resting waits) moving
  exact ⟨on untold, fun g'' alike => later g'' (alike.trans same.symm)⟩

theorem le {p : Progress} (ahead : p.Ahead s start n now) :
    now ≤ start + Visit.longestStay s := by
  have inTime := ahead.inTime
  match p with
  | .waiting c w => exact Nat.le_trans inTime.1 inTime.2.timer_le
  | .finished .. => exact inTime

/-- An admission that waits is resumed in time at any instant until it is due. -/
theorem resume {next : Instant} (ahead : (Progress.waiting c w).Ahead s start n now)
    (same : g.settings = s) (due : next ≤ g.wakeAt c w)
    (on : stop = false → start + (n + 1) ≤ next) :
    (g.resume next c w stop).1.Ahead s start (n + 1) next := by
  have inTime : (w.point c).InTime s start next :=
    ahead.inTime.2.point (Nat.le_trans due (g.wakeAt_le_timer c w))
  have patient : (w.point c).Patient s.pipeline.maxThrottleWait := by
    have patient := ahead.patient
    cases w <;> exact patient
  refine of_follows (g.resume_follows next c w stop) same inTime patient ?_ on
  intro c' w' rests
  cases w <;> cases rests

end Progress.Ahead

namespace Gate

variable {meets : Nat → Gate}

theorem ahead_turns (same : ∀ n, (meets n).settings = s) (start : Instant) (a : Address)
    (peer : Peer) (cancel : Option Instant) (n : Nat) :
    (∃ o p trail, (turns meets start a peer cancel n).2 = .finished o p trail) ∧
        (turns meets start a peer cancel n).2.Ahead s start 0
          (turns meets start a peer cancel n).1 ∨
      (turns meets start a peer cancel n).2.Ahead s start n
        (turns meets start a peer cancel n).1 := by
  induction n with
  | zero =>
      exact .inr (.of_follows ((meets 0).receive_follows ..) (same 0) (Nat.le_refl start) trivial
        (fun _ _ => nofun) fun _ => Nat.le_refl start)
  | succ n ih =>
      simp only [turns]
      rcases before : turns meets start a peer cancel n with ⟨now, p⟩
      rw [before] at ih
      match p with
      | .finished o rest trail =>
          refine .inl ⟨⟨o, rest, trail, rfl⟩, ?_⟩
          obtain ⟨-, ahead⟩ | ahead := ih
          · exact ahead
          · exact ⟨ahead.inTime, ahead.patient, fun _ _ => nofun⟩
      | .waiting c w =>
          obtain ⟨⟨_, _, _, ended⟩, -⟩ | ahead := ih
          · cases ended
          refine .inr (ahead.resume (same (n + 1)) (Nat.min_le_left ..) fun untold => ?_)
          obtain ⟨reached, later⟩ := ahead.moves c w rfl
          have passed : start + (n + 1) ≤ (meets (n + 1)).wakeAt c w :=
            Nat.succ_le_of_lt (Nat.lt_of_le_of_lt reached (later _ (same (n + 1))))
          -- From `cancel` on no wait begins, so until then the clock goes by what is due.
          cases cancel with
          | none => simpa using passed
          | some told =>
              simp only [Option.any_some, Option.getD_some, decide_eq_false_iff_not, Nat.le_min,
                Nat.le_refl, and_true, Nat.not_le] at untold ⊢
              exact ⟨passed, Nat.le_trans passed (Nat.le_of_lt untold)⟩

/-- Whatever the peer, the detector and the others do, an admission ends in time, after delays and
checks that the settings bound. -/
theorem turns_end (s : Settings) (meets : Nat → Gate) (same : ∀ n, (meets n).settings = s)
    (start : Instant) (a : Address) (peer : Peer) (cancel : Option Instant) :
    (∃ n o rest trail, (turns meets start a peer cancel n).2 = .finished o rest trail) ∧
    ∀ n, let turn := turns meets start a peer cancel n
      turn.1 ≤ start + Visit.longestStay s ∧
        turn.2.served.sum ≤ s.pipeline.maxThrottleWait ∧
        StageResult.checks turn.2.trail ≤ s.pipeline.maxThrottleWaitMs.toNat + 1 := by
  refine ⟨?_, fun n => ?_⟩
  · -- Each turn takes a nanosecond at least, so there cannot be more of them than the stay has.
    have last := ahead_turns same start a peer cancel (Visit.longestStay s + 1)
    obtain ⟨⟨o, rest, trail, ended⟩, -⟩ | ahead := last
    · exact ⟨_, o, rest, trail, ended⟩
    · refine ⟨Visit.longestStay s + 1, ?_⟩
      match waits : (turns meets start a peer cancel (Visit.longestStay s + 1)).2 with
      | .finished o rest trail => exact ⟨o, rest, trail, rfl⟩
      | .waiting c w =>
          have reached := (ahead.moves c w waits).1
          exact absurd (Nat.le_of_add_le_add_left (Nat.le_trans reached ahead.le))
            (Nat.not_succ_le_self _)
  · obtain ⟨-, ahead⟩ | ahead := ahead_turns same start a peer cancel n
    · exact ⟨ahead.le, Progress.tolerable ahead.patient⟩
    · exact ⟨ahead.le, Progress.tolerable ahead.patient⟩

def lenientSettings : Settings where
  limiter := { maxEventsPerWindow := 1, escalationThreshold := 10 }

def latecomer : Address := .v4 #v[198, 51, 100, 9]

/-- A gate as a latecomer meets it at its turns: another connection of its address has come
before each of them. -/
def crowded (n : Nat) : Gate :=
  let g : Gate :=
    { settings := lenientSettings
      detector := .engine .allowAll
      registry := .ofSettings lenientSettings.registry
      limiter := .ofSettings lenientSettings
      blocklist := .ofSettings lenientSettings.blocklist
      sink := .discard }
  (g.check latecomer (n * 900000000)).2

/-- A latecomer is told to wait twice, and turned away when a third delay would be too much. -/
theorem latecomer_turned_away :
    let turn := turns crowded 0 latecomer [] none 2
    (turn.1 = 1900000000 ∧ turn.2.served = [1000000000, 900000000] ∧
        StageResult.checks turn.2.trail = 3) ∧
      (turn.1 ≤ 0 + Visit.longestStay lenientSettings ∧ turn.2.served.sum ≤ 2000000000 ∧
        StageResult.checks turn.2.trail ≤ 2001) ∧
      ∃ n o rest trail, (turns crowded 0 latecomer [] none n).2 = .finished o rest trail := by
  obtain ⟨ends, bounded⟩ := turns_end lenientSettings crowded (fun _ => rfl) 0 latecomer [] none
  exact ⟨by decide +kernel, bounded 2, ends⟩

end Gate

end AdmissionGate
