import AdmissionGate.Gate.Visit
import AdmissionGate.Proofs.Gate.Traffic

/-!
Visits that are run beside each other are traffic: each goes on as an admission does, and what
interrupts it is among what may be done to a gate meanwhile. So what holds of every reachable
traffic holds of every run of visits.
-/

namespace AdmissionGate

/-- Some reachable traffic has come to this gate, with just these admissions, and others have
released connections with these keys only. -/
def Gate.Serves (g : Gate) (lost : ConnectionKey → Prop) (now : Instant) (xs : List Admission) :
    Prop :=
  ∃ t : Traffic, t.Reachable ∧ t.now ≤ now ∧ t.gate = g ∧ t.admissions = xs ∧
    ∀ k ∈ t.released, lost k

namespace Gate.Serves

variable {g : Gate} {lost : ConnectionKey → Prop} {now : Instant}
  {before after : List Admission} {x : Admission}

theorem later (serves : g.Serves lost now before) {next : Instant} (le : now ≤ next) :
    g.Serves lost next before := by
  obtain ⟨t, reachable, past, here⟩ := serves
  exact ⟨t, reachable, Nat.le_trans past le, here⟩

theorem arrival (serves : g.Serves lost now before) (a : Address) (peer : Peer) :
    g.Serves lost now (before ++ [{ address := a, peer }]) := by
  obtain ⟨t, reachable, past, rfl, rfl, released⟩ := serves
  exact ⟨_, reachable.next past (.arrival a peer), Nat.le_refl now, rfl, rfl, released⟩

theorem turn (serves : g.Serves lost now (before ++ x :: after)) (stop : Bool) :
    (x.proceed g now stop).2.Serves lost now (before ++ (x.proceed g now stop).1 :: after) := by
  obtain ⟨t, reachable, past, rfl, here, released⟩ := serves
  exact ⟨_, reachable.next past (.turn stop here), Nat.le_refl now, rfl, rfl, released⟩

theorem abandonment (serves : g.Serves lost now (before ++ x :: after)) :
    (x.abandoned g now).Serves lost now (before ++ after) := by
  obtain ⟨t, reachable, past, rfl, here, released⟩ := serves
  exact ⟨_, reachable.next past (.abandonment here), Nat.le_refl now, rfl, rfl, released⟩

theorem operation (serves : g.Serves lost now before) {o : Operation}
    (own : ∀ x ∈ before, ∀ k, x.key? = some k → o.writes? ≠ some k)
    (releases : ∀ k, o.releases? = some k → lost k) : (g.perform now o).Serves lost now before := by
  obtain ⟨t, reachable, past, rfl, rfl, released⟩ := serves
  refine ⟨_, reachable.next past (.operation o own), Nat.le_refl now, rfl, rfl, ?_⟩
  intro k member
  rcases List.mem_append.mp member with now_released | before
  · exact releases k (Option.mem_toList.mp now_released)
  · exact released k before

end Gate.Serves

namespace Visit

/-- The visit is where the admission is; no admission is left of one that was abandoned. -/
def Shows (v : Visit) : Option Admission → Prop
  | none => ∃ ended, v.stage = .over ended none
  | some x => x.address = v.address ∧
      match v.stage with
      | .coming peer => x.progress = none ∧ x.peer = peer
      | .waiting c w => x.progress = some (.waiting c w)
      | .over _ (some o) => ∃ rest trail, x.progress = some (.finished o rest trail)
      | .over _ none => False

namespace Shows

variable {v : Visit} {here : Option Admission}

theorem coming (shows : v.Shows here) {peer : Peer} (stage : v.stage = .coming peer) :
    here = some { address := v.address, peer } := by
  cases here with
  | none =>
      obtain ⟨ended, abandoned⟩ := shows
      cases stage.symm.trans abandoned
  | some x =>
      obtain ⟨a, peer', progress⟩ := x
      simp only [Shows, stage] at shows
      obtain ⟨rfl, rfl, rfl⟩ := shows
      rfl

theorem waiting (shows : v.Shows here) {c : Candidate} {w : Wait}
    (stage : v.stage = .waiting c w) :
    ∃ peer, here = some { address := v.address, peer, progress := some (.waiting c w) } := by
  cases here with
  | none =>
      obtain ⟨ended, abandoned⟩ := shows
      cases stage.symm.trans abandoned
  | some x =>
      obtain ⟨a, peer, progress⟩ := x
      simp only [Shows, stage] at shows
      obtain ⟨rfl, rfl⟩ := shows
      exact ⟨peer, rfl⟩

theorem stage {x : Admission} (shows : v.Shows (some x)) {c : Candidate} {w : Wait}
    (waits : x.progress = some (.waiting c w)) : v.stage = .waiting c w := by
  obtain ⟨-, shows⟩ := shows
  rw [waits] at shows
  split at shows
  · cases shows.1
  · rename_i stage
    cases shows
    exact stage
  · obtain ⟨_, _, ended⟩ := shows
    cases ended
  · cases shows

theorem key {x : Admission} (shows : v.Shows (some x)) {k : ConnectionKey}
    (key : x.key? = some k) : ∃ c w, v.stage = .waiting c w ∧ c.key = k := by
  simp only [Admission.key?] at key
  split at key
  · rename_i c w waits
    exact ⟨c, w, shows.stage waits, Option.some.inj key⟩
  · cases key

theorem advanced (v : Visit) (now : Instant) (peer : Peer) (p : Progress) :
    (v.advanced now p).Shows (some { address := v.address, peer, progress := some p }) := by
  cases p with
  | waiting c w => exact ⟨rfl, rfl⟩
  | finished o rest trail => exact ⟨rfl, rest, trail, rfl⟩

end Shows

/-- The admissions that visits show, in the order of the visits. -/
inductive Played : List Visit → List Admission → Prop
  | nil : Played [] []
  | cons {v : Visit} {vs : List Visit} {here : Option Admission} {xs : List Admission}
      (shows : v.Shows here) (rest : Played vs xs) : Played (v :: vs) (here.toList ++ xs)

theorem Played.shown {vs : List Visit} {xs : List Admission} (played : Played vs xs)
    {x : Admission} (member : x ∈ xs) : ∃ v ∈ vs, v.Shows (some x) := by
  induction played with
  | nil => cases member
  | cons shows _ ih =>
      rcases List.mem_append.mp member with first | later
      · obtain rfl := Option.mem_toList.mp first
        exact ⟨_, List.mem_cons_self .., shows⟩
      · obtain ⟨v, member, shows⟩ := ih later
        exact ⟨v, List.mem_cons_of_mem _ member, shows⟩

theorem Played.parts {before after : List Visit} {v : Visit} {xs : List Admission}
    (played : Played (before ++ v :: after) xs) :
    ∃ ys here zs, Played before ys ∧ v.Shows here ∧ xs = ys ++ (here.toList ++ zs) := by
  induction before generalizing xs with
  | nil =>
      obtain _ | ⟨shows, _⟩ := played
      exact ⟨[], _, _, .nil, shows, rfl⟩
  | cons first before ih =>
      obtain _ | ⟨shows, rest⟩ := played
      obtain ⟨ys, here, zs, played, found, rfl⟩ := ih rest
      exact ⟨_, here, zs, .cons shows played, found, (List.append_assoc ..).symm⟩

/-- Others release connections with these keys only while the visit is under way. -/
def Spares (lost : ConnectionKey → Prop) (v : Visit) : Prop :=
  ∀ i ∈ v.interruptions, ∀ k, i.2 = .release k → lost k

/-- What is done to a visit at the instant `now` amounts to steps of traffic. -/
def Treats (lost : ConnectionKey → Prop) (now : Instant) (f : Gate → Visit → Gate × Visit) :
    Prop :=
  ∀ {g : Gate} {v : Visit} {here : Option Admission} {before after : List Admission},
    v.Shows here → v.Spares lost → g.Serves lost now (before ++ (here.toList ++ after)) →
      ∃ next, (f g v).2.Shows next ∧ (f g v).2.Spares lost ∧
        (f g v).1.Serves lost now (before ++ (next.toList ++ after))

variable {lost : ConnectionKey → Prop}

theorem serves_interrupt {now : Instant} {g : Gate} {v : Visit} {here : Option Admission}
    {before after : List Admission} (shows : v.Shows here)
    (serves : g.Serves lost now (before ++ (here.toList ++ after))) {i : Interruption}
    (spares : ∀ k, i = .release k → lost k) :
    ∃ next, (interrupt now g v i).2.Shows next ∧
      (interrupt now g v i).1.Serves lost now (before ++ (next.toList ++ after)) := by
  cases i with
  | cancel => exact ⟨here, shows, serves⟩
  | abandon =>
      simp only [interrupt]
      split
      · rename_i peer stage
        cases shows.coming stage
        exact ⟨none, ⟨now, rfl⟩, serves.abandonment⟩
      · rename_i c w stage
        obtain ⟨peer, rfl⟩ := shows.waiting stage
        exact ⟨none, ⟨now, rfl⟩, serves.abandonment⟩
      · exact ⟨here, shows, serves⟩
  | release k =>
      have released (k' : ConnectionKey) (same : (Operation.release k).releases? = some k') :
          lost k' := by
        cases same
        exact spares k rfl
      exact ⟨here, shows, serves.operation (o := .release k) (fun _ _ _ _ => nofun) released⟩
  | block a length =>
      exact ⟨here, shows, serves.operation (o := .block a .manualBlock length)
        (fun _ _ _ _ => nofun) nofun⟩
  | unblock a =>
      exact ⟨here, shows, serves.operation (o := .unblock a) (fun _ _ _ _ => nofun) nofun⟩
  | penalize a amount =>
      exact ⟨here, shows,
        serves.operation (o := .penalize a amount) (fun _ _ _ _ => nofun) nofun⟩

theorem treats_proceed (lost : ConnectionKey → Prop) (now : Instant) :
    Treats lost now (proceed now) := by
  intro g v here before after shows spares serves
  have advanced (p : Progress) : (v.advanced now p).Spares lost := by cases p <;> exact spares
  simp only [proceed]
  split
  · rename_i peer stage
    split
    · cases shows.coming stage
      exact ⟨_, .advanced v now peer _, advanced _, serves.turn v.stop⟩
    · exact ⟨here, shows, spares, serves⟩
  · rename_i c w stage
    split
    · obtain ⟨peer, rfl⟩ := shows.waiting stage
      exact ⟨_, .advanced v now peer _, advanced _, serves.turn v.stop⟩
    · exact ⟨here, shows, spares, serves⟩
  · exact ⟨here, shows, spares, serves⟩

/-- What is left of the interruptions when those that are due are done stands with the visit. -/
theorem serves_interruptDue {now : Instant} {due : List (Instant × Interruption)} {g : Gate}
    {v : Visit} {here : Option Admission} {before after : List Admission} (shows : v.Shows here)
    (serves : g.Serves lost now (before ++ (here.toList ++ after)))
    (spares : ∀ i ∈ due, ∀ k, i.2 = .release k → lost k) :
    ∃ next, (interruptDue now g v due).2.Shows next ∧ (interruptDue now g v due).2.Spares lost ∧
      (interruptDue now g v due).1.Serves lost now (before ++ (next.toList ++ after)) := by
  induction due generalizing g v here with
  | nil => exact ⟨here, shows, fun _ => nofun, serves⟩
  | cons first rest ih =>
      simp only [interruptDue]
      split
      · obtain ⟨next, shows, serves⟩ :=
          serves_interrupt shows serves (spares first (List.mem_cons_self ..))
        exact ih shows serves fun i member => spares i (List.mem_cons_of_mem _ member)
      · exact ⟨here, shows, spares, serves⟩

theorem treats_interruptDue (lost : ConnectionKey → Prop) (now : Instant) :
    Treats lost now fun g v => interruptDue now g v v.interruptions :=
  fun shows spares serves => serves_interruptDue shows serves spares

/-- The visits that were treated already are in front of those that are still to be treated. -/
theorem Treats.each {now : Instant} {f : Gate → Visit → Gate × Visit} (treats : Treats lost now f)
    {vs : List Visit} {xs : List Admission} (played : Played vs xs)
    (spares : ∀ v ∈ vs, v.Spares lost) {g : Gate} (before after : List Admission)
    (serves : g.Serves lost now (before ++ (xs ++ after))) :
    ∃ ys, Played (Visit.each f g vs).2 ys ∧ (∀ v ∈ (Visit.each f g vs).2, v.Spares lost) ∧
      (Visit.each f g vs).1.Serves lost now (before ++ (ys ++ after)) := by
  induction played generalizing g before with
  | nil => exact ⟨[], .nil, spares, serves⟩
  | cons shows _ ih =>
      rw [List.append_assoc] at serves
      obtain ⟨next, shows, spare, serves⟩ := treats shows (spares _ (List.mem_cons_self ..)) serves
      rw [← List.append_assoc] at serves
      obtain ⟨ys, played, others, serves⟩ :=
        ih (fun v member => spares v (List.mem_cons_of_mem _ member)) _ serves
      rw [List.append_assoc, ← List.append_assoc next.toList] at serves
      exact ⟨next.toList ++ ys, .cons shows played, List.forall_mem_cons.mpr ⟨spare, others⟩,
        serves⟩

structure Play (lost : ConnectionKey → Prop) (now : Instant) (g : Gate) (vs : List Visit) :
    Prop where
  spares : ∀ v ∈ vs, v.Spares lost
  traffic : ∃ xs, Played vs xs ∧ g.Serves lost now xs

variable {now : Instant} {g : Gate} {vs : List Visit}

/-- Visits that have not begun are played at any gate whose registry is numbered. -/
theorem play_coming (numbered : g.registry.Numbered) (now : Instant)
    (coming : ∀ v ∈ vs, ∃ peer, v.stage = .coming peer) (spares : ∀ v ∈ vs, v.Spares lost) :
    Play lost now g vs := by
  have arrive (before : List Admission) (serves : g.Serves lost now before) :
      ∃ xs, Played vs xs ∧ g.Serves lost now (before ++ xs) := by
    clear spares
    induction vs generalizing before with
    | nil =>
        rw [← List.append_nil before] at serves
        exact ⟨[], .nil, serves⟩
    | cons v vs ih =>
        obtain ⟨peer, stage⟩ := coming v (List.mem_cons_self ..)
        have shows : v.Shows (some { address := v.address, peer }) := by
          simp only [Shows, stage, and_self]
        have others : ∀ v ∈ vs, ∃ peer, v.stage = .coming peer :=
          fun v member => coming v (List.mem_cons_of_mem _ member)
        obtain ⟨xs, played, serves⟩ := ih others _ (serves.arrival v.address peer)
        rw [List.append_assoc] at serves
        exact ⟨_, .cons shows played, serves⟩
  exact ⟨spares, arrive [] ⟨_, .opened numbered, Nat.le_refl now, rfl, rfl, nofun⟩⟩

namespace Play

theorem later (play : Play lost now g vs) {next : Instant} (le : now ≤ next) :
    Play lost next g vs := by
  obtain ⟨xs, played, serves⟩ := play.traffic
  exact ⟨play.spares, xs, played, serves.later le⟩

theorem each (play : Play lost now g vs) {f : Gate → Visit → Gate × Visit}
    (treats : Treats lost now f) :
    Play lost now (Visit.each f g vs).1 (Visit.each f g vs).2 := by
  obtain ⟨xs, played, serves⟩ := play.traffic
  rw [← List.append_nil xs] at serves
  obtain ⟨ys, played, spares, serves⟩ := treats.each played play.spares [] [] serves
  rw [List.nil_append, List.append_nil] at serves
  exact ⟨spares, ys, played, serves⟩

/-- The gate that a visit meets when those before it have had their turn. -/
theorem meets {before after : List Visit} {v : Visit}
    (play : Play lost now g (before ++ v :: after)) {f : Gate → Visit → Gate × Visit}
    (treats : Treats lost now f) :
    ∃ here xs ys, v.Shows here ∧ v.Spares lost ∧
      (Visit.each f g before).1.Serves lost now (xs ++ (here.toList ++ ys)) := by
  obtain ⟨spares, _, played, serves⟩ := play
  obtain ⟨xs, here, ys, earlier, shows, rfl⟩ := played.parts
  obtain ⟨spared, spare⟩ := List.forall_mem_append.mp spares
  obtain ⟨zs, -, -, serves⟩ := treats.each earlier spared [] _ serves
  exact ⟨here, zs, ys, shows, spare v (List.mem_cons_self ..), serves⟩

theorem operation (play : Play lost now g vs) {o : Operation}
    (own : ∀ v ∈ vs, ∀ c w, v.stage = .waiting c w → o.writes? ≠ some c.key)
    (releases : ∀ k, o.releases? = some k → lost k) : Play lost now (g.perform now o) vs := by
  obtain ⟨spares, xs, played, serves⟩ := play
  refine ⟨spares, xs, played, serves.operation (fun x member k key => ?_) releases⟩
  obtain ⟨v, there, shows⟩ := played.shown member
  obtain ⟨c, w, stage, rfl⟩ := shows.key key
  exact own v there c w stage

theorem round (play : Play lost now g vs) :
    Play lost now (Visit.round now g vs).1 (Visit.round now g vs).2 :=
  (play.each (treats_interruptDue lost now)).each (treats_proceed lost now)

end Play

end Visit

end AdmissionGate
