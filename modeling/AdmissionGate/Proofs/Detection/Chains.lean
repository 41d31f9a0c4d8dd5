import AdmissionGate.Detection.Engine
import Mathlib.Algebra.GroupWithZero.Nat
import Mathlib.Logic.Relation

/-!
Chains of detectors. What comes of asking a row of engines is told without the chain: which of
them are asked, the time it takes, the opinion in the end, and what is noted down. A chain does
this with its members, and a chain among them stands for its own members in its place. So
whatever the nesting, a chain asks its engines as if they stood in one row.
-/

namespace AdmissionGate

namespace Consultation

def opinion? (c : Consultation) : Option Opinion := c.answer.map (·.2)

/-- The time until the answer; an engine that hangs has none. -/
def delay (c : Consultation) : Duration := (c.answer.map (·.1)).getD 0

/-- The opinion is a verdict that does not block, so the next engine is asked. -/
def passesOn (c : Consultation) : Bool :=
  match c.opinion? with
  | some (.verdict v) => !v.isBlocked
  | _ => false

def throttle? (c : Consultation) : Option Verdict :=
  match c.opinion? with
  | some (.verdict v) => if v.isThrottled then some v else none
  | _ => none

variable {c : Consultation} {v : Verdict}

theorem answer_eq (c : Consultation) : c.answer = c.opinion?.map (c.delay, ·) := by
  simp only [opinion?, delay]
  cases c.answer <;> rfl

theorem passesOn_eq_true_iff :
    c.passesOn = true ↔ ∃ v, c.opinion? = some (.verdict v) ∧ v.isBlocked = false := by
  simp only [passesOn]
  split
  · rename_i v given
    simp [given]
  · rename_i other
    simp only [Bool.false_eq_true, false_iff, not_exists, not_and]
    intro v given
    exact absurd given (other v)

theorem passesOn_congr {c' : Consultation} (same : c.opinion? = c'.opinion?) :
    c.passesOn = c'.passesOn := by
  rw [passesOn, passesOn, same]

theorem isBlocked_of_not_passesOn (stops : c.passesOn = false)
    (given : c.opinion? = some (.verdict v)) : v.isBlocked = true := by
  simpa [passesOn, given] using stops

/-- A verdict that throttles neither allows nor blocks. -/
theorem strict_of_throttle? (h : c.throttle? = some v) :
    v.isAllowed = false ∧ v.isBlocked = false := by
  simp only [throttle?] at h
  split at h
  · split at h
    · rename_i throttles
      cases h
      cases v <;> first | exact ⟨rfl, rfl⟩ | contradiction
    · contradiction
  · contradiction

end Consultation

namespace Row

variable {α : Type} (ask : α → Consultation)

def stop? (row : List α) : Option α := row.find? fun a => !(ask a).passesOn

/-- Those that are asked: all up to the first that does not pass on, and that one. -/
def asked (row : List α) : List α := row.take (row.findIdx (fun a => !(ask a).passesOn) + 1)

/-- The verdict where all pass on: the one that was kept before or, where that allows, the first
that throttles. -/
def leaning (kept : Verdict) (row : List α) : Verdict :=
  if kept.isAllowed then (row.findSome? fun a => (ask a).throttle?).getD .allow else kept

/-- What comes of it: the opinion of the first that does not pass on, if there is one. An engine
that hangs has none. -/
def outcome? (kept : Verdict) (row : List α) : Option Opinion :=
  match stop? ask row with
  | some a => (ask a).opinion?
  | none => some (.verdict (leaning ask kept row))

def elapsed (row : List α) : Duration := (row.map fun a => (ask a).delay).sum

def later (d : Duration) (notes : List (Duration × JournalEntry)) :
    List (Duration × JournalEntry) :=
  notes.map fun n => (d + n.1, n.2)

/-- What all in a row note down if each is asked when the one before has answered. -/
def noted : List α → List (Duration × JournalEntry)
  | [] => []
  | a :: row => (ask a).notes ++ later (ask a).delay (noted row)

/-- The consultation goes as if a row were asked in order. Behind the notes of those that are
asked, only chains that were blocked have noted that down, each with the name of the member that
blocked it. -/
structure InTurn (r : ConnectionRecord) (kept : Verdict) (row : List α) (c : Consultation) :
    Prop where
  answer : c.answer = (outcome? ask kept row).map (elapsed ask (asked ask row), ·)
  notes : ∃ names : List String, (c.passesOn = true → names = []) ∧
    c.notes = noted ask (asked ask row) ++
      names.map fun name => (elapsed ask (asked ask row), .chainBlocked r.key name)

section

variable {ask} {kept : Verdict} {xs ys : List α} {a : α}

theorem stop?_cons (a : α) (row : List α) :
    stop? ask (a :: row) = if (ask a).passesOn then stop? ask row else some a := by
  simp only [stop?, List.find?_cons]
  cases (ask a).passesOn <;> rfl

theorem not_passesOn_of_stop? (stop : stop? ask xs = some a) : (ask a).passesOn = false := by
  simpa using List.find?_some stop

theorem stop?_append (xs ys : List α) :
    stop? ask (xs ++ ys) = (stop? ask xs).or (stop? ask ys) :=
  List.find?_append

theorem asked_cons (a : α) (row : List α) :
    asked ask (a :: row) = a :: if (ask a).passesOn then asked ask row else [] := by
  cases pass : (ask a).passesOn <;> simp [asked, List.findIdx_cons, pass]

theorem asked_singleton (a : α) : asked ask [a] = [a] := by
  rw [asked_cons]
  cases (ask a).passesOn <;> rfl

theorem asked_append (xs ys : List α) :
    asked ask (xs ++ ys) =
      asked ask xs ++ if (stop? ask xs).isNone then asked ask ys else [] := by
  induction xs with
  | nil => rfl
  | cons a xs ih =>
      rw [List.cons_append, asked_cons, asked_cons, stop?_cons, ih]
      cases (ask a).passesOn <;> rfl

theorem leaning_allow (row : List α) :
    leaning ask .allow row = (row.findSome? fun a => (ask a).throttle?).getD .allow :=
  rfl

theorem leaning_of_not_allowed (strict : kept.isAllowed = false) (row : List α) :
    leaning ask kept row = kept := by
  rw [leaning, strict]
  rfl

/-- The verdict that counts so far is kept for the rest of a row. -/
theorem leaning_append (kept : Verdict) (xs ys : List α) :
    leaning ask kept (xs ++ ys) =
      leaning ask (if kept.isAllowed then leaning ask .allow xs else kept) ys := by
  cases free : kept.isAllowed with
  | false => simp only [leaning_of_not_allowed free, Bool.false_eq_true, if_false]
  | true =>
      rw [leaning, if_pos free, if_pos rfl, List.findSome?_append, leaning_allow]
      cases found : xs.findSome? fun a => (ask a).throttle? with
      | none => rfl
      | some v =>
          obtain ⟨a, -, throttles⟩ := List.exists_of_findSome?_eq_some found
          have strict := (Consultation.strict_of_throttle? throttles).1
          exact (leaning_of_not_allowed strict ys).symm

theorem isBlocked_leaning (row : List α) : (leaning ask .allow row).isBlocked = false := by
  rw [leaning_allow]
  cases found : row.findSome? fun a => (ask a).throttle? with
  | none => rfl
  | some v =>
      obtain ⟨a, -, throttles⟩ := List.exists_of_findSome?_eq_some found
      exact (Consultation.strict_of_throttle? throttles).2

theorem elapsed_append (xs ys : List α) :
    elapsed ask (xs ++ ys) = elapsed ask xs + elapsed ask ys := by
  simp only [elapsed, List.map_append, List.sum_append]

theorem later_later (d e : Duration) (notes : List (Duration × JournalEntry)) :
    later d (later e notes) = later (d + e) notes := by
  simp only [later, List.map_map, Function.comp_def, Nat.add_assoc]

theorem later_append (d : Duration) (ns ms : List (Duration × JournalEntry)) :
    later d (ns ++ ms) = later d ns ++ later d ms :=
  List.map_append

theorem noted_append (xs ys : List α) :
    noted ask (xs ++ ys) = noted ask xs ++ later (elapsed ask xs) (noted ask ys) := by
  induction xs with
  | nil => simp [noted, later, elapsed]
  | cons a xs ih =>
      simp only [List.cons_append, noted, ih, later_append, later_later, List.append_assoc]
      rfl

theorem outcome?_append (all : stop? ask xs = none) (ys : List α) :
    outcome? ask kept (xs ++ ys) =
      outcome? ask (if kept.isAllowed then leaning ask .allow xs else kept) ys := by
  rw [outcome?, outcome?, stop?_append, all, leaning_append]
  rfl

namespace InTurn

variable {r : ConnectionRecord} {c : Consultation}

theorem nil (kept : Verdict) : InTurn ask r kept [] (.atOnce (.verdict kept)) where
  answer := by
    have verdict : leaning ask kept [] = kept := by
      cases kept <;> rfl
    rw [outcome?, verdict]
    rfl
  notes := ⟨[], fun _ => rfl, rfl⟩

theorem singleton (a : α) : InTurn ask r .allow [a] (ask a) where
  answer := by
    rw [Consultation.answer_eq, asked_singleton, outcome?, stop?_cons]
    cases pass : (ask a).passesOn with
    | false => simp [elapsed]
    | true =>
        obtain ⟨v, given, free⟩ := Consultation.passesOn_eq_true_iff.mp pass
        have verdict : leaning ask .allow [a] = v := by
          simp only [leaning_allow, List.findSome?_singleton, Consultation.throttle?, given]
          cases v <;> first | rfl | contradiction
        simp [stop?, elapsed, given, verdict]
  notes := by
    refine ⟨[], fun _ => rfl, ?_⟩
    rw [asked_singleton]
    simp [noted, later]

theorem opinion? (whole : InTurn ask r kept xs c) : c.opinion? = outcome? ask kept xs := by
  rw [Consultation.opinion?, whole.answer]
  cases outcome? ask kept xs <;> rfl

theorem due (whole : InTurn ask r kept xs c) {d : Duration} {o : Opinion}
    (answer : c.answer = some (d, o)) : elapsed ask (asked ask xs) = d := by
  rw [whole.answer, Option.map_eq_some_iff] at answer
  obtain ⟨_, -, same⟩ := answer
  exact congrArg Prod.fst same

theorem passesOn_eq (whole : InTurn ask r .allow xs c) :
    c.passesOn = (stop? ask xs).isNone := by
  have opinion := whole.opinion?
  rw [outcome?] at opinion
  cases stop : stop? ask xs with
  | none =>
      rw [stop] at opinion
      exact Consultation.passesOn_eq_true_iff.mpr ⟨_, opinion, isBlocked_leaning xs⟩
  | some a =>
      rw [stop] at opinion
      exact (Consultation.passesOn_congr opinion).trans (not_passesOn_of_stop? stop)

/-- What ends a row ends every row that begins with it. -/
theorem extend (first : InTurn ask r .allow xs c) (stop : stop? ask xs = some a) :
    InTurn ask r kept (xs ++ ys) c where
  answer := by
    rw [first.answer, asked_append, outcome?, outcome?, stop?_append, stop]
    simp
  notes := by
    obtain ⟨names, unmarked, notes⟩ := first.notes
    refine ⟨names, unmarked, ?_⟩
    rw [notes, asked_append, stop]
    simp

/-- A chain that is blocked notes that down when it is. -/
theorem mark (first : InTurn ask r kept xs c) (stops : c.passesOn = false) (name : String) :
    InTurn ask r kept xs
      { c with notes := c.notes ++ [(elapsed ask (asked ask xs), .chainBlocked r.key name)] } where
  answer := first.answer
  notes := by
    obtain ⟨names, -, notes⟩ := first.notes
    refine ⟨names ++ [name], fun passes => ?_, ?_⟩
    · exact absurd (stops.symm.trans passes) Bool.false_ne_true
    · simp [notes]

/-- The rest of a row is asked once the engines before it have all passed on. -/
theorem goOn (first : InTurn ask r .allow xs c) (all : stop? ask xs = none) {rest : Consultation}
    (second : InTurn ask r (if kept.isAllowed then leaning ask .allow xs else kept) ys rest) :
    InTurn ask r kept (xs ++ ys)
      { rest.delayed (elapsed ask (asked ask xs)) with
        notes := c.notes ++ (rest.delayed (elapsed ask (asked ask xs))).notes } where
  answer := by
    rw [Consultation.delayed, second.answer, outcome?_append all, asked_append, all,
      Option.isNone_none, if_pos rfl, elapsed_append, Option.map_map]
    rfl
  notes := by
    obtain ⟨marks, unmarked, own⟩ := first.notes
    obtain ⟨names, quiet, notes⟩ := second.notes
    -- Only the rest can have been blocked, so only its marks are left.
    have silent : marks = [] := by
      apply unmarked
      rw [first.passesOn_eq, all]
      rfl
    refine ⟨names, fun passes => quiet ?_, ?_⟩
    · rw [← passes]
      apply Consultation.passesOn_congr
      simp [Consultation.opinion?, Consultation.delayed, Function.comp_def]
    · rw [own, silent, Consultation.delayed, notes, asked_append, all, Option.isNone_none,
        if_pos rfl, noted_append, elapsed_append]
      simp [later, Function.comp_def]

/-- How a chain goes on behind a member. -/
theorem andThen (first : InTurn ask r .allow xs c) {next : Verdict → Consultation}
    (second : ∀ k, InTurn ask r k ys (next k)) (kept : Verdict) (name : String) :
    InTurn ask r kept (xs ++ ys) (c.andThen fun v =>
      if v.isBlocked then
        { answer := some (0, .verdict v), notes := [(0, .chainBlocked r.key name)] }
      else next (if kept.isAllowed then v else kept)) := by
  have passes := first.passesOn_eq
  cases stop : stop? ask xs with
  | none =>
      have answer : c.answer =
          some (elapsed ask (asked ask xs), .verdict (leaning ask .allow xs)) := by
        rw [first.answer, outcome?, stop]
        rfl
      rw [Consultation.andThen, answer]
      simp only [isBlocked_leaning, Bool.false_eq_true, if_false]
      exact first.goOn stop (second _)
  | some a =>
      have stops : c.passesOn = false := by
        rw [passes, stop]
        rfl
      have whole : InTurn ask r kept (xs ++ ys) c := first.extend stop
      cases answer : c.answer with
      | none =>
          rw [Consultation.andThen, answer]
          exact whole
      | some given =>
          obtain ⟨d, o⟩ := given
          cases o with
          -- No verdict goes through the chain as it is, and is not marked.
          | fault | crash =>
              rw [Consultation.andThen, answer]
              exact whole
          | verdict v =>
              have given : c.opinion? = some (.verdict v) := by
                rw [Consultation.opinion?, answer]
                rfl
              have blocked := Consultation.isBlocked_of_not_passesOn stops given
              have marked := whole.mark stops name
              rw [whole.due answer, answer] at marked
              rw [Consultation.andThen, answer]
              simp only [blocked, if_true]
              exact marked

end InTurn

end

end Row

namespace Detector

open Row

mutual

def consulted (r : ConnectionRecord) (h : Handshake) : Detector → List Engine
  | engine e => [e]
  | chain members => consultedAmong r h members

/-- The engines of a row of detectors that are asked: those of a detector only if the one before
has passed on. -/
def consultedAmong (r : ConnectionRecord) (h : Handshake) : List Detector → List Engine
  | [] => []
  | d :: rest => consulted r h d ++
      if (classify r h d).passesOn then consultedAmong r h rest else []

end

/-- One chain among the members, at any depth, gives way to its own members. -/
inductive Unnests : Detector → Detector → Prop
  | here (before inner after : List Detector) :
      Unnests (chain (before ++ chain inner :: after)) (chain (before ++ inner ++ after))
  | inside (before after : List Detector) {d d' : Detector} (inner : Unnests d d') :
      Unnests (chain (before ++ d :: after)) (chain (before ++ d' :: after))

variable (r : ConnectionRecord) (h : Handshake)

/-- A chain asks its members in turn. -/
theorem classifyAll_members (kept : Verdict) (members : List Detector) :
    InTurn (classify r h) r kept members (classifyAll r h kept members) := by
  induction members generalizing kept with
  | nil =>
      rw [classifyAll]
      exact .nil kept
  | cons d rest ih =>
      rw [classifyAll]
      exact InTurn.andThen (.singleton d) ih kept d.name

mutual

/-- A detector asks its engines in turn. -/
theorem classify_engines : (d : Detector) →
    InTurn (fun e : Engine => e.classify r h) r .allow d.engines (classify r h d)
  | engine e => by
      rw [engines, classify]
      exact .singleton e
  | chain members => by
      rw [engines, classify]
      exact classifyAll_engines .allow members

theorem classifyAll_engines (kept : Verdict) : (members : List Detector) →
    InTurn (fun e : Engine => e.classify r h) r kept (enginesOf members)
      (classifyAll r h kept members)
  | [] => by
      rw [enginesOf, classifyAll]
      exact .nil kept
  | d :: rest => by
      rw [enginesOf, classifyAll]
      exact InTurn.andThen (classify_engines d) (fun k => classifyAll_engines k rest) kept d.name

end

mutual

theorem consulted_eq_asked : (d : Detector) →
    consulted r h d = asked (fun e : Engine => e.classify r h) d.engines
  | engine e => by
      rw [consulted, engines, asked_singleton]
  | chain members => by
      rw [consulted, engines]
      exact consultedAmong_eq_asked members

theorem consultedAmong_eq_asked : (members : List Detector) →
    consultedAmong r h members = asked (fun e : Engine => e.classify r h) (enginesOf members)
  | [] => by
      rw [consultedAmong, enginesOf]
      rfl
  | d :: rest => by
      rw [consultedAmong, enginesOf, asked_append, consulted_eq_asked d,
        consultedAmong_eq_asked rest, (classify_engines r h d).passesOn_eq]

end

theorem enginesOf_append (xs ys : List Detector) :
    enginesOf (xs ++ ys) = enginesOf xs ++ enginesOf ys := by
  induction xs with
  | nil => rw [List.nil_append, enginesOf, List.nil_append]
  | cons d xs ih => rw [List.cons_append, enginesOf, ih, enginesOf, List.append_assoc]

theorem Unnests.engines {d d' : Detector} (unnests : Unnests d d') : d'.engines = d.engines := by
  induction unnests with
  | here before inner after =>
      simp only [Detector.engines, enginesOf_append, enginesOf, List.append_assoc]
  | inside before after inner ih =>
      simp only [Detector.engines, enginesOf_append, enginesOf, ih]

theorem engines_of_unnested {d d' : Detector} (unnested : Relation.ReflTransGen Unnests d d') :
    d'.engines = d.engines := by
  induction unnested with
  | refl => rfl
  | tail _ last ih => exact last.engines.trans ih

/-- A chain asks its members in turn, up to the first that blocks, fails, breaks down or hangs;
its opinion is that one's, or else the first verdict that throttles, and its delay is the sum of
theirs. It does the same with its engines, and chains within it may give way to their members. -/
theorem chain_composes (members : List Detector) :
    let c := classify r h (chain members)
    InTurn (classify r h) r .allow members c ∧
      InTurn (fun e : Engine => e.classify r h) r .allow (chain members).engines c ∧
      consulted r h (chain members) =
        asked (fun e : Engine => e.classify r h) (chain members).engines ∧
      ∀ d', Relation.ReflTransGen Unnests (chain members) d' →
        (classify r h d').answer = c.answer ∧
          consulted r h d' = consulted r h (chain members) := by
  intro c
  have in_turn : InTurn (classify r h) r .allow members c := by
    have := classifyAll_members r h .allow members
    rwa [← classify] at this
  refine ⟨in_turn, classify_engines r h _, consulted_eq_asked r h _, ?_⟩
  intro d' unnested
  have same := engines_of_unnested unnested
  refine ⟨?_, ?_⟩
  · rw [(classify_engines r h d').answer, (classify_engines r h (chain members)).answer, same]
  · rw [consulted_eq_asked, consulted_eq_asked, same]

def fixed (name : String) (delay : Duration) (o : Opinion) : Detector :=
  engine { name, classify _ _ := { answer := some (delay, o) } }

/-- One that is wary, and two chains around one that blocks; the last would break down. -/
def nested : List Detector :=
  [fixed "wary" 5 (.verdict (.throttle .classificationRejected 0)),
    chain [fixed "calm" 2 (.verdict .allow),
      chain [fixed "strict" 7 (.verdict (.reject .classificationRejected))]],
    fixed "broken" 1 .crash]

def unnested : List Detector :=
  [fixed "wary" 5 (.verdict (.throttle .classificationRejected 0)),
    fixed "calm" 2 (.verdict .allow),
    fixed "strict" 7 (.verdict (.reject .classificationRejected)),
    fixed "broken" 1 .crash]

def guest : ConnectionRecord where
  key := ⟨.v4 #v[198, 51, 100, 21], 1⟩
  priorConnections := 0

def greeting : Handshake := .ofFields 767 "play.example.net" 25565 .login

theorem nested_composes :
    (classify guest greeting (chain nested)).answer =
        some (14, .verdict (.reject .classificationRejected)) ∧
      (classify guest greeting (chain unnested)).answer =
        some (14, .verdict (.reject .classificationRejected)) ∧
      (consulted guest greeting (chain unnested)).map (·.name) = ["wary", "calm", "strict"] := by
  obtain ⟨-, whole, engines, flat⟩ := chain_composes guest greeting nested
  have first : Unnests (chain nested) (chain _) :=
    .inside [fixed "wary" 5 (.verdict (.throttle .classificationRejected 0))] _
      (.here [fixed "calm" 2 (.verdict .allow)] _ [])
  have second := Unnests.here [fixed "wary" 5 (.verdict (.throttle .classificationRejected 0))]
    [fixed "calm" 2 (.verdict .allow),
      fixed "strict" 7 (.verdict (.reject .classificationRejected))] [fixed "broken" 1 .crash]
  obtain ⟨answer, consulted⟩ := flat (chain unnested) (.tail (.single first) second)
  have opinion : (classify guest greeting (chain nested)).answer =
      some (14, .verdict (.reject .classificationRejected)) := by
    rw [whole.answer]
    rfl
  refine ⟨opinion, answer.trans opinion, ?_⟩
  rw [consulted, engines]
  rfl

end Detector

end AdmissionGate
