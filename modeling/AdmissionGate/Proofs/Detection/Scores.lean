import AdmissionGate.Detection.Heuristic
import Mathlib.Algebra.GroupWithZero.Nat
import Mathlib.Algebra.Order.BigOperators.Group.List
import Mathlib.Algebra.Order.Group.Nat
import Mathlib.Data.List.Nodup

/-!
What signs add up to. A score is the points of the signs that show, up to a hundred, however they
come to be added; and the more signs show, the higher the score and the more severe the verdict.
-/

namespace AdmissionGate

def Verdict.severity : Verdict → Nat
  | allow => 0
  | throttle .. => 1
  | block .. => 2

/-- Two engines answer at once, and the second is no milder than the first. -/
def Consultation.NoMilder (c c' : Consultation) : Prop :=
  ∃ v v', c.answer = some (0, .verdict v) ∧ c'.answer = some (0, .verdict v') ∧
    v.severity ≤ v'.severity

theorem Sign.name_injective : Function.Injective Sign.name := by
  intro sign other same
  cases sign <;> cases other <;> first | rfl | exact absurd same (by decide)

namespace Assessment

def reasons (a : Assessment) : List String := a.signs.map Sign.name

def sumOf (signs : List Sign) : Nat := (signs.map Sign.points).sum

theorem sumOf_cons (sign : Sign) (signs : List Sign) :
    sumOf (sign :: signs) = sign.points + sumOf signs :=
  List.sum_cons

theorem score_add (a : Assessment) (sign : Sign) :
    (a.add sign).score = min (a.score + sign.points) mostPoints :=
  rfl

/-- Cutting a score at each step cuts it once. -/
theorem score_foldl_add (a : Assessment) (small : a.score ≤ mostPoints) (signs : List Sign) :
    (signs.foldl add a).score = min mostPoints (a.score + sumOf signs) := by
  induction signs generalizing a with
  | nil => exact (Nat.min_eq_right small).symm
  | cons sign signs ih =>
      have cut : (a.add sign).score ≤ mostPoints := Nat.min_le_right ..
      rw [List.foldl_cons, ih _ cut, sumOf_cons, score_add]
      omega

theorem signs_foldl_add (a : Assessment) (signs : List Sign) :
    (signs.foldl add a).signs = a.signs ++ signs := by
  induction signs generalizing a with
  | nil => exact (List.append_nil _).symm
  | cons sign signs ih => rw [List.foldl_cons, ih, add, List.append_assoc, List.singleton_append]

theorem score_ofSigns (signs : List Sign) :
    (ofSigns signs).score = min mostPoints (sumOf signs) := by
  rw [ofSigns, score_foldl_add _ (Nat.zero_le _), Nat.zero_add]

theorem signs_ofSigns (signs : List Sign) : (ofSigns signs).signs = signs := by
  rw [ofSigns, signs_foldl_add, List.nil_append]

/-- The more signs, the higher the score. -/
theorem score_mono {signs signs' : List Sign} (fewer : signs.Sublist signs') :
    (ofSigns signs).score ≤ (ofSigns signs').score := by
  have sums : sumOf signs ≤ sumOf signs' :=
    (fewer.map Sign.points).sum_le_sum fun _ _ => Nat.zero_le _
  rw [score_ofSigns, score_ofSigns]
  omega

end Assessment

namespace HeuristicSettings

variable (s : HeuristicSettings) {r r' : ConnectionRecord} {h h' : Handshake}

theorem mem_order (sign : Sign) : sign ∈ order := by
  cases sign <;> decide

theorem signs_assess : (s.assess r h).signs = order.filter (s.shows r h) :=
  Assessment.signs_ofSigns _

theorem mem_signs_assess (sign : Sign) :
    sign ∈ (s.assess r h).signs ↔ s.shows r h sign = true := by
  rw [signs_assess, List.mem_filter, and_iff_right (mem_order sign)]

/-- Where each sign that shows still shows, the score is no lower. -/
theorem score_assess_mono (more : ∀ sign, s.shows r h sign = true → s.shows r' h' sign = true) :
    (s.assess r h).score ≤ (s.assess r' h').score :=
  Assessment.score_mono (List.monotone_filter_right order more)

theorem severity_mono {score score' : Nat} (higher : score ≤ score') :
    (s.verdictFor score).severity ≤ (s.verdictFor score').severity := by
  simp only [verdictFor]
  split
  · rw [if_pos (by omega)]
  · split
    · split
      · exact Nat.le_succ 1
      · rw [if_pos (by omega)]
    · exact Nat.zero_le _

theorem noMilder (more : ∀ sign, s.shows r h sign = true → s.shows r' h' sign = true) :
    (s.classify r h).NoMilder (s.classify r' h') :=
  ⟨_, _, rfl, rfl, s.severity_mono (s.score_assess_mono more)⟩

theorem shows_of_reasons (among : (s.assess r h).reasons ⊆ (s.assess r' h').reasons) (sign : Sign)
    (shown : s.shows r h sign = true) : s.shows r' h' sign = true := by
  have listed : sign.name ∈ (s.assess r h).reasons :=
    List.mem_map_of_mem ((s.mem_signs_assess sign).mpr shown)
  have given := among listed
  rw [Assessment.reasons, List.mem_map_of_injective Sign.name_injective] at given
  exact (s.mem_signs_assess sign).mp given

theorem nodup_reasons : (s.assess r h).reasons.Nodup := by
  rw [Assessment.reasons, signs_assess]
  have once : order.Nodup := by decide
  exact List.Nodup.map Sign.name_injective (once.filter _)

/-- Only reconnecting is told from the registrations that are remembered. -/
theorem shows_of_priorConnections_le {more : Nat} (le : r.priorConnections ≤ more) (sign : Sign)
    (shown : s.shows r h sign = true) :
    s.shows { r with priorConnections := more } h sign = true := by
  cases sign with
  | reconnectChurn =>
      simp only [shows, decide_eq_true_eq] at shown ⊢
      exact Nat.le_trans shown le
  | _ => exact shown

/-- A score is the points of the reasons, each counted once, up to a hundred. More reasons never
lead to a milder verdict, so reconnecting more often does not. -/
theorem more_reasons_never_help (s : HeuristicSettings) :
    (∀ r h, (s.assess r h).score =
        min 100 ((s.assess r h).signs.map Sign.points).sum ∧ (s.assess r h).reasons.Nodup) ∧
      (∀ r h r' h', (s.assess r h).reasons ⊆ (s.assess r' h').reasons →
        (s.classify r h).NoMilder (s.classify r' h')) ∧
      ∀ r h more, r.priorConnections ≤ more →
        (s.classify r h).NoMilder (s.classify { r with priorConnections := more } h) := by
  refine ⟨fun r h => ⟨?_, s.nodup_reasons⟩, fun r h r' h' among => ?_, fun r h more le => ?_⟩
  · rw [signs_assess]
    exact Assessment.score_ofSigns _
  · exact s.noMilder (s.shows_of_reasons among)
  · exact s.noMilder (s.shows_of_priorConnections_le le)

def strict : HeuristicSettings where
  expectedHosts := ["play.example.net"]
  expectedPort := some 25565

def newcomer : ConnectionRecord where
  key := ⟨.v4 #v[203, 0, 113, 7], 1⟩
  priorConnections := 0

/-- An unexpected name is suspicious; without a name and with another port, it is too much, and so
it is from a client that comes back for the fiftieth time. -/
theorem strict_more_reasons :
    let stray := Handshake.ofFields 767 "other.example.net" 25565 .login
    let lost := Handshake.ofFields 767 "" 1 .login
    let returning := { newcomer with priorConnections := 50 }
    (strict.assess newcomer stray).reasons = ["unexpected_host"] ∧
      (strict.assess newcomer lost).reasons =
        ["empty_server_address", "unexpected_host", "unexpected_port"] ∧
      (strict.assess newcomer lost).score = 100 ∧
      (strict.classify newcomer stray).NoMilder (strict.classify newcomer lost) ∧
      (strict.classify newcomer stray).answer =
        some (0, .verdict (.throttle .classificationRejected 0)) ∧
      (strict.classify newcomer stray).NoMilder (strict.classify returning stray) ∧
      (strict.classify returning stray).answer =
        some (0, .verdict (.reject .classificationRejected)) := by
  intro stray lost returning
  obtain ⟨-, more, again⟩ := more_reasons_never_help strict
  have first : (strict.assess newcomer stray).reasons = ["unexpected_host"] := by decide +kernel
  have second : (strict.assess newcomer lost).reasons =
      ["empty_server_address", "unexpected_host", "unexpected_port"] := by decide +kernel
  refine ⟨first, second, by decide +kernel, more _ _ _ _ ?_, by decide +kernel,
    again _ _ 50 (by decide), by decide +kernel⟩
  rw [first, second]
  decide

end HeuristicSettings

end AdmissionGate
