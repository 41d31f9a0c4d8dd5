import AdmissionGate.Net.Endpoint
import AdmissionGate.Proofs.Net.AddressText

/-!
The text of an address with a port spells that address, port and scope.
-/

namespace AdmissionGate.Endpoint

open Address

variable {rest : List Char}

theorem takeNumber_render {bound n : Nat} (small : n < bound) (stops : Stops (isDigit 10) rest) :
    takeNumber bound (Digits.render 10 n ++ rest) = some (n, rest) := by
  rw [takeNumber, takeDigits_render (by decide) (by decide) n stops]
  dsimp only
  rw [if_neg (Digits.render_ne_nil 10 n), Digits.valueOf?_render (by decide) (by decide)]
  simp [small]

theorem takePort_render (port : UInt16) :
    takePort (':' :: Digits.render 10 port.toNat) = some (port, []) := by
  have taken := takeNumber_render port.toNat_lt (Stops.nil (isDigit 10))
  rw [List.append_nil] at taken
  simp only [takePort, takeMark, if_true, Option.bind_eq_bind, Option.bind_some]
  rw [show UInt16.size = 2 ^ 16 from rfl, taken]
  simp

def scopeText (scope : UInt32) : List Char :=
  if scope = 0 then [] else '%' :: Digits.render 10 scope.toNat

theorem takeScope_scopeText (scope : UInt32) :
    takeScope (scopeText scope ++ ']' :: rest) = (scope, ']' :: rest) := by
  unfold scopeText
  split
  · rename_i zero
    rw [zero]
    rfl
  · have bracket : Stops (isDigit 10) (']' :: rest) := Stops.cons_iff.mpr (by decide)
    have taken := takeNumber_render scope.toNat_lt bracket
    rw [List.cons_append, takeScope, show UInt32.size = 2 ^ 32 from rfl, taken]
    simp

theorem endsGroups_scopeText (scope : UInt32) (rest : List Char) :
    EndsGroups (scopeText scope ++ ']' :: rest) := by
  unfold scopeText
  split
  · exact ⟨Stops.cons_iff.mpr (by decide), by simp, nofun⟩
  · exact ⟨Stops.cons_iff.mpr (by decide), by simp, nofun⟩

section Characters

variable {p : Char → Prop}

theorem forall_mem_intercalate {separator : List Char} {parts : List (List Char)}
    (separators : ∀ c ∈ separator, p c) (inner : ∀ part ∈ parts, ∀ c ∈ part, p c) :
    ∀ c ∈ separator.intercalate parts, p c := by
  induction parts with
  | nil => exact nofun
  | cons part parts ih =>
      rw [List.forall_mem_cons] at inner
      cases parts with
      | nil => simpa using inner.1
      | cons next more =>
          rw [List.intercalate_cons_cons, List.forall_mem_append, List.forall_mem_append]
          exact ⟨⟨inner.1, separators⟩, ih inner.2⟩

variable (digit : ∀ d < 16, p (Digits.ofNat d)) (mark : ∀ c ∈ ['.', ':', '[', ']', '%'], p c)
include digit mark

theorem forall_mem_dotted (octets : List UInt8) : ∀ c ∈ dotted octets, p c := by
  refine forall_mem_intercalate (by simpa using mark '.' (by simp)) ?_
  rw [List.forall_mem_map]
  exact fun o _ => Digits.forall_mem_render (by decide) (fun d small => digit d (by omega)) _

theorem forall_mem_colons (groups : List UInt16) : ∀ c ∈ colons groups, p c := by
  refine forall_mem_intercalate (by simpa using mark ':' (by simp)) ?_
  rw [List.forall_mem_map]
  exact fun g _ => Digits.forall_mem_render (by decide) digit _

theorem forall_mem_groupsText (groups : List UInt16) : ∀ c ∈ groupsText groups, p c := by
  have colon : p ':' := mark ':' (by simp)
  have f : p 'f' := digit 15 (by decide)
  unfold groupsText
  split
  · exact List.forall_mem_append.mpr
      ⟨by simp [colon, f], forall_mem_dotted digit mark _⟩
  · dsimp only
    split
    · exact forall_mem_colons digit mark groups
    · simp only [List.forall_mem_append]
      exact ⟨⟨forall_mem_colons digit mark _, by simp [colon]⟩, forall_mem_colons digit mark _⟩

/-- All of a text is digits and marks between them. -/
theorem forall_mem_toChars (e : Endpoint) : ∀ c ∈ e.toChars, p c := by
  have number : ∀ n, ∀ c ∈ Digits.render 10 n, p c :=
    Digits.forall_mem_render (by decide) fun d small => digit d (by omega)
  have marks := mark
  simp only [List.forall_mem_cons] at marks
  obtain ⟨-, colon, front, back, percent, -⟩ := marks
  cases e with
  | v4 octets port =>
      rw [toChars, List.forall_mem_append, List.forall_mem_cons]
      exact ⟨forall_mem_dotted digit mark _, colon, number _⟩
  | v6 groups scope port =>
      simp only [toChars, List.forall_mem_append, List.forall_mem_cons]
      refine ⟨⟨⟨front, forall_mem_groupsText digit mark _⟩, ?_⟩, back, colon, number _⟩
      split
      · exact nofun
      · exact List.forall_mem_cons.mpr ⟨percent, number _⟩

end Characters

theorem ofText?_text (e : Endpoint) : ofText? e.text = some e := by
  rw [ofText?, text, String.toList_ofList]
  cases e with
  | v4 octets port =>
      have colon : Stops (isDigit 10) (':' :: Digits.render 10 port.toNat) :=
        Stops.cons_iff.mpr (by decide)
      have taken := takeDotted_dotted octets colon
      simp only [toChars, ofChars?, takeV4, taken, takePort_render, Option.bind_eq_bind,
        Option.bind_some, if_true]
  | v6 groups scope port =>
      have dotless : takeV4 (toChars (v6 groups scope port)) = none := by
        rw [takeV4, toChars, List.append_assoc, List.cons_append,
          takeDotted_of_stops (Stops.cons_iff.mpr (by decide)) (by simp)]
        rfl
      have taken : takeV6 (toChars (v6 groups scope port)) = some (v6 groups scope port, []) := by
        have inner := takeColons_groupsText groups
          (endsGroups_scopeText scope (':' :: Digits.render 10 port.toNat))
        change takeV6 ('[' :: groupsText groups.toList ++ scopeText scope ++ _) = _
        simp only [takeV6, takeMark, List.cons_append, List.append_assoc, if_true, inner,
          takeScope_scopeText, takePort_render, Option.bind_eq_bind, Option.bind_some]
      rw [ofChars?, dotless, taken]
      rfl

end AdmissionGate.Endpoint
