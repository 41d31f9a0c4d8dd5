import AdmissionGate.Net.Address
import AdmissionGate.Proofs.Text.Digits

/-!
The text of an address spells that address. Four octets have points between them; eight groups are
written out, with a double colon in the place of the longest run of zeros, or with their last two
as octets. The reader takes as many groups as come, so every lemma tells what may follow: nothing
that goes on with a digit, and no colon with a further group.
-/

namespace AdmissionGate.Address

variable {base : Nat} {run rest : List Char}

def isDigit (base : Nat) (c : Char) : Bool := (Digits.value? base c).isSome

theorem isDigit_of_isDigit_ten {c : Char} (digit : isDigit 10 c = true) : isDigit 16 c = true := by
  unfold isDigit Digits.value? at *
  grind

theorem takeDigits_run (digits : ∀ c ∈ run, isDigit base c = true)
    (stops : Stops (isDigit base) rest) : takeDigits base (run ++ rest) = (run, rest) :=
  Stops.span digits stops

theorem takeDigits_render (two_le : 2 ≤ base) (base_le : base ≤ 16) (n : Nat)
    (stops : Stops (isDigit base) rest) :
    takeDigits base (Digits.render base n ++ rest) = (Digits.render base n, rest) :=
  takeDigits_run (Digits.value?_isSome_of_mem_render two_le base_le n) stops

theorem takeMark_eq_none_iff {mark : Char} :
    takeMark mark rest = none ↔ rest.head? ≠ some mark := by
  cases rest with
  | nil => simp [takeMark]
  | cons c more => simp [takeMark]

theorem takeOctet_render (o : UInt8) (stops : Stops (isDigit 10) rest) :
    takeOctet (Digits.render 10 o.toNat ++ rest) = some (o, rest) := by
  have small : o.toNat < 10 ^ 3 := by
    have := o.toNat_lt
    omega
  have short := Digits.length_render_le (by decide) small
  have canonical : ¬((Digits.render 10 o.toNat).head? = some '0' ∧
      1 < (Digits.render 10 o.toNat).length) := by
    rintro ⟨zero, long⟩
    rcases Nat.eq_zero_or_pos o.toNat with none | some
    · rw [none, Digits.render] at long
      exact absurd long (by decide)
    · exact Digits.head?_render_ne (by decide) (by decide) some zero
  have accepted : ¬(Digits.render 10 o.toNat = [] ∨ 3 < (Digits.render 10 o.toNat).length ∨
      (Digits.render 10 o.toNat).head? = some '0' ∧ 1 < (Digits.render 10 o.toNat).length) := by
    rintro (none | long | zeros)
    · exact Digits.render_ne_nil _ _ none
    · omega
    · exact canonical zeros
  rw [takeOctet, takeDigits_render (by decide) (by decide) _ stops]
  dsimp only
  rw [if_neg accepted, Digits.valueOf?_render (by decide) (by decide)]
  simp [o.toNat_lt]

theorem takeGroup_render (g : UInt16) (stops : Stops (isDigit 16) rest) :
    takeGroup (Digits.render 16 g.toNat ++ rest) = some (g, rest) := by
  have small : g.toNat < 16 ^ 4 := g.toNat_lt
  have short := Digits.length_render_le (by decide) small
  have accepted : ¬(Digits.render 16 g.toNat = [] ∨ 4 < (Digits.render 16 g.toNat).length) := by
    rintro (none | long)
    · exact Digits.render_ne_nil _ _ none
    · omega
  rw [takeGroup, takeDigits_render (by decide) (by decide) _ stops]
  dsimp only
  rw [if_neg accepted, Digits.valueOf?_render (by decide) (by decide)]
  simp

theorem takeDigits_of_stops (stops : Stops (isDigit base) rest) :
    takeDigits base rest = ([], rest) :=
  takeDigits_run (List.forall_mem_nil _) stops

theorem takeGroup_of_stops (stops : Stops (isDigit 16) rest) : takeGroup rest = none := by
  rw [takeGroup, takeDigits_of_stops stops]
  rfl

theorem takeDotted_dotted (octets : Vector UInt8 4) (stops : Stops (isDigit 10) rest) :
    takeDotted (dotted octets.toList ++ rest) = some (octets, rest) := by
  obtain ⟨⟨items⟩, size⟩ := octets
  match items, size with
  | [a, b, c, d], _ =>
      have point : ∀ more, Stops (isDigit 10) ('.' :: more) := fun more =>
        Stops.cons_iff.mpr (by decide)
      simp only [Vector.toList_mk, dotted, List.map_cons, List.map_nil,
        List.intercalate_cons_cons, List.intercalate_singleton, List.append_assoc,
        List.cons_append, List.nil_append]
      simp only [takeDotted, takeOctet_render _ (point _), takeMark, takeOctet_render _ stops,
        if_true, Option.bind_eq_bind, Option.bind_some]

/-- What is left of a text behind its octet is what is left behind its digits. -/
theorem rest_of_takeOctet {cs : List Char} {o : UInt8} (taken : takeOctet cs = some (o, rest)) :
    rest = (takeDigits 10 cs).2 := by
  simp only [takeOctet] at taken
  split at taken
  · contradiction
  · simp only [Option.bind_eq_bind, Option.bind_eq_some_iff] at taken
    obtain ⟨n, -, taken⟩ := taken
    split at taken
    · cases taken
      rfl
    · contradiction

theorem takeDotted_eq_none {cs : List Char} (undotted : (takeDigits 10 cs).2.head? ≠ some '.') :
    takeDotted cs = none := by
  unfold takeDotted
  cases first : takeOctet cs with
  | none => rfl
  | some taken =>
      obtain ⟨o, rest⟩ := taken
      rw [← rest_of_takeOctet first, ← takeMark_eq_none_iff] at undotted
      simp only [Option.bind_eq_bind, Option.bind_some, undotted, Option.bind_none]

/-- A run of digits without a point behind it is no octet. -/
theorem takeDotted_of_run (digits : ∀ c ∈ run, isDigit 16 c = true)
    (stops : Stops (isDigit 16) rest) (undotted : rest.head? ≠ some '.') :
    takeDotted (run ++ rest) = none := by
  apply takeDotted_eq_none
  have here : rest.dropWhile (isDigit 10) = rest :=
    (stops.imp fun _ => isDigit_of_isDigit_ten).dropWhile_self
  rw [takeDigits, List.span_eq_takeWhile_dropWhile]
  change ((run ++ rest).dropWhile (isDigit 10)).head? ≠ _
  rw [List.dropWhile_append, here]
  split
  · exact undotted
  · rename_i some
    cases left : run.dropWhile (isDigit 10) with
    | nil => simp [left] at some
    | cons c more =>
        have member : c ∈ run := (run.dropWhile_sublist (isDigit 10)).subset (by simp [left])
        have digit := digits c member
        rw [List.cons_append, List.head?_cons]
        rintro ⟨rfl⟩
        exact absurd digit (by decide)

/-- No group follows, neither at once nor after a colon, and no point either. -/
structure EndsGroups (rest : List Char) : Prop where
  stops : Stops (isDigit 16) rest
  undotted : rest.head? ≠ some '.'
  last : ∀ inner, takeMark ':' rest = some inner → Stops (isDigit 16) inner ∧ inner.head? ≠ some '.'

theorem takeDotted_of_stops (stops : Stops (isDigit 16) rest) (undotted : rest.head? ≠ some '.') :
    takeDotted rest = none :=
  takeDotted_of_run (List.forall_mem_nil _) stops undotted

def moreGroups (groups : List UInt16) : List Char :=
  groups.flatMap fun g => ':' :: Digits.render 16 g.toNat

theorem colons_cons (g : UInt16) (groups : List UInt16) :
    colons (g :: groups) = Digits.render 16 g.toNat ++ moreGroups groups := by
  induction groups generalizing g with
  | nil => simp [colons, moreGroups]
  | cons h rest ih =>
      have unfolded := ih h
      simp only [colons, List.map_cons] at unfolded ⊢
      rw [List.intercalate_cons_cons, unfolded]
      simp [moreGroups]

theorem stops_moreGroups (ends : EndsGroups rest) (groups : List UInt16) :
    Stops (isDigit 16) (moreGroups groups ++ rest) ∧
      (moreGroups groups ++ rest).head? ≠ some '.' := by
  cases groups with
  | nil => exact ⟨ends.stops, ends.undotted⟩
  | cons g more => exact ⟨Stops.cons_iff.mpr (by decide), by simp [moreGroups]⟩

/-- A group is taken where there is room for one, and then as many as come. -/
theorem takeGroups_group {isFirst : Bool} {cs : List Char} (room : Nat) (g : UInt16)
    (groups : List UInt16) (ends : EndsGroups rest)
    (begins : (if isFirst then some cs else takeMark ':' cs) =
      some (Digits.render 16 g.toNat ++ (moreGroups groups ++ rest)))
    (taken : takeGroups false room (moreGroups groups ++ rest) = ⟨groups, false, rest⟩) :
    takeGroups isFirst (room + 1) cs = ⟨g :: groups, false, rest⟩ := by
  obtain ⟨stops, undotted⟩ := stops_moreGroups ends groups
  have noOctets : (if room = 0 then none
      else takeDotted (Digits.render 16 g.toNat ++ (moreGroups groups ++ rest))) = none := by
    rw [takeDotted_of_run (Digits.value?_isSome_of_mem_render (by decide) (by decide) _) stops
      undotted, ite_self]
  rw [takeGroups, begins]
  dsimp only
  rw [noOctets, takeGroup_render g stops]
  simp only [taken]

theorem takeGroups_moreGroups (ends : EndsGroups rest) {room : Nat} {groups : List UInt16}
    (fit : groups.length ≤ room) :
    takeGroups false room (moreGroups groups ++ rest) = ⟨groups, false, rest⟩ := by
  induction groups generalizing room with
  | nil =>
      rw [show moreGroups [] = [] from rfl, List.nil_append]
      cases room with
      | zero => rfl
      | succ room =>
          rw [takeGroups, if_neg Bool.false_ne_true]
          cases next : takeMark ':' rest with
          | none => rfl
          | some inner =>
              obtain ⟨stops, undotted⟩ := ends.last inner next
              simp only [takeDotted_of_stops stops undotted, takeGroup_of_stops stops, ite_self]
  | cons g groups ih =>
      obtain ⟨room, rfl⟩ : ∃ r, room = r + 1 := Nat.exists_eq_add_one.mpr (by simp at fit; omega)
      refine takeGroups_group room g groups ends ?_ (ih (by simpa using fit))
      simp [moreGroups, takeMark]

theorem takeGroups_of_ends (ends : EndsGroups rest) (room : Nat) :
    takeGroups true room rest = ⟨[], false, rest⟩ := by
  cases room with
  | zero => rfl
  | succ room =>
      rw [takeGroups, if_pos rfl]
      simp only [takeDotted_of_stops ends.stops ends.undotted, takeGroup_of_stops ends.stops,
        ite_self]

theorem takeGroups_colons (ends : EndsGroups rest) {room : Nat} {groups : List UInt16}
    (fit : groups.length ≤ room) :
    takeGroups true room (colons groups ++ rest) = ⟨groups, false, rest⟩ := by
  cases groups with
  | nil => exact takeGroups_of_ends ends room
  | cons g groups =>
      obtain ⟨room, rfl⟩ : ∃ r, room = r + 1 := Nat.exists_eq_add_one.mpr (by simp at fit; omega)
      refine takeGroups_group room g groups ends ?_
        (takeGroups_moreGroups ends (by simpa using fit))
      rw [if_pos rfl, colons_cons, List.append_assoc]

theorem zeroRun_spec (groups : List UInt16) :
    groups = List.replicate (zeroRun groups) 0 ++ groups.drop (zeroRun groups) := by
  induction groups with
  | nil => rfl
  | cons g rest ih =>
      by_cases zero : g = 0
      · have longer : zeroRun (g :: rest) = zeroRun rest + 1 := by simp [zeroRun, zero]
        rw [longer, List.replicate_succ, List.drop_succ_cons, List.cons_append, ← ih, zero]
      · have none : zeroRun (g :: rest) = 0 := by simp [zeroRun, zero]
        rw [none]
        rfl

/-- The longest run lies within the groups, and consists of zeros. -/
theorem longestZeroRun_spec (groups : List UInt16) :
    groups = groups.take (longestZeroRun groups).1 ++
      (List.replicate (longestZeroRun groups).2 0 ++
        groups.drop ((longestZeroRun groups).1 + (longestZeroRun groups).2)) := by
  induction groups with
  | nil => rfl
  | cons g rest ih =>
      rw [longestZeroRun]
      dsimp only
      split
      · simpa using zeroRun_spec (g :: rest)
      · rw [List.take_succ_cons, Nat.add_right_comm, List.drop_succ_cons, List.cons_append, ← ih]

theorem ofGroups?_toList (groups : Vector UInt16 8) : ofGroups? groups.toList = some groups := by
  obtain ⟨items, size⟩ := groups
  simp [ofGroups?, size]

theorem takeColons_colons (groups : Vector UInt16 8) (ends : EndsGroups rest) :
    takeColons (colons groups.toList ++ rest) = some (groups, rest) := by
  rw [takeColons, takeGroups_colons ends (by simp)]
  simp [ofGroups?_toList]

/-- A double colon ends the groups before it, and something else the groups behind it. -/
theorem endsGroups_doubleColon (more : List Char) : EndsGroups (':' :: ':' :: more) where
  stops := Stops.cons_iff.mpr (by decide)
  undotted := by simp
  last := by
    intro inner taken
    cases taken
    exact ⟨Stops.cons_iff.mpr (by decide), by simp⟩

/-- Groups on both sides of a double colon; what they leave of the eight is zeros. -/
theorem takeColons_of_parts {front back : List UInt16} {inner cs : List Char} {endsDotted : Bool}
    (before : takeGroups true 8 cs = ⟨front, false, ':' :: ':' :: inner⟩)
    (behind : takeGroups true (7 - front.length) inner = ⟨back, endsDotted, rest⟩)
    (room : front.length < 8) (groups : Vector UInt16 8)
    (parts : groups.toList =
      front ++ (List.replicate (8 - front.length - back.length) 0 ++ back)) :
    takeColons cs = some (groups, rest) := by
  rw [takeColons, before]
  dsimp only
  rw [if_neg (Nat.ne_of_lt room), if_neg Bool.false_ne_true]
  simp only [takeMark, if_true, Option.bind_eq_bind, Option.bind_some, behind, List.append_assoc,
    ← parts, ofGroups?_toList, Option.map_some]

theorem takeColons_doubleColon {front back : List UInt16} {zeros : Nat} (two : 2 ≤ zeros)
    (groups : Vector UInt16 8)
    (parts : groups.toList = front ++ (List.replicate zeros 0 ++ back)) (ends : EndsGroups rest) :
    takeColons (colons front ++ [':', ':'] ++ colons back ++ rest) = some (groups, rest) := by
  have eight : front.length + (zeros + back.length) = 8 := by
    have := congrArg List.length parts
    simp only [Vector.length_toList, List.length_append, List.length_replicate] at this
    omega
  have gap : 8 - front.length - back.length = zeros := by omega
  have before : takeGroups true 8 (colons front ++ ([':', ':'] ++ (colons back ++ rest))) =
      ⟨front, false, ':' :: ':' :: (colons back ++ rest)⟩ :=
    takeGroups_colons (endsGroups_doubleColon _) (by omega)
  rw [List.append_assoc, List.append_assoc]
  exact takeColons_of_parts before (takeGroups_colons ends (by omega)) (by omega) groups
    (gap.symm ▸ parts)

theorem pairOf_octets (g : UInt16) :
    pairOf (g.toNat / 256).toUInt8 (g.toNat % 256).toUInt8 = g := by
  have high : (g.toNat / 256).toUInt8.toNat = g.toNat / 256 :=
    UInt8.toNat_ofNat_of_lt (Nat.div_lt_of_lt_mul g.toNat_lt)
  have low : (g.toNat % 256).toUInt8.toNat = g.toNat % 256 :=
    UInt8.toNat_ofNat_of_lt (Nat.mod_lt _ (by decide))
  rw [pairOf, high, low, Nat.div_add_mod, UInt16.ofNat_toNat]

theorem takeGroups_octets (room : Nat) {octets : Vector UInt8 4} {a b c d : UInt8}
    {cs : List Char} (taken : takeDotted cs = some (octets, rest))
    (four : octets.toList = [a, b, c, d]) :
    takeGroups false (room + 2) (':' :: cs) = ⟨[pairOf a b, pairOf c d], true, rest⟩ := by
  obtain rfl : octets = #v[a, b, c, d] := Vector.toList_inj.mp four
  rw [takeGroups]
  simp only [takeMark, if_true, Bool.false_eq_true, if_false, Nat.succ_ne_zero, taken]
  rfl

theorem takeGroups_mark {octets : Vector UInt8 4} {a b c d : UInt8} {cs : List Char}
    (taken : takeDotted cs = some (octets, rest)) (four : octets.toList = [a, b, c, d]) :
    takeGroups true 7 (['f', 'f', 'f', 'f'] ++ ':' :: cs) =
      ⟨[0xffff, pairOf a b, pairOf c d], true, rest⟩ := by
  have mark : ['f', 'f', 'f', 'f'] = Digits.render 16 (0xffff : UInt16).toNat := by
    simp [Digits.render, Digits.ofNat]
  have colon : Stops (isDigit 16) (':' :: cs) := Stops.cons_iff.mpr (by decide)
  have noOctets : takeDotted (['f', 'f', 'f', 'f'] ++ ':' :: cs) = none :=
    takeDotted_of_run (List.all_eq_true.mp rfl) colon (by simp)
  have group : takeGroup (['f', 'f', 'f', 'f'] ++ ':' :: cs) = some (0xffff, ':' :: cs) := by
    rw [mark]
    exact takeGroup_render 0xffff colon
  rw [takeGroups, if_pos rfl]
  simp only [noOctets, ite_self, group, takeGroups_octets 4 taken four]

/-- Groups that embed four octets are read from a mark and the octets. -/
theorem takeColons_mapped (groups : Vector UInt16 8) (mapped : isMapped groups.toList = true)
    (stops : Stops (isDigit 10) rest) :
    takeColons ([':', ':', 'f', 'f', 'f', 'f', ':'] ++ dotted (tailOctets groups.toList) ++ rest) =
      some (groups, rest) := by
  obtain ⟨⟨items⟩, size⟩ := groups
  match items, size with
  | [a, b, c, d, e, f, g, h], size =>
      have front : [a, b, c, d, e, f] = [0, 0, 0, 0, 0, 0xffff] := of_decide_eq_true mapped
      simp only [List.cons.injEq, and_true] at front
      obtain ⟨rfl, rfl, rfl, rfl, rfl, rfl⟩ := front
      have behind := takeGroups_mark (takeDotted_dotted #v[(g.toNat / 256).toUInt8,
        (g.toNat % 256).toUInt8, (h.toNat / 256).toUInt8, (h.toNat % 256).toUInt8] stops) rfl
      rw [List.append_assoc]
      refine takeColons_of_parts (takeGroups_of_ends (endsGroups_doubleColon _) 8) behind
        (by decide) _ ?_
      exact congrArg₂ (fun g h => [0, 0, 0, 0, 0, 0xffff, g, h]) (pairOf_octets g).symm
        (pairOf_octets h).symm

theorem takeColons_groupsText (groups : Vector UInt16 8) (ends : EndsGroups rest) :
    takeColons (groupsText groups.toList ++ rest) = some (groups, rest) := by
  unfold groupsText
  split
  · rename_i mapped
    exact takeColons_mapped groups mapped (ends.stops.imp fun _ => isDigit_of_isDigit_ten)
  · dsimp only
    split
    · exact takeColons_colons groups ends
    · rename_i two
      exact takeColons_doubleColon (Nat.not_lt.mp two) groups (longestZeroRun_spec _) ends

/-- Text that begins with groups is not text that begins with octets. -/
theorem takeDotted_groupsText (groups : Vector UInt16 8) (rest : List Char) :
    takeDotted (groupsText groups.toList ++ rest) = none := by
  have doubled : ∀ more, takeDotted (':' :: more) = none := fun more =>
    takeDotted_of_stops (Stops.cons_iff.mpr (by decide)) (by simp)
  have colon : ∀ (g : UInt16) (more : List Char),
      takeDotted (Digits.render 16 g.toNat ++ ':' :: more) = none := fun g more =>
    takeDotted_of_run (Digits.value?_isSome_of_mem_render (by decide) (by decide) _)
      (Stops.cons_iff.mpr (by decide)) (by simp)
  unfold groupsText
  split
  · exact doubled _
  · dsimp only
    split
    · obtain ⟨⟨items⟩, size⟩ := groups
      match items, size with
      | g :: h :: more, _ =>
          simpa [colons_cons, moreGroups] using colon g _
    · generalize groups.toList.take _ = front
      match front with
      | [] => exact doubled _
      | [g] => simpa [colons_cons, moreGroups] using colon g _
      | g :: h :: more => simpa [colons_cons, moreGroups] using colon g _

theorem endsGroups_nil : EndsGroups [] where
  stops := Stops.nil _
  undotted := nofun
  last := nofun

/-- An address is read from its text. -/
theorem ofText?_text (a : Address) : ofText? a.text = some a := by
  rw [ofText?, text, String.toList_ofList]
  cases a with
  | v4 octets =>
      have taken := takeDotted_dotted octets (Stops.nil (isDigit 10))
      rw [List.append_nil] at taken
      simp only [toChars, ofChars?, taken, if_true]
  | v6 groups =>
      have undotted := takeDotted_groupsText groups []
      have taken := takeColons_groupsText groups endsGroups_nil
      rw [List.append_nil] at undotted taken
      simp only [toChars, ofChars?, undotted, taken, if_true]

end AdmissionGate.Address
