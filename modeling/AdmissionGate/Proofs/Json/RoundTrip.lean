import AdmissionGate.Json.Printer
import AdmissionGate.Json.Reader
import AdmissionGate.Proofs.Text.Digits

/-!
Reading gives back what was written. A document whose strings stand for text, and whose numbers are
integers, is read from its text, whatever it nests and whatever its strings hold.
-/

namespace AdmissionGate.Json

variable {rest : List Char}

def isNumeralChar (c : Char) : Bool := Digits.isDecimal c || c = '.' || c = 'e' || c = 'E'

theorem takeDigits_run {digits : List Char} (run : ∀ c ∈ digits, Digits.isDecimal c = true)
    (stops : Stops Digits.isDecimal rest) : takeDigits (digits ++ rest) = (digits, rest) :=
  Stops.span run stops

theorem takeUnsigned_render (negative : Bool) (n : Nat) (stops : Stops isNumeralChar rest) :
    takeUnsigned negative (Digits.render 10 n ++ rest) =
      some ({ negative, whole := Digits.render 10 n }, rest) := by
  have numeral := Digits.isNumeral_render n
  have canonical : ¬(Digits.render 10 n = [] ∨
      (Digits.render 10 n).head? = some '0' ∧ Digits.render 10 n ≠ ['0']) := by
    rintro (none | ⟨zero, more⟩)
    · exact numeral.ne_nil none
    · exact more (numeral.zero_alone zero)
  have digits := takeDigits_run numeral.digits
    (stops.imp fun c digit => by simp [isNumeralChar, digit])
  simp only [takeUnsigned, digits, canonical, if_false, Option.bind_eq_bind, Option.bind_some]
  cases rest with
  | nil => rfl
  | cons c more =>
      simp only [Stops.cons_iff, isNumeralChar, Bool.or_eq_false_iff, decide_eq_false_iff_not]
        at stops
      obtain ⟨⟨⟨-, point⟩, e⟩, E⟩ := stops
      split
      · rename_i same
        exact absurd (List.cons.inj same).1 point
      · simp only [e, E, or_self, if_false]

def Piece.Spells : Piece → Char → Prop
  | .char d, c => d = c
  | .unit n, c => n < 0xd800 ∧ Char.ofNat n = c

/-- What stands for a character stands for it whatever follows. -/
theorem textOf?_cons {p : Piece} {c : Char} (spells : p.Spells c) (pieces : List Piece) :
    textOf? (p :: pieces) = (textOf? pieces).map (c :: ·) := by
  cases p with
  | char d =>
      cases spells
      rw [textOf?]
  | unit n =>
      obtain ⟨low, rfl⟩ := spells
      have single : (isHighSurrogate n || isLowSurrogate n) = false := by
        simp only [isHighSurrogate, isLowSurrogate, Bool.or_eq_false_iff, Bool.and_eq_false_iff,
          decide_eq_false_iff_not]
        omega
      rw [Bool.or_eq_false_iff] at single
      match pieces with
      | [] => simp [textOf?, single]
      | .char d :: more =>
          simp only [textOf?, single, Bool.or_self, Bool.false_eq_true, if_false, Option.map_map]
          rfl
      | .unit m :: more =>
          rw [textOf?]
          simp only [single, Bool.false_eq_true, if_false]

def withPiece (p : Piece) (taken : Option (List Piece × List Char)) :
    Option (List Piece × List Char) :=
  taken.bind fun t => some (p :: t.1, t.2)

theorem takePieces_short {e c : Char} (short : shortEscape? e = some c) (rest : List Char) :
    takePieces ('\\' :: e :: rest) = withPiece (.char c) (takePieces rest) := by
  have marked : e ≠ 'u' := by
    rintro rfl
    cases short
  rw [takePieces]
  · simp only [short, Option.bind_eq_bind, Option.bind_some]
    rfl
  · exact fun _ _ _ _ _ same _ => marked same

theorem takePieces_plain {c : Char} (printable : ¬c.toNat < 0x20) (quote : c ≠ '"')
    (backslash : c ≠ '\\') (rest : List Char) :
    takePieces (c :: rest) = withPiece (.char c) (takePieces rest) := by
  rw [takePieces]
  · simp only [printable, backslash, or_self, if_false]
    rfl
  · exact quote
  · exact fun _ _ _ _ _ same _ => backslash same
  · exact fun _ _ same _ => backslash same

theorem takePieces_unit {digits : List Char} {n : Nat} (four : digits.length = 4)
    (value : Digits.valueOf? 16 digits = some n) (rest : List Char) :
    takePieces ('\\' :: 'u' :: digits ++ rest) = withPiece (.unit n) (takePieces rest) := by
  match digits, four with
  | [a, b, c, d], _ =>
      simp only [List.cons_append, List.nil_append]
      rw [takePieces, value]
      rfl

/-- A character is read from what is written for it. -/
theorem takePieces_escapeChar (c : Char) (rest : List Char) :
    ∃ p : Piece, p.Spells c ∧
      takePieces (escapeChar c ++ rest) = withPiece p (takePieces rest) := by
  unfold escapeChar
  split
  · exact ⟨.char _, rfl, takePieces_short rfl rest⟩
  · exact ⟨.char _, rfl, takePieces_short rfl rest⟩
  · exact ⟨.char _, rfl, takePieces_short rfl rest⟩
  · exact ⟨.char _, rfl, takePieces_short rfl rest⟩
  · exact ⟨.char _, rfl, takePieces_short rfl rest⟩
  · exact ⟨.char _, rfl, takePieces_short rfl rest⟩
  · exact ⟨.char _, rfl, takePieces_short rfl rest⟩
  · rename_i quote backslash _ _ _ _ _
    split
    · rename_i control
      refine ⟨.unit c.toNat, ⟨by omega, Char.ofNat_toNat c⟩, takePieces_unit ?_ ?_ rest⟩
      · exact Digits.length_padded (by decide) (by omega)
      · exact Digits.valueOf?_padded (by decide) (by decide) 4 _
    · rename_i printable
      exact ⟨.char c, rfl, takePieces_plain printable quote backslash rest⟩

theorem takePieces_escaped (cs rest : List Char) :
    ∃ pieces, takePieces (cs.flatMap escapeChar ++ '"' :: rest) = some (pieces, rest) ∧
      textOf? pieces = some cs := by
  induction cs with
  | nil => exact ⟨[], by rw [List.flatMap_nil, List.nil_append, takePieces], rfl⟩
  | cons c cs ih =>
      obtain ⟨pieces, taken, text⟩ := ih
      obtain ⟨p, spells, first⟩ := takePieces_escapeChar c (cs.flatMap escapeChar ++ '"' :: rest)
      refine ⟨p :: pieces, ?_, ?_⟩
      · rw [List.flatMap_cons, List.append_assoc, first, taken]
        rfl
      · rw [textOf?_cons spells, text]
        rfl

/-- Every text is read from the string that is written for it. -/
theorem takeString_escaped (s : String) (rest : List Char) :
    takeString (s.toList.flatMap escapeChar ++ '"' :: rest) = some (some s, rest) := by
  obtain ⟨pieces, taken, text⟩ := takePieces_escaped s.toList rest
  simp only [takeString, taken, text, Option.bind_eq_bind, Option.bind_some, Option.map_some,
    String.ofList_toList]

mutual

/-- Every string stands for text, and every number is an integer. -/
def Spellable : Json → Prop
  | null | bool _ => True
  | number n => ∃ i, n = .ofInt i
  | string s => s.isSome
  | array items => ItemsSpellable items
  | object members => MembersSpellable members

def ItemsSpellable : List Json → Prop
  | [] => True
  | item :: items => item.Spellable ∧ ItemsSpellable items

def MembersSpellable : List (Option String × Json) → Prop
  | [] => True
  | (key, item) :: members => key.isSome ∧ item.Spellable ∧ MembersSpellable members

end

theorem skipBlanks_of_dark {c : Char} (dark : isBlank c = false) (cs : List Char) :
    skipBlanks (c :: cs) = c :: cs :=
  List.dropWhile_cons_of_neg (by simp [dark])

/-- A character that a value may begin with, where a list may also end. -/
def Begins (c : Char) : Prop := isBlank c = false ∧ c ≠ ']'

theorem begins_of_isDecimal {c : Char} (digit : Digits.isDecimal c = true) : Begins c := by
  have other : ∀ d, Digits.isDecimal d = false → c ≠ d := fun _ => Digits.ne_of_isDecimal digit
  refine ⟨?_, other _ rfl⟩
  simp only [isBlank, Bool.or_eq_false_iff, decide_eq_false_iff_not]
  exact ⟨⟨⟨other _ rfl, other _ rfl⟩, other _ rfl⟩, other _ rfl⟩

theorem takeValue_of_digit {c : Char} (digit : Digits.isDecimal c = true) (fuel : Nat)
    (cs : List Char) :
    takeValue (fuel + 1) (c :: cs) =
      (takeUnsigned false (c :: cs)).map fun p => (number p.1, p.2) := by
  rw [takeValue, skipBlanks_of_dark (begins_of_isDecimal digit).1]
  split
  all_goals try exact absurd (List.cons.inj ‹_›).1 (Digits.ne_of_isDecimal digit rfl)
  rfl

theorem takeValue_ofInt (i : Int) {fuel : Nat} (stops : Stops isNumeralChar rest) :
    takeValue (fuel + 1) (render (ofInt i) ++ rest) = some (ofInt i, rest) := by
  have taken := takeUnsigned_render (decide (i < 0)) i.natAbs stops
  by_cases negative : i < 0
  · have text : render (ofInt i) = '-' :: Digits.render 10 i.natAbs := by
      simp [render, ofInt, renderNumeral, Numeral.ofInt, negative]
    rw [text, List.cons_append, takeValue, skipBlanks_of_dark rfl]
    simp only [negative, decide_true] at taken
    simp only [taken, Option.map_some, ofInt, Numeral.ofInt, negative, decide_true]
  · have text : render (ofInt i) = Digits.render 10 i.natAbs := by
      simp [render, ofInt, renderNumeral, Numeral.ofInt, negative]
    rw [text]
    obtain ⟨c, more, digits, digit⟩ := (Digits.isNumeral_render i.natAbs).exists_cons
    rw [digits, List.cons_append, takeValue_of_digit digit, ← List.cons_append, ← digits]
    simp only [negative, decide_false] at taken
    simp only [taken, Option.map_some, ofInt, Numeral.ofInt, negative, decide_false]

theorem render_begins {j : Json} (spellable : j.Spellable) :
    ∃ c cs, j.render = c :: cs ∧ Begins c := by
  cases j with
  | null => exact ⟨'n', _, by rw [render], rfl, by decide⟩
  | bool b =>
      cases b with
      | true => exact ⟨'t', _, by rw [render], rfl, by decide⟩
      | false => exact ⟨'f', _, by rw [render], rfl, by decide⟩
  | string s => exact ⟨'"', _, by rw [render]; rfl, rfl, by decide⟩
  | array items => exact ⟨'[', _, by rw [render], rfl, by decide⟩
  | object members => exact ⟨'\x7b', _, by rw [render], rfl, by decide⟩
  | number n =>
      obtain ⟨i, rfl⟩ := spellable
      obtain ⟨c, more, digits, digit⟩ := (Digits.isNumeral_render i.natAbs).exists_cons
      by_cases negative : i < 0
      · refine ⟨'-', c :: more, ?_, rfl, by decide⟩
        simp [render, renderNumeral, Numeral.ofInt, negative, digits]
      · refine ⟨c, more, ?_, begins_of_isDecimal digit⟩
        simp [render, renderNumeral, Numeral.ofInt, negative, digits]

theorem renderItems_cons (item second : Json) (items : List Json) :
    renderItems (item :: second :: items) =
      item.render ++ ',' :: renderItems (second :: items) := by
  rw [renderItems]
  exact nofun

theorem renderMembers_cons (key : Option String) (item : Json) (second : Option String × Json)
    (members : List (Option String × Json)) :
    renderMembers ((key, item) :: second :: members) =
      renderString key ++ ':' :: item.render ++ ',' :: renderMembers (second :: members) := by
  rw [renderMembers]
  exact nofun

theorem renderItems_begins {item : Json} {items : List Json}
    (spellable : item.Spellable) :
    ∃ c cs, renderItems (item :: items) = c :: cs ∧ Begins c := by
  obtain ⟨c, cs, text, begins⟩ := render_begins spellable
  cases items with
  | nil => exact ⟨c, _, by rw [renderItems, text]; rfl, begins⟩
  | cons second items => exact ⟨c, _, by rw [renderItems_cons, text]; rfl, begins⟩

theorem takeValue_items {c : Char} (begins : Begins c) (fuel : Nat) (cs : List Char) :
    takeValue (fuel + 1) ('[' :: c :: cs) =
      (takeItems fuel (c :: cs)).map fun p => (array p.1, p.2) := by
  rw [takeValue, skipBlanks_of_dark rfl]
  simp only [skipBlanks_of_dark begins.1]
  split
  · rename_i same
    exact absurd (List.cons.inj same).1 begins.2
  · rfl

theorem takeValue_members (fuel : Nat) (cs : List Char) :
    takeValue (fuel + 1) ('\x7b' :: '"' :: cs) =
      (takeMembers fuel ('"' :: cs)).map fun p => (object p.1, p.2) := by
  rw [takeValue, skipBlanks_of_dark rfl]
  rfl

theorem renderMembers_begins (member : Option String × Json)
    (members : List (Option String × Json)) :
    ∃ cs, renderMembers (member :: members) = '"' :: cs := by
  obtain ⟨key, item⟩ := member
  cases members with
  | nil => exact ⟨_, by rw [renderMembers]; rfl⟩
  | cons second members => exact ⟨_, by rw [renderMembers_cons]; rfl⟩

/-- The value of a member comes after its key. -/
theorem takeMembers_key (key : String) (fuel : Nat) (item : List Char) :
    takeMembers (fuel + 1) (renderString (some key) ++ ':' :: item) = (do
      let (value, rest) ← takeValue fuel item
      match skipBlanks rest with
      | '\x7d' :: rest => some ([(some key, value)], rest)
      | ',' :: rest =>
          (takeMembers fuel rest).map fun (members, rest) => ((some key, value) :: members, rest)
      | _ => none) := by
  have text : renderString (some key) ++ ':' :: item =
      '"' :: (key.toList.flatMap escapeChar ++ '"' :: ':' :: item) := by
    simp [renderString, renderText]
  rw [text, takeMembers, skipBlanks_of_dark rfl]
  simp only [takeString_escaped, Option.bind_eq_bind, Option.bind_some]
  rfl

mutual

/-- A document is read from its text, where no more of a number follows. -/
theorem takeValue_render : ∀ (j : Json) (fuel : Nat) (rest : List Char), j.Spellable →
    j.render.length < fuel → Stops isNumeralChar rest →
    takeValue fuel (j.render ++ rest) = some (j, rest)
  | j, 0, rest, spellable, enough, stops => absurd enough (Nat.not_lt_zero _)
  | .null, fuel + 1, rest, spellable, enough, stops => by
      rw [render, takeValue]; rfl
  | .bool true, fuel + 1, rest, spellable, enough, stops => by
      rw [render, takeValue]; rfl
  | .bool false, fuel + 1, rest, spellable, enough, stops => by
      rw [render, takeValue]; rfl
  | .number n, fuel + 1, rest, ⟨i, same⟩, enough, stops => by
      subst same
      exact takeValue_ofInt i stops
  | .string (some s), fuel + 1, rest, spellable, enough, stops => by
      have text : render (.string (some s)) ++ rest =
          '"' :: (s.toList.flatMap escapeChar ++ '"' :: rest) := by
        simp [render, renderString, renderText]
      rw [text, takeValue, skipBlanks_of_dark rfl]
      simp only [takeString_escaped, Option.map_some]
  | .string none, fuel + 1, rest, spellable, enough, stops => nomatch spellable
  | .array [], fuel + 1, rest, spellable, enough, stops => by
      rw [render, renderItems, takeValue]; rfl
  | .array (item :: items), fuel + 1, rest, spellable, enough, stops => by
      rw [render, List.length_cons, Nat.succ_lt_succ_iff] at enough
      have inner := takeItems_render item items fuel rest spellable enough
      obtain ⟨c, cs, text, begins⟩ := renderItems_begins spellable.1
      rw [render, List.cons_append]
      rw [text, List.cons_append] at inner ⊢
      rw [takeValue_items begins, inner, Option.map_some]
  | .object [], fuel + 1, rest, spellable, enough, stops => by
      rw [render, renderMembers, takeValue]; rfl
  | .object (member :: members), fuel + 1, rest, spellable, enough, stops => by
      rw [render, List.length_cons, Nat.succ_lt_succ_iff] at enough
      have inner := takeMembers_render member members fuel rest spellable enough
      obtain ⟨cs, text⟩ := renderMembers_begins member members
      rw [render, List.cons_append]
      rw [text, List.cons_append] at inner ⊢
      rw [takeValue_members, inner, Option.map_some]

theorem takeItems_render : ∀ (item : Json) (items : List Json) (fuel : Nat) (rest : List Char),
    ItemsSpellable (item :: items) → (renderItems (item :: items)).length < fuel →
    takeItems fuel (renderItems (item :: items) ++ rest) = some (item :: items, rest)
  | item, items, 0, rest, spellable, enough => absurd enough (Nat.not_lt_zero _)
  | item, [], fuel + 1, rest, spellable, enough => by
      rw [renderItems, List.length_append, List.length_singleton] at enough
      have first := takeValue_render item fuel (']' :: rest) spellable.1 (by omega)
        (Stops.cons_iff.mpr rfl)
      rw [renderItems, List.append_assoc, takeItems]
      simp only [List.cons_append, List.nil_append, first, Option.bind_eq_bind, Option.bind_some]
      rfl
  | item, second :: items, fuel + 1, rest, spellable, enough => by
      rw [renderItems_cons, List.length_append, List.length_cons] at enough
      have first := takeValue_render item fuel (',' :: (renderItems (second :: items) ++ rest))
        spellable.1 (by omega) (Stops.cons_iff.mpr rfl)
      have others := takeItems_render second items fuel rest spellable.2 (by omega)
      rw [renderItems_cons, List.append_assoc, takeItems]
      simp only [List.cons_append, first, Option.bind_eq_bind, Option.bind_some]
      change Option.map _ (takeItems fuel _) = _
      rw [others, Option.map_some]

theorem takeMembers_render : ∀ (member : Option String × Json)
    (members : List (Option String × Json)) (fuel : Nat) (rest : List Char),
    MembersSpellable (member :: members) → (renderMembers (member :: members)).length < fuel →
    takeMembers fuel (renderMembers (member :: members) ++ rest) = some (member :: members, rest)
  | member, members, 0, rest, spellable, enough => absurd enough (Nat.not_lt_zero _)
  | (none, _), _, _ + 1, _, spellable, _ => nomatch spellable.1
  | (some key, item), [], fuel + 1, rest, spellable, enough => by
      simp only [renderMembers, List.length_append, List.length_cons] at enough
      have first := takeValue_render item fuel ('\x7d' :: rest) spellable.2.1 (by omega)
        (Stops.cons_iff.mpr rfl)
      rw [renderMembers]
      simp only [List.append_assoc, List.cons_append, List.nil_append, takeMembers_key, first,
        Option.bind_eq_bind, Option.bind_some]
      rfl
  | (some key, item), second :: members, fuel + 1, rest, spellable, enough => by
      simp only [renderMembers_cons, List.length_append, List.length_cons] at enough
      have first := takeValue_render item fuel (',' :: (renderMembers (second :: members) ++ rest))
        spellable.2.1 (by omega) (Stops.cons_iff.mpr rfl)
      have others := takeMembers_render second members fuel rest spellable.2.2 (by omega)
      rw [renderMembers_cons]
      simp only [List.append_assoc, List.cons_append, takeMembers_key, first, Option.bind_eq_bind,
        Option.bind_some]
      change Option.map _ (takeMembers fuel _) = _
      rw [others, Option.map_some]

end

/-- Every document of text and integers is read from what is written for it. -/
theorem ofString?_text {j : Json} (spellable : j.Spellable) : ofString? j.text = some j := by
  have taken := takeValue_render j (j.render.length + 1) [] spellable (Nat.lt_succ_self _)
    (Stops.nil _)
  rw [List.append_nil] at taken
  simp only [ofString?, text, String.toList_ofList, ofChars?, taken, Option.bind_eq_bind,
    Option.bind_some]
  rfl

end AdmissionGate.Json
