import AdmissionGate.Audit.Record
import AdmissionGate.Proofs.Audit.EventIds
import AdmissionGate.Proofs.Audit.Timestamps
import AdmissionGate.Proofs.Json.RoundTrip
import AdmissionGate.Proofs.Net.AddressText

/-!
An audit record is read from the text that is kept of it. However a text spells a record, with its
members in another order, with blanks and escapes, without the members that may be missing or with
members that nobody knows, the record that was read is written in one way, and reads as before.
-/

namespace AdmissionGate

namespace AuditRecord

/-- What a record can hold, numbers in 64 bits and a moment of a day. -/
structure WellFormed (r : AuditRecord) : Prop where
  connectionId : ∀ n ∈ r.event.connectionId, n < UInt64.size
  blockMs : ∀ n ∈ r.event.blockMs, n < UInt64.size
  time : r.time.WellFormed

theorem int?_ofInt {n : Nat} (less : n < UInt64.size) :
    (Numeral.ofInt n).int? = some (n : Int) := by
  have mantissa : (Numeral.ofInt n).mantissa = n := by
    simp [Numeral.mantissa, Numeral.ofInt, Digits.valueOf?_render]
  have positive : (Numeral.ofInt n).negative = false := by
    simp [Numeral.ofInt]
  have whole : ¬((Numeral.ofInt n).fraction ≠ [] ∨ (Numeral.ofInt n).exponent ≠ none) := by
    simp [Numeral.ofInt]
  rw [Numeral.int?, if_neg whole, positive, mantissa, if_neg Bool.false_ne_true, if_pos less]

theorem readWord_ofNat {n : Nat} (less : n < UInt64.size) : readWord (.ofNat n) = some n := by
  simp only [readWord, Json.ofNat, Json.ofInt, int?_ofInt less, Option.bind_eq_bind,
    Option.bind_some, Int.toNat_natCast]
  rw [if_pos ⟨Int.natCast_nonneg n, less⟩]

theorem readOption_ofOption {α : Type} {read : Json → Option α} {write : α → Json} {o : Option α}
    (reads : ∀ a ∈ o, read (write a) = some a) (told : ∀ a, write a ≠ .null) :
    readOption read (.ofOption write o) = some o := by
  cases o with
  | none => rfl
  | some a =>
      have value := reads a rfl
      have here := told a
      rw [Json.ofOption]
      unfold readOption
      split
      · exact absurd ‹_› here
      · rw [value, Option.map_some]

theorem readName_ofText {α : Type} {ofName? : String → Option α} {name : String} :
    readName ofName? (.ofText name) = ofName? name := rfl

theorem readText_ofText {α : Type} (read : String → Option α) (s : String) :
    readText read (.ofText s) = read s := rfl

/-- Each member is found under its name, and read as it was written. -/
theorem ofJson?_toJson {r : AuditRecord} (wellFormed : r.WellFormed)
    (ordinary : r.time.IsOrdinary) : ofJson? r.toJson = some r := by
  have word (n : Option Nat) (less : ∀ m ∈ n, m < UInt64.size) :
      readOption readWord (.ofOption .ofNat n) = some n :=
    readOption_ofOption (fun m here => readWord_ofNat (less m here)) nofun
  have text (s : Option String) : readOption (readText some) (.ofOption .ofText s) = some s :=
    readOption_ofOption (fun _ _ => rfl) nofun
  simp [ofJson?, toJson, Json.ofMembers, fieldNames, membersOf, ofFields?, readName_ofText,
    readText_ofText, r.id.ofChars?_toChars, AuditKind.ofName?_name, r.event.address.ofText?_text,
    word _ wellFormed.connectionId, Reason.ofName?_name, ConnectionState.ofName?_name,
    word _ wellFormed.blockMs, text, Timestamp.ofChars?_toChars wellFormed.time ordinary]

theorem spellable_ofOption {α : Type} {write : α → Json} (spellable : ∀ a, (write a).Spellable)
    (o : Option α) : (Json.ofOption write o).Spellable := by
  cases o with
  | none => trivial
  | some a => exact spellable a

theorem spellable_toJson (r : AuditRecord) : r.toJson.Spellable := by
  have number (n : Nat) : (Json.ofNat n).Spellable := ⟨n, rfl⟩
  have text (s : String) : (Json.ofText s).Spellable := rfl
  have numbers := spellable_ofOption number
  have texts := spellable_ofOption text
  exact ⟨rfl, text _, rfl, text _, rfl, text _, rfl, numbers _, rfl, text _, rfl, text _, rfl,
    numbers _, rfl, texts _, rfl, text _, trivial⟩

theorem ofText?_toText {r : AuditRecord} (wellFormed : r.WellFormed)
    (ordinary : r.time.IsOrdinary) : ofText? r.toText = some r := by
  rw [ofText?, toText, Json.ofString?_text r.spellable_toJson, Option.bind_some,
    ofJson?_toJson wellFormed ordinary]

theorem lt_of_readWord {j : Json} {n : Nat} (taken : readWord j = some n) : n < UInt64.size := by
  unfold readWord at taken
  split at taken
  · simp only [Option.bind_eq_bind, Option.bind_eq_some_iff] at taken
    obtain ⟨i, -, taken⟩ := taken
    split at taken
    · rename_i within
      cases taken
      exact within.2
    · contradiction
  · contradiction

theorem forall_of_readOption {α : Type} {read : Json → Option α} {p : α → Prop}
    (reads : ∀ j a, read j = some a → p a) {j : Json} {o : Option α}
    (taken : readOption read j = some o) : ∀ a ∈ o, p a := by
  unfold readOption at taken
  split at taken
  · cases taken
    exact nofun
  · rw [Option.map_eq_some_iff] at taken
    obtain ⟨a, value, rfl⟩ := taken
    rintro _ ⟨⟩
    exact reads _ a value

theorem wellFormed_of_ofFields? {field : Nat → Option Json} {r : AuditRecord}
    (taken : ofFields? field = some r) : r.WellFormed := by
  -- Of all fields, the two words and the time have bounds to keep.
  iterate 6
    obtain ⟨_, -, taken⟩ := Option.bind_eq_some_iff.mp taken
  obtain ⟨connectionId, connected, taken⟩ := Option.bind_eq_some_iff.mp taken
  iterate 4
    obtain ⟨_, -, taken⟩ := Option.bind_eq_some_iff.mp taken
  obtain ⟨blockMs, blocked, taken⟩ := Option.bind_eq_some_iff.mp taken
  iterate 2
    obtain ⟨_, -, taken⟩ := Option.bind_eq_some_iff.mp taken
  obtain ⟨time, timed, taken⟩ := Option.bind_eq_some_iff.mp taken
  cases taken
  refine ⟨forall_of_readOption (fun _ _ => lt_of_readWord) connected,
    forall_of_readOption (fun _ _ => lt_of_readWord) blocked, ?_⟩
  unfold readText at timed
  split at timed
  · exact Timestamp.wellFormed_of_ofChars? timed
  · contradiction

theorem wellFormed_of_ofText? {text : String} {r : AuditRecord} (taken : ofText? text = some r) :
    r.WellFormed := by
  obtain ⟨j, -, taken⟩ := Option.bind_eq_some_iff.mp taken
  unfold ofJson? at taken
  split at taken
  · split at taken
    · exact wellFormed_of_ofFields? taken
    · contradiction
  · split at taken
    · exact wellFormed_of_ofFields? taken
    · contradiction
  · contradiction

def retell? (text : String) : Option String := (ofText? text).map toText

/-- A record is read from its text. And a record that was read from any text is written in one
way, from which the same record is read, and so on. -/
theorem reads_as_written :
    (∀ r : AuditRecord, r.WellFormed → r.time.IsOrdinary → ofText? r.toText = some r) ∧
    ∀ (text : String) (r : AuditRecord), ofText? text = some r → r.time.IsOrdinary →
      ofText? r.toText = some r ∧
      ∀ n, (Option.bind · retell?)^[n + 1] (some text) = some r.toText := by
  refine ⟨fun r => ofText?_toText, fun text r read ordinary => ?_⟩
  have again := ofText?_toText (wellFormed_of_ofText? read) ordinary
  refine ⟨again, fun n => ?_⟩
  induction n with
  | zero => simp [retell?, read]
  | succ n ih => rw [Function.iterate_succ_apply', ih, Option.bind_some, retell?, again,
      Option.map_some]

end AuditRecord

namespace Sample

/-- A record of which hardly a field is written as it stands. -/
def notable : AuditRecord where
  id := ⟨0x0123456789abcdef0000000000000001⟩
  event :=
    { kind := .escalated
      address := .v6 #v[0x2001, 0xdb8, 0, 0, 1, 0, 0, 1]
      connectionId := some 18446744073709551615
      reason := .rateExceeded
      state := .registered
      detail := some "\"\\\n\x01 \u00e9 𝄞" }
  time := ⟨⟨2024, 2, 29⟩, 1439, 59, 120000000⟩

/-- The same record, as somebody else may write it. -/
def notableElsewhere : String :=
  "\x7b \"timestamp\": \"2024-03-01 00:29:59.12+00:30\",\n\"detail\":" ++
    "\"\\u0022\\\\\\u000A\\u0001 \u00e9 \\ud834\\udd1e\", \"source\": [\x7b\x7d, 1e5]," ++
    "\"address\":\"2001:0db8:0:0:1::1\",\"kind\":\x7b\"escalated\":null\x7d," ++
    "\"reason\":\"rate_exceeded\",\"state\":\"registered\"," ++
    "\"connection_id\":18446744073709551615," ++
    "\"event_id\":\"0123456789ABCDEF0000000000000001\" \x7d"

theorem notable_reads_as_written :
    AuditRecord.ofText? notable.toText = some notable ∧
    AuditRecord.ofText? notableElsewhere = some notable ∧
    (Option.bind · AuditRecord.retell?)^[2] (some notableElsewhere) = some notable.toText := by
  have read : AuditRecord.ofText? notableElsewhere = some notable := by
    -- The text is taken line by line, since the characters of a long literal are slow to compute.
    have lines (a b c d e f : String) : AuditRecord.ofText? (a ++ b ++ c ++ d ++ e ++ f) =
        (Json.ofChars? (a.toList ++ b.toList ++ c.toList ++ d.toList ++ e.toList ++ f.toList)).bind
          AuditRecord.ofJson? := by
      simp only [AuditRecord.ofText?, Json.ofString?, String.toList_append]
    exact (lines ..).trans (by decide +kernel)
  have ordinary : notable.time.IsOrdinary := ⟨by decide, by decide, by decide⟩
  have wellFormed : notable.WellFormed :=
    ⟨by decide, by decide, ⟨by decide, by decide, by decide⟩⟩
  obtain ⟨written, others⟩ := AuditRecord.reads_as_written
  exact ⟨written notable wellFormed ordinary, read, (others _ _ read ordinary).2 1⟩

end Sample

end AdmissionGate
