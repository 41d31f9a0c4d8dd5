import AdmissionGate.Proofs.Toml.RoundTrip
import AdmissionGate.Settings.Load

/-!
Settings read back from the document they are written to. Each field has an entry of its own, and
what stands there is read as the value that was written; an option that is absent has no entry, and
is read as its default, which is absence.
-/

namespace AdmissionGate

open Toml

namespace Datum

theorem toIntWithin?_ofWord {n : Nat} {high : Int} (le : (n : Int) ≤ high) :
    toIntWithin? 0 high (.ofWord n) = some (n : Int) := by
  simp [ofWord, toIntWithin?, le]

@[simp]
theorem toUInt8?_ofWord (n : UInt8) : toUInt8? (.ofWord n.toNat) = some n := by
  have := n.toNat_lt
  rw [toUInt8?, toIntWithin?_ofWord (by omega)]
  simp

@[simp]
theorem toUInt16?_ofWord (n : UInt16) : toUInt16? (.ofWord n.toNat) = some n := by
  have := n.toNat_lt
  rw [toUInt16?, toIntWithin?_ofWord (by omega)]
  simp

@[simp]
theorem toUInt32?_ofWord (n : UInt32) : toUInt32? (.ofWord n.toNat) = some n := by
  have := n.toNat_lt
  rw [toUInt32?, toIntWithin?_ofWord (by omega)]
  simp

@[simp]
theorem toUInt64?_ofWord (n : UInt64) : toUInt64? (.ofWord n.toNat) = some n := by
  have := n.toNat_lt
  rw [toUInt64?, toIntWithin?_ofWord (by omega)]
  simp

@[simp]
theorem toInt32?_int (n : Int32) : toInt32? (.int n.toInt) = some n := by
  have low := n.le_toInt
  have high := n.toInt_lt
  simp only [toInt32?, toIntWithin?]
  rw [if_pos (by omega)]
  simp

@[simp]
theorem toList?_map {α : Type} {f : α → Datum} {decode : Datum → Option α}
    (decoded : ∀ a, decode (f a) = some a) (items : List α) :
    toList? decode (.list (items.map f)) = some items := by
  rw [toList?]
  induction items with
  | nil => rfl
  | cons a items ih => simp [decoded, ih]

end Datum

section Entries

variable {α : Type} {room : Nat} {f : α → Datum} {decode : Datum → Option α} {a : Option α}

theorem isEntry_ofWord {n : Nat} (small : n < 2 ^ 63) : IsEntry room (.ofWord n) := by
  refine .flat (.scalar ?_)
  simp only [Datum.ofWord, IsScalar, isInteger, Bool.and_eq_true, decide_eq_true_eq]
  omega

@[simp]
theorem isEntry_word8 (n : UInt8) : IsEntry room (.ofWord n.toNat) :=
  isEntry_ofWord (Nat.lt_trans n.toNat_lt (by decide))

@[simp]
theorem isEntry_word32 (n : UInt32) : IsEntry room (.ofWord n.toNat) :=
  isEntry_ofWord (Nat.lt_trans n.toNat_lt (by decide))

@[simp]
theorem isEntry_bool (b : Bool) : IsEntry room (.bool b) := .flat (.scalar trivial)

theorem isEntry_float {x : Float} (finite : x.isFinite = true) (back : Decimal.ReadsBack x) :
    IsEntry room (.float x) := .flat (.scalar ⟨finite, back⟩)

theorem isEntry_text {s : String} (quotable : IsQuotable s.toList) : IsEntry room (.text s) :=
  .flat (.scalar quotable)

theorem isEntry_list {items : List α} (scalars : ∀ a ∈ items, IsScalar (f a)) :
    IsEntry room (.list (items.map f)) :=
  .flat (.list (List.forall_mem_map.mpr scalars))

@[simp]
theorem seen?_ofWord (n : Nat) : seen? (.ofWord n) = some (.ofWord n) := rfl

@[simp]
theorem seen?_bool (b : Bool) : seen? (.bool b) = some (.bool b) := rfl

@[simp]
theorem seen?_float (x : Float) : seen? (.float x) = some (.float x) := rfl

@[simp]
theorem seen?_text (s : String) : seen? (.text s) = some (.text s) := rfl

@[simp]
theorem seen?_list (items : List Datum) : seen? (.list items) = some (.list items) := rfl

theorem isEntry_ofOption (scalar : ∀ b, IsScalar (f b)) : IsEntry room (.ofOption f a) := by
  cases a with
  | none => exact .null
  | some b => exact .flat (.scalar (scalar b))

/-- An option that is absent has no entry, and its field is absent by default. -/
theorem seen?_ofOption (scalar : ∀ b, IsScalar (f b)) (decoded : ∀ b, decode (f b) = some b) :
    (seen? (.ofOption f a)).elim (some none) (Datum.toOption? decode) = some a := by
  cases a with
  | none => rfl
  | some b =>
      have flat := IsFlat.scalar (scalar b)
      have present : Datum.toOption? decode (f b) = (decode (f b)).map some :=
        Datum.toOption?.eq_2 _ _ flat.ne_null
      rw [Datum.ofOption, flat.seen?, Option.elim_some, present, decoded, Option.map_some]

theorem isScalar_int32 (n : Int32) : IsScalar (.int n.toInt) := by
  have low := n.le_toInt
  have high := n.toInt_lt
  simp only [IsScalar, isInteger, Bool.and_eq_true, decide_eq_true_eq]
  omega

theorem isScalar_word16 (n : UInt16) : IsScalar (.ofWord n.toNat) := by
  have := n.toNat_lt
  simp only [Datum.ofWord, IsScalar, isInteger, Bool.and_eq_true, decide_eq_true_eq]
  omega

end Entries

section Sections

variable {α : Type} {room : Nat} {decode : Datum → Option α} {a : α}
  {entries : List (String × Datum)}

/-- A datum that a document can hold, and that is read as a value. -/
structure Survives (room : Nat) (decode : Datum → Option α) (a : α) (d : Datum) : Prop where
  entry : IsEntry room d
  reads : (seen? d).bind decode = some a

/-- Fields are read by what stands under their keys. -/
theorem read_readEntries (table : IsTable room entries) (index : Nat) (key : String)
    (decode : Datum → Option α) (default : α) :
    Section.read (.named (readEntries entries)) index key decode default =
      (((entries.find? (·.1 = key)).map (·.2)).bind seen?).elim (some default) decode := by
  rw [Section.read, Section.get?, find?_readEntries table]
  cases ((entries.find? (·.1 = key)).map (·.2)).bind seen? <;> rfl

theorem survives_section (keys : AreKeys (entries.map Prod.fst))
    (each : ∀ d ∈ entries.map Prod.snd, IsEntry room d)
    (decoded : IsTable room entries → decode (.table (readEntries entries)) = some a) :
    Survives (room + 1) decode a (.table entries) :=
  have table := isTable_of_keys keys each
  ⟨.table table, decoded table⟩

theorem Survives.elim {d : Datum} (survives : Survives room decode a d) (default : α) :
    (seen? d).elim (some default) decode = some a := by
  obtain ⟨found, here, decoded⟩ := Option.bind_eq_some_iff.mp survives.reads
  rw [here]
  exact decoded

/-- What survives in a document is read back from its text. -/
theorem Survives.exists_text (survives : Survives (room + 1) decode a (.table entries))
    (shallow : room < depthLimit) :
    ∃ text, text? (.table entries) = some text ∧ (read? text).bind decode = some a := by
  have table : IsTable room entries := by
    cases survives.entry with
    | flat flat => exact absurd rfl (flat.ne_table entries)
    | table within => exact within
  obtain ⟨text, written, read⟩ := read?_text? table shallow
  refine ⟨text, written, ?_⟩
  rw [read]
  exact survives.reads

end Sections

variable {room : Nat}

namespace RegistrySettings

def words (s : RegistrySettings) : List UInt64 := [s.recentTtlMs]

theorem survives {s : RegistrySettings} (small : ∀ n ∈ s.words, n.toNat < 2 ^ 63) :
    Survives (room + 1) (ofDatum? Toml.dialect) s s.toDatum := by
  refine survives_section ?keys ?each fun table => ?decoded
  case keys =>
    simp only [List.map_cons, List.map_nil]
    decide
  case each =>
    simp only [words, List.forall_mem_cons] at small
    simp [isEntry_ofWord small.1]
  case decoded =>
    simp [ofDatum?, Datum.toSection?, read_readEntries table]

end RegistrySettings

namespace LimiterSettings

def words (s : LimiterSettings) : List UInt64 := [s.bucketMs, s.escalationWindowMs, s.idleTtlMs]

theorem survives {s : LimiterSettings} (small : ∀ n ∈ s.words, n.toNat < 2 ^ 63) :
    Survives (room + 1) (ofDatum? Toml.dialect) s s.toDatum := by
  refine survives_section ?keys ?each fun table => ?decoded
  case keys =>
    simp only [List.map_cons, List.map_nil]
    decide
  case each =>
    simp only [words, List.forall_mem_cons] at small
    obtain ⟨bucket, escalation, idle, -⟩ := small
    simp [isEntry_ofWord bucket, isEntry_ofWord escalation, isEntry_ofWord idle]
  case decoded =>
    simp [ofDatum?, Datum.toSection?, Datum.toBool?, read_readEntries table]

end LimiterSettings

namespace ReputationSettings

def numbers (s : ReputationSettings) : List Float :=
  [s.baselineScore, s.blockScore, s.decayPerSecond, s.throttlePenalty, s.malformedPenalty,
    s.classificationPenalty, s.suspicionPenalty, s.timeoutPenalty]

theorem survives {s : ReputationSettings} (finite : ∀ x ∈ s.numbers, x.isFinite = true)
    (back : ∀ x ∈ s.numbers, Decimal.ReadsBack x) :
    Survives (room + 1) (ofDatum? Toml.dialect) s s.toDatum := by
  refine survives_section ?keys ?each fun table => ?decoded
  case keys =>
    simp only [List.map_cons, List.map_nil]
    decide
  case each =>
    have entries : ∀ x ∈ s.numbers, IsEntry room (.float x) := fun x member =>
      isEntry_float (finite x member) (back x member)
    simpa [numbers] using entries
  case decoded =>
    simp [ofDatum?, Datum.toSection?, Datum.toFloat?, read_readEntries table]

end ReputationSettings

namespace BlockSettings

def words (s : BlockSettings) : List UInt64 := [s.baseBlockMs, s.maxBlockMs]

theorem survives {s : BlockSettings} (small : ∀ n ∈ s.words, n.toNat < 2 ^ 63) :
    Survives (room + 1) (ofDatum? Toml.dialect) s s.toDatum := by
  refine survives_section ?keys ?each fun table => ?decoded
  case keys =>
    simp only [List.map_cons, List.map_nil]
    decide
  case each =>
    simp only [words, List.forall_mem_cons] at small
    simp [isEntry_ofWord small.1, isEntry_ofWord small.2.1]
  case decoded =>
    simp [ofDatum?, Datum.toSection?, read_readEntries table]

end BlockSettings

namespace HandshakeSettings

def words (s : HandshakeSettings) : List UInt64 := [s.maxBytes, s.timeoutMs, s.maxAddressLength]

theorem isQuotable_nextState (state : NextState) : IsQuotable state.name.toList := by
  cases state <;> decide

theorem survives {s : HandshakeSettings} (small : ∀ n ∈ s.words, n.toNat < 2 ^ 63) :
    Survives (room + 1) (ofDatum? Toml.dialect) s s.toDatum := by
  refine survives_section ?keys ?each fun table => ?decoded
  case keys =>
    simp only [List.map_cons, List.map_nil]
    decide
  case each =>
    simp only [words, List.forall_mem_cons] at small
    obtain ⟨bytes, timeout, length, -⟩ := small
    have states : IsEntry room (.list (s.allowedNextStates.map (.text ·.name))) :=
      isEntry_list fun state _ => isQuotable_nextState state
    simp [isEntry_ofWord bytes, isEntry_ofWord timeout, isEntry_ofWord length, states,
      isEntry_ofOption isScalar_int32]
  case decoded =>
    have states : Datum.toList? (NextState.ofDatum? Toml.dialect)
        (.list (s.allowedNextStates.map (.text ·.name))) = some s.allowedNextStates :=
      Datum.toList?_map NextState.ofName?_name _
    simp [ofDatum?, Datum.toSection?, read_readEntries table, states,
      seen?_ofOption isScalar_int32 Datum.toInt32?_int]

end HandshakeSettings

namespace HeuristicSettings

theorem survives {s : HeuristicSettings} (small : s.churnThreshold.toNat < 2 ^ 63)
    (quotable : ∀ t ∈ s.expectedHosts, IsQuotable t.toList) :
    Survives (room + 1) (ofDatum? Toml.dialect) s s.toDatum := by
  refine survives_section ?keys ?each fun table => ?decoded
  case keys =>
    simp only [List.map_cons, List.map_nil]
    decide
  case each =>
    have hosts : IsEntry room (.list (s.expectedHosts.map .text)) := isEntry_list quotable
    simp [isEntry_ofWord small, hosts, isEntry_ofOption isScalar_word16]
  case decoded =>
    have hosts : Datum.toList? Datum.toText? (.list (s.expectedHosts.map .text)) =
        some s.expectedHosts :=
      Datum.toList?_map (fun (_ : String) => rfl) _
    simp [ofDatum?, Datum.toSection?, Datum.toBool?, read_readEntries table, hosts,
      seen?_ofOption isScalar_word16 Datum.toUInt16?_ofWord]

end HeuristicSettings

namespace DetectionSettings

def words (s : DetectionSettings) : List UInt64 :=
  [s.classifyTimeoutMs, s.heuristic.churnThreshold]

theorem isQuotable_failurePolicy (policy : FailurePolicy) : IsQuotable policy.name.toList := by
  cases policy <;> decide

theorem survives {s : DetectionSettings} (small : ∀ n ∈ s.words, n.toNat < 2 ^ 63)
    (quotable : ∀ t ∈ s.heuristic.expectedHosts, IsQuotable t.toList) :
    Survives (room + 2) (ofDatum? Toml.dialect) s s.toDatum := by
  simp only [words, List.forall_mem_cons] at small
  obtain ⟨classify, churn, -⟩ := small
  have heuristic : Survives (room + 1) _ s.heuristic s.heuristic.toDatum :=
    HeuristicSettings.survives churn quotable
  refine survives_section ?keys ?each fun table => ?decoded
  case keys =>
    simp only [List.map_cons, List.map_nil]
    decide
  case each =>
    simp [isEntry_ofWord classify, isEntry_text (isQuotable_failurePolicy _), heuristic.entry]
  case decoded =>
    have policy : ∀ p : FailurePolicy,
        Datum.toName? Toml.dialect FailurePolicy.ofName? (.text p.name) = some p :=
      FailurePolicy.ofName?_name
    simp [ofDatum?, Datum.toSection?, read_readEntries table, policy, heuristic.elim]

end DetectionSettings

namespace PipelineSettings

def words (s : PipelineSettings) : List UInt64 := [s.maxThrottleWaitMs]

theorem survives {s : PipelineSettings} (small : ∀ n ∈ s.words, n.toNat < 2 ^ 63) :
    Survives (room + 1) (ofDatum? Toml.dialect) s s.toDatum := by
  refine survives_section ?keys ?each fun table => ?decoded
  case keys =>
    simp only [List.map_cons, List.map_nil]
    decide
  case each =>
    simp only [words, List.forall_mem_cons] at small
    simp [isEntry_ofWord small.1]
  case decoded =>
    simp [ofDatum?, Datum.toSection?, read_readEntries table]

end PipelineSettings

namespace Settings

/-- The integers of 64 bits; no others can be too large for the format. -/
def words (s : Settings) : List UInt64 :=
  s.registry.words ++ s.limiter.words ++ s.blocklist.words ++ s.handshake.words ++
    s.detection.words ++ s.pipeline.words

theorem survives {s : Settings} (small : ∀ n ∈ s.words, n.toNat < 2 ^ 63)
    (quotable : ∀ t ∈ s.detection.heuristic.expectedHosts, IsQuotable t.toList)
    (finite : ∀ x ∈ s.reputation.numbers, x.isFinite = true)
    (back : ∀ x ∈ s.reputation.numbers, Decimal.ReadsBack x) :
    Survives (room + 3) (ofDatum? Toml.dialect) s s.toDatum := by
  simp only [words, List.forall_mem_append] at small
  obtain ⟨⟨⟨⟨⟨registryWords, limiterWords⟩, blockWords⟩, handshakeWords⟩, detectionWords⟩,
    pipelineWords⟩ := small
  have registry : Survives (room + 2) _ s.registry _ := RegistrySettings.survives registryWords
  have limiter : Survives (room + 2) _ s.limiter _ := LimiterSettings.survives limiterWords
  have reputation : Survives (room + 2) _ s.reputation _ := ReputationSettings.survives finite back
  have blocklist : Survives (room + 2) _ s.blocklist _ := BlockSettings.survives blockWords
  have handshake : Survives (room + 2) _ s.handshake _ := HandshakeSettings.survives handshakeWords
  have detection : Survives (room + 2) _ s.detection _ :=
    DetectionSettings.survives detectionWords quotable
  have pipeline : Survives (room + 2) _ s.pipeline _ := PipelineSettings.survives pipelineWords
  refine survives_section ?keys ?each fun table => ?decoded
  case keys =>
    simp only [List.map_cons, List.map_nil]
    decide
  case each =>
    simp [registry.entry, limiter.entry, reputation.entry, blocklist.entry, handshake.entry,
      detection.entry, pipeline.entry]
  case decoded =>
    simp [ofDatum?, Datum.toSection?, read_readEntries table, registry.elim, limiter.elim,
      reputation.elim, blocklist.elim, handshake.elim, detection.elim, pipeline.elim]

end Settings

end AdmissionGate
