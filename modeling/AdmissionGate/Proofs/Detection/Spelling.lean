import AdmissionGate.Detection.Heuristic
import AdmissionGate.Proofs.Detection.Literals
import Mathlib.Data.List.Forall2
import Mathlib.Logic.Relation

/-!
How a host is spelled does not matter to the signs. A sign looks at a server address only for its
host in lower case, without the dots at its end, and for whether markers follow; and at the hosts
that clients should dial only for the set of names they make, spelled the same way.
-/

namespace AdmissionGate

namespace HostName

/-- The host that an address names, in front of any markers. -/
def ofAddress (cs : List Char) : List Char := dropTrailingDots (cs.takeWhile (· ≠ '\x00'))

/-- One change to the spelling of an address: letters in the other case, other dots at the end of
the host, or other text behind the first NUL. -/
inductive Respells : List Char → List Char → Prop
  | letters {a b : List Char} (same : List.Forall₂ (fun c d => c.toLower = d.toLower) a b) :
      Respells a b
  | dots {host rest : List Char} (named : '\x00' ∉ host) (marked : ∀ c ∈ rest.head?, c = '\x00')
      (m n : Nat) :
      Respells (host ++ List.replicate m '.' ++ rest) (host ++ List.replicate n '.' ++ rest)
  | markers {host : List Char} (named : '\x00' ∉ host) (text text' : List Char) :
      Respells (host ++ '\x00' :: text) (host ++ '\x00' :: text')

/-- One change to a list of names: their order, how often a name stands in it, its letters in the
other case, or other dots at its end. -/
inductive Relists : List String → List String → Prop
  | order {names names' : List String} (same : names.Perm names') : Relists names names'
  | again {name : String} {names : List String} (listed : name ∈ names) :
      Relists names (name :: names)
  | once {name : String} {names : List String} (listed : name ∈ names) :
      Relists (name :: names) names
  | letters {name name' : String} (names : List String)
      (same : List.Forall₂ (fun c d => c.toLower = d.toLower) name.toList name'.toList) :
      Relists (name :: names) (name' :: names)
  | dots {name name' : String} (names : List String) (host : List Char) (m n : Nat)
      (before : name.toList = host ++ List.replicate m '.')
      (after : name'.toList = host ++ List.replicate n '.') :
      Relists (name :: names) (name' :: names)

theorem dropTrailingDots_append_dots (cs : List Char) (n : Nat) :
    dropTrailingDots (cs ++ List.replicate n '.') = dropTrailingDots cs := by
  rw [dropTrailingDots, List.reverse_append, List.reverse_replicate,
    List.dropWhile_append_of_pos (by simp), dropTrailingDots]

theorem lower_dropTrailingDots (cs : List Char) :
    lower (dropTrailingDots cs) = dropTrailingDots (lower cs) := by
  simp only [lower, dropTrailingDots, ← List.map_reverse, List.dropWhile_map, Function.comp_def,
    toLower_eq_iff point]

theorem lower_ofAddress (cs : List Char) : lower (ofAddress cs) = ofAddress (lower cs) := by
  rw [ofAddress, lower_dropTrailingDots, ofAddress]
  simp only [lower, List.takeWhile_map, Function.comp_def, ne_eq, toLower_eq_iff nul]

theorem contains_lower (cs : List Char) : (lower cs).contains '\x00' = cs.contains '\x00' := by
  rw [Bool.eq_iff_iff, List.contains_iff_mem, List.contains_iff_mem, lower, List.mem_map]
  constructor
  · rintro ⟨c, mem, lowered⟩
    rwa [← (toLower_eq_iff nul c).mp lowered]
  · intro mem
    exact ⟨'\x00', mem, rfl⟩

theorem lower_eq_of_forall₂ {a b : List Char}
    (same : List.Forall₂ (fun c d => c.toLower = d.toLower) a b) : lower a = lower b := by
  induction same with
  | nil => rfl
  | cons head _ ih => exact List.cons_eq_cons.mpr ⟨head, ih⟩

/-- The front of an address that has no NUL, and dots behind it, are its host. -/
theorem ofAddress_append {host rest : List Char} (named : '\x00' ∉ host)
    (marked : ∀ c ∈ rest.head?, c = '\x00') (n : Nat) :
    ofAddress (host ++ List.replicate n '.' ++ rest) = dropTrailingDots host := by
  have front : ∀ c ∈ host ++ List.replicate n '.', decide (c ≠ '\x00') = true := by
    intro c mem
    rw [List.mem_append, List.mem_replicate] at mem
    rcases mem with inside | ⟨-, rfl⟩
    · simp only [decide_eq_true_eq]
      rintro rfl
      exact named inside
    · rfl
  have behind : rest.takeWhile (fun c => decide (c ≠ '\x00')) = [] := by
    cases rest with
    | nil => rfl
    | cons c rest =>
        rw [marked c rfl]
        rfl
  rw [ofAddress, List.takeWhile_append_of_pos front, behind, List.append_nil,
    dropTrailingDots_append_dots]

structure Alike (a b : List Char) : Prop where
  host : lower (ofAddress a) = lower (ofAddress b)
  markers : a.contains '\x00' = b.contains '\x00'

theorem Respells.alike {a b : List Char} (respells : Respells a b) : Alike a b := by
  cases respells with
  | letters same =>
      have lowered := lower_eq_of_forall₂ same
      refine ⟨?_, ?_⟩
      · rw [lower_ofAddress, lower_ofAddress, lowered]
      · rw [← contains_lower, ← contains_lower b, lowered]
  | dots named marked m n =>
      refine ⟨?_, ?_⟩
      · rw [ofAddress_append named marked, ofAddress_append named marked]
      · simp
  | markers named text text' =>
      have mark (text : List Char) : ∀ c ∈ ('\x00' :: text).head?, c = '\x00' := by simp
      have bare := ofAddress_append named (mark text) 0
      have bare' := ofAddress_append named (mark text') 0
      simp at bare bare'
      refine ⟨?_, ?_⟩
      · rw [bare, bare']
      · simp

theorem Alike.of_respelled {a b : List Char} (respelled : Relation.ReflTransGen Respells a b) :
    Alike a b := by
  induction respelled with
  | refl => exact ⟨rfl, rfl⟩
  | tail _ last ih => exact ⟨ih.host.trans last.alike.host, ih.markers.trans last.alike.markers⟩

def namesOf (hosts : List String) : List (List Char) := hosts.map fun e => canonical e.toList

theorem lower_canonical (cs : List Char) : lower (canonical cs) = canonical cs :=
  lower_lower (dropTrailingDots cs)

theorem canonical_eq_of_forall₂ {a b : List Char}
    (same : List.Forall₂ (fun c d => c.toLower = d.toLower) a b) : canonical a = canonical b := by
  rw [canonical, lower_dropTrailingDots, lower_eq_of_forall₂ same, ← lower_dropTrailingDots]
  rfl

theorem Relists.mem_namesOf {hosts hosts' : List String} (relists : Relists hosts hosts')
    (name : List Char) : name ∈ namesOf hosts' ↔ name ∈ namesOf hosts := by
  cases relists with
  | order same => exact ((same.map _).mem_iff).symm
  | again listed =>
      rw [namesOf, List.map_cons, List.mem_cons, or_iff_right_of_imp]
      · rfl
      · rintro rfl
        exact List.mem_map_of_mem listed
  | once listed =>
      symm
      rw [namesOf, List.map_cons, List.mem_cons, or_iff_right_of_imp]
      · rfl
      · rintro rfl
        exact List.mem_map_of_mem listed
  | letters names same =>
      simp only [namesOf, List.map_cons, canonical_eq_of_forall₂ same]
  | dots names host m n before after =>
      simp only [namesOf, List.map_cons, canonical, before, after, dropTrailingDots_append_dots]

theorem mem_namesOf_of_relisted {hosts hosts' : List String}
    (relisted : Relation.ReflTransGen Relists hosts hosts') (name : List Char) :
    name ∈ namesOf hosts' ↔ name ∈ namesOf hosts := by
  induction relisted with
  | refl => rfl
  | tail _ last ih => exact (last.mem_namesOf name).trans ih

end HostName

namespace HeuristicSettings

open HostName

theorem expects_iff (s : HeuristicSettings) (host : List Char) :
    s.expects host = true ↔ lower host ∈ namesOf s.expectedHosts := by
  simp only [expects, sameName, lower_canonical, List.any_eq_true, decide_eq_true_eq, namesOf,
    List.mem_map]

theorem isEmpty_eq_of_names {hosts hosts' : List String}
    (same : ∀ name, name ∈ namesOf hosts' ↔ name ∈ namesOf hosts) :
    hosts'.isEmpty = hosts.isEmpty := by
  have nil_iff (names : List String) : names.isEmpty = true ↔ ∀ name, name ∉ namesOf names := by
    rw [List.isEmpty_iff, ← List.eq_nil_iff_forall_not_mem, namesOf, List.map_eq_nil_iff]
  rw [Bool.eq_iff_iff, nil_iff, nil_iff]
  exact forall_congr' fun name => not_congr (same name)

theorem shows_respelled {s : HeuristicSettings} {r : ConnectionRecord} {h h' : Handshake}
    {hosts : List String} (address : Alike h.serverAddress.toList h'.serverAddress.toList)
    (port : h'.serverPort = h.serverPort)
    (names : ∀ name, name ∈ namesOf hosts ↔ name ∈ namesOf s.expectedHosts) (sign : Sign) :
    { s with expectedHosts := hosts }.shows r h' sign = s.shows r h sign := by
  have lowered : lower h'.hostChars = lower h.hostChars := address.host.symm
  have empty : h'.hostChars.isEmpty = h.hostChars.isEmpty := by
    have := congrArg List.isEmpty lowered
    simpa [lower] using this
  cases sign with
  | emptyHost => exact empty
  | literalHost =>
      simp only [shows, empty]
      rw [← Address.ofChars?_lower h'.hostChars, lowered, Address.ofChars?_lower]
  | unexpectedHost =>
      have expected :
          { s with expectedHosts := hosts }.expects h'.hostChars = s.expects h.hostChars := by
        rw [Bool.eq_iff_iff, expects_iff, expects_iff, lowered]
        exact names _
      simp only [shows, expected, isEmpty_eq_of_names names]
  | unexpectedPort => simp only [shows, port]
  | forwardingMarkers => simp only [shows, Handshake.hasForwardingMarkers, address.markers]
  | poorReputation | reconnectChurn => rfl

/-- The assessment does not hang on how hosts are spelled. -/
theorem assess_respelled (s : HeuristicSettings) (r : ConnectionRecord) {h h' : Handshake}
    {hosts : List String}
    (respelled : Relation.ReflTransGen Respells h.serverAddress.toList h'.serverAddress.toList)
    (port : h'.serverPort = h.serverPort)
    (relisted : Relation.ReflTransGen Relists s.expectedHosts hosts) :
    { s with expectedHosts := hosts }.assess r h' = s.assess r h := by
  rw [assess, assess]
  congr 1
  apply List.filter_congr
  intro sign _
  exact shows_respelled (.of_respelled respelled) port (mem_namesOf_of_relisted relisted) sign

def choosy : HeuristicSettings where
  expectedHosts := ["Play.Example.NET.", "alt.example.net"]
  allowForwardingMarkers := false

def visitor : ConnectionRecord where
  key := ⟨.v4 #v[203, 0, 113, 21], 1⟩
  priorConnections := 3

def dialling (address : String) : Handshake := .ofFields 767 address 25565 .login

/-- An address is dialled instead of a name, twice, with and without capitals and dots. -/
theorem assess_literal_respelled :
    let twice := { choosy with
      expectedHosts := ["alt.example.net", "alt.example.net", "play.example.net"] }
    let signs : List Sign := [.literalHost, .unexpectedHost, .forwardingMarkers]
    choosy.assess visitor (dialling "2001:DB8::A\x00FML2") = ⟨100, signs⟩ ∧
      twice.assess visitor (dialling "2001:db8::a..\x00") = ⟨100, signs⟩ := by
  intro twice signs
  have before : choosy.assess visitor (dialling "2001:DB8::A\x00FML2") = ⟨100, signs⟩ := by
    decide +kernel
  refine ⟨before, ?_⟩
  rw [← before]
  apply assess_respelled choosy visitor
  · have small : Respells "2001:DB8::A\x00FML2".toList "2001:db8::a\x00fml2".toList :=
      .letters (by decide +kernel)
    have dotted := @Respells.dots "2001:db8::a".toList "\x00fml2".toList (by decide +kernel)
      (by simp) 0 2
    have bare := @Respells.markers "2001:db8::a..".toList (by decide +kernel) "fml2".toList []
    exact .tail (.tail (.single small) dotted) bare
  · rfl
  · have small : Relists ["Play.Example.NET.", "alt.example.net"]
        ["play.example.net.", "alt.example.net"] :=
      .letters ["alt.example.net"] (by decide +kernel)
    have bare : Relists ["play.example.net.", "alt.example.net"]
        ["play.example.net", "alt.example.net"] :=
      .dots ["alt.example.net"] "play.example.net".toList 1 0 (by decide +kernel)
        (by decide +kernel)
    have turned : Relists ["play.example.net", "alt.example.net"]
        ["alt.example.net", "play.example.net"] :=
      .order (by decide +kernel)
    exact .tail (.tail (.tail (.single small) bare) turned) (.again (by decide +kernel))

end HeuristicSettings

end AdmissionGate
