import AdmissionGate.Proofs.Handshake.Numeral

/-!
The variable-length numbers as a code. What was encoded is read back, whatever stands behind it,
so no encoding begins with another one; and nothing shorter than the encoding of a number is read
as that number. How any bytes are read is told by their continuation bits: the bytes up to the
first without it are the number, if it is among the first five.
-/

namespace AdmissionGate.VarInt

variable {word : UInt32} {bytes rest : List UInt8}

def Continues (b : UInt8) : Prop := b &&& 0x80 ≠ 0

theorem continues_iff {b : UInt8} : Continues b ↔ 128 ≤ b.toNat := by
  have bits : ∀ i : Fin 256, i.val &&& 128 = i.val / 128 * 128 := by decide +kernel
  have bit : (b &&& 0x80).toNat = b.toNat / 128 * 128 :=
    (UInt8.toNat_and ..).trans (bits ⟨_, b.toNat_lt⟩)
  rw [Continues, Ne, ← UInt8.toNat_inj, bit, UInt8.toNat_zero]
  omega

theorem not_continues_iff {b : UInt8} : ¬Continues b ↔ b.toNat < 128 := by
  rw [continues_iff, Nat.not_le]

theorem Numeral.exists_last {p : List UInt8} (numeral : Numeral p) :
    ∃ front b, p = front ++ [b] ∧ (∀ c ∈ front, Continues c) ∧ ¬Continues b := by
  induction numeral with
  | @last b low => exact ⟨[], b, rfl, fun _ member => (nomatch member), not_continues_iff.mpr low⟩
  | @more b bs high _ ih =>
      obtain ⟨front, last, rfl, continued, ends⟩ := ih
      refine ⟨b :: front, last, rfl, ?_, ends⟩
      exact List.forall_mem_cons.mpr ⟨continues_iff.mpr high, continued⟩

theorem decode_encode_append (word : UInt32) (suffix : List UInt8) :
    decode (encode word ++ suffix) = .ok (word, suffix) := by
  rw [decode_eq_ok_iff_spells]
  exact ⟨encode word, rfl, spells_encode word⟩

theorem eq_of_encode_isPrefix {m n : UInt32} (begins : encode m <+: encode n) : m = n := by
  obtain ⟨suffix, whole⟩ := begins
  -- The longer encoding is read in two ways, and there is only one.
  have short := decode_encode_append m suffix
  have long := decode_encode_append n []
  rw [List.append_nil, ← whole, short] at long
  exact congrArg Prod.fst (Except.ok.inj long)

/-- The bytes that are read as a number are no fewer than those of its encoding. -/
theorem length_encode_add_le (read : decode bytes = .ok (word, rest)) :
    (encode word).length + rest.length ≤ bytes.length := by
  obtain ⟨p, rfl, spells⟩ := decode_eq_ok_iff_spells.mp read
  have shortest := spells.length_encode_le
  rw [UInt32.toUInt32_toInt32] at shortest
  rw [List.length_append]
  exact Nat.add_le_add_right shortest _

theorem decode_eq_tooLong_iff_continues :
    decode bytes = .error .tooLong ↔ 5 ≤ bytes.length ∧ ∀ b ∈ bytes.take 5, Continues b := by
  simp only [decode_eq_tooLong_iff, continues_iff]
  rfl

theorem decode_eq_incomplete_iff_continues :
    decode bytes = .error .incomplete ↔ bytes.length < 5 ∧ ∀ b ∈ bytes, Continues b := by
  simp only [decode_eq_incomplete_iff, continues_iff]
  rfl

/-- What is read is the value of the bytes up to the first that does not continue. -/
theorem exists_front_of_decode (read : decode bytes = .ok (word, rest)) :
    ∃ front b, bytes = front ++ b :: rest ∧ (∀ c ∈ front, Continues c) ∧ ¬Continues b ∧
      word.toNat = value (front ++ [b]) % UInt32.size := by
  obtain ⟨p, rfl, numeral, -, rfl⟩ := decode_eq_ok_iff.mp read
  obtain ⟨front, b, rfl, continued, ends⟩ := numeral.exists_last
  exact ⟨front, b, List.append_assoc .., continued, ends, UInt32.toNat_ofNat' ..⟩

/-- What was encoded is read back, and what stands behind it is left alone. An encoding has one to
five bytes, no fewer are read as its number, and no other encoding begins with it. Any bytes are too
many for a number just if the first five continue, and too few just if there are less than five and
all continue; otherwise the number is that of the bytes up to the first that does not continue, in
base 128 with the lowest digit first, cut to 32 bits. -/
theorem codec_law (n : Int32) (suffix bytes : List UInt8) :
    decode (encode n.toUInt32 ++ suffix) = .ok (n.toUInt32, suffix) ∧
    1 ≤ (encode n.toUInt32).length ∧ (encode n.toUInt32).length ≤ 5 ∧
    (∀ rest, decode bytes = .ok (n.toUInt32, rest) →
      (encode n.toUInt32).length + rest.length ≤ bytes.length) ∧
    (∀ m : Int32, encode n.toUInt32 <+: encode m.toUInt32 → n = m) ∧
    (decode bytes = .error .tooLong ↔ 5 ≤ bytes.length ∧ ∀ b ∈ bytes.take 5, Continues b) ∧
    (decode bytes = .error .incomplete ↔ bytes.length < 5 ∧ ∀ b ∈ bytes, Continues b) ∧
    (decode bytes = .error .tooLong ∨ decode bytes = .error .incomplete ∨
      ∃ front b rest word, bytes = front ++ b :: rest ∧ (∀ c ∈ front, Continues c) ∧
        ¬Continues b ∧ decode bytes = .ok (word, rest) ∧
        word.toNat = value (front ++ [b]) % UInt32.size) := by
  have spelled := spells_encode n.toUInt32
  refine ⟨decode_encode_append .., spelled.numeral.length_pos, spelled.fits,
    fun _ => length_encode_add_le, fun m begins => ?_, decode_eq_tooLong_iff_continues,
    decode_eq_incomplete_iff_continues, ?_⟩
  · have same := congrArg UInt32.toInt32 (eq_of_encode_isPrefix begins)
    simpa only [Int32.toInt32_toUInt32] using same
  · cases read : decode bytes with
    | error e =>
        cases e with
        | tooLong => exact .inl rfl
        | incomplete => exact .inr (.inl rfl)
    | ok r =>
        obtain ⟨front, b, split, continued, ends, value⟩ := exists_front_of_decode read
        exact .inr (.inr ⟨front, b, r.2, r.1, split, continued, ends, rfl, value⟩)

/-- The fifth byte has more bits than there is room for. -/
example : decode [0xff, 0xff, 0xff, 0xff, 0x7f] = .ok ((-1 : Int32).toUInt32, []) := rfl

end AdmissionGate.VarInt
