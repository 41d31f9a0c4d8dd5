import AdmissionGate.Handshake.VarInt

/-!
What the variable-length numbers are, said without the decoder: a numeral is a run of bytes
of which the last and no other has its high bit clear, and its value is read off seven bits
at a time. Decoding succeeds exactly on the byte strings that begin with a numeral of at most
five bytes, shortest form or not. It wants more bytes while each of less than five promises
another one, and fails for good when the fifth does. Encoding gives a numeral,
and no numeral for a number is shorter.
-/

namespace AdmissionGate.VarInt

/-- What the low seven bits of each byte make, the first byte lowest. -/
def value : List UInt8 → Nat
  | [] => 0
  | b :: bs => b.toNat % 128 + 128 * value bs

inductive Numeral : List UInt8 → Prop
  | last {b : UInt8} (low : b.toNat < 128) : Numeral [b]
  | more {b : UInt8} {bs : List UInt8} (high : 128 ≤ b.toNat) (rest : Numeral bs) :
      Numeral (b :: bs)

theorem decodeNat_append (room : Nat) {p : List UInt8} (rest : List UInt8) (h : Numeral p)
    (fits : p.length ≤ room) : decodeNat room (p ++ rest) = .ok (value p, rest) := by
  induction h generalizing room with
  | last low =>
      cases room with
      | zero => simp at fits
      | succ room => simp [decodeNat, low, value, Nat.mod_eq_of_lt low]
  | @more b bs high _ ih =>
      cases room with
      | zero => simp at fits
      | succ room =>
          have low : ¬b.toNat < 128 := Nat.not_lt.mpr high
          have byte : b.toNat % 128 = b.toNat - 128 := by
            have := b.toNat_lt
            omega
          have tail := ih room (by simpa using fits)
          simp only [List.cons_append, decodeNat, low, if_false, tail, value, byte]

theorem decodeNat_sound (room : Nat) (bytes : List UInt8) {n : Nat} {rest : List UInt8}
    (h : decodeNat room bytes = .ok (n, rest)) :
    ∃ p, bytes = p ++ rest ∧ Numeral p ∧ p.length ≤ room ∧ value p = n := by
  induction room generalizing bytes n with
  | zero => simp [decodeNat] at h
  | succ room ih =>
      cases bytes with
      | nil => simp [decodeNat] at h
      | cons b bs =>
          simp only [decodeNat] at h
          split at h
          · rename_i low
            simp only [Except.ok.injEq, Prod.mk.injEq] at h
            obtain ⟨rfl, rfl⟩ := h
            exact ⟨[b], rfl, .last low, by simp, by simp [value, Nat.mod_eq_of_lt low]⟩
          · rename_i high
            split at h
            · rename_i m tail below
              simp only [Except.ok.injEq, Prod.mk.injEq] at h
              obtain ⟨rfl, rfl⟩ := h
              obtain ⟨p, rfl, numeral, fits, rfl⟩ := ih bs below
              have := b.toNat_lt
              refine ⟨b :: p, rfl, .more (by omega) numeral, by simpa using fits, ?_⟩
              simp only [value]
              omega
            · contradiction

theorem decode_eq_ok_iff {bytes rest : List UInt8} {word : UInt32} :
    decode bytes = .ok (word, rest) ↔
      ∃ p, bytes = p ++ rest ∧ Numeral p ∧ p.length ≤ maxLength ∧
        UInt32.ofNat (value p) = word := by
  constructor
  · intro h
    simp only [decode] at h
    split at h
    · rename_i n tail read
      simp only [Except.ok.injEq, Prod.mk.injEq] at h
      obtain ⟨rfl, rfl⟩ := h
      obtain ⟨p, split, numeral, fits, rfl⟩ := decodeNat_sound _ _ read
      exact ⟨p, split, numeral, fits, rfl⟩
    · contradiction
  · intro given
    obtain ⟨p, rfl, numeral, fits, rfl⟩ := given
    simp [decode, decodeNat_append maxLength rest numeral fits]

/-- Bytes that spell a signed number: a numeral that is not too long, its value cut to
32 bits of which the highest is the sign. -/
structure Spells (bytes : List UInt8) (n : Int) : Prop where
  numeral : Numeral bytes
  fits : bytes.length ≤ maxLength
  signed : (value bytes : Int).bmod 4294967296 = n

/-- Zero may be spelled with more bytes than it needs. -/
example : Spells [0x80, 0x80, 0x00] 0 :=
  ⟨.more (by decide) (.more (by decide) (.last (by decide))), by decide, by decide⟩

theorem toInt_toInt32_ofNat (n : Nat) :
    (UInt32.ofNat n).toInt32.toInt = (n : Int).bmod 4294967296 := by
  exact BitVec.toInt_ofNat' n

theorem decode_eq_ok_iff_spells {bytes rest : List UInt8} {word : UInt32} :
    decode bytes = .ok (word, rest) ↔
      ∃ p, bytes = p ++ rest ∧ Spells p word.toInt32.toInt := by
  rw [decode_eq_ok_iff]
  constructor
  · intro given
    obtain ⟨p, rfl, numeral, fits, rfl⟩ := given
    exact ⟨p, rfl, numeral, fits, (toInt_toInt32_ofNat _).symm⟩
  · intro given
    obtain ⟨p, rfl, numeral, fits, signed⟩ := given
    refine ⟨p, rfl, numeral, fits, ?_⟩
    rw [← toInt_toInt32_ofNat] at signed
    have same := congrArg Int32.toUInt32 (Int32.toInt_inj.mp signed)
    simpa only [UInt32.toUInt32_toInt32] using same

theorem decodeNat_cons_eq_error_iff {room : Nat} {b : UInt8} {bs : List UInt8} {e : Error} :
    decodeNat (room + 1) (b :: bs) = .error e ↔
      128 ≤ b.toNat ∧ decodeNat room bs = .error e := by
  simp only [decodeNat]
  split
  · rename_i low
    simp [Nat.not_le.mpr low]
  · rename_i high
    rw [Nat.not_lt] at high
    split <;> simp_all

/-- A number is too long if none of the bytes that it may have ends it. -/
theorem decodeNat_eq_tooLong_iff {room : Nat} {bytes : List UInt8} :
    decodeNat room bytes = .error .tooLong ↔
      room ≤ bytes.length ∧ ∀ b ∈ bytes.take room, 128 ≤ b.toNat := by
  induction room generalizing bytes with
  | zero => simp [decodeNat]
  | succ room ih =>
      cases bytes with
      | nil => simp [decodeNat]
      | cons b bs =>
          rw [decodeNat_cons_eq_error_iff, ih, List.length_cons, Nat.add_le_add_iff_right,
            List.take_succ_cons, List.forall_mem_cons, and_left_comm]

theorem decodeNat_eq_incomplete_iff {room : Nat} {bytes : List UInt8} :
    decodeNat room bytes = .error .incomplete ↔
      bytes.length < room ∧ ∀ b ∈ bytes, 128 ≤ b.toNat := by
  induction room generalizing bytes with
  | zero => simp [decodeNat]
  | succ room ih =>
      cases bytes with
      | nil => simp [decodeNat]
      | cons b bs =>
          rw [decodeNat_cons_eq_error_iff, ih, List.length_cons, Nat.add_lt_add_iff_right,
            List.forall_mem_cons, and_left_comm]

theorem decode_eq_error_iff {bytes : List UInt8} {e : Error} :
    decode bytes = .error e ↔ decodeNat maxLength bytes = .error e := by
  simp only [decode]
  split <;> simp_all

theorem decode_eq_tooLong_iff {bytes : List UInt8} :
    decode bytes = .error .tooLong ↔
      maxLength ≤ bytes.length ∧ ∀ b ∈ bytes.take maxLength, 128 ≤ b.toNat :=
  decode_eq_error_iff.trans decodeNat_eq_tooLong_iff

theorem decode_eq_incomplete_iff {bytes : List UInt8} :
    decode bytes = .error .incomplete ↔
      bytes.length < maxLength ∧ ∀ b ∈ bytes, 128 ≤ b.toNat :=
  decode_eq_error_iff.trans decodeNat_eq_incomplete_iff

theorem length_le_of_decode {bytes rest : List UInt8} {word : UInt32}
    (read : decode bytes = .ok (word, rest)) : rest.length ≤ bytes.length := by
  obtain ⟨p, rfl, -⟩ := decode_eq_ok_iff.mp read
  rw [List.length_append]
  exact Nat.le_add_left ..

/-- Bytes behind a number are left alone. -/
theorem decode_append_of_ok {bytes rest : List UInt8} {word : UInt32}
    (read : decode bytes = .ok (word, rest)) (more : List UInt8) :
    decode (bytes ++ more) = .ok (word, rest ++ more) := by
  obtain ⟨p, rfl, spelled⟩ := decode_eq_ok_iff.mp read
  exact decode_eq_ok_iff.mpr ⟨p, List.append_assoc .., spelled⟩

theorem decode_append_of_tooLong {bytes : List UInt8} (long : decode bytes = .error .tooLong)
    (more : List UInt8) : decode (bytes ++ more) = .error .tooLong := by
  rw [decode_eq_tooLong_iff] at long ⊢
  obtain ⟨there, high⟩ := long
  refine ⟨?_, ?_⟩
  · rw [List.length_append]
    exact Nat.le_add_right_of_le there
  · rwa [List.take_append_of_le_length there]

theorem toNat_toUInt8 {n : Nat} (small : n < 256) : n.toUInt8.toNat = n := by
  simp [Nat.mod_eq_of_lt small]

theorem numeral_encodeNat (n : Nat) : Numeral (encodeNat n) := by
  fun_induction encodeNat n with
  | case1 n short =>
      apply Numeral.last
      rwa [toNat_toUInt8 (by omega)]
  | case2 n long ih =>
      apply Numeral.more _ ih
      rw [toNat_toUInt8 (by omega)]
      exact Nat.le_add_left ..

theorem value_encodeNat (n : Nat) : value (encodeNat n) = n := by
  fun_induction encodeNat n with
  | case1 n short =>
      rw [value, value, toNat_toUInt8 (by omega)]
      omega
  | case2 n long ih =>
      rw [value, ih, toNat_toUInt8 (by omega)]
      omega

/-- Seven bits a byte. -/
theorem length_encodeNat_le {n room : Nat} (small : n < Nat.pow 128 (room + 1)) :
    (encodeNat n).length ≤ room + 1 := by
  induction room generalizing n with
  | zero =>
      have short : n < 128 := small
      rw [encodeNat, if_pos short]
      exact Nat.le_refl 1
  | succ room ih =>
      rw [encodeNat]
      split
      · exact Nat.le_add_left ..
      · have high : n / 128 < Nat.pow 128 (room + 1) := by
          apply Nat.div_lt_of_lt_mul
          rw [Nat.mul_comm]
          exact small
        exact Nat.succ_le_succ (ih high)

theorem spells_encode (word : UInt32) : Spells (encode word) word.toInt32.toInt where
  numeral := numeral_encodeNat word.toNat
  fits := length_encodeNat_le (Nat.lt_trans word.toNat_lt (by decide))
  signed := by
    rw [encode, value_encodeNat, ← toInt_toInt32_ofNat, UInt32.ofNat_toNat]

theorem spells_encode_ofNat {n : Nat} (small : n < 2147483648) :
    Spells (encode (UInt32.ofNat n)) n := by
  have spelled := spells_encode (UInt32.ofNat n)
  have signed : (n : Int).bmod 4294967296 = n := by
    rw [Int.bmod_def]
    omega
  rwa [toInt_toInt32_ofNat, signed] at spelled

/-- The first byte of a number. -/
theorem head?_encodeNat (n : Nat) :
    (encodeNat n).head? = some (if n < 128 then n else n % 128 + 128).toUInt8 := by
  rw [encodeNat]
  split <;> rfl

theorem Numeral.length_pos {p : List UInt8} (numeral : Numeral p) : 0 < p.length := by
  cases numeral <;> exact Nat.succ_pos _

theorem length_encodeNat_mono {m n : Nat} (le : m ≤ n) :
    (encodeNat m).length ≤ (encodeNat n).length := by
  fun_induction encodeNat m generalizing n with
  | case1 m short => exact (numeral_encodeNat n).length_pos
  | case2 m long ih =>
      rw [encodeNat.eq_def n, if_neg (by omega)]
      exact Nat.succ_le_succ (ih (Nat.div_le_div_right le))

/-- A numeral is no shorter than the encoding of its value. -/
theorem Numeral.length_encodeNat_le {p : List UInt8} (numeral : Numeral p) :
    (encodeNat (value p)).length ≤ p.length := by
  induction numeral with
  | @last b low =>
      rw [value, value, encodeNat, if_pos (by omega)]
      exact Nat.le_refl 1
  | @more b bs high rest ih =>
      have tail : (b.toNat % 128 + 128 * value bs) / 128 = value bs := by omega
      rw [value, encodeNat]
      split
      · exact Nat.succ_le_succ (Nat.zero_le _)
      · rw [tail]
        exact Nat.succ_le_succ ih

/-- Nothing spells a number with fewer bytes than its encoding has. -/
theorem Spells.length_encode_le {p : List UInt8} {n : Int32} (spells : Spells p n.toInt) :
    (encode n.toUInt32).length ≤ p.length := by
  have signed := spells.signed
  rw [← toInt_toInt32_ofNat] at signed
  have word : UInt32.ofNat (value p) = n.toUInt32 := by
    simpa only [UInt32.toUInt32_toInt32] using congrArg Int32.toUInt32 (Int32.toInt_inj.mp signed)
  rw [← word, encode, UInt32.toNat_ofNat']
  exact Nat.le_trans (length_encodeNat_mono (Nat.mod_le ..)) spells.numeral.length_encodeNat_le

end AdmissionGate.VarInt
