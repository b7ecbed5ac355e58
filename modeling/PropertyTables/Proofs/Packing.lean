import PropertyTables.Proofs.Bitfield

/-!
# Bits and bytes

Lists of bits and the bytes they are packed into determine each other. The bytes that are read as a
bitfield of some length are those that a list of that length packs to: the count is right and no bit
is set past the end. All ways of reading a bitfield then agree with the list.

## Main definitions

* `Bitfield.bitAt`: the bit at a position of some bytes.
* `Bitfield.push`: one more bit, in a new byte or in place.
* `Bitfield.Holds`: a bitfield for a list of bits.
-/

namespace PropertyTables.Bitfield

variable {bits : List Bool} {bytes xs ys : List UInt8} {byte mask : UInt8} {b : Bitfield}
  {bit : Bool} {length i j k : Nat}

/-- The bit at a position, which is clear after the last byte. -/
def bitAt (bytes : List UInt8) (i : Nat) : Bool := (bytes[i / 8]?.getD 0).toNat.testBit (i % 8)

theorem bitAt_packBytes (bits : List Bool) (i : Nat) :
    bitAt (packBytes bits) i = bits[i]?.getD false := testBit_packBytes bits i

theorem bitAt_of_getElem? (h : bytes[k]? = some byte) (place : j < 8) :
    bitAt bytes (8 * k + j) = byte.toNat.testBit j := by
  have whole : (8 * k + j) / 8 = k := by omega
  have rest : (8 * k + j) % 8 = j := by omega
  rw [bitAt, whole, rest, h, Option.getD_some]

theorem bitAt_of_length_le (h : bytes.length ≤ i / 8) : bitAt bytes i = false := by
  rw [bitAt, List.getElem?_eq_none h]
  simp

/-- As many bytes with the same bits are the same bytes. -/
theorem eq_of_bitAt_eq (length : xs.length = ys.length) (same : ∀ i, bitAt xs i = bitAt ys i) :
    xs = ys := by
  apply List.ext_getElem length
  intro k hx hy
  apply UInt8.toNat_inj.1
  apply Nat.eq_of_testBit_eq
  intro j
  by_cases place : j < 8
  · rw [← bitAt_of_getElem? (List.getElem?_eq_getElem hx) place, same,
      bitAt_of_getElem? (List.getElem?_eq_getElem hy) place]
  · rw [testBit_of_eight_le _ (by omega), testBit_of_eight_le _ (by omega)]

/-! ## Reading back -/

theorem get_eq (b : Bitfield) (i : Nat) :
    b.get i = (decide (i < b.length) && bitAt b.bytes i) := rfl

theorem getElem?_unpack (b : Bitfield) (i : Nat) : b.unpack[i]?.getD false = b.get i := by
  by_cases inside : i < b.length
  · simp [unpack, inside]
  · simp [unpack, get, inside]

@[simp] theorem length_unpack (b : Bitfield) : b.unpack.length = b.length := by
  simp [unpack]

theorem get_pack (bits : List Bool) (i : Nat) : (pack bits).get i = bits[i]?.getD false := by
  rw [get_eq, pack, bitAt_packBytes]
  by_cases inside : i < bits.length
  · simp [inside]
  · simp [inside]

theorem unpack_pack (bits : List Bool) : (pack bits).unpack = bits := by
  apply List.ext_getElem
  · simp [pack]
  · intro i _ inside
    simp [unpack, get_pack, inside]

theorem shiftRight_eq_zero_iff {n : Nat} : n >>> k = 0 ↔ ∀ j, k ≤ j → n.testBit j = false := by
  rw [Nat.shiftRight_eq_div_pow, Nat.div_eq_zero_iff_lt (Nat.two_pow_pos k)]
  constructor
  · intro small j above
    apply Nat.testBit_lt_two_pow
    exact Nat.lt_of_lt_of_le small (Nat.pow_le_pow_right (by decide) above)
  · exact Nat.lt_pow_two_of_testBit n

/-- The padding is clear when no bit is set past the end. -/
theorem all_paddingClear_iff (count : bytes.length = byteLength length) :
    bytes.getLast?.all (paddingClear length) ↔ ∀ i, length ≤ i → bitAt bytes i = false := by
  rw [byteLength] at count
  by_cases whole : length % 8 = 0
  · -- All bytes are full, so a position past the end is after the last byte.
    have clear (i) (past : length ≤ i) : bitAt bytes i = false :=
      bitAt_of_length_le (by omega)
    have every : paddingClear length = fun _ => true := by
      funext last
      simp [paddingClear, whole]
    simpa [every] using clear
  · -- The first position past the end is inside the last byte.
    obtain ⟨last, hlast⟩ : ∃ last, bytes[length / 8]? = some last :=
      ⟨_, List.getElem?_eq_getElem (by omega)⟩
    have final : bytes.getLast? = some last := by
      rw [List.getLast?_eq_getElem?, ← hlast]
      congr 1
      omega
    rw [final, Option.all_some, paddingClear]
    simp only [whole, decide_false, Bool.false_or, decide_eq_true_eq, shiftRight_eq_zero_iff]
    constructor
    · intro clear i past
      by_cases inside : i / 8 = length / 8
      · rw [bitAt, inside, hlast]
        exact clear (i % 8) (by omega)
      · exact bitAt_of_length_le (by omega)
    · intro clear j above
      by_cases place : j < 8
      · rw [← bitAt_of_getElem? hlast place]
        exact clear _ (by omega)
      · exact testBit_of_eight_le last (by omega)

theorem ofBytes?_eq_some : ofBytes? bytes length = some b ↔
    bytes.length = byteLength length ∧ (∀ i, length ≤ i → bitAt bytes i = false) ∧
      b = ⟨bytes, length⟩ := by
  unfold ofBytes?
  by_cases count : bytes.length = byteLength length
  · rw [← all_paddingClear_iff count, Option.ite_none_right_eq_some, and_assoc, Option.some.injEq,
      eq_comm (a := b)]
  · simp [count]

theorem ofBytes?_pack (bits : List Bool) :
    ofBytes? (pack bits).bytes bits.length = some (pack bits) := by
  refine ofBytes?_eq_some.2 ⟨length_packBytes bits, ?_, rfl⟩
  intro i past
  rw [pack, bitAt_packBytes, List.getElem?_eq_none past, Option.getD_none]

/-- What is read packs to itself: the bits inside are those unpacked, and those past the end are
clear on both sides. -/
theorem pack_unpack (h : ofBytes? bytes length = some b) : pack b.unpack = b := by
  obtain ⟨count, clear, rfl⟩ := ofBytes?_eq_some.1 h
  have same : packBytes (unpack ⟨bytes, length⟩) = bytes := by
    apply eq_of_bitAt_eq
    · rw [length_packBytes, length_unpack, count]
    · intro i
      rw [bitAt_packBytes, getElem?_unpack, get_eq]
      by_cases inside : i < length
      · simp [inside]
      · simp [inside, clear i (by omega)]
  rw [pack, same, length_unpack]

/-! ## Counting -/

/-- The true entries of a list, counted by position. -/
theorem countP_range_getElem? {n : Nat} (enough : bits.length ≤ n) :
    (List.range n).countP (fun i => bits[i]?.getD false) = bits.count true := by
  induction bits generalizing n with
  | nil => simp
  | cons bit bits ih =>
    obtain ⟨n, rfl⟩ : ∃ m, n = m + 1 := ⟨n - 1, by simp at enough; omega⟩
    have rest := ih (Nat.le_of_succ_le_succ enough)
    rw [List.range_succ_eq_map, List.countP_cons, List.countP_map]
    simp [Function.comp_def, rest, List.count_cons]

theorem onesOfByte_value (small : bits.length ≤ 8) :
    onesOfByte (UInt8.ofNat (Bits.value bits)) = bits.count true := by
  rw [onesOfByte, ← countP_range_getElem? small]
  apply List.countP_congr
  intro i inside
  have place : i < 8 := List.mem_range.1 inside
  rw [UInt8.toNat_ofNat', Nat.testBit_mod_two_pow, Bits.testBit_value]
  simp [place]

theorem countOnes_pack (bits : List Bool) : (pack bits).countOnes = bits.count true := by
  rw [countOnes, pack]
  fun_induction packBytes bits with
  | case1 => rfl
  | case2 bit bits ih =>
    have small : (bit :: bits.take 7).length ≤ 8 := by
      rw [List.length_cons, List.length_take]
      omega
    rw [total_cons, ih, onesOfByte_value small, ← List.count_append, List.cons_append,
      List.take_append_drop]

/-! ## Bit by bit -/

/-- The bytes with a place for one more bit: a byte is added when all are full. -/
def room (b : Bitfield) : List UInt8 := if b.length % 8 = 0 then b.bytes ++ [0] else b.bytes

/-- One more bit, put into the last byte. -/
def push (b : Bitfield) (bit : Bool) : Bitfield where
  bytes := b.room.modify (b.length / 8) (· ||| UInt8.ofNat (bit.toNat <<< (b.length % 8)))
  length := b.length + 1

theorem bitAt_room (b : Bitfield) (i : Nat) : bitAt b.room i = bitAt b.bytes i := by
  unfold room
  split
  · grind [bitAt]
  · rfl

theorem length_room (count : b.bytes.length = byteLength b.length) :
    b.room.length = byteLength (b.length + 1) := by
  unfold byteLength at *
  unfold room
  split
  · rw [List.length_append, List.length_singleton]
    omega
  · omega

theorem bitAt_modify (inside : k < bytes.length) :
    bitAt (bytes.modify k (· ||| mask)) i =
      (bitAt bytes i || (decide (i / 8 = k) && mask.toNat.testBit (i % 8))) := by
  rw [bitAt, bitAt, List.getElem?_modify]
  by_cases here : i / 8 = k
  · subst here
    simp [inside]
  · simp [here, Ne.symm here]

/-- A mask for one place meets a position only there. -/
theorem testBit_mask (bit : Bool) (k i : Nat) :
    (decide (i / 8 = k / 8) && (UInt8.ofNat (bit.toNat <<< (k % 8))).toNat.testBit (i % 8)) =
      (decide (i = k) && bit) := by
  cases bit with
  | false => simp
  | true =>
    have place : i % 8 < 8 := Nat.mod_lt i (by decide)
    have position : (i / 8 = k / 8 ∧ k % 8 = i % 8) ↔ i = k := by omega
    rw [UInt8.toNat_ofNat', Nat.testBit_mod_two_pow, Bool.toNat_true, Nat.one_shiftLeft,
      Nat.testBit_two_pow]
    simp [place, ← position]

/-- A bit is pushed to the position after the last, and no other bit changes. -/
theorem bitAt_push (count : b.bytes.length = byteLength b.length) :
    bitAt (b.push bit).bytes i = (bitAt b.bytes i || (decide (i = b.length) && bit)) := by
  have inside : b.length / 8 < b.room.length := by
    rw [length_room count, byteLength]
    omega
  simp only [push]
  rw [bitAt_modify inside, testBit_mask, bitAt_room]

/-- Packing one bit more is to push it: the bits that are there stay, and the one after them is
clear before it is set. -/
theorem pack_concat (bits : List Bool) (bit : Bool) :
    pack (bits ++ [bit]) = (pack bits).push bit := by
  have count : (pack bits).bytes.length = byteLength (pack bits).length := length_packBytes bits
  have same : packBytes (bits ++ [bit]) = ((pack bits).push bit).bytes := by
    apply eq_of_bitAt_eq
    · rw [push, List.length_modify, length_room count, length_packBytes, List.length_append]
      rfl
    · intro i
      have before : bitAt (pack bits).bytes i = bits[i]?.getD false := bitAt_packBytes bits i
      rw [bitAt_packBytes, bitAt_push count, before, pack]
      grind
  rw [pack, same, List.length_append]
  rfl

theorem foldl_push_pack (front bits : List Bool) :
    bits.foldl push (pack front) = pack (front ++ bits) := by
  induction bits generalizing front with
  | nil => rw [List.foldl_nil, List.append_nil]
  | cons bit bits ih =>
    rw [List.foldl_cons, ← pack_concat, ih, List.append_assoc, List.singleton_append]

/-! ## Agreement -/

/-- A bitfield for a list of bits. Every way of reading it agrees with the list. -/
structure Holds (b : Bitfield) (bits : List Bool) : Prop where
  packed : pack bits = b
  unpacked : b.unpack = bits
  get : ∀ (i : Nat) (bit : Bool), bits[i]? = some bit → b.get i = bit
  get_past : ∀ i, bits.length ≤ i → b.get i = false
  countOnes : b.countOnes = bits.count true
  any : b.any = true ↔ true ∈ bits

theorem holds_pack (bits : List Bool) : (pack bits).Holds bits where
  packed := rfl
  unpacked := unpack_pack bits
  get i bit h := by rw [get_pack, h, Option.getD_some]
  get_past i past := by rw [get_pack, List.getElem?_eq_none past, Option.getD_none]
  countOnes := countOnes_pack bits
  any := any_pack bits

/-- Lists of bits and the bytes that are read back determine each other. Packing bit by bit gives
the same bytes. -/
theorem pack_exact :
    (∀ bits : List Bool, bits.foldl push ⟨[], 0⟩ = pack bits ∧ (pack bits).Holds bits ∧
      ofBytes? (pack bits).bytes bits.length = some (pack bits)) ∧
    ∀ (bytes : List UInt8) (length : Nat),
      ((∃ b, ofBytes? bytes length = some b) ↔
        ∃ bits : List Bool, bits.length = length ∧ (pack bits).bytes = bytes) ∧
      ∀ b, ofBytes? bytes length = some b →
        b.bytes = bytes ∧ b.unpack.length = length ∧ b.Holds b.unpack := by
  refine ⟨fun bits => ⟨?_, holds_pack bits, ofBytes?_pack bits⟩,
    fun bytes length => ⟨⟨?_, ?_⟩, ?_⟩⟩
  · have empty : pack [] = ⟨[], 0⟩ := by rw [pack, packBytes]; rfl
    rw [← empty, foldl_push_pack, List.nil_append]
  · rintro ⟨b, read⟩
    have packed := pack_unpack read
    obtain ⟨-, -, rfl⟩ := ofBytes?_eq_some.1 read
    exact ⟨_, length_unpack _, congrArg Bitfield.bytes packed⟩
  · rintro ⟨bits, rfl, rfl⟩
    exact ⟨_, ofBytes?_pack bits⟩
  · intro b read
    have held := holds_pack b.unpack
    rw [pack_unpack read] at held
    obtain ⟨-, -, rfl⟩ := ofBytes?_eq_some.1 read
    exact ⟨rfl, length_unpack _, held⟩

/-- Three bytes for seventeen bits. If the last byte has its second place set, no list of seventeen
bits packs to them. -/
theorem seventeen_bits :
    ofBytes? [1, 2, 1] 17 = some ⟨[1, 2, 1], 17⟩ ∧
      Holds ⟨[1, 2, 1], 17⟩ (unpack ⟨[1, 2, 1], 17⟩) ∧
      ¬ ∃ bits : List Bool, bits.length = 17 ∧ (pack bits).bytes = [1, 2, 2] := by
  obtain ⟨-, read⟩ := pack_exact
  have accepted : ofBytes? [1, 2, 1] 17 = some ⟨[1, 2, 1], 17⟩ := by decide
  have refused : ofBytes? [1, 2, 2] 17 = none := by decide
  refine ⟨accepted, ((read _ _).2 _ accepted).2.2, fun packed => ?_⟩
  obtain ⟨b, found⟩ := (read _ _).1.2 packed
  rw [refused] at found
  cases found

end PropertyTables.Bitfield
