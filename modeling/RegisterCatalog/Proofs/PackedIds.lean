import Mathlib
import RegisterCatalog.Identity

/-! Taking packed ids apart. Each part is masked and then shifted down, and a position whose numbers
fit the widths of a layout comes back unchanged. -/

namespace RegisterCatalog

theorem lt_two_pow_bitWidth {number greatest : Nat} (bound : number ≤ greatest) :
    number < 2 ^ bitWidth greatest := by
  unfold bitWidth
  split
  next zero => omega
  next positive => exact Nat.lt_of_le_of_lt bound Nat.lt_log2_self

namespace Layout

/-- A position whose numbers can be written in the bits that the layout gives them. -/
structure Holds (layout : Layout) (position : Position) : Prop where
  address : position.address < 2 ^ layout.addressBits
  field : position.field < 2 ^ layout.fieldBits
  value : position.value < 2 ^ layout.valueBits

/-- The number that a mask selects, shifted down. -/
def part (mask : UInt32) (shift : Nat) (id : UInt32) : Nat :=
  ((id &&& mask) >>> UInt32.ofNat shift).toNat

/-- The tag of an id and the position it stands for, by the masks and shifts of the layout. -/
def unpack (layout : Layout) (id : UInt32) : Nat × Position :=
  (part layout.tagMask layout.tagShift id,
    { address := part layout.addressMask layout.addressShift id
      field := part layout.fieldMask layout.fieldShift id
      value := part layout.valueMask 0 id })

private theorem mask_shift (number bits shift : Nat) :
    (number &&& ((1 <<< bits - 1) <<< shift)) >>> shift = number / 2 ^ shift % 2 ^ bits := by
  rw [Nat.shiftRight_and_distrib, Nat.shiftLeft_shiftRight, Nat.one_shiftLeft, Nat.and_two_pow_sub_one_eq_mod,
    Nat.shiftRight_eq_div_pow]

private theorem part_maskAt {bits shift : Nat} (id : UInt32) (fits : bits + shift ≤ 32) (small : shift < 32) :
    part (maskAt bits shift) shift id = id.toNat / 2 ^ shift % 2 ^ bits := by
  have whole : (1 <<< bits - 1) <<< shift < 2 ^ 32 := by
    have positive : 0 < 2 ^ bits := Nat.two_pow_pos bits
    have bound : 2 ^ (bits + shift) ≤ 2 ^ 32 := Nat.pow_le_pow_right (by omega) fits
    rw [Nat.one_shiftLeft, Nat.shiftLeft_eq]
    calc (2 ^ bits - 1) * 2 ^ shift < 2 ^ bits * 2 ^ shift :=
          Nat.mul_lt_mul_of_pos_right (by omega) (Nat.two_pow_pos shift)
      _ = 2 ^ (bits + shift) := (Nat.pow_add 2 bits shift).symm
      _ ≤ 2 ^ 32 := bound
  have word : (UInt32.ofNat shift).toNat % 32 = shift := by
    rw [UInt32.toNat_ofNat_of_lt' (by simp only [UInt32.size]; omega), Nat.mod_eq_of_lt small]
  rw [part, maskAt, UInt32.toNat_shiftRight, word, UInt32.toNat_and, UInt32.toNat_ofNat_of_lt' whole, mask_shift]

private theorem join_lt {high low : Nat} {bits shift : Nat} (above : high < 2 ^ bits) (below : low < 2 ^ shift) :
    high * 2 ^ shift + low < 2 ^ (bits + shift) := by
  calc high * 2 ^ shift + low < high * 2 ^ shift + 2 ^ shift := Nat.add_lt_add_left below _
    _ = (high + 1) * 2 ^ shift := by ring
    _ ≤ 2 ^ bits * 2 ^ shift := Nat.mul_le_mul_right _ above
    _ = 2 ^ (bits + shift) := (Nat.pow_add 2 bits shift).symm

private theorem join_div {low : Nat} {shift : Nat} (high : Nat) (below : low < 2 ^ shift) :
    (high * 2 ^ shift + low) / 2 ^ shift = high := by
  rw [Nat.add_comm, Nat.add_mul_div_right _ _ (Nat.two_pow_pos shift), Nat.div_eq_of_lt below, Nat.zero_add]

private theorem shift_join {low : Nat} {shift : Nat} (high : Nat) (below : low < 2 ^ shift) :
    high <<< shift ||| low = high * 2 ^ shift + low := by
  rw [← Nat.shiftLeft_add_eq_or_of_lt below, Nat.shiftLeft_eq]

/-- The parts of an id are the digits of a number in mixed radix, because none reaches into the next. -/
theorem toNat_pack {layout : Layout} {position : Position} (level : Level) (holds : layout.Holds position) :
    (layout.pack level position).toNat =
      ((level.tag * 2 ^ layout.addressBits + position.address) * 2 ^ layout.fieldBits + position.field) *
        2 ^ layout.valueBits + position.value := by
  have low := join_lt holds.field holds.value
  have middle : position.address * 2 ^ (layout.fieldBits + layout.valueBits) +
      (position.field * 2 ^ layout.valueBits + position.value) <
      2 ^ (layout.addressBits + (layout.fieldBits + layout.valueBits)) := join_lt holds.address low
  have all : level.tag * 2 ^ (layout.addressBits + (layout.fieldBits + layout.valueBits)) +
      (position.address * 2 ^ (layout.fieldBits + layout.valueBits) +
        (position.field * 2 ^ layout.valueBits + position.value)) <
      2 ^ (tagBits + (layout.addressBits + (layout.fieldBits + layout.valueBits))) :=
    join_lt level.tag_lt middle
  have word : 2 ^ (tagBits + (layout.addressBits + (layout.fieldBits + layout.valueBits))) ≤ 2 ^ 32 :=
    Nat.pow_le_pow_right (by omega) (by have := layout.fits; omega)
  have joined : level.tag <<< layout.tagShift ||| position.address <<< layout.addressShift |||
      position.field <<< layout.fieldShift ||| position.value =
      level.tag * 2 ^ (layout.addressBits + (layout.fieldBits + layout.valueBits)) +
        (position.address * 2 ^ (layout.fieldBits + layout.valueBits) +
          (position.field * 2 ^ layout.valueBits + position.value)) := by
    have tagShift : layout.tagShift = layout.addressBits + (layout.fieldBits + layout.valueBits) := by
      unfold Layout.tagShift; omega
    have addressShift : layout.addressShift = layout.fieldBits + layout.valueBits := by
      unfold Layout.addressShift; omega
    rw [Nat.or_assoc, Nat.or_assoc, tagShift, addressShift, fieldShift, shift_join _ holds.value,
      shift_join _ low, shift_join _ middle]
  rw [pack, joined, UInt32.toNat_ofNat_of_lt' (Nat.lt_of_lt_of_le all word)]
  ring

theorem unpack_pack {layout : Layout} {position : Position} (level : Level) (holds : layout.Holds position) :
    layout.unpack (layout.pack level position) = (level.tag, position) := by
  have fits := layout.fits
  have bits : tagBits = 2 := rfl
  have tag : part layout.tagMask layout.tagShift (layout.pack level position) = level.tag := by
    rw [tagMask, part_maskAt _ (by unfold tagShift; omega) (by unfold tagShift; omega), toNat_pack level holds,
      tagShift, Nat.pow_add, Nat.pow_add, ← Nat.div_div_eq_div_mul, ← Nat.div_div_eq_div_mul,
      join_div _ holds.value, join_div _ holds.field, join_div _ holds.address]
    exact Nat.mod_eq_of_lt level.tag_lt
  have address : part layout.addressMask layout.addressShift (layout.pack level position) = position.address := by
    rw [addressMask, part_maskAt _ (by unfold addressShift; omega) (by unfold addressShift; omega),
      toNat_pack level holds, addressShift, Nat.pow_add, ← Nat.div_div_eq_div_mul, join_div _ holds.value,
      join_div _ holds.field, Nat.mul_add_mod_of_lt holds.address]
  have field : part layout.fieldMask layout.fieldShift (layout.pack level position) = position.field := by
    rw [fieldMask, part_maskAt _ (by unfold fieldShift; omega) (by unfold fieldShift; omega), toNat_pack level holds,
      fieldShift, join_div _ holds.value, Nat.mul_add_mod_of_lt holds.field]
  have value : part layout.valueMask 0 (layout.pack level position) = position.value := by
    rw [valueMask, part_maskAt _ (by omega) (by omega), toNat_pack level holds, Nat.pow_zero, Nat.div_one,
      Nat.mul_add_mod_of_lt holds.value]
  rw [unpack, tag, address, field, value]

end Layout
end RegisterCatalog
