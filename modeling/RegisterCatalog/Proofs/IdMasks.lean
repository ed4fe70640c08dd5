import Mathlib
import RegisterCatalog.Proofs.Numbering

/-! The parts of an id share a word. Limits have a layout exactly if the numbers up to them and the tag of a level can be
written in the bits of a word. The masks of a layout then lie side by side from the lowest bit on, nothing is shifted out
of the word, and so the parts of an id can be told apart again, however narrow some of them are. -/

namespace RegisterCatalog

theorem bitWidth_eq_size (greatest : Nat) : bitWidth greatest = greatest.size := by
  apply Nat.le_antisymm
  · unfold bitWidth
    split
    next => exact Nat.zero_le _
    next positive => exact Nat.lt_size.mpr (Nat.log2_self_le positive)
  · exact Nat.size_le.mpr (lt_two_pow_bitWidth (Nat.le_refl greatest))

/-- The number of bits that numbers up to the limits and the tag of a level need together. -/
def Limits.bits (limits : Limits) : Nat :=
  limits.addresses.size + limits.fields.size + limits.values.size + tagBits

/-- No number of the position is above the limit of its level. -/
def Limits.Allow (limits : Limits) (position : Position) : Prop :=
  ∀ level, position.on level ≤ limits.on level

/-- A shift that a word can do without losing a bit. -/
structure StaysInWord (number shift : Nat) : Prop where
  amount : shift < 32
  result : number <<< shift < 2 ^ 32

theorem shiftLeft_lt {number bits shift : Nat} (small : number < 2 ^ bits) (fits : shift + bits ≤ 32) :
    number <<< shift < 2 ^ 32 := by
  calc number <<< shift = number * 2 ^ shift := Nat.shiftLeft_eq number shift
    _ < 2 ^ bits * 2 ^ shift := Nat.mul_lt_mul_of_pos_right small (Nat.two_pow_pos shift)
    _ = 2 ^ (bits + shift) := (Nat.pow_add 2 bits shift).symm
    _ ≤ 2 ^ 32 := Nat.pow_le_pow_right (by omega) (by omega)

theorem ones_lt (bits : Nat) : 1 <<< bits - 1 < 2 ^ bits := by
  have positive := Nat.two_pow_pos bits
  rw [Nat.one_shiftLeft]
  omega

namespace Layout

theorem ofLimits_eq_error {limits : Limits} {fault : TooWide} :
    ofLimits limits = .error fault ↔ 32 < limits.bits ∧ fault = ⟨limits.bits⟩ := by
  have total : bitWidth limits.values + bitWidth limits.fields + bitWidth limits.addresses + tagBits = limits.bits := by
    simp only [Limits.bits, bitWidth_eq_size]
    omega
  simp only [ofLimits, total]
  split
  next fits => simpa using fun wide => absurd fits (Nat.not_le_of_lt wide)
  next wide => simpa [Nat.lt_of_not_le wide] using eq_comm

theorem holds_of_allow {limits : Limits} {layout : Layout} (sized : ofLimits limits = .ok layout)
    {position : Position} (allowed : limits.Allow position) : layout.Holds position :=
  @Settings.layout_holds { limits } layout sized position allowed

section Masks

/-- The masks of parts with these widths, each right above the one before it. -/
def masksFrom (shift : Nat) : List Nat → List UInt32
  | [] => []
  | bits :: rest => maskAt bits shift :: masksFrom (shift + bits) rest

theorem testBit_maskAt {bits shift : Nat} (fits : shift + bits ≤ 32) (place : Nat) :
    (maskAt bits shift).toNat.testBit place = decide (shift ≤ place ∧ place < shift + bits) := by
  have word : (1 <<< bits - 1) <<< shift < UInt32.size := shiftLeft_lt (ones_lt bits) fits
  rw [maskAt, UInt32.toNat_ofNat_of_lt' word, Nat.testBit_shiftLeft, Nat.one_shiftLeft, Nat.testBit_two_pow_sub_one,
    Bool.eq_iff_iff]
  simp only [Bool.and_eq_true, decide_eq_true_eq]
  omega

theorem le_of_mem_masksFrom {shift place : Nat} {widths : List Nat} {mask : UInt32} (fits : shift + widths.sum ≤ 32)
    (member : mask ∈ masksFrom shift widths) (set : mask.toNat.testBit place) : shift ≤ place := by
  induction widths generalizing shift with
  | nil => cases member
  | cons bits rest ih =>
    rw [List.sum_cons] at fits
    rcases List.mem_cons.mp member with rfl | later
    · rw [testBit_maskAt (by omega), decide_eq_true_eq] at set
      exact set.1
    · have above := ih (by omega) later
      omega

theorem masksFrom_disjoint {shift : Nat} {widths : List Nat} (fits : shift + widths.sum ≤ 32) :
    (masksFrom shift widths).Pairwise fun one two => one &&& two = 0 := by
  induction widths generalizing shift with
  | nil => exact .nil
  | cons bits rest ih =>
    rw [List.sum_cons] at fits
    refine .cons ?_ (ih (by omega))
    intro mask member
    apply UInt32.toNat_inj.mp
    apply Nat.eq_of_testBit_eq
    intro place
    rw [UInt32.toNat_and, Nat.testBit_and, testBit_maskAt (by omega)]
    cases set : mask.toNat.testBit place with
    | false => simp
    | true =>
      have above := le_of_mem_masksFrom (by omega) member set
      simp only [UInt32.toNat_zero, Nat.zero_testBit, Bool.and_true, decide_eq_false_iff_not]
      omega

theorem masksFrom_cover {shift : Nat} {widths : List Nat} (fits : shift + widths.sum ≤ 32) (place : Nat) :
    ((masksFrom shift widths).foldr (· ||| ·) 0).toNat.testBit place =
      decide (shift ≤ place ∧ place < shift + widths.sum) := by
  induction widths generalizing shift with
  | nil =>
    rw [masksFrom, List.foldr_nil, UInt32.toNat_zero, Nat.zero_testBit, eq_comm, decide_eq_false_iff_not, List.sum_nil]
    omega
  | cons bits rest ih =>
    rw [List.sum_cons] at fits
    rw [masksFrom, List.foldr_cons, UInt32.toNat_or, Nat.testBit_or, testBit_maskAt (by omega), ih (by omega),
      List.sum_cons, Bool.eq_iff_iff]
    simp only [Bool.or_eq_true, decide_eq_true_eq]
    omega

variable (layout : Layout)

def masks : List UInt32 := [layout.valueMask, layout.fieldMask, layout.addressMask, layout.tagMask]

/-- The parts of an id with their widths and where they begin, from the low bits to the high ones. -/
def parts : List (Nat × Nat) :=
  [(layout.valueBits, 0), (layout.fieldBits, layout.fieldShift), (layout.addressBits, layout.addressShift),
    (tagBits, layout.tagShift)]

/-- What packing shifts, and how far. -/
def shifted (level : Level) (position : Position) : List (Nat × Nat) :=
  [(position.value, 0), (position.field, layout.fieldShift), (position.address, layout.addressShift),
    (level.tag, layout.tagShift)]

theorem masks_eq : layout.masks = masksFrom 0 [layout.valueBits, layout.fieldBits, layout.addressBits, tagBits] := by
  simp [masks, masksFrom, valueMask, fieldMask, addressMask, tagMask, fieldShift, addressShift, tagShift]

theorem parts_fit : ∀ part ∈ layout.parts, part.1 < 32 ∧ part.2 < 32 ∧ part.2 + part.1 ≤ 32 := by
  have fits := layout.fits
  have bits : tagBits = 2 := rfl
  simp only [parts, fieldShift, addressShift, tagShift, List.forall_mem_cons, List.not_mem_nil, false_implies, implies_true,
    and_true]
  omega

theorem masks_stay (part : Nat × Nat) (member : part ∈ layout.parts) :
    StaysInWord 1 part.1 ∧ StaysInWord (1 <<< part.1 - 1) part.2 := by
  obtain ⟨narrow, low, fits⟩ := layout.parts_fit part member
  refine ⟨⟨narrow, ?_⟩, ⟨low, shiftLeft_lt (ones_lt part.1) fits⟩⟩
  rw [Nat.one_shiftLeft]
  exact Nat.pow_lt_pow_right (by omega) narrow

theorem masks_toNat : (layout.masks.foldr (· ||| ·) 0).toNat = 2 ^ (layout.tagShift + tagBits) - 1 := by
  have fits := layout.fits
  have total : [layout.valueBits, layout.fieldBits, layout.addressBits, tagBits].sum = layout.tagShift + tagBits := by
    simp only [tagShift, List.sum_cons, List.sum_nil]
    omega
  apply Nat.eq_of_testBit_eq
  intro place
  rw [masks_eq, masksFrom_cover (by rw [total, tagShift]; omega), total, Nat.testBit_two_pow_sub_one]
  simp

variable {layout}

theorem shifted_stay {position : Position} (level : Level) (holds : layout.Holds position) :
    ∀ item ∈ layout.shifted level position, StaysInWord item.1 item.2 := by
  have fits := layout.fits
  have bits : tagBits = 2 := rfl
  have tag : level.tag < 2 ^ tagBits := level.tag_lt
  simp only [shifted, fieldShift, addressShift, tagShift, List.forall_mem_cons, List.not_mem_nil, false_implies,
    implies_true, and_true]
  refine ⟨⟨?_, shiftLeft_lt holds.value ?_⟩, ⟨?_, shiftLeft_lt holds.field ?_⟩,
    ⟨?_, shiftLeft_lt holds.address ?_⟩, ⟨?_, shiftLeft_lt tag ?_⟩⟩ <;> omega

theorem toNat_pack_eq {position : Position} (level : Level) (holds : layout.Holds position) :
    (layout.pack level position).toNat = level.tag <<< layout.tagShift ||| position.address <<< layout.addressShift |||
      position.field <<< layout.fieldShift ||| position.value := by
  have stay := shifted_stay level holds
  simp only [shifted, List.forall_mem_cons, List.not_mem_nil, false_implies, implies_true, and_true] at stay
  obtain ⟨value, field, address, tag⟩ := stay
  apply UInt32.toNat_ofNat_of_lt'
  exact Nat.or_lt_two_pow (Nat.or_lt_two_pow (Nat.or_lt_two_pow tag.result address.result) field.result) value.result

end Masks

/-- Limits have no layout exactly if the tag and the numbers up to them need more bits than a word has. With a layout,
every shift that makes a mask or an id stays within the word. The masks have no bit in common, and together they are the
lowest bits of the word up to the end of the tag. An id is the exact sum of its parts: taken apart by the masks, it gives
back the level and the position it was made of, so it is the id of no other. Limits of zero are no exception. -/
theorem parts_share_word (limits : Limits) :
    (∀ fault, ofLimits limits = .error fault ↔ 32 < limits.bits ∧ fault = ⟨limits.bits⟩) ∧
    ∀ layout, ofLimits limits = .ok layout →
      (∀ part ∈ layout.parts, StaysInWord 1 part.1 ∧ StaysInWord (1 <<< part.1 - 1) part.2) ∧
      layout.masks.Pairwise (fun one two => one &&& two = 0) ∧
      (layout.masks.foldr (· ||| ·) 0).toNat = 2 ^ (layout.tagShift + tagBits) - 1 ∧
      (∀ level position, limits.Allow position →
        (∀ item ∈ layout.shifted level position, StaysInWord item.1 item.2) ∧
        (layout.pack level position).toNat = level.tag <<< layout.tagShift |||
          position.address <<< layout.addressShift ||| position.field <<< layout.fieldShift ||| position.value ∧
        layout.unpack (layout.pack level position) = (level.tag, position)) ∧
      ∀ level position other another, limits.Allow position → limits.Allow another →
        layout.pack level position = layout.pack other another → level = other ∧ position = another := by
  refine ⟨fun fault => ofLimits_eq_error, ?_⟩
  intro layout sized
  refine ⟨layout.masks_stay, ?_, layout.masks_toNat, ?_, ?_⟩
  · have fits := layout.fits
    rw [masks_eq]
    apply masksFrom_disjoint
    simp only [List.sum_cons, List.sum_nil]
    omega
  · intro level position allowed
    have holds := holds_of_allow sized allowed
    exact ⟨shifted_stay level holds, toNat_pack_eq level holds, unpack_pack level holds⟩
  · intro level position other another allowed also same
    have parts := unpack_pack level (holds_of_allow sized allowed)
    rw [same, unpack_pack other (holds_of_allow sized also), Prod.mk.injEq] at parts
    exact ⟨Level.tag_inj parts.1.symm, parts.2.symm⟩

/-- There are no fields, and values take the lowest bits. -/
theorem parts_share_word_no_fields :
    ∃ layout, ofLimits ⟨1023, 0, 255⟩ = .ok layout ∧ layout.masks = [0xff, 0, 0x3ff00, 0xc0000] ∧
      layout.masks.Pairwise (fun one two => one &&& two = 0) ∧
      (layout.masks.foldr (· ||| ·) 0).toNat = 2 ^ 20 - 1 ∧
      layout.pack .value ⟨1023, 0, 7⟩ = 0xfff07 ∧
      layout.unpack (layout.pack .value ⟨1023, 0, 7⟩) = (3, ⟨1023, 0, 7⟩) := by
  obtain ⟨_, sound⟩ := parts_share_word ⟨1023, 0, 255⟩
  obtain ⟨_, disjoint, cover, recovered, _⟩ := sound ⟨8, 0, 10, by decide⟩ rfl
  have allowed : Limits.Allow ⟨1023, 0, 255⟩ ⟨1023, 0, 7⟩ := by
    intro level
    cases level <;> decide
  exact ⟨_, rfl, by decide, disjoint, cover, by decide, (recovered .value _ allowed).2.2⟩

end Layout
end RegisterCatalog
