import Mathlib.Data.Int.Order.Basic
import Mathlib.Data.List.Nodup
import Mathlib.Tactic.Linarith
import Mathlib.Tactic.Ring

/-!
# Register maps

The memory mapped registers of a device come in banks.  A bank has one block of
registers for each unit (a stream, a channel, a core); the blocks follow each
other with a fixed stride, and the registers of a block with a fixed step.  No
block reaches into the next one.

Two banks at a distance of a whole number of blocks have the same registers for
shifted units (`address_eq_iff`).  Banks that end before the other starts have
no register in common (`Apart.address_ne`).
-/

namespace Orkhestra.Verified.RegisterMap

/-- One block of the registers `low` to `high - 1` for each unit. -/
structure Bank where
  base : Int
  stride : Int
  step : Int
  low : Int
  high : Int
  step_pos : 0 < step
  /-- The registers of a unit stay in its block. -/
  fits : step * (high - low) ≤ stride

namespace Bank

def address (b : Bank) (unit : Nat) (index : Int) : Int :=
  b.base + unit * b.stride + index * b.step

/-- The registers of a block. -/
def Holds (b : Bank) (index : Int) : Prop := b.low ≤ index ∧ index < b.high

instance (b : Bank) (index : Int) : Decidable (b.Holds index) :=
  inferInstanceAs (Decidable (_ ∧ _))

/-- The same blocks, `shift` blocks further on. -/
def IsShift (shift : Int) (b b' : Bank) : Prop :=
  b'.base = b.base + shift * b.stride ∧ b'.stride = b.stride ∧
    b'.step = b.step ∧ b'.low = b.low ∧ b'.high = b.high

instance (shift : Int) (b b' : Bank) : Decidable (IsShift shift b b') :=
  inferInstanceAs (Decidable (_ ∧ _))

theorem stride_nonneg (b : Bank) {index : Int} (hindex : b.Holds index) :
    0 ≤ b.stride := by
  have hsize : 0 ≤ b.step * (b.high - b.low) :=
    Int.mul_nonneg b.step_pos.le (by have := hindex.1; have := hindex.2; omega)
  exact hsize.trans b.fits

theorem isShift_self (b : Bank) : IsShift 0 b b := by
  simp [IsShift]

theorem address_eq_iff {shift : Int} {b b' : Bank} (h : IsShift shift b b')
    {unit unit' : Nat} {index index' : Int} (hindex : b.Holds index)
    (hindex' : b'.Holds index') :
    b.address unit index = b'.address unit' index' ↔
      (unit : Int) = unit' + shift ∧ index = index' := by
  obtain ⟨hbase, hstride, hstep, hlow, hhigh⟩ := h
  rw [Holds, hlow, hhigh] at hindex'
  have hlow := hindex.1
  have hhigh := hindex.2
  simp only [address, hbase, hstride, hstep]
  have hpos := b.step_pos
  have hfits := b.fits
  constructor
  · intro heq
    have hindices : (index' - index) * b.step =
        ((unit : Int) - unit' - shift) * b.stride := by linarith
    -- The indices are less than a block apart, and so are the units.
    have hunit : (unit : Int) - unit' - shift = 0 := by
      have hupper : (index' - index) * b.step < b.step * (b.high - b.low) := by
        nlinarith only [hlow, hhigh, hindex', hpos]
      have hlower : -(b.step * (b.high - b.low)) <
          (index' - index) * b.step := by
        nlinarith only [hlow, hhigh, hindex', hpos]
      have hstride : 0 ≤ b.stride := b.stride_nonneg hindex
      rcases Int.lt_trichotomy ((unit : Int) - unit' - shift) 0 with
        hneg | hzero | hmore
      · have := Int.mul_le_mul_of_nonneg_right
          (show (unit : Int) - unit' - shift ≤ -1 by omega) hstride
        linarith
      · exact hzero
      · have := Int.mul_le_mul_of_nonneg_right
          (show 1 ≤ (unit : Int) - unit' - shift by omega) hstride
        linarith
    rw [hunit, Int.zero_mul, Int.mul_eq_zero] at hindices
    rcases hindices with hsame | hzero
    · omega
    · omega
  · rintro ⟨hunit, rfl⟩
    rw [hunit]
    ring

theorem address_inj {b : Bank} {unit unit' : Nat} {index index' : Int}
    (hindex : b.Holds index) (hindex' : b.Holds index') :
    b.address unit index = b.address unit' index' ↔
      unit = unit' ∧ index = index' := by
  rw [address_eq_iff b.isShift_self hindex hindex']
  omega

/-- First address of the bank. -/
def start (b : Bank) : Int := b.base + b.low * b.step

/-- Address behind the last block of `units` units. -/
def stop (units : Nat) (b : Bank) : Int := b.start + units * b.stride

/-- One of the banks ends before the other one starts. -/
def Apart (units : Nat) (b b' : Bank) : Prop :=
  b.stop units ≤ b'.start ∨ b'.stop units ≤ b.start

instance (units : Nat) (b b' : Bank) : Decidable (Apart units b b') :=
  inferInstanceAs (Decidable (_ ∨ _))

theorem start_le_address {b : Bank} {index : Int} (hindex : b.Holds index)
    (unit : Nat) : b.start ≤ b.address unit index := by
  have hstride := b.stride_nonneg hindex
  have hunit : 0 ≤ (unit : Int) * b.stride :=
    Int.mul_nonneg (Int.natCast_nonneg unit) hstride
  have hregister : b.low * b.step ≤ index * b.step :=
    Int.mul_le_mul_of_nonneg_right hindex.1 b.step_pos.le
  simp only [start, address]
  linarith

theorem address_lt_stop {b : Bank} {index : Int} (hindex : b.Holds index)
    {unit units : Nat} (hunit : unit < units) :
    b.address unit index < b.stop units := by
  have hstride := b.stride_nonneg hindex
  have hfits := b.fits
  have hblock : (index - b.low) * b.step < (b.high - b.low) * b.step :=
    Int.mul_lt_mul_of_pos_right (by have := hindex.2; omega) b.step_pos
  have hblocks : ((unit : Int) + 1) * b.stride ≤ units * b.stride :=
    Int.mul_le_mul_of_nonneg_right (by omega) hstride
  simp only [stop, start, address]
  linarith

theorem Apart.address_ne {units : Nat} {b b' : Bank} (h : Apart units b b')
    {unit unit' : Nat} (hunit : unit < units) (hunit' : unit' < units)
    {index index' : Int} (hindex : b.Holds index) (hindex' : b'.Holds index') :
    b.address unit index ≠ b'.address unit' index' := by
  have hstart := start_le_address hindex unit
  have hstop := address_lt_stop hindex hunit
  have hstart' := start_le_address hindex' unit'
  have hstop' := address_lt_stop hindex' hunit'
  rcases h with h | h <;> omega

end Bank

/-- A concatenation has no duplicates when each part has none and an element
tells which part it is from. -/
theorem nodup_flatMap_of_key {α β κ : Type} {xs : List α} {f : α → List β}
    (key : α → κ) (keyOf : β → κ) (hkeys : (xs.map key).Nodup)
    (hnodup : ∀ x ∈ xs, (f x).Nodup)
    (hkey : ∀ x ∈ xs, ∀ y ∈ f x, keyOf y = key x) : (xs.flatMap f).Nodup := by
  rw [List.nodup_flatMap]
  refine ⟨hnodup, ?_⟩
  rw [List.Nodup, List.pairwise_map] at hkeys
  refine hkeys.imp_of_mem fun {x x'} hx hx' hne y hy hy' => hne ?_
  rw [← hkey x hx y hy, hkey x' hx' y hy']

end Orkhestra.Verified.RegisterMap
