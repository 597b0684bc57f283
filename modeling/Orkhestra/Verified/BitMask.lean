import Mathlib.Data.Nat.Bitwise

/-!
# Masks that are built bit by bit

A loop that shifts a mask to the left and adds the next bit, from the last bit
to the first.  `testBit_maskOf` reads the mask back.
-/

namespace Orkhestra.Verified.BitMask

/-- `mask = (mask << 1) + bit`. -/
def shiftIn (mask : Nat) (bit : Bool) : Nat := mask * 2 + bit.toNat

theorem testBit_shiftIn_zero (mask : Nat) (bit : Bool) :
    (shiftIn mask bit).testBit 0 = bit := by
  rw [Nat.testBit_zero, shiftIn]
  cases bit <;> simp

theorem testBit_shiftIn_succ (mask : Nat) (bit : Bool) (i : Nat) :
    (shiftIn mask bit).testBit (i + 1) = mask.testBit i := by
  have hdiv : (mask * 2 + bit.toNat) / 2 = mask := by
    have hbit : bit.toNat ≤ 1 := Bool.toNat_le bit
    omega
  rw [Nat.testBit_add_one, shiftIn, hdiv]

/-- The mask of a list of bits, the first at the lowest place. -/
def maskOf (bits : List Bool) : Nat := bits.reverse.foldl shiftIn 0

theorem maskOf_cons (bit : Bool) (bits : List Bool) :
    maskOf (bit :: bits) = shiftIn (maskOf bits) bit := by
  simp [maskOf]

theorem testBit_maskOf (bits : List Bool) (i : Nat) :
    (maskOf bits).testBit i = bits[i]?.getD false := by
  induction bits generalizing i with
  | nil => simp [maskOf]
  | cons bit bits ih =>
      rw [maskOf_cons]
      cases i with
      | zero =>
          rw [testBit_shiftIn_zero]
          rfl
      | succ i =>
          rw [testBit_shiftIn_succ, ih, List.getElem?_cons_succ]

theorem maskOf_lt (bits : List Bool) : maskOf bits < 2 ^ bits.length := by
  induction bits with
  | nil => simp [maskOf]
  | cons bit bits ih =>
      have hbit : bit.toNat ≤ 1 := Bool.toNat_le bit
      rw [maskOf_cons, shiftIn, List.length_cons, Nat.pow_succ]
      omega

end Orkhestra.Verified.BitMask
