import Mathlib.Data.List.Basic
import Mathlib.Algebra.BigOperators.Group.List.Basic
import Mathlib.Algebra.GroupWithZero.Nat
import Mathlib.Logic.ExistsUnique

/-!
# Cutting a sequence into pieces

A sequence of `n` items is cut into pieces of `p` items; only the last piece is
shorter, and the pieces behind it are empty.  The size of a piece has a closed
form, in which the sum of the first pieces is where the next one starts.
-/

namespace Orkhestra.Verified.Pieces

/-- Items of piece `j`. -/
def pieceSize (n p j : Nat) : Nat := min p (n - j * p)

/-- Pieces that are not empty. -/
def pieceCount (n p : Nat) : Nat := (n + p - 1) / p

variable {n p j : Nat}

theorem pieceSize_le (n p j : Nat) : pieceSize n p j ≤ p := Nat.min_le_left _ _

theorem pieceSize_pos_iff (hp : 0 < p) : 0 < pieceSize n p j ↔ j * p < n := by
  unfold pieceSize
  omega

theorem pieceSize_eq_zero_iff (hp : 0 < p) :
    pieceSize n p j = 0 ↔ n ≤ j * p := by
  unfold pieceSize
  omega

/-- A piece starts where the pieces before it end. -/
theorem sum_pieceSize (n p m : Nat) :
    ((List.range m).map (pieceSize n p)).sum = min n (m * p) := by
  induction m with
  | zero => simp
  | succ m ih =>
      rw [List.range_succ, List.map_append, List.sum_append, ih, List.map_singleton,
        List.sum_singleton, Nat.succ_mul, pieceSize]
      omega

theorem lt_pieceCount_iff (hp : 0 < p) : j < pieceCount n p ↔ j * p < n := by
  unfold pieceCount
  rw [Nat.lt_iff_add_one_le, Nat.le_div_iff_mul_le hp, Nat.add_mul, Nat.one_mul]
  omega

/-- The remainder is in the last piece. -/
theorem pieceSize_eq (hp : 0 < p) (hj : j < pieceCount n p) :
    pieceSize n p j =
      if j + 1 = pieceCount n p ∧ n % p ≠ 0 then n % p else p := by
  have hstart := (lt_pieceCount_iff hp).mp hj
  have hnext := lt_pieceCount_iff (n := n) (j := j + 1) hp
  have hdiv := Nat.div_add_mod' n p
  have hmod := Nat.mod_lt n hp
  rw [Nat.add_mul, Nat.one_mul] at hnext
  unfold pieceSize
  split
  · next hlast =>
      -- The last piece starts at the quotient.
      have hquot : n / p = j := by
        apply Nat.div_eq_of_lt_le
        · omega
        · rw [Nat.succ_mul]
          have hne : ¬j * p + p = n := by
            intro heq
            rw [← heq, Nat.add_mod_right, Nat.mul_mod_left] at hlast
            exact hlast.2 rfl
          omega
      rw [hquot] at hdiv
      omega
  · next hlast =>
      by_cases hrest : j + 1 = pieceCount n p
      · have hzero : n % p = 0 := by
          by_contra hne
          exact hlast ⟨hrest, hne⟩
        have hle : n ≤ j * p + p := by omega
        have hlt : j < n / p := by
          rw [hzero, Nat.add_zero] at hdiv
          rw [← hdiv] at hstart
          exact Nat.lt_of_mul_lt_mul_right hstart
        have := Nat.mul_le_mul_right p hlt
        rw [Nat.succ_mul] at this
        omega
      · omega

/-- Every item lies in exactly one piece. -/
theorem existsUnique_piece (hp : 0 < p) {r : Nat} (hr : r < n) :
    ∃! j, j * p ≤ r ∧ r < j * p + pieceSize n p j := by
  have hdiv := Nat.div_add_mod' r p
  have hmod := Nat.mod_lt r hp
  refine ⟨r / p, ⟨by omega, ?_⟩, ?_⟩
  · show r < r / p * p + pieceSize n p (r / p)
    unfold pieceSize
    omega
  · rintro j ⟨hlow, hhigh⟩
    have hsize := pieceSize_le n p j
    refine (Nat.div_eq_of_lt_le hlow ?_).symm
    rw [Nat.succ_mul]
    omega

end Orkhestra.Verified.Pieces
