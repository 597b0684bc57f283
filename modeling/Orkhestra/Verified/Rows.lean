import Mathlib.Data.List.Basic
import Mathlib.Algebra.BigOperators.Group.List.Basic

/-!
# Rows in a block of cells

Rows are laid out in a block one after another, or each at a fixed distance
from the one before.  The layouts coincide when every row fills the distance,
and among rows that are no longer than the distance only then
(`length_flatten_eq_iff`).
-/

namespace Orkhestra.Verified.Rows

variable {α : Type}

/-- The block after a row has been written from cell `start` on. -/
def splice (block : List α) (start : Nat) (row : List α) : List α :=
  block.take start ++ row ++ block.drop (start + row.length)

/-- The next row is written behind the rows that fill the block so far. -/
theorem splice_append (done free row : List α) :
    splice (done ++ free) done.length row = (done ++ row) ++
      free.drop row.length := by
  rw [splice, List.take_left, List.drop_append,
    List.drop_eq_nil_of_le (Nat.le_add_right _ _), List.nil_append,
    Nat.add_sub_cancel_left]

theorem splice_nil (block : List α) (start : Nat) : splice block start [] = block := by
  simp [splice]

/-- A row is written cell by cell. -/
theorem splice_set {block : List α} {start : Nat} (h : start < block.length)
    (x : α) (row : List α) :
    splice (block.set start x) (start + 1) row = splice block start (x :: row) := by
  have hstart : (block.take start).length = start := by
    rw [List.length_take]
    omega
  have hsplit : block.set start x =
      (block.take start ++ [x]) ++ block.drop (start + 1) := by
    rw [List.set_eq_take_append_cons_drop, if_pos h]
    simp
  have hlength : (block.take start ++ [x]).length = start + 1 := by
    rw [List.length_append, hstart, List.length_singleton]
  rw [hsplit]
  conv => lhs; rw [← hlength]
  rw [splice_append, List.drop_drop, splice, List.length_cons, hlength,
    show start + 1 + row.length = start + (row.length + 1) by omega]
  simp

theorem length_flatten_le {rows : List (List α)} {stride : Nat}
    (h : ∀ row ∈ rows, row.length ≤ stride) :
    rows.flatten.length ≤ rows.length * stride := by
  induction rows with
  | nil => simp
  | cons row rows ih =>
      have hrow := h row List.mem_cons_self
      have hrest := ih fun row' hrow' => h row' (List.mem_cons_of_mem row hrow')
      rw [List.flatten_cons, List.length_append, List.length_cons,
        Nat.succ_mul]
      omega

theorem length_flatten_of_forall {rows : List (List α)} {stride : Nat}
    (h : ∀ row ∈ rows, row.length = stride) :
    rows.flatten.length = rows.length * stride := by
  rw [List.length_flatten, List.map_congr_left h]
  simp

/-- Short rows leave cells between the rows. -/
theorem length_flatten_eq_iff {rows : List (List α)} {stride : Nat}
    (h : ∀ row ∈ rows, row.length ≤ stride) :
    rows.flatten.length = rows.length * stride ↔
      ∀ row ∈ rows, row.length = stride := by
  refine ⟨?_, length_flatten_of_forall⟩
  intro hlength
  induction rows with
  | nil => simp
  | cons row rows ih =>
      have hrow := h row List.mem_cons_self
      have hrest : ∀ row' ∈ rows, row'.length ≤ stride :=
        fun row' hrow' => h row' (List.mem_cons_of_mem row hrow')
      have hle := length_flatten_le hrest
      rw [List.flatten_cons, List.length_append, List.length_cons,
        Nat.succ_mul] at hlength
      rw [List.forall_mem_cons]
      exact ⟨by omega, ih hrest (by omega)⟩

end Orkhestra.Verified.Rows
