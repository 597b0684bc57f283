import Mathlib.Data.List.Count

/-!
# Occurrences in a list

An element of a list is the `i`-th occurrence of its value when `i` elements
before it are equal to it.  The number identifies the element, which is what
matching the occurrences in two lists rests on.
-/

namespace Orkhestra.Verified.Occurrence

section Count

variable {α : Type*} [BEq α] {i j : Nat}

/-- Number of elements before index `i` that are equal to `x`. -/
def occurrencesBefore (xs : List α) (x : α) (i : Nat) : Nat :=
  (xs.take i).count x

theorem occurrencesBefore_le_count (xs : List α) (x : α) (i : Nat) :
    occurrencesBefore xs x i ≤ xs.count x :=
  (List.take_sublist i xs).count_le x

theorem occurrencesBefore_mono (xs : List α) (x : α) (hij : i ≤ j) :
    occurrencesBefore xs x i ≤ occurrencesBefore xs x j :=
  (List.take_sublist_take_left hij).count_le x

end Count

section Index

variable {α : Type*} [BEq α] [LawfulBEq α] {xs : List α} {x : α} {i j : Nat}

theorem occurrencesBefore_succ (hi : xs[i]? = some x) :
    occurrencesBefore xs x (i + 1) = occurrencesBefore xs x i + 1 := by
  rw [occurrencesBefore, List.take_add_one, hi, List.count_append,
    Option.toList_some, List.count_singleton_self, occurrencesBefore]

/-- An element counts for those behind it. -/
theorem occurrencesBefore_lt (hi : xs[i]? = some x) (hij : i < j) :
    occurrencesBefore xs x i < occurrencesBefore xs x j := by
  have hmono := occurrencesBefore_mono xs x (show i + 1 ≤ j by omega)
  rw [occurrencesBefore_succ hi] at hmono
  omega

/-- The number of an occurrence identifies it. -/
theorem index_unique (hi : xs[i]? = some x) (hj : xs[j]? = some x)
    (h : occurrencesBefore xs x i = occurrencesBefore xs x j) : i = j := by
  rcases Nat.lt_trichotomy i j with hlt | heq | hlt
  · have := occurrencesBefore_lt hi hlt
    omega
  · exact heq
  · have := occurrencesBefore_lt hj hlt
    omega

/-- The only occurrence is the first one. -/
theorem occurrencesBefore_eq_zero (hsingle : xs.count x ≤ 1)
    (hi : xs[i]? = some x) : occurrencesBefore xs x i = 0 := by
  have hle := occurrencesBefore_le_count xs x (i + 1)
  rw [occurrencesBefore_succ hi] at hle
  omega

theorem index_unique_of_count (hsingle : xs.count x ≤ 1) (hi : xs[i]? = some x)
    (hj : xs[j]? = some x) : i = j := by
  refine index_unique hi hj ?_
  rw [occurrencesBefore_eq_zero hsingle hi, occurrencesBefore_eq_zero hsingle hj]

theorem count_le_one_of_index_unique
    (h : ∀ i j : Nat, xs[i]? = some x → xs[j]? = some x → i = j) :
    xs.count x ≤ 1 := by
  induction xs with
  | nil => simp
  | cons y rest ih =>
      rw [List.count_cons]
      split
      · next heq =>
          have hnot : x ∉ rest := by
            intro hmem
            obtain ⟨j, hj⟩ := List.mem_iff_getElem?.mp hmem
            have := h 0 (j + 1) (by simp [eq_of_beq heq]) (by simpa using hj)
            omega
          have hzero := List.count_eq_zero_of_not_mem hnot
          omega
      · refine ih fun i j hi hj => ?_
        have := h (i + 1) (j + 1) (by simpa using hi) (by simpa using hj)
        omega

end Index

end Orkhestra.Verified.Occurrence
