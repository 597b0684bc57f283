import Mathlib.Data.List.Forall2
import Mathlib.Data.List.Lex

/-!
# Choices in lexicographic order

`choices` lists all ways to take one element from each of a list of lists, the
last list varying fastest.  If the lists are sorted, so are the choices, and the
first choice that is accepted is the least one.
-/

namespace Orkhestra.Verified.Choices

variable {α : Type*}

def choices : List (List α) → List (List α)
  | [] => [[]]
  | options :: rest =>
      options.flatMap fun value => (choices rest).map fun values => value :: values

theorem mem_choices {options : List (List α)} {values : List α} :
    values ∈ choices options ↔ List.Forall₂ (· ∈ ·) values options := by
  induction options generalizing values with
  | nil => simp [choices]
  | cons options rest ih =>
      cases values with
      | nil => simp [choices]
      | cons value values =>
          rw [List.forall₂_cons, ← ih]
          simp [choices]

theorem pairwise_choices {r : α → α → Prop} {options : List (List α)}
    (h : ∀ values ∈ options, values.Pairwise r) :
    (choices options).Pairwise (List.Lex r) := by
  induction options with
  | nil => exact List.pairwise_singleton _ _
  | cons values rest ih =>
      have hrest := ih fun xs hxs => h xs (List.mem_cons_of_mem values hxs)
      rw [choices, List.pairwise_flatMap]
      refine ⟨?_, ?_⟩
      · intro value _
        rw [List.pairwise_map]
        exact hrest.imp fun hlex => .cons hlex
      · refine (h values List.mem_cons_self).imp ?_
        intro value value' hlt xs hxs ys hys
        obtain ⟨xs, -, rfl⟩ := List.mem_map.mp hxs
        obtain ⟨ys, -, rfl⟩ := List.mem_map.mp hys
        exact .rel hlt

/-- In a sorted list the first element that is accepted is the least one. -/
theorem find?_least {r : α → α → Prop} {xs : List α} (h : xs.Pairwise r)
    {accept : α → Bool} {x : α} (hfind : xs.find? accept = some x) :
    accept x = true ∧ x ∈ xs ∧
      ∀ y ∈ xs, accept y = true → x = y ∨ r x y := by
  obtain ⟨haccept, before, after, rfl, hbefore⟩ :=
    List.find?_eq_some_iff_append.mp hfind
  refine ⟨haccept, by simp, ?_⟩
  intro y hy hyaccept
  rcases List.mem_append.mp hy with hy | hy
  · have hnot := hbefore y hy
    rw [hyaccept] at hnot
    cases hnot
  · rcases List.mem_cons.mp hy with rfl | hy
    · exact .inl rfl
    · have hsorted := (List.pairwise_append.mp h).2.1
      exact .inr ((List.pairwise_cons.mp hsorted).1 y hy)

end Orkhestra.Verified.Choices
