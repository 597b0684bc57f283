import Mathlib.Logic.Relation

/-!
# Lanes

Points with at most one successor each form lanes: chains that can join but not
part.  If a label is passed on along every step and the points that nothing
leads to all have labels of their own, then points have the same label exactly
when one is reached from the other.
-/

namespace Orkhestra.Verified.Lane

open Relation

variable {α β : Type} {step : α → α → Prop} {label : α → β} {p q : α}

/-- One of the points is reached from the other. -/
def SameLane (step : α → α → Prop) (p q : α) : Prop :=
  ReflTransGen step p q ∨ ReflTransGen step q p

theorem label_eq_of_reaches (hkeep : ∀ p q, step p q → label p = label q)
    (h : ReflTransGen step p q) : label p = label q := by
  induction h with
  | refl => rfl
  | tail _ hstep ih => exact ih.trans (hkeep _ _ hstep)

theorem SameLane.label_eq (hkeep : ∀ p q, step p q → label p = label q)
    (h : SameLane step p q) : label p = label q := by
  rcases h with h | h
  · exact label_eq_of_reaches hkeep h
  · exact (label_eq_of_reaches hkeep h).symm

/-- The rule: `head` holds of the points with labels of their own. -/
theorem label_eq_iff_sameLane (head : α → Prop)
    (hunique : Relator.RightUnique step)
    (hkeep : ∀ p q, step p q → label p = label q)
    (hheads : ∀ p q, head p → head q → label p = label q → p = q)
    (hp : ∃ r, head r ∧ ReflTransGen step r p)
    (hq : ∃ r, head r ∧ ReflTransGen step r q) :
    label p = label q ↔ SameLane step p q := by
  constructor
  · intro hlabel
    obtain ⟨r, hr, hrp⟩ := hp
    obtain ⟨r', hr', hrq⟩ := hq
    have heq : r = r' := by
      refine hheads r r' hr hr' ?_
      rw [label_eq_of_reaches hkeep hrp, label_eq_of_reaches hkeep hrq, hlabel]
    subst heq
    exact ReflTransGen.total_of_right_unique hunique hrp hrq
  · exact SameLane.label_eq hkeep

/-- The ends of lanes are in lanes of their own. -/
theorem SameLane.eq_of_ends (hp : ∀ r, ¬step p r) (hq : ∀ r, ¬step q r)
    (h : SameLane step p q) : p = q := by
  rcases h with h | h
  · rcases ReflTransGen.cases_head h with heq | ⟨r, hstep, -⟩
    · exact heq
    · exact absurd hstep (hp r)
  · rcases ReflTransGen.cases_head h with heq | ⟨r, hstep, -⟩
    · exact heq.symm
    · exact absurd hstep (hq r)

end Orkhestra.Verified.Lane
