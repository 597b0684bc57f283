import Mathlib.Logic.Function.Basic
import Mathlib.Data.List.Nodup

/-!
# Ownership of a growing pool

Resources are numbered in the order in which they are created.  At any time each
of them is either free or held by exactly one slot.  The operations that keep
this are those of a pool: taking a free resource, creating one, giving one back
and moving one between slots.
-/

namespace Orkhestra.Verified.Ownership

variable {Slot : Type}

/-- Every resource created so far is in exactly one place. -/
structure Conserved (holds : Slot → Option Nat) (free : List Nat)
    (created : Nat) : Prop where
  free_nodup : free.Nodup
  slot_unique : ∀ p q b, holds p = some b → holds q = some b → p = q
  disjoint : ∀ p b, holds p = some b → b ∉ free
  lt_created_iff : ∀ b, b < created ↔ b ∈ free ∨ ∃ p, holds p = some b

variable {holds holds' : Slot → Option Nat} {free : List Nat} {created b : Nat}
  {p q : Slot}

/-- The places of a resource exclude each other. -/
theorem Conserved.one_place (h : Conserved holds free created)
    (hb : b < created) :
    free.count b = 1 ∧ (∀ p, holds p ≠ some b) ∨
      free.count b = 0 ∧ ∃! p, holds p = some b := by
  rcases (h.lt_created_iff b).mp hb with hfree | ⟨p, hp⟩
  · refine .inl ⟨List.count_eq_one_of_mem h.free_nodup hfree, ?_⟩
    intro p hp
    exact h.disjoint p b hp hfree
  · refine .inr ⟨List.count_eq_zero_of_not_mem (h.disjoint p b hp), p, hp, ?_⟩
    intro q hq
    exact h.slot_unique q p b hq hp

/-- Nothing is held: everything is free. -/
theorem Conserved.all_free (h : Conserved holds free created)
    (hnone : ∀ p, holds p = none) (hb : b < created) : free.count b = 1 := by
  rcases h.one_place hb with h | ⟨-, p, hp, -⟩
  · exact h.1
  · rw [hnone] at hp
    cases hp

theorem Conserved.congr (h : Conserved holds free created)
    (heq : ∀ p, holds' p = holds p) : Conserved holds' free created := by
  rwa [funext heq]

theorem conserved_empty : Conserved (fun _ : Slot => none) [] 0 := by
  constructor <;> simp

/-- A new resource is free before it is taken. -/
theorem Conserved.create (h : Conserved holds free created) :
    Conserved holds (created :: free) (created + 1) := by
  have hfresh : created ∉ free ∧ ∀ p, holds p ≠ some created := by
    have hnot := mt (h.lt_created_iff created).mpr (Nat.lt_irrefl created)
    rw [not_or, not_exists] at hnot
    exact hnot
  refine ⟨List.nodup_cons.mpr ⟨hfresh.1, h.free_nodup⟩, h.slot_unique, ?_, ?_⟩
  · intro p c hp hc
    rcases List.mem_cons.mp hc with rfl | hc
    · exact hfresh.2 p hp
    · exact h.disjoint p c hp hc
  · intro c
    rw [Nat.lt_succ_iff_lt_or_eq, h.lt_created_iff c, List.mem_cons]
    tauto

variable [DecidableEq Slot]

/-- A free resource goes to an empty slot. -/
theorem Conserved.take (h : Conserved holds (b :: free) created)
    (hp : holds p = none) :
    Conserved (Function.update holds p (some b)) free created := by
  obtain ⟨hnew, hnodup⟩ := List.nodup_cons.mp h.free_nodup
  refine ⟨hnodup, ?_, ?_, ?_⟩
  · intro q r c hq hr
    have hother : ∀ s, s ≠ p → holds s ≠ some b :=
      fun s _ hs => h.disjoint s b hs List.mem_cons_self
    by_cases hqp : q = p
    · subst hqp
      rw [Function.update_self, Option.some.injEq] at hq
      subst hq
      by_cases hrp : r = q
      · exact hrp.symm
      · rw [Function.update_of_ne hrp] at hr
        exact absurd hr (hother r hrp)
    · rw [Function.update_of_ne hqp] at hq
      by_cases hrp : r = p
      · subst hrp
        rw [Function.update_self, Option.some.injEq] at hr
        subst hr
        exact absurd hq (hother q hqp)
      · rw [Function.update_of_ne hrp] at hr
        exact h.slot_unique q r c hq hr
  · intro q c hq
    by_cases hqp : q = p
    · subst hqp
      rw [Function.update_self, Option.some.injEq] at hq
      exact hq ▸ hnew
    · rw [Function.update_of_ne hqp] at hq
      exact fun hc => h.disjoint q c hq (List.mem_cons_of_mem b hc)
  · intro c
    rw [h.lt_created_iff c, List.mem_cons]
    constructor
    · rintro ((rfl | hc) | ⟨q, hq⟩)
      · exact .inr ⟨p, Function.update_self p _ _⟩
      · exact .inl hc
      · refine .inr ⟨q, ?_⟩
        have hqp : q ≠ p := by
          rintro rfl
          rw [hp] at hq
          cases hq
        rw [Function.update_of_ne hqp, hq]
    · rintro (hc | ⟨q, hq⟩)
      · exact .inl (.inr hc)
      · by_cases hqp : q = p
        · subst hqp
          rw [Function.update_self, Option.some.injEq] at hq
          exact .inl (.inl hq.symm)
        · rw [Function.update_of_ne hqp] at hq
          exact .inr ⟨q, hq⟩

/-- A slot gives its resource back. -/
theorem Conserved.release (h : Conserved holds free created)
    (hp : holds p = some b) :
    Conserved (Function.update holds p none) (b :: free) created := by
  have hkept : ∀ q c, Function.update holds p none q = some c →
      q ≠ p ∧ holds q = some c := by
    intro q c hq
    by_cases hqp : q = p
    · subst hqp
      rw [Function.update_self] at hq
      cases hq
    · rw [Function.update_of_ne hqp] at hq
      exact ⟨hqp, hq⟩
  refine ⟨List.nodup_cons.mpr ⟨h.disjoint p b hp, h.free_nodup⟩, ?_, ?_, ?_⟩
  · intro q r c hq hr
    exact h.slot_unique q r c (hkept q c hq).2 (hkept r c hr).2
  · intro q c hq hc
    obtain ⟨hqp, hq⟩ := hkept q c hq
    rcases List.mem_cons.mp hc with rfl | hc
    · exact hqp (h.slot_unique q p c hq hp)
    · exact h.disjoint q c hq hc
  · intro c
    rw [h.lt_created_iff c, List.mem_cons]
    constructor
    · rintro (hc | ⟨q, hq⟩)
      · exact .inl (.inr hc)
      · by_cases hqp : q = p
        · subst hqp
          rw [hp, Option.some.injEq] at hq
          exact .inl (.inl hq.symm)
        · exact .inr ⟨q, by rw [Function.update_of_ne hqp, hq]⟩
    · rintro ((rfl | hc) | ⟨q, hq⟩)
      · exact .inr ⟨p, hp⟩
      · exact .inl hc
      · exact .inr ⟨q, (hkept q c hq).2⟩

/-- A resource moves to an empty slot. -/
theorem Conserved.move (h : Conserved holds free created)
    (hp : holds p = some b) (hq : holds q = none) :
    Conserved (Function.update (Function.update holds p none) q (some b)) free
      created := by
  have hqp : q ≠ p := by
    rintro rfl
    rw [hp] at hq
    cases hq
  refine (h.release hp).take ?_
  rw [Function.update_of_ne hqp, hq]

/-- What is free after the resources of some slots have been given back in
order. -/
def giveBack (held : List (Option Nat)) (free : List Nat) : List Nat :=
  held.foldl (fun free resource =>
    match resource with
    | some b => b :: free
    | none => free) free

theorem giveBack_append (xs ys : List (Option Nat)) (free : List Nat) :
    giveBack (xs ++ ys) free = giveBack ys (giveBack xs free) :=
  List.foldl_append

/-- Slots that are all different give back what they hold. -/
theorem Conserved.giveBack {slots : List Slot} (hnodup : slots.Nodup)
    (h : Conserved holds free created) :
    Conserved (fun p => if p ∈ slots then none else holds p)
      (giveBack (slots.map holds) free) created := by
  induction slots generalizing holds free with
  | nil => simpa [Ownership.giveBack] using h
  | cons p slots ih =>
      obtain ⟨hp, hnodup⟩ := List.nodup_cons.mp hnodup
      -- The slots that follow hold what they held before.
      have hsame : slots.map (Function.update holds p none) =
          slots.map holds := by
        refine List.map_congr_left fun q hq => ?_
        have hqp : q ≠ p := fun heq => hp (heq ▸ hq)
        rw [Function.update_of_ne hqp]
      have hrest : ∀ q, (if q ∈ p :: slots then none else holds q) =
          if q ∈ slots then none else Function.update holds p none q := by
        intro q
        by_cases hq : q ∈ slots
        · simp [hq]
        · by_cases hqp : q = p
          · simp [hqp]
          · simp [hq, hqp]
      refine Conserved.congr ?_ hrest
      show Conserved _ (Ownership.giveBack (slots.map holds)
        (match holds p with | some b => b :: free | none => free)) created
      rw [← hsame]
      cases hheld : holds p with
      | none =>
          have hidle : Function.update holds p none = holds := by
            rw [← hheld, Function.update_eq_self]
          rw [hidle]
          exact ih hnodup h
      | some b => exact ih hnodup (h.release hheld)

end Orkhestra.Verified.Ownership
