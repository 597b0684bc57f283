import Orkhestra.Verified.Checked

/-!
# Loops without a range

A `while` loop, or a function that ends in a call of itself, is the unrolling of
a body that either goes on with a new state or is done.  The unrolling takes
fuel; `iterate_stops` is the rule that discharges it.

`visited` lists the states in which the body was entered.  It is what a
condition on the steps of a run quantifies over, and `iterate_good_iff` is the
rule for a property that holds at the end of exactly those runs whose steps all
meet a condition.
-/

namespace Orkhestra.Verified.Loop

open Orkhestra.Verified.Checked

/-- What a loop body decides. -/
inductive Next (σ ρ : Type) where
  | again (s : σ)
  | done (r : ρ)

variable {α β σ ρ : Type}

/-- Unroll the body at most `fuel` times. -/
def iterate (body : σ → Outcome (Next σ ρ)) : Nat → σ → Outcome ρ
  | 0, _ => .error .outOfFuel
  | fuel + 1, s =>
      match body s with
      | .ok (.again s') => iterate body fuel s'
      | .ok (.done r) => .ok r
      | .error e => .error e

/-- The states in which the body is entered, in order. -/
def visited (body : σ → Outcome (Next σ ρ)) : Nat → σ → List σ
  | 0, _ => []
  | fuel + 1, s =>
      s :: match body s with
        | .ok (.again s') => visited body fuel s'
        | .ok (.done _) => []
        | .error _ => []

/-! ## Computations that do not run out of fuel -/

/-- The computation returns or stops with a fault of the program. -/
def Stops (x : Outcome α) : Prop := x ≠ .error .outOfFuel

theorem stops_ok (a : α) : Stops (.ok a : Outcome α) := by
  intro h
  cases h

theorem stops_error {e : Fault} (he : e ≠ .outOfFuel) :
    Stops (.error e : Outcome α) := by
  intro h
  exact he (Except.error.inj h)

theorem Stops.bind {x : Outcome α} {f : α → Outcome β} (hx : Stops x)
    (hf : ∀ a, x = .ok a → Stops (f a)) : Stops (x >>= f) := by
  cases x with
  | error e =>
      intro h
      exact hx (by simpa using h)
  | ok a => exact hf a rfl

theorem stops_readAt (xs : List α) (i : Nat) : Stops (readAt xs i) := by
  unfold readAt
  split
  · exact stops_ok _
  · exact stops_error (by decide)

theorem stops_checkedAt (xs : List α) (i : Nat) : Stops (checkedAt xs i) := by
  unfold checkedAt
  split
  · exact stops_ok _
  · exact stops_error (by decide)

theorem stops_writeAt (xs : List α) (i : Nat) (x : α) :
    Stops (writeAt xs i x) := by
  unfold writeAt
  split
  · exact stops_ok _
  · exact stops_error (by decide)

theorem stops_foldlM {body : σ → α → Outcome σ} (h : ∀ s x, Stops (body s x))
    (xs : List α) (s : σ) : Stops (xs.foldlM body s) := by
  induction xs generalizing s with
  | nil => exact stops_ok s
  | cons x xs ih =>
      rw [List.foldlM_cons]
      exact (h s x).bind fun s' _ => ih s'

/-! ## Rules -/

section Rules

variable {body : σ → Outcome (Next σ ρ)} {fuel : Nat} {s : σ} {r : ρ}

/-- Partial correctness: what every step keeps holds when the loop is done. -/
theorem iterate_invariant (inv : σ → Prop) (post : ρ → Prop)
    (hagain : ∀ s s', inv s → body s = .ok (.again s') → inv s')
    (hdone : ∀ s r, inv s → body s = .ok (.done r) → post r)
    (hinit : inv s) (hrun : iterate body fuel s = .ok r) : post r := by
  induction fuel generalizing s with
  | zero => cases hrun
  | succ fuel ih =>
      rw [iterate] at hrun
      split at hrun
      · next s' hbody => exact ih (hagain s s' hinit hbody) hrun
      · next r' hbody =>
          rw [← Except.ok.inj hrun]
          exact hdone s r' hinit hbody
      · cases hrun

/-- The same for every state in which the body is entered. -/
theorem visited_invariant (inv : σ → Prop)
    (hagain : ∀ s s', inv s → body s = .ok (.again s') → inv s')
    (hinit : inv s) : ∀ t ∈ visited body fuel s, inv t := by
  induction fuel generalizing s with
  | zero => simp [visited]
  | succ fuel ih =>
      intro t ht
      rw [visited, List.mem_cons] at ht
      rcases ht with rfl | ht
      · exact hinit
      · split at ht
        · next s' hbody => exact ih (hagain s s' hinit hbody) t ht
        · exact absurd ht List.not_mem_nil
        · exact absurd ht List.not_mem_nil

theorem mem_visited_self (hfuel : 0 < fuel) : s ∈ visited body fuel s := by
  cases fuel with
  | zero => omega
  | succ fuel => exact List.mem_cons_self

/-- Termination: with more fuel than the measure of its state a loop stops. -/
theorem iterate_stops (inv : σ → Prop) (measure : σ → Nat)
    (hbody : ∀ s, inv s → Stops (body s))
    (hagain : ∀ s s', inv s → body s = .ok (.again s') →
      inv s' ∧ measure s' < measure s)
    (hinit : inv s) (hfuel : measure s < fuel) :
    Stops (iterate body fuel s) := by
  induction fuel generalizing s with
  | zero => omega
  | succ fuel ih =>
      rw [iterate]
      split
      · next s' hstep =>
          obtain ⟨hinv, hlt⟩ := hagain s s' hinit hstep
          exact ih hinv (by omega)
      · exact stops_ok _
      · next e hstep =>
          intro h
          have hs := hbody s hinit
          rw [hstep] at hs
          exact hs (by rw [Except.error.inj h])

/-- A run that returns has the property exactly when all of its steps meet the
condition: `inv` is kept as long as they do, `bad` from the first step on that
does not. -/
theorem iterate_good_iff (inv bad cond : σ → Prop) (good : ρ → Prop)
    (hagain : ∀ s s', inv s → body s = .ok (.again s') →
      (cond s → inv s') ∧ (¬cond s → bad s'))
    (hdone : ∀ s r, inv s → body s = .ok (.done r) → (good r ↔ cond s))
    (hbad : ∀ s s', bad s → body s = .ok (.again s') → bad s')
    (hbadDone : ∀ s r, bad s → body s = .ok (.done r) → ¬good r)
    (hinit : inv s) (hrun : iterate body fuel s = .ok r) :
    good r ↔ ∀ t ∈ visited body fuel s, cond t := by
  induction fuel generalizing s with
  | zero => cases hrun
  | succ fuel ih =>
      rw [iterate] at hrun
      rw [visited]
      split at hrun
      · next s' hbody =>
          obtain ⟨hgood, hfail⟩ := hagain s s' hinit hbody
          simp only [List.mem_cons, forall_eq_or_imp]
          by_cases hc : cond s
          · rw [ih (hgood hc) hrun]
            exact ⟨fun h => ⟨hc, h⟩, fun h => h.2⟩
          · have hnot : ¬good r :=
              iterate_invariant bad (fun r => ¬good r) hbad hbadDone (hfail hc)
                hrun
            exact ⟨fun h => absurd h hnot, fun h => absurd h.1 hc⟩
      · next r' hbody =>
          have hr := hdone s r' hinit hbody
          rw [Except.ok.inj hrun] at hr
          simp only [List.mem_cons, List.not_mem_nil, or_false,
            forall_eq]
          exact hr
      · cases hrun

/-- With more fuel than the measure of its state a loop returns exactly when the
body does in every state in which it is entered. -/
theorem iterate_returns_iff (inv : σ → Prop) (measure : σ → Nat)
    (hagain : ∀ s s', inv s → body s = .ok (.again s') →
      inv s' ∧ measure s' < measure s)
    (hinit : inv s) (hfuel : measure s < fuel) :
    (∃ r, iterate body fuel s = .ok r) ↔
      ∀ t ∈ visited body fuel s, ∃ next, body t = .ok next := by
  induction fuel generalizing s with
  | zero => omega
  | succ fuel ih =>
      rw [iterate, visited, List.forall_mem_cons]
      split
      · next s' hbody =>
          obtain ⟨hinv, hlt⟩ := hagain s s' hinit hbody
          rw [ih hinv (by omega)]
          exact (and_iff_right ⟨_, hbody⟩).symm
      · next r hbody => exact iff_of_true ⟨r, rfl⟩ ⟨⟨_, hbody⟩, by simp⟩
      · next e hbody =>
          refine iff_of_false (by simp) ?_
          rintro ⟨⟨next, hnext⟩, -⟩
          rw [hbody] at hnext
          cases hnext

end Rules

end Orkhestra.Verified.Loop
