import Orkhestra.Verified.Checked

/-!
# Defined behaviour

A computation is defined when it does nothing that the language leaves undefined:
it returns or throws.  Exceptions are not looked at, so a loop is defined when
an invariant of its iterations keeps each of them within its vectors; nothing is
asked of the iterations behind one that throws.
-/

namespace Orkhestra.Verified.DefinedBehaviour

open Orkhestra.Verified.Checked

variable {α β σ : Type}

def Defined (x : Outcome α) : Prop := x ≠ .error .undefined

theorem defined_ok (a : α) : Defined (.ok a : Outcome α) := by
  intro h
  cases h

theorem defined_error {e : Fault} (he : e ≠ .undefined) :
    Defined (.error e : Outcome α) := by
  intro h
  exact he (Except.error.inj h)

theorem Defined.bind {x : Outcome α} {f : α → Outcome β} (hx : Defined x)
    (hf : ∀ a, x = .ok a → Defined (f a)) : Defined (x >>= f) := by
  cases x with
  | error e =>
      intro h
      exact hx (by simpa using h)
  | ok a => exact hf a rfl

/-! ## Vectors -/

theorem defined_readAt_iff {xs : List α} {i : Nat} :
    Defined (readAt xs i) ↔ i < xs.length := by
  unfold readAt
  split
  · next x hx =>
      exact iff_of_true (defined_ok x) (List.getElem?_eq_some_iff.mp hx).1
  · next hnone =>
      rw [List.getElem?_eq_none_iff] at hnone
      exact iff_of_false (fun h => h rfl) (by omega)

theorem defined_writeAt_iff {xs : List α} {i : Nat} {x : α} :
    Defined (writeAt xs i x) ↔ i < xs.length := by
  unfold writeAt
  split
  · next hlt => exact iff_of_true (defined_ok _) hlt
  · next hlt => exact iff_of_false (fun h => h rfl) hlt

/-- An access with `at` is checked. -/
theorem defined_checkedAt (xs : List α) (i : Nat) :
    Defined (checkedAt xs i) := by
  unfold checkedAt
  split
  · exact defined_ok _
  · exact defined_error (by decide)

/-! ## Loops -/

theorem defined_foldlM {body : σ → α → Outcome σ} (motive : List α → σ → Prop)
    (xs : List α) {s : σ} (hinit : motive [] s)
    (hdefined : ∀ before x after s, xs = before ++ x :: after →
      motive before s → Defined (body s x))
    (hstep : ∀ before x after s s', xs = before ++ x :: after →
      motive before s → body s x = .ok s' → motive (before ++ [x]) s') :
    Defined (xs.foldlM body s) := by
  suffices key : ∀ before rest s, xs = before ++ rest → motive before s →
      Defined (rest.foldlM body s) from key [] xs s rfl hinit
  intro before rest
  induction rest generalizing before with
  | nil => exact fun s _ _ => defined_ok s
  | cons x rest ih =>
      intro s hsplit hmotive
      rw [List.foldlM_cons]
      refine (hdefined before x rest s hsplit hmotive).bind fun s' hbody => ?_
      exact ih (before ++ [x]) s' (by simpa using hsplit)
        (hstep before x rest s s' hsplit hmotive hbody)

/-- A counting loop `for (i = 0; i < n; i++)`. -/
theorem defined_forRange {body : σ → Nat → Outcome σ} (motive : σ → Prop)
    (n : Nat) {s : σ} (hinit : motive s)
    (hdefined : ∀ i s, i < n → motive s → Defined (body s i))
    (hstep : ∀ i s s', i < n → motive s → body s i = .ok s' → motive s') :
    Defined ((List.range n).foldlM body s) := by
  refine defined_foldlM (fun _ s => motive s) _ hinit ?_ ?_
  · intro before i after s hsplit hs
    obtain ⟨rfl, hlt⟩ := eq_length_of_range_eq hsplit
    exact hdefined _ s hlt hs
  · intro before i after s s' hsplit hs hbody
    obtain ⟨rfl, hlt⟩ := eq_length_of_range_eq hsplit
    exact hstep _ s s' hlt hs hbody

end Orkhestra.Verified.DefinedBehaviour
