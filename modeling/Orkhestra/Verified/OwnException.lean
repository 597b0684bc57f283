import Orkhestra.Verified.Checked

/-!
# Own exceptions

A regular computation returns or throws an exception that the program throws
itself.  Everything else that stops it, an undefined operation, a failed
assertion or a vector access out of range, is a defect of the program.

Where it does not matter who throws, a computation that returns or throws some
exception rejects what it cannot handle.
-/

namespace Orkhestra.Verified.OwnException

open Orkhestra.Verified.Checked

variable {α β σ : Type}

/-- The computation returns, or it throws `std::runtime_error`. -/
def Regular (x : Outcome α) : Prop :=
  ∀ e, x = .error e → ∃ what, e = .runtimeError what

@[simp] theorem regular_ok (a : α) : Regular (.ok a : Outcome α) := by
  intro e he
  cases he

@[simp] theorem regular_runtimeError (what : String) :
    Regular (.error (.runtimeError what) : Outcome α) := by
  intro e he
  rw [← Except.error.inj he]
  exact ⟨what, rfl⟩

@[simp] theorem not_regular_undefined :
    ¬Regular (.error .undefined : Outcome α) := by
  intro h
  obtain ⟨what, hwhat⟩ := h .undefined rfl
  cases hwhat

@[simp] theorem not_regular_assertionFailed :
    ¬Regular (.error .assertionFailed : Outcome α) := by
  intro h
  obtain ⟨what, hwhat⟩ := h .assertionFailed rfl
  cases hwhat

/-- A sequence is regular when its first part is, and its second part wherever
the first one returns. -/
theorem regular_bind_iff {x : Outcome α} {f : α → Outcome β} :
    Regular (x >>= f) ↔ Regular x ∧ ∀ a, x = .ok a → Regular (f a) := by
  cases x with
  | error e =>
      simp only [error_bind, reduceCtorEq, false_implies, implies_true,
        and_true]
      exact ⟨fun h e' he => h e' (by rw [← Except.error.inj he]),
        fun h e' he => h e' (by rw [← Except.error.inj he])⟩
  | ok a => simp

/-! ## Exceptions of any kind -/

/-- The fault is an exception: a caller can catch it. -/
inductive Exception : Fault → Prop where
  | runtimeError (what : String) : Exception (.runtimeError what)
  | outOfRange : Exception .outOfRange
  | logicError (what : String) : Exception (.logicError what)

/-- The computation returns or throws. -/
def Rejects (x : Outcome α) : Prop := ∀ e, x = .error e → Exception e

theorem rejects_ok (a : α) : Rejects (.ok a : Outcome α) := by
  intro e h
  cases h

theorem rejects_error {e : Fault} (he : Exception e) :
    Rejects (.error e : Outcome α) := by
  intro e' h
  exact Except.error.inj h ▸ he

theorem Rejects.bind {x : Outcome α} {f : α → Outcome β} (hx : Rejects x)
    (hf : ∀ a, x = .ok a → Rejects (f a)) : Rejects (x >>= f) := by
  intro e h
  rcases bind_eq_error.mp h with h | ⟨a, ha, h⟩
  · exact hx e h
  · exact hf a ha e h

theorem rejects_checkedAt (xs : List α) (i : Nat) : Rejects (checkedAt xs i) := by
  unfold checkedAt
  split
  · exact rejects_ok _
  · exact rejects_error .outOfRange

theorem rejects_foldlM {body : σ → α → Outcome σ}
    (h : ∀ s x, Rejects (body s x)) (xs : List α) (s : σ) :
    Rejects (xs.foldlM body s) := by
  induction xs generalizing s with
  | nil => exact rejects_ok s
  | cons x xs ih =>
      rw [List.foldlM_cons]
      exact (h s x).bind fun s' _ => ih s'

/-- A counting loop whose states are known. -/
theorem rejects_forRange {body : σ → Nat → Outcome σ} (state : Nat → σ) (n : Nat)
    (hrejects : ∀ i < n, Rejects (body (state i) i))
    (hstep : ∀ i < n, ∀ s, body (state i) i = .ok s → s = state (i + 1)) :
    Rejects ((List.range n).foldlM body (state 0)) := by
  induction n with
  | zero => exact rejects_ok _
  | succ n ih =>
      rw [List.range_succ, List.foldlM_append]
      refine Rejects.bind (ih ?_ ?_) fun s hs => ?_
      · exact fun i hi => hrejects i (Nat.lt_succ_of_lt hi)
      · exact fun i hi => hstep i (Nat.lt_succ_of_lt hi)
      · have hreached : s = state n := forRange_invariant (fun i s => s = state i) n
          rfl (fun i s s' hi hs hbody => hstep i (Nat.lt_succ_of_lt hi) s'
            (hs ▸ hbody)) hs
        rw [hreached, List.foldlM_cons]
        exact (hrejects n (Nat.lt_succ_self n)).bind fun _ _ => rejects_ok _

end Orkhestra.Verified.OwnException
