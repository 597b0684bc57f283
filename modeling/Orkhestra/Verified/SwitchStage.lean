import Mathlib.Logic.Function.Basic
import Mathlib.Tactic.Push

/-!
# Stages of a switch

A stage of a switch holds one setting for each of its keys.  Requests that ask
for a setting at a key are served together when no two of them ask for
different settings at one key.
-/

namespace Orkhestra.Verified.SwitchStage

variable {ι κ τ : Type*}

/-- Some assignment of settings serves all requests of `requests`. -/
def Served (requests : ι → Prop) (key : ι → κ) (setting : ι → τ) : Prop :=
  ∃ stage : κ → τ, ∀ i, requests i → stage (key i) = setting i

theorem served_iff [Nonempty τ] {requests : ι → Prop} {key : ι → κ}
    {setting : ι → τ} :
    Served requests key setting ↔ ∀ i j, requests i → requests j →
      key i = key j → setting i = setting j := by
  let keyOf : {i // requests i} → κ := fun i => key i
  let settingOf : {i // requests i} → τ := fun i => setting i
  have hfactors := Function.factorsThrough_iff (f := keyOf) settingOf
  constructor
  · rintro ⟨stage, hstage⟩ i j hi hj hkey
    rw [← hstage i hi, ← hstage j hj, hkey]
  · intro hagree
    obtain ⟨stage, hstage⟩ := hfactors.mp fun i j hkey =>
      hagree i j i.property j.property hkey
    exact ⟨stage, fun i hi => (congrFun hstage ⟨i, hi⟩).symm⟩

/-- Requests that cannot be served contain a conflict. -/
theorem not_served_iff [Nonempty τ] {requests : ι → Prop} {key : ι → κ}
    {setting : ι → τ} :
    ¬Served requests key setting ↔ ∃ i j, requests i ∧ requests j ∧
      key i = key j ∧ setting i ≠ setting j := by
  rw [served_iff]
  push Not
  rfl

end Orkhestra.Verified.SwitchStage
