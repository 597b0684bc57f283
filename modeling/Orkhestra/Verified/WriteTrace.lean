import Orkhestra.Verified.Checked

/-!
# Traces of writes

A program that writes to a block of cells is its trace: the cells and values in
the order in which they are written.  Applied to a block, a trace goes through
exactly when it stays inside (`applyWrites_returns_iff`).
-/

namespace Orkhestra.Verified.WriteTrace

open Orkhestra.Verified.Checked

variable {α : Type}

/-- Cells and values. -/
abbrev Trace (α : Type) := List (Int × α)

def applyWrites (trace : Trace α) (block : List α) : Outcome (List α) :=
  trace.foldlM (fun block write => do
    let i ← indexOf write.1
    writeAt block i write.2) block

/-- Every write is to one of the first `cells` cells. -/
def Inside (trace : Trace α) (cells : Nat) : Prop :=
  ∀ write ∈ trace, 0 ≤ write.1 ∧ write.1 < cells

instance (trace : Trace α) (cells : Nat) : Decidable (Inside trace cells) :=
  inferInstanceAs (Decidable (∀ write ∈ trace, _))

theorem applyWrites_append (trace trace' : Trace α) (block : List α) :
    applyWrites (trace ++ trace') block =
      applyWrites trace block >>= applyWrites trace' := by
  rw [applyWrites, List.foldlM_append]
  rfl

theorem applyWrites_returns_iff (trace : Trace α) (block : List α) :
    (∃ block', applyWrites trace block = .ok block') ↔
      Inside trace block.length := by
  refine foldlM_returns_iff
    (fun _ (block' : List α) => block'.length = block.length)
    (fun write : Int × α => 0 ≤ write.1 ∧ write.1 < block.length) trace rfl ?_
    ?_
  · intro _ write _ cells _ hlength
    simp only [bind_eq_ok, indexOf_eq_ok, writeAt_eq_ok, hlength]
    constructor
    · rintro ⟨_, i, hi, hlt, rfl⟩
      omega
    · rintro ⟨hlow, hhigh⟩
      exact ⟨_, write.1.toNat, by omega, by omega, rfl⟩
  · intro _ write _ cells cells' _ hlength hwrite
    simp only [bind_eq_ok, writeAt_eq_ok] at hwrite
    obtain ⟨i, -, -, rfl⟩ := hwrite
    rw [List.length_set, hlength]

/-- A row that is written from cell `start` on. -/
def rowTrace (row : List α) (start : Int) : Trace α :=
  row.zipIdx.map fun value => (value.2 + start, value.1)

theorem inside_rowTrace_iff {row : List α} {start : Int} {cells : Nat}
    (hstart : 0 ≤ start) :
    Inside (rowTrace row start) cells ↔
      (row ≠ [] → start + row.length ≤ cells) := by
  simp only [Inside, rowTrace, List.forall_mem_map]
  constructor
  · intro hall hne
    have hpos := List.length_pos_of_ne_nil hne
    have hlast : (row[row.length - 1], row.length - 1) ∈ row.zipIdx := by
      rw [List.mk_mem_zipIdx_iff_getElem?]
      exact List.getElem?_eq_getElem (by omega)
    have hlast := (hall _ hlast).2
    dsimp only at hlast
    omega
  · rintro hfits ⟨value, i⟩ hvalue
    have hi := (List.getElem?_eq_some_iff.mp
      (List.mk_mem_zipIdx_iff_getElem?.mp hvalue)).1
    have hend := hfits (List.ne_nil_of_length_pos (by omega))
    dsimp only
    omega

end Orkhestra.Verified.WriteTrace
