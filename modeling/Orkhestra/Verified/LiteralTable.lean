import Mathlib.Logic.Function.Basic
import Mathlib.Data.List.Basic

/-!
# Clauses that are set literal by literal

A table holds a literal for each clause and cell, and the clauses that are in
use.  It starts without a clause, every literal being the one that does not
care; each setting puts a clause in use and overwrites one of its literals.

`satisfied_setAll_iff` reads the table back: a clause is satisfied when some
setting names it and all settings that name it hold.  Settings may be repeated
but must not contradict each other.
-/

namespace Orkhestra.Verified.LiteralTable

/-- One literal of one clause. -/
structure Setting (ι κ τ : Type) where
  clause : ι
  cell : κ
  literal : τ

structure Table (ι κ τ : Type) where
  used : ι → Bool
  literal : ι → κ → τ

variable {ι κ τ : Type} [DecidableEq ι] [DecidableEq κ]

def Table.empty (dontCare : τ) : Table ι κ τ :=
  ⟨fun _ => false, fun _ _ => dontCare⟩

def Table.set (t : Table ι κ τ) (s : Setting ι κ τ) : Table ι κ τ where
  used := Function.update t.used s.clause true
  literal := Function.update t.literal s.clause
    (Function.update (t.literal s.clause) s.cell s.literal)

def Table.setAll (t : Table ι κ τ) (settings : List (Setting ι κ τ)) :
    Table ι κ τ :=
  settings.foldl Table.set t

/-- The clause is in use and its literals hold in the cells that are looked
at. -/
def Table.Satisfied (t : Table ι κ τ) (holds : τ → Bool → Prop)
    (visible : κ → Prop) (truth : κ → Bool) (i : ι) : Prop :=
  t.used i = true ∧ ∀ cell, visible cell → holds (t.literal i cell) (truth cell)

/-- Settings of one literal agree. -/
def Consistent (settings : List (Setting ι κ τ)) : Prop :=
  ∀ s ∈ settings, ∀ s' ∈ settings, s.clause = s'.clause → s.cell = s'.cell →
    s.literal = s'.literal

variable (t : Table ι κ τ) {settings : List (Setting ι κ τ)}

theorem setAll_append (settings more : List (Setting ι κ τ)) :
    t.setAll (settings ++ more) = (t.setAll settings).setAll more :=
  List.foldl_append

theorem set_literal (s : Setting ι κ τ) (i : ι) (cell : κ) :
    (t.set s).literal i cell =
      if i = s.clause ∧ cell = s.cell then s.literal else t.literal i cell := by
  by_cases hi : i = s.clause
  · subst hi
    by_cases hcell : cell = s.cell
    · simp [Table.set, hcell]
    · simp [Table.set, hcell]
  · simp [Table.set, hi]

theorem setAll_used (settings : List (Setting ι κ τ)) (i : ι) :
    (t.setAll settings).used i = true ↔
      t.used i = true ∨ ∃ s ∈ settings, s.clause = i := by
  induction settings generalizing t with
  | nil => simp [Table.setAll]
  | cons s settings ih =>
      show ((t.set s).setAll settings).used i = true ↔ _
      rw [ih]
      simp only [List.mem_cons, exists_eq_or_imp, Table.set,
        Function.update_apply]
      by_cases hi : i = s.clause
      · simp [hi]
      · simp [hi, Ne.symm hi]

/-- The literal of a cell is the one that was set last. -/
theorem setAll_literal (settings : List (Setting ι κ τ)) (i : ι) (cell : κ) :
    (∃ s ∈ settings, s.clause = i ∧ s.cell = cell ∧
      (t.setAll settings).literal i cell = s.literal) ∨
    (∀ s ∈ settings, s.clause = i → s.cell ≠ cell) ∧
      (t.setAll settings).literal i cell = t.literal i cell := by
  induction settings generalizing t with
  | nil => exact .inr ⟨by simp, rfl⟩
  | cons s settings ih =>
      have hcons : t.setAll (s :: settings) = (t.set s).setAll settings := rfl
      rw [hcons]
      rcases ih (t.set s) with ⟨s', hs', hclause, hcell, hlit⟩ | ⟨hnone, hlit⟩
      · exact .inl ⟨s', List.mem_cons_of_mem s hs', hclause, hcell, hlit⟩
      · rw [set_literal] at hlit
        by_cases hs : i = s.clause ∧ cell = s.cell
        · rw [if_pos hs] at hlit
          exact .inl ⟨s, List.mem_cons_self, hs.1.symm, hs.2.symm, hlit⟩
        · rw [if_neg hs] at hlit
          refine .inr ⟨?_, hlit⟩
          intro s' hs' hclause hcell
          rcases List.mem_cons.mp hs' with rfl | hs'
          · exact hs ⟨hclause.symm, hcell.symm⟩
          · exact hnone s' hs' hclause hcell

/-- A clause is satisfied when it is named and all that was set for it holds. -/
theorem satisfied_setAll_iff {dontCare : τ} {holds : τ → Bool → Prop}
    {visible : κ → Prop} {truth : κ → Bool}
    (hdontCare : ∀ value, holds dontCare value)
    (hvisible : ∀ s ∈ settings, visible s.cell)
    (hconsistent : Consistent settings) (i : ι) :
    ((Table.empty dontCare).setAll settings).Satisfied holds visible truth i ↔
      (∃ s ∈ settings, s.clause = i) ∧
        ∀ s ∈ settings, s.clause = i → holds s.literal (truth s.cell) := by
  have hused := setAll_used (Table.empty dontCare) settings i
  rw [Table.Satisfied, hused]
  simp only [Table.empty, Bool.false_eq_true, false_or]
  refine and_congr_right fun _ => ⟨?_, ?_⟩
  · intro hcells s hs hclause
    have hcell := hcells s.cell (hvisible s hs)
    rcases setAll_literal (Table.empty dontCare) settings i s.cell with ⟨s', hs', hclause', hcell', hlit⟩ | ⟨hnone, -⟩
    · rw [hconsistent s hs s' hs' (hclause.trans hclause'.symm) hcell'.symm,
        ← hlit]
      exact hcell
    · exact absurd rfl (hnone s hs hclause)
  · intro hsettings cell _
    rcases setAll_literal (Table.empty dontCare) settings i cell with ⟨s, hs, hclause, rfl, hlit⟩ | ⟨-, hlit⟩
    · have hholds := hsettings s hs hclause
      rw [← hlit] at hholds
      exact hholds
    · have hholds := hdontCare (truth cell)
      rw [show dontCare = (Table.empty dontCare : Table ι κ τ).literal i cell
        from rfl, ← hlit] at hholds
      exact hholds

end Orkhestra.Verified.LiteralTable
