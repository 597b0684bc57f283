import Orkhestra.Verified.Checked
import Mathlib.Data.List.Nodup

/-!
# Logs

A computation that appends entries to a log, and the last entry of a log with a
given key.  A key that no two different entries share has its only entry as the
last one.
-/

namespace Orkhestra.Verified.Log

open Orkhestra.Verified.Checked

section Emits

variable {α β σ : Type} {log : σ → List β}

/-- If the computation returns, it has appended the entries. -/
def Emits (log : σ → List β) (run : σ → Outcome σ) (entries : List β) : Prop :=
  ∀ s s', run s = .ok s' → log s' = log s ++ entries

theorem Emits.bind {run run' : σ → Outcome σ} {entries entries' : List β}
    (h : Emits log run entries) (h' : Emits log run' entries') :
    Emits log (fun s => run s >>= run') (entries ++ entries') := by
  intro s s' hrun
  obtain ⟨middle, hmiddle, hlast⟩ := bind_eq_ok.mp hrun
  rw [h' _ _ hlast, h _ _ hmiddle, List.append_assoc]

theorem Emits.foldlM {body : σ → α → Outcome σ} {entries : α → List β}
    (xs : List α) (h : ∀ x ∈ xs, Emits log (fun s => body s x) (entries x)) :
    Emits log (fun s => xs.foldlM body s) (xs.flatMap entries) := by
  induction xs with
  | nil =>
      intro s s' hrun
      obtain rfl := Except.ok.inj hrun
      exact (List.append_nil _).symm
  | cons x xs ih =>
      have hrest := ih fun y hy => h y (List.mem_cons_of_mem x hy)
      simp only [List.foldlM_cons, List.flatMap_cons]
      exact (h x List.mem_cons_self).bind hrest

end Emits

section Last

variable {β κ : Type} [DecidableEq κ] {key : β → κ}

/-- The last entry with a key. -/
def lastWith (key : β → κ) (entries : List β) (k : κ) : Option β :=
  entries.reverse.find? fun x => key x = k

theorem lastWith_eq_none {entries : List β} {k : κ} :
    lastWith key entries k = none ↔ ∀ x ∈ entries, key x ≠ k := by
  simp [lastWith]

theorem lastWith_eq_some {entries : List β} {k : κ} {x : β}
    (h : lastWith key entries k = some x) : x ∈ entries ∧ key x = k := by
  refine ⟨List.mem_reverse.mp (List.mem_of_find?_eq_some h), ?_⟩
  simpa using List.find?_some h

/-- An entry that shares its key with no other is the last one with it. -/
theorem lastWith_of_unique {entries : List β} {x : β} (hx : x ∈ entries)
    (hunique : ∀ y ∈ entries, key y = key x → y = x) :
    lastWith key entries (key x) = some x := by
  cases h : lastWith key entries (key x) with
  | none => exact absurd rfl (lastWith_eq_none.mp h x hx)
  | some y =>
      obtain ⟨hy, hkey⟩ := lastWith_eq_some h
      rw [hunique y hy hkey]

/-- When no two entries share a key, each is the last one with its own. -/
theorem lastWith_of_nodup {entries : List β} (h : (entries.map key).Nodup)
    {x : β} (hx : x ∈ entries) : lastWith key entries (key x) = some x :=
  lastWith_of_unique hx fun _ hy hkey => List.inj_on_of_nodup_map h hy hx hkey

theorem lastWith_append (entries entries' : List β) (k : κ) :
    lastWith key (entries ++ entries') k =
      (lastWith key entries' k).or (lastWith key entries k) := by
  simp [lastWith, List.find?_append]

/-- Entries that are renamed together with their keys. -/
theorem lastWith_map {γ ν : Type} [DecidableEq ν] (key' : γ → ν) (f : β → γ)
    {g : κ → ν} (hinj : Function.Injective g)
    (hkey : ∀ x, key' (f x) = g (key x)) (entries : List β) (k : κ) :
    lastWith key' (entries.map f) (g k) = (lastWith key entries k).map f := by
  have hsame : (fun x => decide (key' (f x) = g k)) =
      fun x => decide (key x = k) := by
    funext x
    simp only [hkey, hinj.eq_iff]
  simp only [lastWith, ← List.map_reverse, List.find?_map, Function.comp_def,
    hsame]

/-- A key that occurs in one part only has its last entry there. -/
theorem lastWith_flatMap_of_unique {α : Type} {entries : α → List β}
    {parts : List α} {k : κ} {part : α} (hpart : part ∈ parts)
    (hother : ∀ x ∈ parts, x ≠ part → lastWith key (entries x) k = none) :
    lastWith key (parts.flatMap entries) k = lastWith key (entries part) k := by
  induction parts with
  | nil => cases hpart
  | cons x rest ih =>
      have hrest := fun y (hy : y ∈ rest) =>
        hother y (List.mem_cons_of_mem x hy)
      rw [List.flatMap_cons, lastWith_append]
      by_cases hmem : part ∈ rest
      · rw [ih hmem hrest]
        by_cases hx : x = part
        · rw [hx, Option.or_self]
        · rw [hother x List.mem_cons_self hx, Option.or_none]
      · have hx : x = part := ((List.mem_cons.mp hpart).resolve_right hmem).symm
        have hnone : lastWith key (rest.flatMap entries) k = none := by
          rw [lastWith_eq_none]
          intro y hy
          obtain ⟨z, hz, hy⟩ := List.mem_flatMap.mp hy
          refine lastWith_eq_none.mp (hrest z hz ?_) y hy
          rintro rfl
          exact hmem hz
        rw [hnone, Option.none_or, hx]

/-- A key that occurs in no part. -/
theorem lastWith_flatMap_eq_none {α : Type} {entries : α → List β}
    {parts : List α} {k : κ}
    (hnone : ∀ x ∈ parts, lastWith key (entries x) k = none) :
    lastWith key (parts.flatMap entries) k = none := by
  rw [lastWith_eq_none]
  intro y hy
  obtain ⟨x, hx, hy⟩ := List.mem_flatMap.mp hy
  exact lastWith_eq_none.mp (hnone x hx) y hy

end Last

end Orkhestra.Verified.Log
