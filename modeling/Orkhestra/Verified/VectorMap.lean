import Std.Data.TreeMap
import Mathlib.Data.List.Nodup

/-!
# Maps of vectors

A C++ program that keeps vectors under names, and reads an element with
`m[name][i]`, sees the map as a partial function of the name and the index
(`entry`).  The lemmas say what the operations of `std::map` do to single keys
and to entries; `insert` of a `std::map` does not overwrite and is
`insertIfNew`, `m[key] = value` is `insert`.
-/

namespace Orkhestra.Verified.VectorMap

variable {α β : Type} {cmp : α → α → Ordering}

/-- `m[key][i]`, where the vector of a key without one is empty. -/
def entry (m : Std.TreeMap α (List β) cmp) (key : α) (i : Nat) : Option β :=
  (m[key]?.getD [])[i]?

theorem entry_eq {m : Std.TreeMap α (List β) cmp} {key : α} {xs : List β}
    (h : m[key]? = some xs) (i : Nat) : entry m key i = xs[i]? := by
  rw [entry, h, Option.getD_some]

theorem entry_eq_none {m : Std.TreeMap α (List β) cmp} {key : α}
    (h : m[key]? = none) (i : Nat) : entry m key i = none := by
  rw [entry, h, Option.getD_none, List.getElem?_nil]

variable [Std.TransCmp cmp]

theorem contains_iff_ne_none {m : Std.TreeMap α β cmp} {key : α} :
    m.contains key = true ↔ m[key]? ≠ none := by
  rw [Std.TreeMap.contains_eq_isSome_getElem?]
  cases m[key]? <;> simp

theorem mem_iff_exists {m : Std.TreeMap α β cmp} {key : α} :
    key ∈ m ↔ ∃ value, m[key]? = some value := by
  rw [Std.TreeMap.mem_iff_isSome_getElem?, Option.isSome_iff_exists]

variable [Std.LawfulEqCmp cmp]

theorem getElem?_insertIfNew_of_ne (m : Std.TreeMap α β cmp) {key key' : α}
    (hne : key' ≠ key) (value : β) :
    (m.insertIfNew key value)[key']? = m[key']? := by
  rw [Std.TreeMap.getElem?_insertIfNew, if_neg]
  rintro ⟨heq, -⟩
  exact hne (Std.LawfulEqCmp.compare_eq_iff_eq.mp heq).symm

/-- `insert` adds its own value or nothing. -/
theorem getElem?_insertIfNew_cases {m : Std.TreeMap α β cmp} {key key' : α}
    {value value' : β}
    (h : (m.insertIfNew key value)[key']? = some value') :
    m[key']? = some value' ∨ key' = key ∧ value' = value := by
  rw [Std.TreeMap.getElem?_insertIfNew] at h
  split at h
  · next hnew =>
      rw [Option.some.injEq] at h
      exact .inr ⟨(Std.LawfulEqCmp.compare_eq_iff_eq.mp hnew.1).symm, h.symm⟩
  · exact .inl h

section Update

variable [DecidableEq α]

theorem getElem?_insert (m : Std.TreeMap α β cmp) (key : α) (value : β)
    (key' : α) : (m.insert key value)[key']? =
      if key' = key then some value else m[key']? := by
  rw [Std.TreeMap.getElem?_insert]
  simp only [Std.LawfulEqCmp.compare_eq_iff_eq, @eq_comm _ key' key]

theorem getElem?_erase (m : Std.TreeMap α β cmp) (key key' : α) :
    (m.erase key)[key']? = if key' = key then none else m[key']? := by
  rw [Std.TreeMap.getElem?_erase]
  simp only [Std.LawfulEqCmp.compare_eq_iff_eq, @eq_comm _ key' key]

/-- A key that is new is added. -/
theorem getElem?_insertIfNew {m : Std.TreeMap α β cmp} {key : α}
    (hnew : m[key]? = none) (value : β) (key' : α) :
    (m.insertIfNew key value)[key']? =
      if key' = key then some value else m[key']? := by
  have hmem : key ∉ m := by
    rw [← Std.TreeMap.isSome_getElem?_iff_mem, hnew]
    simp
  rw [Std.TreeMap.getElem?_insertIfNew]
  simp only [Std.LawfulEqCmp.compare_eq_iff_eq, hmem, not_false_eq_true,
    and_true, @eq_comm _ key' key]

theorem entry_insert (m : Std.TreeMap α (List β) cmp) (key : α) (xs : List β)
    (key' : α) (i : Nat) : entry (m.insert key xs) key' i =
      if key' = key then xs[i]? else entry m key' i := by
  unfold entry
  rw [getElem?_insert]
  split <;> rfl

theorem entry_erase (m : Std.TreeMap α (List β) cmp) (key key' : α) (i : Nat) :
    entry (m.erase key) key' i =
      if key' = key then none else entry m key' i := by
  unfold entry
  rw [getElem?_erase]
  split
  · simp
  · rfl

theorem entry_insertIfNew {m : Std.TreeMap α (List β) cmp} {key : α}
    (hnew : m[key]? = none) (xs : List β) (key' : α) (i : Nat) :
    entry (m.insertIfNew key xs) key' i =
      if key' = key then xs[i]? else entry m key' i := by
  unfold entry
  rw [getElem?_insertIfNew hnew]
  split <;> rfl

end Update

/-! ## Walking through a map -/

theorem mem_iff_mem_keys {m : Std.TreeMap α β cmp} {key : α} :
    key ∈ m ↔ key ∈ m.toList.map (·.1) := by
  rw [mem_iff_exists, List.mem_map]
  simp only [← Std.TreeMap.mem_toList_iff_getElem?_eq_some, Prod.exists,
    exists_and_right, exists_eq_right]

theorem keys_nodup (m : Std.TreeMap α β cmp) : (m.toList.map (·.1)).Nodup := by
  rw [List.Nodup, List.pairwise_map]
  refine m.distinct_keys_toList.imp ?_
  intro x y hne heq
  exact hne (Std.LawfulEqCmp.compare_eq_iff_eq.mpr heq)

/-- Groups whose keys differ are filed one after the other. -/
theorem getElem?_foldl_insertIfNew [DecidableEq α] {groups : List (α × β)}
    (hkeys : (groups.map (·.1)).Nodup) {m : Std.TreeMap α β cmp}
    (hnew : ∀ group ∈ groups, m[group.1]? = none) (key : α) (value : β) :
    (groups.foldl (fun m group => m.insertIfNew group.1 group.2) m)[key]? =
        some value ↔
      m[key]? = some value ∨ (key, value) ∈ groups := by
  induction groups generalizing m with
  | nil => simp
  | cons group groups ih =>
      obtain ⟨hhead, hkeys⟩ := List.nodup_cons.mp hkeys
      have hfirst := hnew group List.mem_cons_self
      rw [List.foldl_cons, ih hkeys, getElem?_insertIfNew hfirst, List.mem_cons]
      · by_cases hkey : key = group.1
        · subst hkey
          have hgone : (group.1, value) ∉ groups :=
            fun hmem => hhead (List.mem_map.mpr ⟨_, hmem, rfl⟩)
          simp [hfirst, hgone, Prod.ext_iff, eq_comm]
        · have hne : (key, value) ≠ group :=
            fun heq => hkey (congrArg Prod.fst heq)
          simp [hkey, hne]
      · intro other hother
        rw [getElem?_insertIfNew_of_ne]
        · exact hnew other (List.mem_cons_of_mem _ hother)
        · exact fun heq => hhead (List.mem_map.mpr ⟨other, hother, heq⟩)

/-- Elements that are tagged with the keys of their groups differ if they differ
within the groups. -/
theorem nodup_flatMap_tagged {α ι γ : Type} {xs : List ι} {key : ι → α}
    {group : ι → List γ} (hkeys : (xs.map key).Nodup)
    (hgroups : ∀ x ∈ xs, (group x).Nodup) :
    (xs.flatMap fun x => (group x).map fun y => (key x, y)).Nodup := by
  rw [List.nodup_flatMap]
  constructor
  · intro x hx
    refine (hgroups x hx).map ?_
    intro y z heq
    exact (Prod.mk.inj heq).2
  · rw [List.Nodup, List.pairwise_map] at hkeys
    refine hkeys.imp ?_
    intro x y hne p hp hq
    obtain ⟨u, -, rfl⟩ := List.mem_map.mp hp
    obtain ⟨v, -, heq⟩ := List.mem_map.mp hq
    exact hne (Prod.mk.inj heq).1.symm

/-- The keys and indices that have an entry. -/
def indices (m : Std.TreeMap α (List β) cmp) : List (α × Nat) :=
  m.toList.flatMap fun group =>
    (List.range group.2.length).map fun i => (group.1, i)

theorem indices_nodup (m : Std.TreeMap α (List β) cmp) : (indices m).Nodup :=
  nodup_flatMap_tagged (keys_nodup m) fun _ _ => List.nodup_range

theorem mem_indices {m : Std.TreeMap α (List β) cmp} {key : α} {i : Nat} :
    (key, i) ∈ indices m ↔ entry m key i ≠ none := by
  simp only [indices, List.mem_flatMap, List.mem_map, List.mem_range,
    Prod.mk.injEq, Prod.exists, Std.TreeMap.mem_toList_iff_getElem?_eq_some]
  constructor
  · rintro ⟨key', xs, hxs, i', hi, rfl, rfl⟩
    rw [entry_eq hxs, List.getElem?_eq_getElem hi]
    simp
  · intro hne
    cases hxs : m[key]? with
    | none => exact absurd (entry_eq_none hxs i) hne
    | some xs =>
        rw [entry_eq hxs, ne_eq, List.getElem?_eq_none_iff, Nat.not_le] at hne
        exact ⟨key, xs, hxs, i, hne, rfl, rfl⟩

/-- The entries in the order in which a walk through all vectors finds them. -/
theorem map_indices (m : Std.TreeMap α (List β) cmp) :
    (indices m).map (fun index => entry m index.1 index.2) =
      m.toList.flatMap fun group => group.2.map some := by
  rw [indices, List.map_flatMap]
  refine List.flatMap_congr ?_
  rintro ⟨key, xs⟩ hmem
  rw [Std.TreeMap.mem_toList_iff_getElem?_eq_some] at hmem
  rw [List.map_map]
  refine List.ext_getElem (by simp) ?_
  intro i hi _
  have hlt : i < xs.length := by simpa using hi
  simp [entry_eq hmem, hlt]

end Orkhestra.Verified.VectorMap
