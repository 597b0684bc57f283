import Orkhestra.Ports.RunSetup
import Orkhestra.Ports.ScheduleLinks

/-!
# Freeing a run

What `FreeMemoryBlocks` does: the inputs of the nodes that have run give their
blocks back, then every link hands the block and the size of its output to its
target, and then the outputs that are left give theirs back.

`Transferable` says what the links have to be for that: one target each, an
empty slot of its own.
-/

namespace Orkhestra.Ports.MemoryRelease

open Orkhestra.Verified.Checked
open Orkhestra.Verified.Ownership
open Orkhestra.Verified.VectorMap
open Orkhestra.Ports.QuerySchedulingData
open Orkhestra.Ports.NodeScheduler
open Orkhestra.Ports.ScheduleLinks
open Orkhestra.Ports.QueryManager
open Orkhestra.Ports.RunSetup

/-! ## Inputs -/

theorem freeBlocks_eq (m : MemoryManager) (blocks : List (Option Block)) :
    freeBlocks m blocks = { m with
      availableMemoryBlocks := giveBack blocks m.availableMemoryBlocks } := by
  induction blocks generalizing m with
  | nil => rfl
  | cons block blocks ih =>
      cases block with
      | none => exact ih m
      | some block => exact ih (freeMemoryBlock m block)

section Inputs

variable {s s' : RunData} {names : List String} {name : String}

theorem freeInputBlocks_conserved
    (h : BlocksConserved s.inputMemoryBlocks s.outputMemoryBlocks s.memory) :
    BlocksConserved (freeInputBlocks s name).inputMemoryBlocks
      (freeInputBlocks s name).outputMemoryBlocks
      (freeInputBlocks s name).memory := by
  let blocks := s.inputMemoryBlocks[name]?.getD []
  let slots := (List.range blocks.length).map (Slot.input name)
  have hnodup : slots.Nodup :=
    List.nodup_range.map fun _ _ heq => (Slot.input.inj heq).2
  have hheld : slots.map (holds s.inputMemoryBlocks s.outputMemoryBlocks) =
      blocks := by
    refine List.ext_getElem (by simp [slots]) ?_
    intro i hi _
    have hlt : i < blocks.length := by simpa [slots] using hi
    have hentry : entry s.inputMemoryBlocks name i = some blocks[i] :=
      List.getElem?_eq_getElem hlt
    simp [slots, holds, hentry]
  have key := Conserved.giveBack hnodup h
  rw [hheld] at key
  unfold BlocksConserved freeInputBlocks
  rw [freeBlocks_eq]
  refine key.congr ?_
  intro slot
  cases slot with
  | output name' i => simp [slots, holds]
  | input name' i =>
      simp only [holds, entry_erase]
      by_cases hname : name' = name
      · subst hname
        rw [if_pos rfl]
        by_cases hi : i < blocks.length
        · rw [if_pos (by simp [slots, hi])]
          rfl
        · have hnone : entry s.inputMemoryBlocks name' i = none :=
            List.getElem?_eq_none (Nat.le_of_not_lt hi)
          rw [hnone]
          split <;> rfl
      · rw [if_neg hname, if_neg]
        simp only [slots, List.mem_map, Slot.input.injEq]
        rintro ⟨_, -, heq, -⟩
        exact hname heq.symm

/-- The inputs under `names` are freed. -/
structure InputsFreed (names : List String) (s s' : RunData) : Prop where
  heap : s'.heap = s.heap
  outputs : s'.outputMemoryBlocks = s.outputMemoryBlocks
  output_sizes : s'.outputStreamSizes = s.outputStreamSizes
  inputs : ∀ name : String, s'.inputMemoryBlocks[name]? =
    if name ∈ names then none else s.inputMemoryBlocks[name]?
  input_sizes : ∀ name : String, s'.inputStreamSizes[name]? =
    if name ∈ names then none else s.inputStreamSizes[name]?
  conserved : BlocksConserved s.inputMemoryBlocks s.outputMemoryBlocks
    s.memory → BlocksConserved s'.inputMemoryBlocks s'.outputMemoryBlocks
      s'.memory

theorem inputsFreed (names : List String) (s : RunData) :
    InputsFreed names s (names.foldl freeInputBlocks s) := by
  induction names generalizing s with
  | nil => exact ⟨rfl, rfl, rfl, by simp, by simp, fun h => h⟩
  | cons name names ih =>
      have hrest := ih (freeInputBlocks s name)
      rw [List.foldl_cons]
      refine ⟨hrest.heap, hrest.outputs, hrest.output_sizes, ?_, ?_, ?_⟩
      · intro name'
        rw [hrest.inputs, freeInputBlocks, getElem?_erase]
        by_cases hmem : name' ∈ names
        · simp [hmem]
        · by_cases hname : name' = name
          · simp [hname]
          · simp [hmem, hname]
      · intro name'
        rw [hrest.input_sizes, freeInputBlocks, getElem?_erase]
        by_cases hmem : name' ∈ names
        · simp [hmem]
        · by_cases hname : name' = name
          · simp [hname]
          · simp [hmem, hname]
      · intro h
        exact hrest.conserved (freeInputBlocks_conserved h)

end Inputs

/-! ## One link -/

/-- The same names have vectors of the same lengths. -/
def SameShape {β γ : Type} (m : Std.TreeMap String (List β))
    (m' : Std.TreeMap String (List γ)) : Prop :=
  ∀ name : String, m'[name]?.map List.length = m[name]?.map List.length

theorem SameShape.trans {β γ δ : Type} {m : Std.TreeMap String (List β)}
    {m' : Std.TreeMap String (List γ)} {m'' : Std.TreeMap String (List δ)}
    (h : SameShape m m') (h' : SameShape m' m'') : SameShape m m'' :=
  fun name => (h' name).trans (h name)

theorem SameShape.entry_ne_none {β γ : Type}
    {m : Std.TreeMap String (List β)} {m' : Std.TreeMap String (List γ)} (h : SameShape m m') {name : String}
    {i : Nat} (hne : entry m name i ≠ none) : entry m' name i ≠ none := by
  have hname := h name
  unfold entry at hne ⊢
  cases hm : m[name]? with
  | none => simp [hm] at hne
  | some xs =>
      rw [hm, Option.map_some, Option.map_eq_some_iff] at hname
      obtain ⟨ys, hys, hlen⟩ := hname
      rw [hm, Option.getD_some, ne_eq, List.getElem?_eq_none_iff] at hne
      rw [hys, Option.getD_some, ne_eq, List.getElem?_eq_none_iff, hlen]
      exact hne

/-- Writing to a vector that is there. -/
theorem sameShape_insert_set {β : Type} {m : Std.TreeMap String (List β)}
    {name : String} {i : Nat} (hne : entry m name i ≠ none) (x : β) :
    SameShape m (m.insert name ((m[name]?.getD []).set i x)) := by
  intro name'
  rw [getElem?_insert]
  split
  · next heq =>
      subst heq
      cases hm : m[name']? with
      | none => exact absurd (entry_eq_none hm i) hne
      | some xs => simp
  · rfl

theorem entry_insert_set {β : Type} {m : Std.TreeMap String (List β)}
    {name : String} {i : Nat} (hne : entry m name i ≠ none) (x : β)
    (name' : String) (i' : Nat) :
    entry (m.insert name ((m[name]?.getD []).set i x)) name' i' =
      if (name', i') = (name, i) then some x else entry m name' i' := by
  obtain ⟨y, hy⟩ := Option.ne_none_iff_exists'.mp hne
  have hlt := (List.getElem?_eq_some_iff.mp hy).1
  rw [entry_insert]
  by_cases hname : name' = name
  · subst hname
    rw [if_pos rfl]
    by_cases hi : i' = i
    · subst hi
      rw [List.getElem?_set_self hlt, if_pos rfl]
    · rw [List.getElem?_set_ne (Ne.symm hi), if_neg (by simp [hi])]
      rfl
  · rw [if_neg hname, if_neg (by simp [hname])]

/-- The block and the size of `output` are handed to `target`. -/
structure MovesOutput (output target : String × Nat) (s s' : RunData) :
    Prop where
  heap : s'.heap = s.heap
  memory : s'.memory = s.memory
  output_sizes : s'.outputStreamSizes = s.outputStreamSizes
  outputs : ∀ name k, entry s'.outputMemoryBlocks name k =
    if (name, k) = output then some none else entry s.outputMemoryBlocks name k
  inputs : ∀ name m, entry s'.inputMemoryBlocks name m =
    if (name, m) = target then entry s.outputMemoryBlocks output.1 output.2
    else entry s.inputMemoryBlocks name m
  input_sizes : ∀ name m, entry s'.inputStreamSizes name m =
    if (name, m) = target then entry s.outputStreamSizes output.1 output.2
    else entry s.inputStreamSizes name m
  inputs_shape : SameShape s.inputMemoryBlocks s'.inputMemoryBlocks
  input_sizes_shape : SameShape s.inputStreamSizes s'.inputStreamSizes

section Move

variable {s s' : RunData} {output target : String × Nat}

theorem moveOutput_total
    (hblock : entry s.outputMemoryBlocks output.1 output.2 ≠ none)
    (hsize : entry s.outputStreamSizes output.1 output.2 ≠ none)
    (htarget : entry s.inputMemoryBlocks target.1 target.2 ≠ none)
    (htargetSize : entry s.inputStreamSizes target.1 target.2 ≠ none) :
    ∃ s', moveOutput s output.1 output.2 target = .ok s' ∧
      MovesOutput output target s s' := by
  have hlt : ∀ {β : Type} {m : Std.TreeMap String (List β)} {name : String}
      {i : Nat}, entry m name i ≠ none → i < (m[name]?.getD []).length := by
    intro β m name i hne
    obtain ⟨y, hy⟩ := Option.ne_none_iff_exists'.mp hne
    exact (List.getElem?_eq_some_iff.mp hy).1
  obtain ⟨block, hblockEq⟩ := Option.ne_none_iff_exists'.mp hblock
  obtain ⟨size, hsizeEq⟩ := Option.ne_none_iff_exists'.mp hsize
  have hreadBlock : readAt (s.outputMemoryBlocks[output.1]?.getD []) output.2 =
      .ok block := readAt_eq_ok.mpr hblockEq
  have hreadSize : readAt (s.outputStreamSizes[output.1]?.getD []) output.2 =
      .ok size := readAt_eq_ok.mpr hsizeEq
  unfold moveOutput setInput
  dsimp only
  rw [hreadBlock, ok_bind, writeAt, if_pos (hlt hblock), ok_bind, hreadSize,
    ok_bind, writeAt, if_pos (hlt htarget), ok_bind, writeAt,
    if_pos (hlt htargetSize), ok_bind]
  refine ⟨_, rfl, rfl, rfl, rfl, ?_, ?_, ?_, ?_, ?_⟩
  · exact entry_insert_set hblock none
  · rw [hblockEq]
    exact entry_insert_set htarget block
  · rw [hsizeEq]
    exact entry_insert_set htargetSize size
  · exact sameShape_insert_set htarget block
  · exact sameShape_insert_set htargetSize size

theorem MovesOutput.conserved (h : MovesOutput output target s s') {b : Block}
    (hblock : entry s.outputMemoryBlocks output.1 output.2 = some (some b))
    (htarget : entry s.inputMemoryBlocks target.1 target.2 = some none)
    (hconserved : BlocksConserved s.inputMemoryBlocks s.outputMemoryBlocks
      s.memory) :
    BlocksConserved s'.inputMemoryBlocks s'.outputMemoryBlocks s'.memory := by
  have key := Conserved.move hconserved
    (p := .output output.1 output.2) (q := .input target.1 target.2)
    (by rw [holds, hblock]; rfl) (by rw [holds, htarget]; rfl)
  unfold BlocksConserved
  rw [h.memory]
  refine key.congr ?_
  intro slot
  cases slot with
  | input name i =>
      by_cases heq : (name, i) = target
      · subst heq
        rw [Function.update_self, holds, h.inputs, if_pos rfl, hblock]
        rfl
      · rw [Function.update_of_ne (by
            rintro ⟨rfl, rfl⟩
            exact heq rfl),
          Function.update_of_ne (by simp), holds, h.inputs, if_neg heq]
        rfl
  | output name i =>
      rw [Function.update_of_ne (by simp)]
      by_cases heq : (name, i) = output
      · subst heq
        rw [Function.update_self, holds, h.outputs, if_pos rfl]
        rfl
      · rw [Function.update_of_ne (by
            rintro ⟨rfl, rfl⟩
            exact heq rfl), holds, h.outputs, if_neg heq]
        rfl

end Move

/-! ## All links -/

/-- The outputs that are reused and their targets. -/
def transfers (links : LinkedNodes) :
    List ((String × Nat) × List (String × Nat)) :=
  links.toList.flatMap fun group =>
    group.2.toList.map fun link => ((group.1, link.1), link.2)

theorem mem_transfers {links : LinkedNodes} {name : String} {k : Nat}
    {targets : List (String × Nat)} :
    ((name, k), targets) ∈ transfers links ↔
      linkedTargets links name k = some targets := by
  simp only [transfers, List.mem_flatMap, List.mem_map, Prod.mk.injEq,
    Prod.exists, Std.TreeMap.mem_toList_iff_getElem?_eq_some, linkedTargets,
    Option.bind_eq_some_iff]
  constructor
  · rintro ⟨name', group, hgroup, k', targets', hlink, ⟨rfl, rfl⟩, rfl⟩
    exact ⟨group, hgroup, hlink⟩
  · rintro ⟨group, hgroup, hlink⟩
    exact ⟨name, group, hgroup, k, targets, hlink, ⟨rfl, rfl⟩, rfl⟩

/-- No output is reused twice. -/
theorem transfers_nodup (links : LinkedNodes) :
    ((transfers links).map (·.1)).Nodup := by
  have key : (links.toList.flatMap fun group =>
      (group.2.toList.map (·.1)).map fun k => (group.1, k)).Nodup :=
    nodup_flatMap_tagged (keys_nodup links) fun group _ => keys_nodup group.2
  rw [transfers, List.map_flatMap]
  simpa only [List.map_map, Function.comp_def] using key

/-- Both loops in one. -/
theorem reuseOutputs_eq (s : RunData) (links : LinkedNodes) :
    reuseOutputs s links = (transfers links).foldlM (fun s transfer =>
      reuseOutput transfer.1.1 s (transfer.1.2, transfer.2)) s := by
  unfold reuseOutputs transfers
  generalize links.toList = groups
  induction groups generalizing s with
  | nil => rfl
  | cons group groups ih =>
      rw [List.foldlM_cons, List.flatMap_cons, List.foldlM_append,
        List.foldlM_map]
      congr 1
      funext s
      exact ih s

/-- Each link takes the block of its output to an empty slot of its own. -/
structure Transferable (s : RunData) (links : LinkedNodes) : Prop where
  ready : ∀ output targets, (output, targets) ∈ transfers links →
    ∃ target block, targets = [target] ∧
      entry s.outputMemoryBlocks output.1 output.2 = some (some block) ∧
      entry s.outputStreamSizes output.1 output.2 ≠ none ∧
      entry s.inputMemoryBlocks target.1 target.2 = some none ∧
      entry s.inputStreamSizes target.1 target.2 ≠ none
  targets_differ : ∀ x ∈ transfers links, ∀ y ∈ transfers links,
    x.2 = y.2 → x.1 = y.1

/-- The links `done` have been used. -/
structure Transferred (s : RunData)
    (done : List ((String × Nat) × List (String × Nat))) (s' : RunData) :
    Prop where
  heap : s'.heap = s.heap
  outputs_kept : ∀ name k, (name, k) ∉ done.map (·.1) →
    entry s'.outputMemoryBlocks name k = entry s.outputMemoryBlocks name k
  output_sizes : s'.outputStreamSizes = s.outputStreamSizes
  moved : ∀ output target, (output, [target]) ∈ done →
    entry s'.inputMemoryBlocks target.1 target.2 =
      entry s.outputMemoryBlocks output.1 output.2 ∧
    entry s'.inputStreamSizes target.1 target.2 =
      entry s.outputStreamSizes output.1 output.2
  inputs_kept : ∀ name m, (∀ x ∈ done, x.2 ≠ [(name, m)]) →
    entry s'.inputMemoryBlocks name m = entry s.inputMemoryBlocks name m ∧
      entry s'.inputStreamSizes name m = entry s.inputStreamSizes name m
  inputs_shape : SameShape s.inputMemoryBlocks s'.inputMemoryBlocks
  input_sizes_shape : SameShape s.inputStreamSizes s'.inputStreamSizes
  conserved : BlocksConserved s.inputMemoryBlocks s.outputMemoryBlocks
    s.memory → BlocksConserved s'.inputMemoryBlocks s'.outputMemoryBlocks
      s'.memory

section Transfer

variable {s s' s'' : RunData} {links : LinkedNodes}
  {done : List ((String × Nat) × List (String × Nat))}
  {output target : String × Nat}

theorem Transferred.initial (s : RunData) : Transferred s [] s := by
  refine ⟨rfl, fun _ _ _ => rfl, rfl, by simp, fun _ _ _ => ⟨rfl, rfl⟩,
    fun _ => rfl, fun _ => rfl, fun h => h⟩

/-- One more link. -/
theorem Transferred.step (hs : Transferred s done s')
    (hmoves : MovesOutput output target s' s'') {b : Block}
    (hnew : output ∉ done.map (·.1)) (htarget : ∀ x ∈ done, x.2 ≠ [target])
    (hblock : entry s.outputMemoryBlocks output.1 output.2 = some (some b))
    (hempty : entry s.inputMemoryBlocks target.1 target.2 = some none) :
    Transferred s (done ++ [(output, [target])]) s'' := by
  have hblockNow := (hs.outputs_kept output.1 output.2 hnew).trans hblock
  have hemptyNow := (hs.inputs_kept target.1 target.2 htarget).1.trans hempty
  refine ⟨hmoves.heap.trans hs.heap, ?_,
    hmoves.output_sizes.trans hs.output_sizes, ?_, ?_,
    hs.inputs_shape.trans hmoves.inputs_shape,
    hs.input_sizes_shape.trans hmoves.input_sizes_shape,
    fun h => hmoves.conserved hblockNow hemptyNow (hs.conserved h)⟩
  · intro name k hk
    rw [List.map_append, List.mem_append, not_or] at hk
    rw [hmoves.outputs, if_neg fun heq => hk.2 (by simp [heq])]
    exact hs.outputs_kept name k hk.1
  · intro output' target' hmem
    rw [hmoves.inputs, hmoves.input_sizes]
    rcases List.mem_append.mp hmem with hmem | hmem
    · have hne : (target'.1, target'.2) ≠ target :=
        fun heq => htarget (output', [target']) hmem (by rw [← heq])
      rw [if_neg hne, if_neg hne]
      exact hs.moved output' target' hmem
    · rw [List.mem_singleton, Prod.mk.injEq, List.singleton_inj] at hmem
      obtain ⟨rfl, rfl⟩ := hmem
      rw [if_pos rfl, if_pos rfl, hs.output_sizes]
      exact ⟨hs.outputs_kept _ _ hnew, rfl⟩
  · intro name m hall
    have hne : (name, m) ≠ target := by
      rintro rfl
      exact hall (output, [(name, m)]) (by simp) rfl
    rw [hmoves.inputs, hmoves.input_sizes, if_neg hne, if_neg hne]
    exact hs.inputs_kept name m
      fun x hx => hall x (List.mem_append_left _ hx)

theorem transferred_of_run (ht : Transferable s links) :
    ∃ s', reuseOutputs s links = .ok s' ∧
      Transferred s (transfers links) s' := by
  rw [reuseOutputs_eq]
  refine foldlM_total (Transferred s) (transfers links)
    (Transferred.initial s) ?_
  rintro before ⟨output, targets⟩ after s' hsplit hs
  have hmem : (output, targets) ∈ transfers links := by simp [hsplit]
  obtain ⟨target, block, rfl, hblock, hsize, hempty, htargetSize⟩ :=
    ht.ready output targets hmem
  have hnew : output ∉ before.map (·.1) := by
    have hnodup := transfers_nodup links
    rw [hsplit, List.map_append, List.nodup_append] at hnodup
    exact fun hin => hnodup.2.2 output hin output (by simp) rfl
  have htarget : ∀ x ∈ before, x.2 ≠ [target] := by
    intro x hx heq
    refine hnew (List.mem_map.mpr ⟨x, hx, ?_⟩)
    exact ht.targets_differ x (by simp [hsplit, hx]) _ hmem heq
  have htotal : ∃ s'', moveOutput s' output.1 output.2 target = .ok s'' ∧
      MovesOutput output target s' s'' := by
    refine moveOutput_total ?_ ?_ ?_ ?_
    · rw [hs.outputs_kept _ _ hnew, hblock]
      simp
    · rw [hs.output_sizes]
      exact hsize
    · rw [(hs.inputs_kept _ _ htarget).1, hempty]
      simp
    · rw [(hs.inputs_kept _ _ htarget).2]
      exact htargetSize
  obtain ⟨s'', hrun, hmoves⟩ := htotal
  exact ⟨s'', hrun, hs.step hmoves hnew htarget hblock hempty⟩

end Transfer

/-! ## Outputs -/

/-- The outputs that are left give their blocks back. -/
theorem freeOutputs_conserved {s : RunData}
    (h : BlocksConserved s.inputMemoryBlocks s.outputMemoryBlocks s.memory) :
    BlocksConserved s.inputMemoryBlocks ∅
      (s.outputMemoryBlocks.toList.foldl
        (fun memory group => freeBlocks memory group.2) s.memory) := by
  let slots := (indices s.outputMemoryBlocks).map fun index =>
    Slot.output index.1 index.2
  have hnodup : slots.Nodup :=
    (indices_nodup s.outputMemoryBlocks).map fun x y heq =>
      Prod.ext (Slot.output.inj heq).1 (Slot.output.inj heq).2
  have hheld : slots.map (holds s.inputMemoryBlocks s.outputMemoryBlocks) =
      s.outputMemoryBlocks.toList.flatMap (·.2) := by
    have key := congrArg (List.map Option.join)
      (map_indices s.outputMemoryBlocks)
    simpa [slots, holds, List.map_flatMap, Function.comp_def] using key
  have hfreed : ∀ (groups : List (String × List (Option Block)))
      (m : MemoryManager),
      groups.foldl (fun memory group => freeBlocks memory group.2) m = { m with
        availableMemoryBlocks :=
          giveBack (groups.flatMap (·.2)) m.availableMemoryBlocks } := by
    intro groups
    induction groups with
    | nil => exact fun _ => rfl
    | cons group groups ih =>
        intro m
        rw [List.foldl_cons, ih, freeBlocks_eq, List.flatMap_cons,
          giveBack_append]
  have key := Conserved.giveBack hnodup h
  rw [hheld] at key
  unfold BlocksConserved
  rw [hfreed]
  refine key.congr ?_
  intro slot
  cases slot with
  | input name i => simp [slots, holds]
  | output name i =>
      have hgone : holds s.inputMemoryBlocks ∅ (.output name i) = none := by
        rw [holds, entry_eq_none (by simp)]
        rfl
      rw [hgone]
      split
      · rfl
      · next hnot =>
          have hnone : entry s.outputMemoryBlocks name i = none := by
            by_contra hne
            exact hnot (List.mem_map.mpr
              ⟨(name, i), mem_indices.mpr hne, rfl⟩)
          rw [holds, hnone]
          rfl

/-! ## The whole function -/

/-- The run whose nodes have the names `names` is freed. -/
structure Released (s : RunData) (links : LinkedNodes) (names : List String)
    (s' : RunData) : Prop where
  heap : s'.heap = s.heap
  outputs : s'.outputMemoryBlocks = ∅
  output_sizes : s'.outputStreamSizes = ∅
  moved : ∀ output target, (output, [target]) ∈ transfers links →
    entry s'.inputMemoryBlocks target.1 target.2 =
      entry s.outputMemoryBlocks output.1 output.2 ∧
    entry s'.inputStreamSizes target.1 target.2 =
      entry s.outputStreamSizes output.1 output.2
  inputs_kept : ∀ name m, (∀ x ∈ transfers links, x.2 ≠ [(name, m)]) →
    entry s'.inputMemoryBlocks name m =
      (if name ∈ names then none else entry s.inputMemoryBlocks name m) ∧
    entry s'.inputStreamSizes name m =
      (if name ∈ names then none else entry s.inputStreamSizes name m)
  inputs_length : ∀ name : String,
    s'.inputMemoryBlocks[name]?.map List.length =
      if name ∈ names then none
      else s.inputMemoryBlocks[name]?.map List.length
  input_sizes_length : ∀ name : String,
    s'.inputStreamSizes[name]?.map List.length =
      if name ∈ names then none
      else s.inputStreamSizes[name]?.map List.length
  conserved : BlocksConserved s.inputMemoryBlocks s.outputMemoryBlocks
    s.memory → BlocksConserved s'.inputMemoryBlocks s'.outputMemoryBlocks
      s'.memory

section Release

variable {s s' : RunData} {links : LinkedNodes} {names : List String}

theorem InputsFreed.entries (hs : InputsFreed names s s') (name : String)
    (m : Nat) : entry s'.inputMemoryBlocks name m =
      (if name ∈ names then none else entry s.inputMemoryBlocks name m) ∧
    entry s'.inputStreamSizes name m =
      (if name ∈ names then none else entry s.inputStreamSizes name m) := by
  unfold entry
  rw [hs.inputs, hs.input_sizes]
  constructor <;> split <;> simp

theorem InputsFreed.transferable (hs : InputsFreed names s s')
    (ht : Transferable s links)
    (hnames : ∀ output target, (output, [target]) ∈ transfers links →
      target.1 ∉ names) : Transferable s' links := by
  refine ⟨?_, ht.targets_differ⟩
  intro output targets hmem
  obtain ⟨target, block, rfl, hblock, hsize, hempty, htargetSize⟩ :=
    ht.ready output targets hmem
  have hnot := hnames output target hmem
  obtain ⟨hinput, hinputSize⟩ := hs.entries target.1 target.2
  rw [if_neg hnot] at hinput hinputSize
  refine ⟨target, block, rfl, ?_, ?_, ?_, ?_⟩
  · rw [hs.outputs, hblock]
  · rw [hs.output_sizes]
    exact hsize
  · rw [hinput, hempty]
  · rw [hinputSize]
    exact htargetSize

theorem released_of_run (ht : Transferable s links)
    (hnames : ∀ output target, (output, [target]) ∈ transfers links →
      target.1 ∉ names) :
    ∃ s', freeMemoryBlocks s links names = .ok s' ∧
      Released s links names s' := by
  have hfreed := inputsFreed names s
  obtain ⟨r, hrun, hr⟩ :=
    transferred_of_run (hfreed.transferable ht hnames)
  unfold freeMemoryBlocks
  dsimp only
  rw [hrun, ok_bind]
  refine ⟨_, rfl, hr.heap.trans hfreed.heap, rfl, rfl, ?_, ?_, ?_, ?_, ?_⟩
  · intro output target hmem
    rw [← hfreed.outputs, ← hfreed.output_sizes]
    exact hr.moved output target hmem
  · intro name m hall
    obtain ⟨hblocks, hsizes⟩ := hr.inputs_kept name m hall
    obtain ⟨hinput, hinputSize⟩ := hfreed.entries name m
    exact ⟨hblocks.trans hinput, hsizes.trans hinputSize⟩
  · intro name
    rw [hr.inputs_shape name, hfreed.inputs]
    split <;> rfl
  · intro name
    rw [hr.input_sizes_shape name, hfreed.input_sizes]
    split <;> rfl
  · intro h
    have hafter := freeOutputs_conserved (hr.conserved (hfreed.conserved h))
    exact hafter

end Release

end Orkhestra.Ports.MemoryRelease
