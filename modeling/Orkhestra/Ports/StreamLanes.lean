import Orkhestra.Ports.RunSetup
import Mathlib.Algebra.Ring.Nat

/-!
# Ids follow lanes

How many ids a run needs, and what its ids say about its streams.  The counts
that the accelerator returns are filed under ids, so `ProcessResults` gives each
memory-backed output its own count exactly because no two of them are in one
lane.
-/

namespace Orkhestra.Ports.StreamLanes

open Orkhestra.Verified.Checked
open Orkhestra.Verified.Lane
open Orkhestra.Verified.VectorMap
open Orkhestra.Ports.QuerySchedulingData
open Orkhestra.Ports.NodeScheduler
open Orkhestra.Ports.IDManager
open Orkhestra.Ports.QueryManager
open Orkhestra.Ports.RunSetup

/-! ## Demand -/

section Demand

variable {h : Heap} {nodes : List NodeId} {n : NodeId}

/-- Inputs without a producer in the run. -/
def unfedInputs (h : Heap) (nodes : List NodeId) (n : NodeId) : List Nat :=
  (List.range (h n).inputDataDefinitionFiles.length).filter fun m =>
    match (h n).previousNodes[m]? with
    | some (some a) => !nodes.contains a
    | _ => true

/-- The number of ids that a run needs: one for each input without a producer
in the run and one for each output whose index is no index of an input. -/
def idDemand (h : Heap) (nodes : List NodeId) : Nat :=
  (nodes.map fun n => (unfedInputs h nodes n).length +
    ((h n).outputDataDefinitionFiles.length -
      (h n).inputDataDefinitionFiles.length)).sum

theorem freeInputs_eq_unfedInputs (hp : Pipeline h nodes) (hn : n ∈ nodes) :
    freeInputs (h n) (h n).inputDataDefinitionFiles.length =
      unfedInputs h nodes n := by
  refine List.filter_congr ?_
  intro m hm
  rw [List.mem_range, ← hp.inputs n hn] at hm
  have hget := List.getElem?_eq_getElem hm
  cases hpointer : (h n).previousNodes[m] with
  | none => simp [hget, hpointer]
  | some a =>
      have ha := hp.previous_mem hn (List.mem_of_getElem? (hpointer ▸ hget))
      simp [hget, hpointer, ha]

theorem heads_flatMap_length (hp : Pipeline h nodes) :
    (nodes.flatMap (heads h)).length = idDemand h nodes := by
  rw [List.length_flatMap, idDemand]
  congr 1
  refine List.map_congr_left ?_
  intro n hn
  rw [heads_length, freeInputs_eq_unfedInputs hp hn, leftoverOutputs,
    List.length_range']

end Demand

/-! ## Streams in memory -/

/-- A stream that is read from memory or written to memory: its other end is not
in the run. -/
def MemoryBacked (h : Heap) (nodes : List NodeId) : Port → Prop
  | .input n m => ∀ a ∈ nodes, (h n).previousNodes[m]? ≠ some (some a)
  | .output n k => ∀ b ∈ nodes, (h n).nextNodes[k]? ≠ some (some b)

section Memory

variable {h : Heap} {nodes : List NodeId} {n n' : NodeId} {i i' : Nat}
  {s : StreamIds}

theorem unfed_mem_heads (hp : Pipeline h nodes)
    (hvalid : (Port.input n i).Valid h nodes)
    (hmemory : MemoryBacked h nodes (.input n i)) :
    .input n i ∈ nodes.flatMap (heads h) := by
  obtain ⟨hn, hi⟩ := hvalid
  refine List.mem_flatMap.mpr ⟨n, hn, List.mem_append_left _ ?_⟩
  rw [freeInputs_eq_unfedInputs hp hn]
  refine List.mem_map_of_mem ?_
  rw [unfedInputs, List.mem_filter, List.mem_range]
  refine ⟨hi, ?_⟩
  split
  · next a ha =>
      have hnot : a ∉ nodes := fun hmem => hmemory a hmem ha
      simpa using hnot
  · rfl

theorem memoryBacked_input_unique (hp : Pipeline h nodes)
    (hs : Allocated h nodes s) (hv : (Port.input n i).Valid h nodes)
    (hv' : (Port.input n' i').Valid h nodes)
    (hm : MemoryBacked h nodes (.input n i))
    (hm' : MemoryBacked h nodes (.input n' i'))
    (heq : s.id h (.input n i) = s.id h (.input n' i')) :
    n = n' ∧ i = i' := by
  have hports := hs.head_unique (unfed_mem_heads hp hv hm)
    (unfed_mem_heads hp hv' hm') heq
  exact ⟨(Port.input.inj hports).1, (Port.input.inj hports).2⟩

/-- Lanes end at the outputs in memory. -/
theorem not_laneStep_of_memoryBacked
    (hm : MemoryBacked h nodes (.output n i)) (q : Port) :
    ¬LaneStep h nodes (.output n i) q := by
  intro hstep
  cases hstep with
  | along _ _ b _ _ hb hstream => exact hm b hb hstream.1

theorem memoryBacked_output_unique (hp : Pipeline h nodes)
    (hs : Allocated h nodes s) (hv : (Port.output n i).Valid h nodes)
    (hv' : (Port.output n' i').Valid h nodes)
    (hm : MemoryBacked h nodes (.output n i))
    (hm' : MemoryBacked h nodes (.output n' i'))
    (heq : s.id h (.output n i) = s.id h (.output n' i')) :
    n = n' ∧ i = i' := by
  have hports := ((hs.id_eq_iff hp hv hv').mp heq).eq_of_ends
    (not_laneStep_of_memoryBacked hm) (not_laneStep_of_memoryBacked hm')
  exact ⟨(Port.output.inj hports).1, (Port.output.inj hports).2⟩

end Memory

/-! ## Results -/

section Results

variable {data : DataManager} {resultSizes : List Int} {blocks : BlockMap}
  {sizes sizes' : SizeMap}

/-- The result parameters of all nodes, with the names of their nodes. -/
def filedResults (results : ResultMap) :
    List (String × StreamResultParameters) :=
  results.toList.flatMap fun entry => entry.2.map fun p => (entry.1, p)

theorem mem_filedResults {results : ResultMap} {name : String}
    {p : StreamResultParameters} : (name, p) ∈ filedResults results ↔
      ∃ params, results[name]? = some params ∧ p ∈ params := by
  simp only [filedResults, List.mem_flatMap, List.mem_map, Prod.mk.injEq,
    Prod.exists, Std.TreeMap.mem_toList_iff_getElem?_eq_some]
  constructor
  · rintro ⟨name', params, hparams, p', hp, rfl, rfl⟩
    exact ⟨params, hparams, hp⟩
  · rintro ⟨params, hparams, hp⟩
    exact ⟨name, params, hparams, p, hp, rfl, rfl⟩

/-- Both loops in one. -/
theorem processResults_eq (results : ResultMap) :
    processResults data resultSizes results blocks sizes =
      (filedResults results).foldlM (fun sizes filed =>
        processResult data resultSizes blocks filed.1 sizes filed.2) sizes := by
  unfold processResults filedResults
  generalize results.toList = entries
  induction entries generalizing sizes with
  | nil => rfl
  | cons entry entries ih =>
      rw [List.foldlM_cons, List.flatMap_cons, List.foldlM_append,
        List.foldlM_map]
      congr 1
      funext sizes
      exact ih

/-- One result writes a count to a size that is there. -/
theorem processResult_writes {name : String} {p : StreamResultParameters}
    (hrun : processResult data resultSizes blocks name sizes p = .ok sizes') :
    ∃ count size, resultSizes[p.outputId]? = some count ∧
      entry sizes name p.streamIndex = some size ∧
      sizes' = sizes.insert name
        ((sizes[name]?.getD []).set p.streamIndex (size.1, count)) := by
  simp only [processResult, bind_eq_ok, checkedAt_eq_ok, readAt_eq_ok,
    writeAt_eq_ok] at hrun
  obtain ⟨count, hcount, size, hsize, vector, ⟨-, rfl⟩, hrun⟩ := hrun
  refine ⟨count, size, hcount, hsize, ?_⟩
  split at hrun
  · obtain ⟨nodeBlocks, -, hrun⟩ := bind_eq_ok.mp hrun
    obtain ⟨block, -, hrun⟩ := bind_eq_ok.mp hrun
    split at hrun
    · obtain ⟨-, -, hrun⟩ := bind_eq_ok.mp hrun
      exact (Except.ok.inj hrun).symm
    · obtain ⟨-, -, hrun⟩ := bind_eq_ok.mp hrun
      exact (Except.ok.inj hrun).symm
  · exact (Except.ok.inj hrun).symm

/-- What one result does to the sizes. -/
theorem processResult_cases {name : String} {p : StreamResultParameters}
    (hrun : processResult data resultSizes blocks name sizes p = .ok sizes') :
    ∃ count size, resultSizes[p.outputId]? = some count ∧
      entry sizes name p.streamIndex = some size ∧
      ∀ name' k, entry sizes' name' k =
        if name' = name ∧ k = p.streamIndex then some (size.1, count)
        else entry sizes name' k := by
  obtain ⟨count, size, hcount, hsize, rfl⟩ := processResult_writes hrun
  have hlt : p.streamIndex < (sizes[name]?.getD []).length :=
    (List.getElem?_eq_some_iff.mp hsize).1
  refine ⟨count, size, hcount, hsize, ?_⟩
  intro name' k
  rw [entry_insert]
  by_cases hname : name' = name
  · subst hname
    rw [if_pos rfl]
    by_cases hk : k = p.streamIndex
    · subst hk
      rw [List.getElem?_set_self hlt, if_pos ⟨rfl, rfl⟩]
    · rw [List.getElem?_set_ne (Ne.symm hk), if_neg fun h => hk h.2]
      rfl
  · rw [if_neg hname, if_neg fun h => hname h.1]

/-- Results that are filed for one output agree on its id. -/
structure Processed (resultSizes : List Int) (sizes : SizeMap)
    (done : List (String × StreamResultParameters)) (sizes' : SizeMap) :
    Prop where
  counted : ∀ filed ∈ done, (∀ other ∈ done, other.1 = filed.1 →
      other.2.streamIndex = filed.2.streamIndex →
      other.2.outputId = filed.2.outputId) →
    ∃ count size, resultSizes[filed.2.outputId]? = some count ∧
      entry sizes filed.1 filed.2.streamIndex = some size ∧
      entry sizes' filed.1 filed.2.streamIndex = some (size.1, count)
  kept : ∀ name k, (∀ filed ∈ done, filed.1 = name →
      filed.2.streamIndex ≠ k) →
    entry sizes' name k = entry sizes name k
  recordSize : ∀ name k size, entry sizes' name k = some size →
    ∃ size₀, entry sizes name k = some size₀ ∧ size₀.1 = size.1

theorem Processed.step {done : List (String × StreamResultParameters)}
    {filed : String × StreamResultParameters} {sizes'' : SizeMap}
    (hs : Processed resultSizes sizes done sizes')
    (hrun : processResult data resultSizes blocks filed.1 sizes' filed.2 =
      .ok sizes'') : Processed resultSizes sizes (done ++ [filed]) sizes'' := by
  obtain ⟨count, size, hcount, hsize, hentry⟩ := processResult_cases hrun
  obtain ⟨size₀, hsize₀, hrecord⟩ := hs.recordSize _ _ _ hsize
  refine ⟨?_, ?_, ?_⟩
  · intro other hother hagree
    by_cases hsame : other.1 = filed.1 ∧
        other.2.streamIndex = filed.2.streamIndex
    · refine ⟨count, size₀, ?_, ?_, ?_⟩
      · rw [← hagree filed (by simp) hsame.1.symm hsame.2.symm, hcount]
      · rw [hsame.1, hsame.2, hsize₀]
      · rw [hentry, if_pos hsame, hrecord]
    · rw [hentry, if_neg hsame]
      rcases List.mem_append.mp hother with hmem | hmem
      · exact hs.counted other hmem
          fun third hthird => hagree third (List.mem_append_left _ hthird)
      · rw [List.mem_singleton.mp hmem] at hsame
        exact absurd ⟨rfl, rfl⟩ hsame
  · intro name k hall
    have hne : ¬(name = filed.1 ∧ k = filed.2.streamIndex) :=
      fun h => hall filed (by simp) h.1.symm h.2.symm
    rw [hentry, if_neg hne]
    exact hs.kept name k
      fun other hother => hall other (List.mem_append_left _ hother)
  · intro name k size' hsize'
    rw [hentry] at hsize'
    split at hsize'
    · next hsame =>
        rw [Option.some.injEq] at hsize'
        refine ⟨size₀, ?_, ?_⟩
        · rw [hsame.1, hsame.2, hsize₀]
        · rw [← hsize', hrecord]
    · exact hs.recordSize name k size' hsize'

theorem processed_of_run {results : ResultMap}
    (hrun : processResults data resultSizes results blocks sizes =
      .ok sizes') :
    Processed resultSizes sizes (filedResults results) sizes' := by
  rw [processResults_eq] at hrun
  refine foldlM_invariant (Processed resultSizes sizes) _ ?_ ?_ hrun
  · exact ⟨by simp, fun _ _ _ => rfl, fun _ _ size h => ⟨size, h, rfl⟩⟩
  · intro before filed after s s' _ hs hbody
    exact hs.step hbody

/-- The data manager does not throw when it is handed results. -/
def AcceptsResults (data : DataManager) : Prop :=
  ∀ block count filename specifications index,
    data.checkResults block count filename specifications index = .ok () ∧
      data.writeResults block count filename specifications index = .ok ()

theorem processResult_total (hdata : AcceptsResults data) {name : String}
    {p : StreamResultParameters} (hid : p.outputId < resultSizes.length)
    (hsize : entry sizes name p.streamIndex ≠ none)
    (hblock : entry blocks name p.streamIndex ≠ none) :
    ∃ sizes', processResult data resultSizes blocks name sizes p =
      .ok sizes' := by
  obtain ⟨size, hsize⟩ := Option.ne_none_iff_exists'.mp hsize
  obtain ⟨block, hblock⟩ := Option.ne_none_iff_exists'.mp hblock
  have hcount : checkedAt resultSizes p.outputId =
      .ok resultSizes[p.outputId] := by
    rw [checkedAt_eq_ok, List.getElem?_eq_getElem hid]
  have hread : readAt (sizes[name]?.getD []) p.streamIndex = .ok size :=
    readAt_eq_ok.mpr hsize
  have hlt := (List.getElem?_eq_some_iff.mp hsize).1
  unfold processResult
  rw [hcount, ok_bind]
  dsimp only
  rw [hread, ok_bind, writeAt, if_pos hlt, ok_bind]
  cases hvector : blocks[name]? with
  | none =>
      rw [entry_eq_none hvector] at hblock
      cases hblock
  | some vector =>
      rw [entry_eq hvector] at hblock
      have hat : mapAt blocks name = .ok vector := mapAt_eq_ok.mpr hvector
      have hblockAt : readAt vector p.streamIndex = .ok block :=
        readAt_eq_ok.mpr hblock
      rw [hat, ok_bind, hblockAt, ok_bind]
      obtain ⟨hcheck, hwrite⟩ := hdata block resultSizes[p.outputId] p.filename
        p.streamSpecifications p.streamIndex
      rw [hcheck, hwrite]
      split
      · split <;> exact ⟨_, rfl⟩
      · exact ⟨_, rfl⟩

theorem processResults_total (hdata : AcceptsResults data) {results : ResultMap}
    (hfiled : ∀ filed ∈ filedResults results,
      filed.2.outputId < resultSizes.length ∧
      entry sizes filed.1 filed.2.streamIndex ≠ none ∧
      entry blocks filed.1 filed.2.streamIndex ≠ none) :
    ∃ sizes', processResults data resultSizes results blocks sizes =
      .ok sizes' := by
  rw [processResults_eq]
  have key : ∃ s, (filedResults results).foldlM (fun sizes filed =>
        processResult data resultSizes blocks filed.1 sizes filed.2) sizes =
          .ok s ∧
      ∀ name k, entry sizes name k ≠ none → entry s name k ≠ none := by
    refine foldlM_total (fun _ (s : SizeMap) => ∀ name k,
      entry sizes name k ≠ none → entry s name k ≠ none)
      (filedResults results) (fun _ _ h => h) ?_
    intro before filed after s hsplit hs
    obtain ⟨hid, hsize, hblock⟩ := hfiled filed (by simp [hsplit])
    obtain ⟨s', hrun⟩ := processResult_total hdata hid (hs _ _ hsize) hblock
    obtain ⟨count, size, -, -, hentry⟩ := processResult_cases hrun
    refine ⟨s', hrun, ?_⟩
    intro name k hne
    rw [hentry]
    split
    · simp
    · exact hs name k hne
  obtain ⟨sizes', hrun, -⟩ := key
  exact ⟨sizes', hrun⟩

end Results

/-! ## Stored results -/

/-- The calls of `StoreStreamResultParameters` for the nodes of a run. -/
def storeResults (h : Heap) (outputIds : IdMap) (blocks : BlockMap)
    (nodes : List NodeId) : Outcome ResultMap :=
  nodes.foldlM (fun results n => storeStreamResultParameters results
    (outputIds[(h n).nodeName]?.getD []) (h n)
    (blocks[(h n).nodeName]?.getD [])) ∅

/-- The results of the nodes `done` are stored, for the outputs with a block. -/
structure ResultsStored (h : Heap) (outputIds : IdMap) (blocks : BlockMap)
    (done : List NodeId) (results : ResultMap) : Prop where
  stored : ∀ n ∈ done, ∃ params, results[(h n).nodeName]? = some params ∧
    Stored (outputIds[(h n).nodeName]?.getD []) (h n)
      (blocks[(h n).nodeName]?.getD [])
      (outputIds[(h n).nodeName]?.getD []).length params
  only : ∀ name, (∀ n ∈ done, (h n).nodeName ≠ name) → results[name]? = none

section Stored

variable {data : DataManager} {h : Heap} {outputIds : IdMap} {blocks : BlockMap}
  {nodes : List NodeId} {results : ResultMap} {resultSizes : List Int}
  {sizes sizes' : SizeMap}

/-- Outputs that have blocks and flags have their results stored. -/
theorem storeStreamResultParameters_total {ids : List Nat} {node : QueryNode}
    {nodeBlocks : List (Option Block)}
    (hblocks : ids.length ≤ nodeBlocks.length)
    (hfiles : ids.length ≤ node.outputDataDefinitionFiles.length)
    (hchecked : ids.length ≤ node.isChecked.length) :
    ∃ results', storeStreamResultParameters results ids node nodeBlocks =
      .ok results' := by
  have key : ∃ params, (List.range ids.length).foldlM
      (storeStreamResultParameter ids node nodeBlocks) [] = .ok params := by
    refine foldlM_returns fun i hmem params => ?_
    have hi := List.mem_range.mp hmem
    rw [storeStreamResultParameter,
      readAt_of_lt (Nat.lt_of_lt_of_le hi hblocks), ok_bind]
    cases nodeBlocks[i] with
    | none => exact ⟨_, rfl⟩
    | some block =>
        rw [readAt_of_lt hi, readAt_of_lt (Nat.lt_of_lt_of_le hi hfiles),
          readAt_of_lt (Nat.lt_of_lt_of_le hi hchecked)]
        exact ⟨_, rfl⟩
  obtain ⟨params, hparams⟩ := key
  exact ⟨_, by rw [storeStreamResultParameters, hparams, ok_bind]⟩

theorem storeResults_total
    (hids : ∀ n ∈ nodes, (outputIds[(h n).nodeName]?.getD []).length =
      (h n).outputDataDefinitionFiles.length)
    (hblocks : ∀ n ∈ nodes, (h n).outputDataDefinitionFiles.length ≤
      (blocks[(h n).nodeName]?.getD []).length)
    (hchecked : ∀ n ∈ nodes, (h n).outputDataDefinitionFiles.length ≤
      (h n).isChecked.length) :
    ∃ results, storeResults h outputIds blocks nodes = .ok results := by
  refine foldlM_returns fun n hn results => ?_
  have hlen := hids n hn
  exact storeStreamResultParameters_total
    (Nat.le_trans hlen.le (hblocks n hn)) hlen.le
    (Nat.le_trans hlen.le (hchecked n hn))

theorem resultsStored_of_run
    (hnames : (nodes.map fun n => (h n).nodeName).Nodup)
    (hrun : storeResults h outputIds blocks nodes = .ok results) :
    ResultsStored h outputIds blocks nodes results := by
  refine foldlM_invariant (ResultsStored h outputIds blocks) nodes ?_ ?_ hrun
  · exact ⟨by simp, by simp⟩
  · intro before n after results results' hsplit hs hbody
    obtain ⟨params, rfl, hstored⟩ := stored_of_run hbody
    have hnew : ∀ b ∈ before, (h b).nodeName ≠ (h n).nodeName := by
      intro b hb heq
      rw [hsplit, List.map_append, List.nodup_append] at hnames
      exact hnames.2.2 _ (List.mem_map_of_mem hb) _ (by simp) heq
    have hnone := hs.only _ hnew
    constructor
    · refine forall_mem_concat ?_ ?_
      · intro b hb
        rw [getElem?_insertIfNew_of_ne _ (hnew b hb)]
        exact hs.stored b hb
      · exact ⟨params, by rw [getElem?_insertIfNew hnone, if_pos rfl], hstored⟩
    · intro name hall
      rw [getElem?_insertIfNew_of_ne _ (hall n (by simp)).symm]
      exact hs.only name fun b hb => hall b (List.mem_append_left _ hb)

/-- Results are filed for outputs with a block. -/
theorem ResultsStored.sound
    (hs : ResultsStored h outputIds blocks nodes results) {name : String}
    {p : StreamResultParameters} (hfiled : (name, p) ∈ filedResults results) :
    (∃ n ∈ nodes, (h n).nodeName = name) ∧
      entry outputIds name p.streamIndex = some p.outputId ∧
      ∃ block, entry blocks name p.streamIndex = some (some block) := by
  obtain ⟨params, hparams, hp⟩ := mem_filedResults.mp hfiled
  have hnode : ∃ n ∈ nodes, (h n).nodeName = name := by
    by_contra hnone
    have hmissing := hs.only name fun n hn heq => hnone ⟨n, hn, heq⟩
    rw [hparams] at hmissing
    cases hmissing
  obtain ⟨n, hn, rfl⟩ := hnode
  obtain ⟨params', hparams', hstored⟩ := hs.stored n hn
  rw [hparams, Option.some.injEq] at hparams'
  subst hparams'
  obtain ⟨hid, -, hblock⟩ := hstored.sound p hp
  exact ⟨⟨n, hn, rfl⟩, hid, hblock⟩

/-- Every output with an id and a block has its result filed. -/
theorem ResultsStored.complete
    (hs : ResultsStored h outputIds blocks nodes results) {n : NodeId}
    (hn : n ∈ nodes) {k id : Nat} {block : Block}
    (hid : entry outputIds (h n).nodeName k = some id)
    (hblock : entry blocks (h n).nodeName k = some (some block)) :
    ∃ p, ((h n).nodeName, p) ∈ filedResults results ∧
      p.streamIndex = k ∧ p.outputId = id := by
  obtain ⟨params, hparams, hstored⟩ := hs.stored n hn
  have hlt := (List.getElem?_eq_some_iff.mp hid).1
  obtain ⟨p, hp, rfl⟩ := hstored.complete k hlt block hblock
  refine ⟨p, mem_filedResults.mpr ⟨params, hparams, hp⟩, rfl, ?_⟩
  exact Option.some.inj ((hstored.sound p hp).1.symm.trans hid)

/-- Each output with a block gets the count of its own id. -/
theorem ResultsStored.counted
    (hs : ResultsStored h outputIds blocks nodes results)
    (hrun : processResults data resultSizes results blocks sizes = .ok sizes')
    {n : NodeId} (hn : n ∈ nodes) {k id : Nat} {block : Block}
    (hid : entry outputIds (h n).nodeName k = some id)
    (hblock : entry blocks (h n).nodeName k = some (some block)) :
    ∃ count size, resultSizes[id]? = some count ∧
      entry sizes (h n).nodeName k = some size ∧
      entry sizes' (h n).nodeName k = some (size.1, count) := by
  obtain ⟨p, hp, rfl, rfl⟩ := hs.complete hn hid hblock
  refine (processed_of_run hrun).counted _ hp ?_
  rintro ⟨name, other⟩ hother hname hindex
  dsimp only at hname hindex ⊢
  subst hname
  obtain ⟨-, hotherId, -⟩ := hs.sound hother
  rw [hindex, hid, Option.some.injEq] at hotherId
  exact hotherId.symm

/-- Nothing else gets a count. -/
theorem ResultsStored.kept
    (hs : ResultsStored h outputIds blocks nodes results)
    (hrun : processResults data resultSizes results blocks sizes = .ok sizes')
    {name : String} {k : Nat}
    (hnot : ∀ n ∈ nodes, (h n).nodeName = name → ∀ id block,
      entry outputIds name k = some id →
      entry blocks name k ≠ some (some block)) :
    entry sizes' name k = entry sizes name k := by
  refine (processed_of_run hrun).kept name k ?_
  rintro ⟨name', p⟩ hp rfl rfl
  obtain ⟨⟨n, hn, hname⟩, hid, block, hblock⟩ := hs.sound hp
  exact hnot n hn hname _ block hid hblock

theorem ResultsStored.processResults_total
    (hs : ResultsStored h outputIds blocks nodes results)
    (hids : ∀ name k id, entry outputIds name k = some id →
      id < resultSizes.length)
    (hsizes : ∀ n ∈ nodes, ∀ k id block,
      entry outputIds (h n).nodeName k = some id →
      entry blocks (h n).nodeName k = some (some block) →
      entry sizes (h n).nodeName k ≠ none)
    (hdata : AcceptsResults data) :
    ∃ sizes', processResults data resultSizes results blocks sizes =
      .ok sizes' := by
  refine StreamLanes.processResults_total hdata ?_
  rintro ⟨name, p⟩ hp
  obtain ⟨⟨n, hn, rfl⟩, hid, block, hblock⟩ := hs.sound hp
  exact ⟨hids _ _ _ hid, hsizes n hn _ _ block hid hblock, by simp [hblock]⟩

end Stored

/-! ## Results of a run -/

section RunResults

variable {data : DataManager} {inputIds outputIds : IdMap} {r₀ : RunData}
  {nodes : List NodeId} {t : SetupState} {resultSizes : List Int}

theorem resultsStored_of_setUp
    (hs : SetUp data inputIds outputIds r₀ nodes t) :
    ResultsStored r₀.heap outputIds t.run.outputMemoryBlocks nodes
      t.resultParameters := by
  refine ⟨?_, hs.results_only⟩
  intro n hn
  obtain ⟨params, blocks, hparams, hblocks, hstored⟩ := hs.results n hn
  refine ⟨params, hparams, ?_⟩
  rw [hblocks]
  exact hstored

/-- The outputs with a block are those without a consumer. -/
theorem next_of_outputBlock (hs : SetUp data inputIds outputIds r₀ nodes t)
    (hempty : ∀ n ∈ nodes, ∀ k,
      (entry r₀.outputMemoryBlocks (r₀.heap n).nodeName k).join = none)
    {n : NodeId} (hn : n ∈ nodes) {k : Nat} {block : Block}
    (hblock : entry t.run.outputMemoryBlocks (r₀.heap n).nodeName k =
      some (some block)) :
    ∃ b ∈ nodes, (r₀.heap b).nodeName = (r₀.heap n).nodeName ∧
      (r₀.heap b).nextNodes[k]? = some none := by
  by_contra hnot
  have hkept := hs.out_kept (r₀.heap n).nodeName k
    fun b hb heq hnext => hnot ⟨b, hb, heq, hnext⟩
  have hnone := hempty n hn k
  rw [← hkept, hblock] at hnone
  cases hnone

/-- Results are filed for outputs in memory. -/
theorem filed_sound (hs : SetUp data inputIds outputIds r₀ nodes t)
    (hempty : ∀ n ∈ nodes, ∀ k,
      (entry r₀.outputMemoryBlocks (r₀.heap n).nodeName k).join = none)
    {name : String} {p : StreamResultParameters}
    (hfiled : (name, p) ∈ filedResults t.resultParameters) :
    (∃ n ∈ nodes, (r₀.heap n).nodeName = name ∧
        (r₀.heap n).nextNodes[p.streamIndex]? = some none) ∧
      entry outputIds name p.streamIndex = some p.outputId := by
  obtain ⟨⟨n, hn, rfl⟩, hid, block, hblock⟩ :=
    (resultsStored_of_setUp hs).sound hfiled
  exact ⟨next_of_outputBlock hs hempty hn hblock, hid⟩

/-- Every output in memory with an id has its result filed. -/
theorem filed_complete (hs : SetUp data inputIds outputIds r₀ nodes t)
    {n : NodeId} (hn : n ∈ nodes) {k id : Nat}
    (hnext : (r₀.heap n).nextNodes[k]? = some none)
    (hid : entry outputIds (r₀.heap n).nodeName k = some id) :
    ∃ p, ((r₀.heap n).nodeName, p) ∈ filedResults t.resultParameters ∧
      p.streamIndex = k ∧ p.outputId = id := by
  obtain ⟨block, hblock⟩ := hs.out_backed n hn k hnext
  exact (resultsStored_of_setUp hs).complete hn hid hblock

theorem processResults_of_setUp (hs : SetUp data inputIds outputIds r₀ nodes t)
    (hempty : ∀ n ∈ nodes, ∀ k,
      (entry r₀.outputMemoryBlocks (r₀.heap n).nodeName k).join = none)
    (hids : ∀ name k id, entry outputIds name k = some id →
      id < resultSizes.length)
    (hdata : AcceptsResults data) :
    ∃ sizes, processResults data resultSizes t.resultParameters
      t.run.outputMemoryBlocks t.run.outputStreamSizes = .ok sizes := by
  refine (resultsStored_of_setUp hs).processResults_total hids ?_ hdata
  intro n hn k id block hid hblock
  obtain ⟨b, hb, hname, hnext⟩ := next_of_outputBlock hs hempty hn hblock
  have hlt := (List.getElem?_eq_some_iff.mp hnext).1
  obtain ⟨recordSize, size, -, -, hsize⟩ := hs.out_sized b hb k hlt
  rw [← hname, hsize]
  exact Option.some_ne_none _

end RunResults

/-! ## A run with ids -/

section Run

variable {data : DataManager} {h : Heap} {nodes : List NodeId} {r : RunData}
  {s : StreamIds} {t : SetupState}

/-- The set-up of a run whose ids are known. -/
theorem setUp_of_allocated (hheap : (initialiseVectorSizes nodes r).heap = h)
    (hp : Pipeline h nodes)
    (halloc : allocateStreamIDs h (createReferenceVector h nodes) ∅ ∅ =
      .ok (s.inputIds, s.outputIds))
    (hrun : setupAccelerationNodesForExecution data r nodes = .ok t) :
    SetUp data s.inputIds s.outputIds (initialiseVectorSizes nodes r) nodes
      t := by
  rw [setupAccelerationNodesForExecution] at hrun
  dsimp only at hrun
  rw [hheap, halloc, ok_bind] at hrun
  refine setUp_of_run ?_ ?_ hrun
  · rw [hheap]
    exact hp.names
  · rw [hheap]
    exact hp.ordered

theorem initialised_of_fresh (hheap : (initialiseVectorSizes nodes r).heap = h)
    (hnames : (nodes.map fun n => (h n).nodeName).Nodup)
    (hfresh : ∀ n ∈ nodes, r.outputMemoryBlocks[(h n).nodeName]? = none ∧
      r.outputStreamSizes[(h n).nodeName]? = none) :
    Initialised r nodes nodes (initialiseVectorSizes nodes r) := by
  have hname : ∀ n, (r.heap n).nodeName = (h n).nodeName := by
    intro n
    rw [← hheap, initialiseVectorSizes_sameButNext nodes r n]
  refine initialised_of_run ?_ ?_
  · simpa only [hname] using hnames
  · simpa only [hname] using hfresh

/-- New output vectors hold no blocks. -/
theorem Initialised.outputs_empty {scheduled : List NodeId} {s : RunData}
    (hs : Initialised r scheduled nodes s) {n : NodeId} (hn : n ∈ nodes)
    (k : Nat) :
    (entry s.outputMemoryBlocks (s.heap n).nodeName k).join = none := by
  rw [hs.sameButNext n, entry_eq (hs.outputs n hn).1, List.getElem?_replicate]
  split <;> rfl

end Run

/-! ## Ids follow lanes -/

/-- What the ids of a run say about its streams. -/
structure FollowsLanes (h : Heap) (nodes : List NodeId) (s : StreamIds) :
    Prop where
  in_range : ∀ p, p.Valid h nodes → ∃ id < 16, s.id h p = some id
  inherited : ∀ a ∈ nodes, ∀ n ∈ nodes, ∀ k m, Stream h a k n m →
    s.id h (.input n m) = s.id h (.output a k)
  same_iff : ∀ p q, p.Valid h nodes → q.Valid h nodes →
    (s.id h p = s.id h q ↔ SameLane (LaneStep h nodes) p q)
  inputs_differ : ∀ n i n' i', (Port.input n i).Valid h nodes →
    (Port.input n' i').Valid h nodes → MemoryBacked h nodes (.input n i) →
    MemoryBacked h nodes (.input n' i') →
    s.id h (.input n i) = s.id h (.input n' i') → n = n' ∧ i = i'
  outputs_differ : ∀ n i n' i', (Port.output n i).Valid h nodes →
    (Port.output n' i').Valid h nodes → MemoryBacked h nodes (.output n i) →
    MemoryBacked h nodes (.output n' i') →
    s.id h (.output n i) = s.id h (.output n' i') → n = n' ∧ i = i'

/-- `after` is `before` with the count of each output in memory replaced by the
count that was returned under the id of that output. -/
structure CountsAttributed (h : Heap) (nodes : List NodeId) (s : StreamIds)
    (resultSizes : List Int) (before after : SizeMap) : Prop where
  counted : ∀ n k, (Port.output n k).Valid h nodes →
    MemoryBacked h nodes (.output n k) → ∃ id count size,
      s.id h (.output n k) = some id ∧ resultSizes[id]? = some count ∧
      entry before (h n).nodeName k = some size ∧
      entry after (h n).nodeName k = some (size.1, count)
  kept : ∀ name k, (∀ n, (h n).nodeName = name →
      (Port.output n k).Valid h nodes → ¬MemoryBacked h nodes (.output n k)) →
    entry after name k = entry before name k

/-- Vectors in which every output of the run has an entry, and the outputs in
memory have a block. -/
structure LongEnough (h : Heap) (nodes : List NodeId) (blocks : BlockMap)
    (sizes : SizeMap) : Prop where
  blockEntries : ∀ n ∈ nodes, (h n).outputDataDefinitionFiles.length ≤
    (blocks[(h n).nodeName]?.getD []).length
  sizeEntries : ∀ n ∈ nodes, (h n).outputDataDefinitionFiles.length ≤
    (sizes[(h n).nodeName]?.getD []).length
  isChecked : ∀ n ∈ nodes, (h n).outputDataDefinitionFiles.length ≤
    (h n).isChecked.length
  backed : ∀ n k, (Port.output n k).Valid h nodes →
    ((∃ block, entry blocks (h n).nodeName k = some (some block)) ↔
      MemoryBacked h nodes (.output n k))

section Run

variable {data : DataManager} {h : Heap} {nodes : List NodeId} {r : RunData}
  {s : StreamIds} {t : SetupState} {resultSizes : List Int}
  {results : ResultMap} {blocks : BlockMap} {sizes sizes' : SizeMap}

/-- An output with an id is an output of the run. -/
theorem valid_of_id (hs : Allocated h nodes s) {n : NodeId} (hn : n ∈ nodes)
    {k id : Nat} (hid : entry s.outputIds (h n).nodeName k = some id) :
    (Port.output n k).Valid h nodes := by
  obtain ⟨ids, hids, hlen⟩ := hs.outputs n hn
  rw [entry_eq hids] at hid
  refine ⟨hn, ?_⟩
  rw [← hlen]
  exact (List.getElem?_eq_some_iff.mp hid).1

theorem countsAttributed_of_stored (hp : Pipeline h nodes)
    (hs : Allocated h nodes s)
    (hstored : ResultsStored h s.outputIds blocks nodes results)
    (hbacked : ∀ n k, (Port.output n k).Valid h nodes →
      ((∃ block, entry blocks (h n).nodeName k = some (some block)) ↔
        MemoryBacked h nodes (.output n k)))
    (hrun : processResults data resultSizes results blocks sizes =
      .ok sizes') :
    CountsAttributed h nodes s resultSizes sizes sizes' := by
  constructor
  · intro n k hv hm
    obtain ⟨id, -, hid⟩ := hs.id_lt hp hv
    obtain ⟨block, hblock⟩ := (hbacked n k hv).mpr hm
    obtain ⟨count, size, hrest⟩ := hstored.counted hrun hv.1 hid hblock
    exact ⟨id, count, size, hid, hrest⟩
  · intro name k hall
    refine hstored.kept hrun ?_
    rintro n hn rfl id block hid hblock
    have hv := valid_of_id hs hn hid
    exact hall n rfl hv ((hbacked n k hv).mp ⟨block, hblock⟩)

/-- Vectors that are long enough have their results stored and processed. -/
theorem processed_of_longEnough (hp : Pipeline h nodes)
    (hs : Allocated h nodes s) (hids : ∀ name k id,
      entry s.outputIds name k = some id → id < resultSizes.length)
    (hlong : LongEnough h nodes blocks sizes) :
    ∃ results, storeResults h s.outputIds blocks nodes = .ok results ∧
      (AcceptsResults data → ∃ sizes', processResults data resultSizes results
        blocks sizes = .ok sizes') ∧
      ∀ sizes', processResults data resultSizes results blocks sizes =
        .ok sizes' → CountsAttributed h nodes s resultSizes sizes sizes' := by
  obtain ⟨results, hrun⟩ := storeResults_total (fun n hn => by
    obtain ⟨ids, hids, hlen⟩ := hs.outputs n hn
    rw [hids, Option.getD_some, hlen]) hlong.blockEntries
    hlong.isChecked
  have hstored := resultsStored_of_run hp.names hrun
  refine ⟨results, hrun, ?_, fun sizes' hprocess =>
    countsAttributed_of_stored hp hs hstored hlong.backed hprocess⟩
  refine hstored.processResults_total hids ?_
  intro n hn k id block hid _
  have hlt := Nat.lt_of_lt_of_le (valid_of_id hs hn hid).2 
    (hlong.sizeEntries n hn)
  rw [entry, List.getElem?_eq_getElem hlt]
  exact Option.some_ne_none _

theorem followsLanes_of_allocated (hp : Pipeline h nodes)
    (hs : Allocated h nodes s) : FollowsLanes h nodes s where
  in_range _ hv := hs.id_lt hp hv
  inherited a ha n hn k m hstream :=
    (hs.keep hp _ _ (.along a k n m ha hn hstream)).symm
  same_iff _ _ hvp hvq := hs.id_eq_iff hp hvp hvq
  inputs_differ _ _ _ _ hv hv' hm hm' heq :=
    memoryBacked_input_unique hp hs hv hv' hm hm' heq
  outputs_differ _ _ _ _ hv hv' hm hm' heq :=
    memoryBacked_output_unique hp hs hv hv' hm hm' heq

/-- An output in memory has no consumer after the set-up. -/
theorem next_eq_none_of_memoryBacked (hp : Pipeline h nodes)
    (hinit : Initialised r nodes nodes (initialiseVectorSizes nodes r))
    (hheap : (initialiseVectorSizes nodes r).heap = h) {n : NodeId} {k : Nat}
    (hv : (Port.output n k).Valid h nodes)
    (hm : MemoryBacked h nodes (.output n k)) :
    (h n).nextNodes[k]? = some none := by
  obtain ⟨hn, hk⟩ := hv
  rw [← hp.outputs n hn] at hk
  have hget := List.getElem?_eq_getElem hk
  cases hpointer : (h n).nextNodes[k] with
  | none => rw [hget, hpointer]
  | some b =>
      rw [hpointer] at hget
      have hb := List.mem_of_getElem? hget
      rw [← hheap] at hb
      exact absurd hget (hm b (hinit.next_mem hn hb))

/-- The set-up gives a block to the outputs in memory. -/
theorem backed_of_setUp (hp : Pipeline h nodes)
    (hinit : Initialised r nodes nodes (initialiseVectorSizes nodes r))
    (hheap : (initialiseVectorSizes nodes r).heap = h)
    (hup : SetUp data s.inputIds s.outputIds (initialiseVectorSizes nodes r)
      nodes t) {n : NodeId} {k : Nat} (hv : (Port.output n k).Valid h nodes) :
    (∃ block, entry t.run.outputMemoryBlocks (h n).nodeName k =
      some (some block)) ↔ MemoryBacked h nodes (.output n k) := by
  subst hheap
  constructor
  · rintro ⟨block, hblock⟩ b hb hsome
    obtain ⟨a, ha, hname, hnone⟩ := next_of_outputBlock hup
      (fun n hn => Initialised.outputs_empty hinit hn) hv.1 hblock
    obtain rfl := hp.name_injective ha hv.1 hname
    rw [hnone] at hsome
    cases hsome
  · intro hm
    exact hup.out_backed n hv.1 k
      (next_eq_none_of_memoryBacked hp hinit rfl hv hm)

end Run

/-- Ids are given out exactly when the run does not need more than 16 of them;
streams share an id exactly when they are in one lane, and each output in memory
gets the count that is returned under its own id. -/
theorem stream_ids_follow_lanes (h : Heap) (nodes : List NodeId)
    (hp : Pipeline h nodes) :
    (allocateStreamIDs h (createReferenceVector h nodes) ∅ ∅ =
        .error (.runtimeError "Out of IDs!") ↔ 16 < idDemand h nodes) ∧
    (idDemand h nodes ≤ 16 → ∃ s : StreamIds,
      allocateStreamIDs h (createReferenceVector h nodes) ∅ ∅ =
        .ok (s.inputIds, s.outputIds) ∧
      FollowsLanes h nodes s ∧
      (∀ (data : DataManager) (resultSizes : List Int) (blocks : BlockMap)
        (sizes : SizeMap), resultSizes.length = 16 →
        LongEnough h nodes blocks sizes →
        ∃ results, storeResults h s.outputIds blocks nodes = .ok results ∧
          (AcceptsResults data → ∃ sizes', processResults data resultSizes
            results blocks sizes = .ok sizes') ∧
          ∀ sizes', processResults data resultSizes results blocks sizes =
            .ok sizes' →
            CountsAttributed h nodes s resultSizes sizes sizes') ∧
      ∀ (data : DataManager) (r : RunData) (t : SetupState)
        (resultSizes : List Int),
        (initialiseVectorSizes nodes r).heap = h →
        (∀ n ∈ nodes, r.outputMemoryBlocks[(h n).nodeName]? = none ∧
          r.outputStreamSizes[(h n).nodeName]? = none) →
        setupAccelerationNodesForExecution data r nodes = .ok t →
        resultSizes.length = 16 →
        (AcceptsResults data → ∃ sizes, processResults data resultSizes
          t.resultParameters t.run.outputMemoryBlocks t.run.outputStreamSizes =
            .ok sizes) ∧
        ∀ sizes, processResults data resultSizes t.resultParameters
            t.run.outputMemoryBlocks t.run.outputStreamSizes = .ok sizes →
          CountsAttributed h nodes s resultSizes t.run.outputStreamSizes
            sizes) := by
  rcases allocateStreamIDs_cases hp with ⟨s, halloc, hs⟩ | ⟨halloc, hless⟩
  · have hbound := hs.bound
    rw [heads_flatMap_length hp] at hbound
    have hnot : ¬16 < idDemand h nodes := Nat.not_lt.mpr hbound
    have hids := (outputIds_of_run hp.names halloc).2
    refine ⟨?_, fun _ => ⟨s, halloc, followsLanes_of_allocated hp hs, ?_, ?_⟩⟩
    · simp only [halloc, hnot, reduceCtorEq]
    · intro data resultSizes blocks sizes hlen hlong
      exact processed_of_longEnough hp hs
        (fun name k id hid => hlen ▸ hids name k id hid) hlong
    · intro data r t resultSizes hheap hfresh hsetup hlen
      have hup := setUp_of_allocated hheap hp halloc hsetup
      have hinit := initialised_of_fresh hheap hp.names hfresh
      constructor
      · refine processResults_of_setUp hup
          (fun n hn => Initialised.outputs_empty hinit hn) ?_
        exact fun name k id hid => hlen ▸ hids name k id hid
      · have hstored := resultsStored_of_setUp hup
        rw [hheap] at hstored
        exact fun sizes hrun => countsAttributed_of_stored hp hs hstored
          (fun n k hv => backed_of_setUp hp hinit hheap hup hv) hrun
  · rw [heads_flatMap_length hp] at hless
    refine ⟨⟨fun _ => hless, fun _ => halloc⟩, ?_⟩
    intro hle
    omega

/-! ### A filter that feeds a join -/

/-- The nodes of a well-formed table form a run. -/
theorem pipeline_of_table {table : List QueryNode}
    (hwf : isWellFormedTable table = true)
    (hcounts : ∀ a < table.length, ∀ b < table.length,
      (tableHeap table a).nextNodes.count (some b) =
        (tableHeap table b).previousNodes.count (some a) ∧
      (tableHeap table a).nextNodes.count (some b) ≤ 1)
    (hsizes : ∀ n < table.length,
      (tableHeap table n).previousNodes.length =
        (tableHeap table n).inputDataDefinitionFiles.length ∧
      (tableHeap table n).nextNodes.length =
        (tableHeap table n).outputDataDefinitionFiles.length) :
    Pipeline (tableHeap table) (List.range table.length) := by
  have hlt : ∀ {n}, n ∈ List.range table.length → n < table.length :=
    fun hn => List.mem_range.mp hn
  have hnames := (Plan.ofTable table hwf).nameInjective
  refine ⟨?_, ?_, ?_, ?_, ?_, ?_, ?_⟩
  · exact List.Nodup.map_on hnames List.nodup_range
  · intro a ha b hb c hc
    exact hnames b ((Plan.ofTable table hwf).next_mem a ha b hb) c hc
  · intro before n after hsplit a ha
    obtain ⟨hn, hbefore⟩ := eq_length_of_range_eq hsplit
    subst hn
    have hless := (table_previous hwf hbefore ha).1
    have hget : (List.range table.length)[a]? = some a :=
      List.getElem?_range (Nat.lt_trans hless hbefore)
    rw [hsplit, List.getElem?_append_left (by omega)] at hget
    exact List.mem_of_getElem? hget
  · exact fun a ha b hb => (hcounts a (hlt ha) b (hlt hb)).1
  · exact fun a ha b hb => (hcounts a (hlt ha) b (hlt hb)).2
  · exact fun n hn => (hsizes n (hlt hn)).1
  · exact fun n hn => (hsizes n (hlt hn)).2

def filterThenJoin : List QueryNode :=
  [{ inputDataDefinitionFiles := ["cars.csv"]
     outputDataDefinitionFiles := [""]
     operationType := .kFilter
     nextNodes := [some 1]
     previousNodes := [none]
     operationParameters :=
       ⟨[[], [1], [2], [1]], [[], [1], [2], [1]], []⟩
     nodeName := "filter"
     isChecked := [false] },
   { inputDataDefinitionFiles := ["", "makers.csv"]
     outputDataDefinitionFiles := ["joined.csv"]
     operationType := .kJoin
     nextNodes := [none]
     previousNodes := [some 0, none]
     operationParameters :=
       ⟨[[], [1], [2], [1], [], [1], [3], [1]], [[], [1], [5], [1]], []⟩
     nodeName := "join"
     isChecked := [true] }]

/-- Tables of ten rows, columns as they are given. -/
def tenRows : DataManager where
  getHeaderColumnVector types sizes := .ok (types.zip sizes)
  writeDataFromCSVToMemory _ _ _ := .ok 10
  checkResults _ _ _ _ _ := .ok ()
  writeResults _ _ _ _ _ := .ok ()

/-- The count of the join is returned under the id of the filter's input. -/
theorem stream_ids_follow_lanes_filterThenJoin :
    ∃ s t sizes, allocateStreamIDs (tableHeap filterThenJoin)
        (createReferenceVector (tableHeap filterThenJoin) [0, 1]) ∅ ∅ =
          .ok (s.inputIds, s.outputIds) ∧
      FollowsLanes (tableHeap filterThenJoin) [0, 1] s ∧
      setupAccelerationNodesForExecution tenRows
        (ExecutionState.initial (tableHeap filterThenJoin)).run [0, 1] =
          .ok t ∧
      processResults tenRows ((List.range 16).map (10 * Int.ofNat ·))
        t.resultParameters t.run.outputMemoryBlocks t.run.outputStreamSizes =
          .ok sizes ∧
      CountsAttributed (tableHeap filterThenJoin) [0, 1] s
        ((List.range 16).map (10 * Int.ofNat ·)) t.run.outputStreamSizes
        sizes := by
  have hp : Pipeline (tableHeap filterThenJoin) [0, 1] :=
    pipeline_of_table (by decide) (by decide) (by decide)
  obtain ⟨s, halloc, hlanes, -, hcounts⟩ :=
    (stream_ids_follow_lanes (tableHeap filterThenJoin) [0, 1] hp).2 (by decide)
  have hheap : (initialiseVectorSizes [0, 1]
      (ExecutionState.initial (tableHeap filterThenJoin)).run).heap =
        tableHeap filterThenJoin := by
    have hinit : Initialised
        (ExecutionState.initial (tableHeap filterThenJoin)).run [0, 1] [0, 1]
        (initialiseVectorSizes [0, 1]
          (ExecutionState.initial (tableHeap filterThenJoin)).run) :=
      initialised_of_run (by decide) (by simp [ExecutionState.initial])
    funext n
    rw [hinit.heap]
    split
    · next hn =>
        simp only [List.mem_cons, List.not_mem_nil, or_false] at hn
        rcases hn with rfl | rfl <;> decide
    · rfl
  have hsetup : (setupAccelerationNodesForExecution tenRows
      (ExecutionState.initial (tableHeap filterThenJoin)).run
        [0, 1]).isOk = true := by decide +kernel
  obtain ⟨t, hsetup⟩ := exists_eq_ok hsetup
  obtain ⟨htotal, hall⟩ := hcounts tenRows _ t
    ((List.range 16).map (10 * Int.ofNat ·)) hheap
    (by simp [ExecutionState.initial]) hsetup (by simp)
  obtain ⟨sizes, hrun⟩ := htotal fun _ _ _ _ _ => ⟨rfl, rfl⟩
  exact ⟨s, t, sizes, halloc, hlanes, hsetup, hrun, hall sizes hrun⟩

end Orkhestra.Ports.StreamLanes
