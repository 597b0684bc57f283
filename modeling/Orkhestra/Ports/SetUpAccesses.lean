import Orkhestra.Verified.DefinedBehaviour
import Orkhestra.Ports.ScheduledPorts
import Orkhestra.Ports.StreamLanes

/-!
# The accesses of a set-up

The set-up of a run indexes its vectors by the ports of the nodes: by pointers,
by files and by ids, of which there is one for each file.  It stays within them
when every node has as many files as pointers and, as there is one output size
for each *input*, no more outputs than inputs.
-/

namespace Orkhestra.Ports.SetUpAccesses

open Orkhestra.Verified.Checked
open Orkhestra.Verified.DefinedBehaviour
open Orkhestra.Verified.VectorMap
open Orkhestra.Ports.QuerySchedulingData
open Orkhestra.Ports.NodeScheduler
open Orkhestra.Ports.IDManager
open Orkhestra.Ports.QueryManager
open Orkhestra.Ports.RunSetup
open Orkhestra.Ports.MemoryRelease
open Orkhestra.Ports.PortVectors

/-- What is called to read a table is defined. -/
structure DataDefined (data : DataManager) : Prop where
  columns : ∀ types sizes, Defined (data.getHeaderColumnVector types sizes)
  written : ∀ filename columns block,
    Defined (data.writeDataFromCSVToMemory filename columns block)

/-- The node has a file for each of its pointers and no more outputs than
inputs. -/
structure PortsFit (node : QueryNode) : Prop where
  inputFiles : node.inputDataDefinitionFiles.length = node.previousNodes.length
  outputFiles : node.outputDataDefinitionFiles.length = node.nextNodes.length
  outputs : node.nextNodes.length ≤ node.previousNodes.length

/-! ## The streams of one node -/

section Streams

variable {data : DataManager} {node : QueryNode} {s : StreamData}

theorem getAvailableMemoryBlock_defined (m : MemoryManager) :
    Defined (getAvailableMemoryBlock m) := by
  unfold getAvailableMemoryBlock
  split
  · unfold allocateMemoryBlock
    split
    · exact defined_error (by simp)
    · exact defined_ok _
  · exact defined_ok _

theorem getColumnDefsVector_defined (hdata : DataDefined data)
    (parameters : List (List Int)) (i : Nat) :
    Defined (getColumnDefsVector data parameters i) :=
  (defined_checkedAt _ _).bind fun types _ =>
    (defined_checkedAt _ _).bind fun sizes _ => hdata.columns types sizes

theorem getRecordSizeFromParameters_defined (hdata : DataDefined data)
    (parameters : List (List Int)) (i : Nat) :
    Defined (getRecordSizeFromParameters data parameters i) :=
  (getColumnDefsVector_defined hdata parameters i).bind fun _ _ => defined_ok _

theorem writeDataToMemory_defined (hdata : DataDefined data)
    (parameters : List (List Int)) (i : Nat) (block : Block)
    (filename : String) :
    Defined (writeDataToMemory data parameters i block filename) :=
  (getColumnDefsVector_defined hdata parameters i).bind fun columns _ =>
    (hdata.written filename columns block).bind fun _ _ => defined_ok _

theorem allocateOutputMemoryBlocks_defined (hdata : DataDefined data)
    (hblocks : node.nextNodes.length ≤ s.blocks.length)
    (hsizes : node.nextNodes.length ≤ s.sizes.length) :
    Defined (allocateOutputMemoryBlocks data node s) := by
  refine defined_forRange
    (fun t : StreamData => node.nextNodes.length ≤ t.blocks.length ∧
      node.nextNodes.length ≤ t.sizes.length) _ ⟨hblocks, hsizes⟩ ?_ ?_
  · rintro i t hi ⟨hblocks, hsizes⟩
    refine (defined_readAt_iff.mpr hi).bind fun next _ => ?_
    -- The block of an output that leaves the run, then its record size.
    refine Defined.bind ?_ fun t' ht' => ?_
    · cases next with
      | some n => exact defined_ok _
      | none =>
          refine (getAvailableMemoryBlock_defined _).bind fun _ _ => ?_
          refine (defined_writeAt_iff.mpr (by omega)).bind fun _ _ => ?_
          exact defined_ok _
    · have hsame : t'.sizes = t.sizes := by
        cases next with
        | some n => rw [← Except.ok.inj ht']
        | none =>
            simp only [bind_eq_ok, Except.ok.injEq] at ht'
            obtain ⟨_, -, _, -, rfl⟩ := ht'
            rfl
      refine (getRecordSizeFromParameters_defined hdata _ i).bind fun _ _ => ?_
      refine (defined_readAt_iff.mpr (by rw [hsame]; omega)).bind fun _ _ => ?_
      refine (defined_writeAt_iff.mpr (by rw [hsame]; omega)).bind fun _ _ => ?_
      exact defined_ok _
  · rintro i t t' - ⟨hblocks, hsizes⟩ hbody
    obtain ⟨recordSize, size, -, -, hset, hcases⟩ :=
      allocateOutputMemoryBlock_cases hbody
    rw [hset, List.length_set]
    refine ⟨?_, hsizes⟩
    rcases hcases with ⟨-, -, hsame⟩ | ⟨-, block, -, -, hset⟩
    · rwa [hsame]
    · rwa [hset, List.length_set]

/-- The search of each input that is fed in the run finds an output that has a
size. -/
def Fed (h : Heap) (node : QueryNode) (outputSizes : SizeMap) : Prop :=
  ∀ (m : Nat) a, node.previousNodes[m]? = some (some a) → ∃ k,
    findConsumer h node (h a).nextNodes 0 = .ok (some k) ∧
      entry outputSizes (h a).nodeName k ≠ none

theorem allocateInputMemoryBlocks_defined (hdata : DataDefined data) {h : Heap}
    {outputSizes : SizeMap}
    (hblocks : node.previousNodes.length ≤ s.blocks.length)
    (hsizes : node.previousNodes.length ≤ s.sizes.length)
    (hfiles : node.previousNodes.length ≤ node.inputDataDefinitionFiles.length)
    (hfed : Fed h node outputSizes) :
    Defined (allocateInputMemoryBlocks data h node outputSizes s) := by
  refine defined_forRange
    (fun t : StreamData => node.previousNodes.length ≤ t.blocks.length ∧
      node.previousNodes.length ≤ t.sizes.length) _ ⟨hblocks, hsizes⟩ ?_ ?_
  · rintro i t hi ⟨hblocks, hsizes⟩
    refine (defined_readAt_iff.mpr hi).bind fun pointer hpointer => ?_
    cases pointer with
    | none =>
        refine (defined_readAt_iff.mpr (by omega)).bind fun block _ => ?_
        cases block with
        | some block => exact defined_ok _
        | none =>
            refine (getAvailableMemoryBlock_defined _).bind fun got _ => ?_
            refine (defined_writeAt_iff.mpr (by omega)).bind fun _ _ => ?_
            refine (defined_readAt_iff.mpr (by omega)).bind fun name _ => ?_
            refine (writeDataToMemory_defined hdata _ i _ name).bind fun _ _ => ?_
            refine (defined_writeAt_iff.mpr (by omega)).bind fun _ _ => ?_
            exact defined_ok _
    | some a =>
        obtain ⟨k, hfound, hentry⟩ := hfed i a (readAt_eq_ok.mp hpointer)
        dsimp only
        rw [hfound, ok_bind]
        refine Defined.bind ?_ fun sizes hread => ?_
        · unfold mapAt
          split
          · exact defined_ok _
          · exact defined_error (by decide)
        · have hk : k < sizes.length := by
            rw [entry_eq (mapAt_eq_ok.mp hread), ne_eq,
              List.getElem?_eq_none_iff] at hentry
            omega
          refine (defined_readAt_iff.mpr hk).bind fun _ _ => ?_
          refine (defined_writeAt_iff.mpr (by omega)).bind fun _ _ => ?_
          exact defined_ok _
  · rintro i t t' - ⟨hblocks, hsizes⟩ hbody
    cases allocateInputMemoryBlock_cases hbody with
    | handed | unfed => exact ⟨hblocks, hsizes⟩
    | read => simpa using ⟨hblocks, hsizes⟩
    | fed => simpa using ⟨hblocks, hsizes⟩

theorem createStreamParams_defined {ids : List Nat}
    {parameters : List (List Int)} {blocks : List (Option Block)}
    {sizes : List RecordSizeAndCount} (hblocks : ids.length ≤ blocks.length)
    (hsizes : ids.length ≤ sizes.length) :
    Defined (createStreamParams ids parameters blocks sizes) := by
  refine defined_forRange (fun _ => True) _ trivial ?_ fun _ _ _ _ h _ => h
  intro i params hi _
  refine (defined_readAt_iff.mpr (by omega)).bind fun _ _ => ?_
  refine (defined_checkedAt _ _).bind fun _ _ => ?_
  refine (defined_readAt_iff.mpr hi).bind fun _ _ => ?_
  refine (defined_readAt_iff.mpr (by omega)).bind fun _ _ => ?_
  exact (defined_checkedAt _ _).bind fun _ _ => defined_ok _

theorem storeStreamResultParameters_defined {ids : List Nat}
    {results : ResultMap} {blocks : List (Option Block)}
    (hblocks : ids.length ≤ blocks.length)
    (hfiles : ids.length ≤ node.outputDataDefinitionFiles.length)
    (hflags : ids.length ≤ node.isChecked.length) :
    Defined (storeStreamResultParameters results ids node blocks) := by
  obtain ⟨results', hrun⟩ : ∃ results', storeStreamResultParameters results ids
      node blocks = .ok results' :=
    StreamLanes.storeStreamResultParameters_total hblocks hfiles hflags
  rw [hrun]
  exact defined_ok results'

end Streams

/-! ## One node -/

/-- The vectors of a node of the run, as long as they are initialised. -/
structure RunVectors (s : RunData) (node : QueryNode) : Prop where
  inputBlocks : lengthOf s.inputMemoryBlocks node.nodeName =
    some node.previousNodes.length
  inputSizes : lengthOf s.inputStreamSizes node.nodeName =
    some node.previousNodes.length
  outputBlocks : lengthOf s.outputMemoryBlocks node.nodeName =
    some node.nextNodes.length
  outputSizes : lengthOf s.outputStreamSizes node.nodeName =
    some node.previousNodes.length

theorem RunVectors.hasVectors {s : RunData} {node : QueryNode}
    (h : RunVectors s node) : HasVectors s node.nodeName :=
  ⟨by simp [h.inputBlocks], by simp [h.inputSizes], by simp [h.outputBlocks],
    by simp [h.outputSizes]⟩

theorem RunVectors.congr {s s' : RunData} {node : QueryNode}
    (h : RunVectors s node) (hs : SameVectors s s') : RunVectors s' node :=
  ⟨by rw [lengthOf, hs.inputBlocks]; exact h.inputBlocks,
    by rw [lengthOf, hs.inputSizes]; exact h.inputSizes,
    by rw [lengthOf, hs.outputBlocks]; exact h.outputBlocks,
    by rw [lengthOf, hs.outputSizes]; exact h.outputSizes⟩

theorem runVectors_of_initialised {h : Heap} {nodes run : List NodeId}
    {s : RunData} (hs : RunInitialised h nodes run s)
    (hmem : ∀ n ∈ run, n ∈ nodes) {n : NodeId} (hn : n ∈ run) :
    RunVectors s (s.heap n) := by
  have hinputs := (hs.inputs n (hmem n hn)).resolve_left
    fun hnone => hs.present n (.inl hn) hnone.1
  have hname := hs.ports.name n
  have hprevious := hs.ports.previous n
  refine ⟨?_, ?_, ?_, ?_⟩
  · rw [hname, hprevious, hinputs.1]
  · rw [hname, hprevious, hinputs.2]
  · rw [hname, hs.ports.next_length, hs.outputBlocks n hn]
  · rw [hname, hprevious, hs.outputSizes n hn]

/-- One id for each file of the node. -/
structure IdsGiven (inputIds outputIds : IdMap) (node : QueryNode) : Prop where
  inputs : lengthOf inputIds node.nodeName =
    some node.inputDataDefinitionFiles.length
  outputs : lengthOf outputIds node.nodeName =
    some node.outputDataDefinitionFiles.length

theorem length_getD {β : Type} {m : Std.TreeMap String (List β)} {name : String}
    {n : Nat} (h : lengthOf m name = some n) :
    (m[name]?.getD []).length = n := by
  rw [lengthOf, Option.map_eq_some_iff] at h
  obtain ⟨xs, hxs, rfl⟩ := h
  rw [hxs, Option.getD_some]

section Node

variable {data : DataManager} {inputIds outputIds : IdMap}

theorem Fed.congr {h : Heap} {node : QueryNode} {sizes sizes' : SizeMap}
    (hfed : Fed h node sizes) (hs : SameShape sizes sizes') :
    Fed h node sizes' := by
  intro m a hm
  obtain ⟨k, hfound, hentry⟩ := hfed m a hm
  refine ⟨k, hfound, ?_⟩
  obtain ⟨xs, hxs⟩ : ∃ xs, sizes[(h a).nodeName]? = some xs := by
    refine Option.ne_none_iff_exists'.mp fun hnone => hentry ?_
    exact entry_eq_none hnone k
  have hlength : lengthOf sizes (h a).nodeName = some xs.length := by
    rw [lengthOf, hxs, Option.map_some]
  have hlength' : lengthOf sizes' (h a).nodeName = some xs.length :=
    (hs _).trans hlength
  refine entry_ne_none_of_lengthOf hlength' ?_
  rw [entry_eq hxs, ne_eq, List.getElem?_eq_none_iff] at hentry
  omega

theorem setupNode_defined (hdata : DataDefined data) {u : SetupState}
    {n : NodeId} (hfit : PortsFit (u.run.heap n))
    (hflags : (u.run.heap n).isChecked.length =
      (u.run.heap n).outputDataDefinitionFiles.length)
    (hvectors : RunVectors u.run (u.run.heap n))
    (hids : IdsGiven inputIds outputIds (u.run.heap n))
    (hfed : Fed u.run.heap (u.run.heap n) u.run.outputStreamSizes) :
    Defined (setupNode data inputIds outputIds u n) := by
  have hin := hfit.inputFiles
  have hout := hfit.outputFiles
  have hle := hfit.outputs
  have houtBlocks := length_getD hvectors.outputBlocks
  have houtSizes := length_getD hvectors.outputSizes
  have hinBlocks := length_getD hvectors.inputBlocks
  have hinSizes := length_getD hvectors.inputSizes
  have hinIds := length_getD hids.inputs
  have houtIds := length_getD hids.outputs
  rw [setupNode]
  refine (allocateOutputMemoryBlocks_defined hdata (by dsimp only; omega)
    (by dsimp only; omega)).bind fun outputs houtputs => ?_
  have hbacked := outputsBacked_of_run houtputs
  have hblocks := hbacked.blocks_length
  have hsizes := hbacked.sizes_length
  have hshape : SameShape u.run.outputStreamSizes
      (u.run.outputStreamSizes.insert (u.run.heap n).nodeName outputs.sizes) :=
    sameShape_insert (by simp [hvectors.outputSizes]) hsizes
  refine (allocateInputMemoryBlocks_defined hdata (by dsimp only; omega)
    (by dsimp only; omega) (by omega) (hfed.congr hshape)).bind
    fun inputs hinputs => ?_
  have hfilled := inputsBacked_of_run hinputs
  have hblocks' := hfilled.blocks_length
  have hsizes' := hfilled.sizes_length
  dsimp only at hblocks hsizes hblocks' hsizes'
  refine (createStreamParams_defined (by omega) (by omega)).bind fun _ _ => ?_
  refine (createStreamParams_defined (by omega) (by omega)).bind fun _ _ => ?_
  refine (storeStreamResultParameters_defined (by omega) (by omega)
    (by omega)).bind fun _ _ => ?_
  exact defined_ok _

end Node

/-! ## A run -/

/-- A run whose ports fit is set up within its vectors. -/
theorem setupAccelerationNodesForExecution_defined {data : DataManager}
    (hdata : DataDefined data) {h : Heap} {nodes run : List NodeId}
    {s : RunData}
    (hinit : RunInitialised h nodes run (initialiseVectorSizes run s))
    (hmem : ∀ n ∈ run, n ∈ nodes)
    (hp : Pipeline (initialiseVectorSizes run s).heap run)
    (hfit : ∀ n ∈ run, PortsFit ((initialiseVectorSizes run s).heap n))
    (hflags : ∀ n ∈ run,
      ((initialiseVectorSizes run s).heap n).isChecked.length =
        ((initialiseVectorSizes run s).heap n).outputDataDefinitionFiles.length)
    (hfed : ∀ n ∈ run, Fed (initialiseVectorSizes run s).heap
      ((initialiseVectorSizes run s).heap n)
      (initialiseVectorSizes run s).outputStreamSizes) :
    Defined (setupAccelerationNodesForExecution data s run) := by
  rw [setupAccelerationNodesForExecution]
  dsimp only
  rcases allocateStreamIDs_cases hp with ⟨ids, halloc, hids⟩ | ⟨halloc, -⟩
  · rw [halloc, ok_bind]
    have hvectors : ∀ n ∈ run, RunVectors (initialiseVectorSizes run s)
        ((initialiseVectorSizes run s).heap n) :=
      fun n hn => runVectors_of_initialised hinit hmem hn
    have hgiven : ∀ n ∈ run, IdsGiven ids.inputIds ids.outputIds
        ((initialiseVectorSizes run s).heap n) := by
      intro n hn
      obtain ⟨inputs, hinputs, hinputsLength⟩ := hids.inputs n hn
      obtain ⟨outputs, houtputs, houtputsLength⟩ := hids.outputs n hn
      refine ⟨?_, ?_⟩
      · rw [lengthOf, hinputs, Option.map_some, hinputsLength]
      · rw [lengthOf, houtputs, Option.map_some, houtputsLength]
    refine defined_foldlM (fun _ (u : SetupState) =>
      SameVectors (initialiseVectorSizes run s) u.run) run .rfl ?_ ?_
    · intro before n after u hsplit hu
      have hn : n ∈ run := by simp [hsplit]
      refine setupNode_defined hdata ?_ ?_ ?_ ?_ ?_
      · rw [hu.heap]
        exact hfit n hn
      · rw [hu.heap]
        exact hflags n hn
      · rw [hu.heap]
        exact (hvectors n hn).congr hu
      · rw [hu.heap]
        exact hgiven n hn
      · rw [hu.heap]
        exact (hfed n hn).congr hu.outputSizes
    · intro before n after u u' hsplit hu hstep
      have hn : n ∈ run := by simp [hsplit]
      refine hu.trans (setupNode_sameVectors ?_ hstep)
      rw [hu.heap]
      exact (hvectors n hn).hasVectors.congr hu
  · rw [halloc]
    exact defined_error (by simp [outOfIDs])

end Orkhestra.Ports.SetUpAccesses
