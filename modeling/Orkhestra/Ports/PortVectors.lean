import Orkhestra.Ports.MemoryConservation

/-!
# The vectors of the ports

`InitialiseVectorSizes` gives each node of a run its vectors, unless an earlier
run has given it some.  The input vectors and the output blocks have an element
for each port.  The sizes of the outputs have an element for each *input*.
-/

namespace Orkhestra.Ports.PortVectors

open Orkhestra.Verified.Checked
open Orkhestra.Verified.VectorMap
open Orkhestra.Ports.QuerySchedulingData
open Orkhestra.Ports.NodeScheduler
open Orkhestra.Ports.IDManager
open Orkhestra.Ports.QueryManager
open Orkhestra.Ports.RunSetup
open Orkhestra.Ports.MemoryRelease
open Orkhestra.Ports.SchedulePartition
open Orkhestra.Ports.ScheduleLinks
open Orkhestra.Ports.MemoryConservation
open Orkhestra.Ports.ScheduledRuns
open Orkhestra.Ports.StreamLanes

/-! ## The vectors of a node -/

/-- The length of the vector under a name. -/
def lengthOf {β : Type} (m : Std.TreeMap String (List β)) (name : String) :
    Option Nat :=
  m[name]?.map List.length

/-- Each port of the node has its elements, and no element is without one. -/
structure VectorsMatchPorts (s : RunData) (node : QueryNode) : Prop where
  inputBlocks : lengthOf s.inputMemoryBlocks node.nodeName =
    some node.previousNodes.length
  inputSizes : lengthOf s.inputStreamSizes node.nodeName =
    some node.previousNodes.length
  outputBlocks : lengthOf s.outputMemoryBlocks node.nodeName =
    some node.nextNodes.length
  outputSizes : lengthOf s.outputStreamSizes node.nodeName =
    some node.nextNodes.length

theorem entry_ne_none_of_lengthOf {β : Type} {m : Std.TreeMap String (List β)}
    {name : String} {n i : Nat} (h : lengthOf m name = some n) (hi : i < n) :
    entry m name i ≠ none := by
  rw [lengthOf, Option.map_eq_some_iff] at h
  obtain ⟨xs, hxs, rfl⟩ := h
  rw [entry_eq hxs, ne_eq, List.getElem?_eq_none_iff]
  omega

/-! ## What a run leaves behind -/

/-- The heap with the same ports, some of which have forgotten their nodes. -/
structure SamePorts (h h' : Heap) : Prop where
  same : SameButNext h h'
  next_length : ∀ n, (h' n).nextNodes.length = (h n).nextNodes.length
  next_mem : ∀ n b, some b ∈ (h' n).nextNodes → some b ∈ (h n).nextNodes

theorem SamePorts.rfl {h : Heap} : SamePorts h h :=
  ⟨fun _ => .refl _, fun _ => .refl _, fun _ _ hb => hb⟩

theorem SamePorts.trans {h h' h'' : Heap} (hs : SamePorts h h')
    (hs' : SamePorts h' h'') : SamePorts h h'' := by
  refine ⟨?_, fun n => (hs'.next_length n).trans (hs.next_length n),
    fun n b hb => hs.next_mem n b (hs'.next_mem n b hb)⟩
  intro n
  rw [hs'.same n, hs.same n]

theorem SamePorts.name {h h' : Heap} (hs : SamePorts h h') (n : NodeId) :
    (h' n).nodeName = (h n).nodeName := by
  rw [hs.same n]

theorem SamePorts.previous {h h' : Heap} (hs : SamePorts h h') (n : NodeId) :
    (h' n).previousNodes = (h n).previousNodes := by
  rw [hs.same n]

theorem samePorts_clearNextNodes (scheduled : List NodeId) (h : Heap)
    {h' : Heap} (hrun : ∀ n, h' n =
      if n ∈ scheduled then clearNextNodes scheduled (h n) else h n) :
    SamePorts h h' := by
  refine ⟨?_, ?_, ?_⟩
  · intro n
    rw [hrun]
    split <;> rfl
  · intro n
    rw [hrun]
    split
    · exact List.length_map _
    · rfl
  · intro n b hb
    rw [hrun] at hb
    split at hb
    · rw [clearNextNodes, List.mem_map] at hb
      obtain ⟨pointer, hpointer, hb⟩ := hb
      split at hb
      · cases hb
      · rwa [hb] at hpointer
    · exact hb

/-- Each of the nodes has no input vectors, or vectors of the right length. -/
def InputsSized (h : Heap) (nodes : List NodeId) (blocks : BlockMap)
    (sizes : SizeMap) : Prop :=
  ∀ n ∈ nodes,
    lengthOf blocks (h n).nodeName = none ∧
      lengthOf sizes (h n).nodeName = none ∨
    lengthOf blocks (h n).nodeName = some (h n).previousNodes.length ∧
      lengthOf sizes (h n).nodeName = some (h n).previousNodes.length

/-- The state after the nodes `done` of `h` have been run. -/
structure BetweenRuns (h : Heap) (nodes done : List NodeId) (s : RunData) :
    Prop where
  ports : SamePorts h s.heap
  pending : ∀ n, n ∉ done → s.heap n = h n
  inputs : InputsSized h nodes s.inputMemoryBlocks s.inputStreamSizes
  outputBlocks : s.outputMemoryBlocks = ∅
  outputSizes : s.outputStreamSizes = ∅

/-- Nodes with different names, and all of their neighbours. -/
structure Named (h : Heap) (nodes : List NodeId) : Prop where
  name_injective : ∀ a ∈ nodes, ∀ b ∈ nodes,
    (h a).nodeName = (h b).nodeName → a = b
  next_mem : ∀ a ∈ nodes, ∀ b, some b ∈ (h a).nextNodes → b ∈ nodes
  previous_mem : ∀ b ∈ nodes, ∀ a, some a ∈ (h b).previousNodes → a ∈ nodes

/-! ## Initialising a run -/

section Initialise

variable {h : Heap} {nodes done run : List NodeId} {s : RunData}

/-- The vectors of a run, as they are initialised. -/
structure RunInitialised (h : Heap) (nodes run : List NodeId) (s : RunData) :
    Prop where
  ports : SamePorts h s.heap
  inputs : InputsSized h nodes s.inputMemoryBlocks s.inputStreamSizes
  present : ∀ n, (n ∈ run ∨ ∃ a ∈ run, some n ∈ (h a).nextNodes) →
    lengthOf s.inputMemoryBlocks (h n).nodeName ≠ none
  outputBlocks : ∀ n ∈ run, lengthOf s.outputMemoryBlocks (h n).nodeName =
    some (h n).nextNodes.length
  outputSizes : ∀ n ∈ run, lengthOf s.outputStreamSizes (h n).nodeName =
    some (h n).previousNodes.length
  outputSizes_only : ∀ name : String, s.outputStreamSizes[name]? ≠ none →
    ∃ n ∈ run, (h n).nodeName = name

theorem runInitialised (hnamed : Named h nodes)
    (hs : BetweenRuns h nodes done s) (hnodup : (done ++ run).Nodup)
    (hmem : ∀ n ∈ run, n ∈ nodes) :
    RunInitialised h nodes run (initialiseVectorSizes run s) := by
  obtain ⟨-, hrunNodup, hdisjoint⟩ := List.nodup_append.mp hnodup
  have hsame : ∀ n ∈ run, s.heap n = h n :=
    fun n hn => hs.pending n fun hdone => hdisjoint n hdone n hn rfl
  have hnames : (run.map fun n => (s.heap n).nodeName).Nodup := by
    refine hrunNodup.map_on ?_
    intro a ha b hb heq
    rw [hs.ports.name, hs.ports.name] at heq
    exact hnamed.name_injective a (hmem a ha) b (hmem b hb) heq
  have hinit : Initialised s run run (initialiseVectorSizes run s) :=
    initialised_of_run hnames (by simp [hs.outputBlocks, hs.outputSizes])
  have hwho : ∀ m, (m ∈ run ∨ ∃ a ∈ run, some m ∈ (s.heap a).nextNodes) →
      m ∈ nodes := by
    rintro m (hm | ⟨a, ha, hm⟩)
    · exact hmem m hm
    · exact hnamed.next_mem a (hmem a ha) m (hs.ports.next_mem a m hm)
  refine ⟨hs.ports.trans (samePorts_clearNextNodes run _ hinit.heap), ?_, ?_,
    ?_, ?_, ?_⟩
  · intro n hn
    have hbefore := hs.inputs n hn
    unfold lengthOf at hbefore ⊢
    by_cases hnone : s.inputMemoryBlocks[(h n).nodeName]? = none
    · have hsizes : s.inputStreamSizes[(h n).nodeName]? = none := by
        rcases hbefore with ⟨-, hsizes⟩ | ⟨hblocks, -⟩
        · exact Option.map_eq_none_iff.mp hsizes
        · simp [hnone] at hblocks
      rcases hinit.inputs.fresh _ hnone with ⟨hblocks, hkept⟩ |
        ⟨m, hm, hname, hblocks, hfresh⟩
      · left
        rw [hblocks, hkept, hsizes]
        exact ⟨rfl, rfl⟩
      · right
        rw [hs.ports.name] at hname
        have heq := hnamed.name_injective m (hwho m hm) n hn hname
        subst heq
        rw [hblocks, hfresh hsizes, hs.ports.previous]
        simp
    · obtain ⟨hblocks, hsizes⟩ := hinit.inputs.kept _ hnone
      rw [hblocks, hsizes]
      exact hbefore
  · intro n hn
    have hwhich : n ∈ run ∨ ∃ a ∈ run, some n ∈ (s.heap a).nextNodes := by
      rcases hn with hn | ⟨a, ha, hn⟩
      · exact .inl hn
      · exact .inr ⟨a, ha, (hsame a ha).symm ▸ hn⟩
    have hpresent := hinit.inputs.present n hwhich
    rw [hs.ports.name] at hpresent
    rwa [lengthOf, ne_eq, Option.map_eq_none_iff]
  · intro n hn
    have hout := (hinit.outputs n hn).1
    rw [hs.ports.name] at hout
    rw [lengthOf, hout, Option.map_some, List.length_replicate,
      hs.ports.next_length]
  · intro n hn
    have hout := (hinit.outputs n hn).2
    rw [hs.ports.name] at hout
    rw [lengthOf, hout, Option.map_some, List.length_replicate,
      hs.ports.previous]
  · intro name hne
    by_contra hno
    refine hne ?_
    rw [(hinit.outputs_kept name ?_).2, hs.outputSizes]
    · simp
    · intro n hn heq
      rw [hs.ports.name] at heq
      exact hno ⟨n, hn, heq⟩

/-- The vectors of a node of the run match its ports when it has as many inputs
as outputs. -/
theorem RunInitialised.vectorsMatchPorts_iff
    (hs : RunInitialised h nodes run s) (hmem : ∀ n ∈ run, n ∈ nodes)
    {n : NodeId} (hn : n ∈ run) :
    VectorsMatchPorts s (s.heap n) ↔
      (h n).previousNodes.length = (h n).nextNodes.length := by
  have hinputs := (hs.inputs n (hmem n hn)).resolve_left
    fun hnone => hs.present n (.inl hn) hnone.1
  constructor
  · intro hmatch
    have hsizes := hmatch.outputSizes
    rw [hs.ports.name, hs.outputSizes n hn, hs.ports.next_length,
      Option.some.injEq] at hsizes
    exact hsizes
  · intro heq
    refine ⟨?_, ?_, ?_, ?_⟩
    · rw [hs.ports.name, hs.ports.previous]
      exact hinputs.1
    · rw [hs.ports.name, hs.ports.previous]
      exact hinputs.2
    · rw [hs.ports.name, hs.ports.next_length]
      exact hs.outputBlocks n hn
    · rw [hs.ports.name, hs.ports.next_length, ← heq]
      exact hs.outputSizes n hn

end Initialise

/-! ## Setting up a run -/

/-- The heap and the lengths of all vectors are the same. -/
structure SameVectors (s s' : RunData) : Prop where
  heap : s'.heap = s.heap
  inputBlocks : SameShape s.inputMemoryBlocks s'.inputMemoryBlocks
  inputSizes : SameShape s.inputStreamSizes s'.inputStreamSizes
  outputBlocks : SameShape s.outputMemoryBlocks s'.outputMemoryBlocks
  outputSizes : SameShape s.outputStreamSizes s'.outputStreamSizes

theorem SameVectors.rfl {s : RunData} : SameVectors s s :=
  ⟨.refl _, fun _ => .refl _, fun _ => .refl _, fun _ => .refl _,
    fun _ => .refl _⟩

theorem SameVectors.trans {s s' s'' : RunData} (hs : SameVectors s s')
    (hs' : SameVectors s' s'') : SameVectors s s'' :=
  ⟨hs'.heap.trans hs.heap, hs.inputBlocks.trans hs'.inputBlocks,
    hs.inputSizes.trans hs'.inputSizes, hs.outputBlocks.trans hs'.outputBlocks,
    hs.outputSizes.trans hs'.outputSizes⟩

/-- All vectors of the node are there. -/
structure HasVectors (s : RunData) (name : String) : Prop where
  inputBlocks : lengthOf s.inputMemoryBlocks name ≠ none
  inputSizes : lengthOf s.inputStreamSizes name ≠ none
  outputBlocks : lengthOf s.outputMemoryBlocks name ≠ none
  outputSizes : lengthOf s.outputStreamSizes name ≠ none

theorem HasVectors.congr {s s' : RunData} {name : String}
    (h : HasVectors s name) (hs : SameVectors s s') : HasVectors s' name :=
  ⟨by rw [lengthOf, hs.inputBlocks]; exact h.inputBlocks,
    by rw [lengthOf, hs.inputSizes]; exact h.inputSizes,
    by rw [lengthOf, hs.outputBlocks]; exact h.outputBlocks,
    by rw [lengthOf, hs.outputSizes]; exact h.outputSizes⟩

theorem sameShape_insert {β : Type} {m : Std.TreeMap String (List β)}
    {name : String} {ys : List β} (hpresent : lengthOf m name ≠ none)
    (hlen : ys.length = (m[name]?.getD []).length) :
    SameShape m (m.insert name ys) := by
  intro name'
  rw [getElem?_insert]
  split
  · next heq =>
      subst heq
      rw [lengthOf, ne_eq, Option.map_eq_none_iff] at hpresent
      obtain ⟨xs, hxs⟩ := Option.ne_none_iff_exists'.mp hpresent
      rw [hxs, Option.getD_some] at hlen
      rw [hxs, Option.map_some, Option.map_some, hlen]
  · rfl

section SetUp

variable {data : DataManager} {inputIds outputIds : IdMap}

theorem setupNode_sameVectors {t t' : SetupState} {n : NodeId}
    (hvectors : HasVectors t.run (t.run.heap n).nodeName)
    (hrun : setupNode data inputIds outputIds t n = .ok t') :
    SameVectors t.run t'.run := by
  obtain ⟨outputs, inputs, inputParams, outputParams, params, houtputs, hinputs,
    -, -, -, hrun, -, -⟩ := setupNode_cases hrun
  rw [hrun]
  exact ⟨rfl, sameShape_insert hvectors.inputBlocks hinputs.blocks_length,
    sameShape_insert hvectors.inputSizes hinputs.sizes_length,
    sameShape_insert hvectors.outputBlocks houtputs.blocks_length,
    sameShape_insert hvectors.outputSizes houtputs.sizes_length⟩

theorem setupNodes_sameVectors {t t' : SetupState} {run : List NodeId}
    (hvectors : ∀ n ∈ run, HasVectors t.run (t.run.heap n).nodeName)
    (hrun : run.foldlM (setupNode data inputIds outputIds) t = .ok t') :
    SameVectors t.run t'.run := by
  refine foldlM_invariant (fun _ (u : SetupState) => SameVectors t.run u.run)
    run .rfl ?_ hrun
  intro before n after u u' hsplit hu hstep
  refine hu.trans (setupNode_sameVectors ?_ hstep)
  rw [hu.heap]
  exact (hvectors n (by simp [hsplit])).congr hu

end SetUp

/-! ## Executing a run -/

section Execute

variable {h : Heap} {nodes : List NodeId}

theorem InputsSized.congr {blocks blocks' : BlockMap} {sizes sizes' : SizeMap}
    (hs : InputsSized h nodes blocks sizes)
    (hblocks : SameShape blocks blocks') (hsizes : SameShape sizes sizes') :
    InputsSized h nodes blocks' sizes' := by
  intro n hn
  have hblock : lengthOf blocks' (h n).nodeName = lengthOf blocks (h n).nodeName :=
    hblocks _
  have hsize : lengthOf sizes' (h n).nodeName = lengthOf sizes (h n).nodeName :=
    hsizes _
  rw [hblock, hsize]
  exact hs n hn

/-- The heap and the lengths of the input vectors are the same. -/
def SameInputs (s s' : RunData) : Prop :=
  s'.heap = s.heap ∧ SameShape s.inputMemoryBlocks s'.inputMemoryBlocks ∧
    SameShape s.inputStreamSizes s'.inputStreamSizes

theorem SameInputs.rfl {s : RunData} : SameInputs s s :=
  ⟨.refl _, fun _ => .refl _, fun _ => .refl _⟩

theorem SameInputs.trans {s s' s'' : RunData} (hs : SameInputs s s')
    (hs' : SameInputs s' s'') : SameInputs s s'' :=
  ⟨hs'.1.trans hs.1, hs.2.1.trans hs'.2.1, hs.2.2.trans hs'.2.2⟩

/-- Handing over an output keeps the lengths of the input vectors. -/
theorem setInput_sameInputs {s s' : RunData} {target : String × Nat}
    {block : Option Block} {size : RecordSizeAndCount}
    (hrun : setInput s target block size = .ok s') :
    SameInputs s s' := by
  simp only [setInput, bind_eq_ok, writeAt_eq_ok, Except.ok.injEq] at hrun
  obtain ⟨blocks, ⟨hblocks, rfl⟩, sizes, ⟨hsizes, rfl⟩, rfl⟩ := hrun
  refine ⟨rfl, sameShape_insert_set ?_ _, sameShape_insert_set ?_ _⟩
  · rw [entry, List.getElem?_eq_getElem hblocks]
    simp
  · rw [entry, List.getElem?_eq_getElem hsizes]
    simp

theorem reuseOutput_sameInputs {name : String} {s s' : RunData}
    {entry : Nat × List (String × Nat)}
    (hrun : reuseOutput name s entry = .ok s') : SameInputs s s' := by
  have hcopy : ∀ targets : List (String × Nat),
      targets.foldlM (copyOutput name entry.1) s = .ok s' →
      SameInputs s s' := by
    intro targets htargets
    refine foldlM_invariant (fun _ u => SameInputs s u) targets .rfl ?_ htargets
    intro before target after u u' _ hu hstep
    simp only [copyOutput, bind_eq_ok] at hstep
    obtain ⟨⟨block, memory⟩, -, size, -, source, -, hstep⟩ := hstep
    cases source with
    | none => cases hstep
    | some _ =>
        obtain ⟨hheap, hblocks, hsizes⟩ := setInput_sameInputs hstep
        exact hu.trans ⟨hheap, hblocks, hsizes⟩
  unfold reuseOutput at hrun
  split at hrun
  · simp only [moveOutput, bind_eq_ok] at hrun
    obtain ⟨block, -, outputs, -, size, -, hrun⟩ := hrun
    obtain ⟨hheap, hblocks, hsizes⟩ := setInput_sameInputs hrun
    exact ⟨hheap, hblocks, hsizes⟩
  · exact hcopy _ hrun

theorem reuseOutputs_sameInputs {s s' : RunData} {links : LinkedNodes}
    (hrun : reuseOutputs s links = .ok s') : SameInputs s s' := by
  refine foldlM_invariant (fun _ u => SameInputs s u) links.toList .rfl ?_ hrun
  intro before group after u u' _ hu hstep
  refine hu.trans ?_
  refine foldlM_invariant (fun _ v => SameInputs u v) group.2.toList .rfl ?_
    hstep
  intro before entry after v v' _ hv hstep
  exact hv.trans (reuseOutput_sameInputs hstep)

/-- Freeing leaves the input vectors of the nodes that have not run. -/
theorem freeMemoryBlocks_betweenRuns {s s' : RunData} {links : LinkedNodes}
    {names : List String} {done : List NodeId} (hports : SamePorts h s.heap)
    (hpending : ∀ n, n ∉ done → s.heap n = h n)
    (hinputs : InputsSized h nodes s.inputMemoryBlocks s.inputStreamSizes)
    (hrun : freeMemoryBlocks s links names = .ok s') :
    BetweenRuns h nodes done s' := by
  simp only [freeMemoryBlocks, bind_eq_ok, Except.ok.injEq] at hrun
  obtain ⟨r, hreuse, rfl⟩ := hrun
  have hfreed := inputsFreed names s
  obtain ⟨hheap, hblocks, hsizes⟩ := reuseOutputs_sameInputs hreuse
  have hkept : InputsSized h nodes
      (names.foldl freeInputBlocks s).inputMemoryBlocks
      (names.foldl freeInputBlocks s).inputStreamSizes := by
    intro n hn
    unfold lengthOf
    rw [hfreed.inputs, hfreed.input_sizes]
    split
    · exact .inl ⟨rfl, rfl⟩
    · exact hinputs n hn
  refine ⟨?_, ?_, hkept.congr hblocks hsizes, rfl, rfl⟩
  · show SamePorts h r.heap
    rw [hheap, hfreed.heap]
    exact hports
  · show ∀ n, n ∉ done → r.heap n = h n
    rw [hheap, hfreed.heap]
    exact hpending

/-- The set-up of a run keeps the lengths it has been initialised with. -/
theorem setupNextRunData_cases {data : DataManager} {links current : LinkedNodes}
    {e : ExecutionState} {run : List NodeId} {names : List String}
    {t : SetupState}
    (hrun : setupNextRunData data links e run = .ok (names, current, t)) :
    names = e.scheduledNodeNames ++ run.map (fun n => (e.run.heap n).nodeName) ∧
      current = getCurrentLinks e.run.heap run links ∧
      ∃ inputIds outputIds,
        allocateStreamIDs (initialiseVectorSizes run e.run).heap
          (createReferenceVector (initialiseVectorSizes run e.run).heap run)
            ∅ ∅ = .ok (inputIds, outputIds) ∧
        run.foldlM (setupNode data inputIds outputIds)
          ⟨initialiseVectorSizes run e.run, [], ∅⟩ = .ok t := by
  simp only [setupNextRunData, bind_eq_ok, Except.ok.injEq, Prod.mk.injEq,
    setupAccelerationNodesForExecution] at hrun
  obtain ⟨t', ⟨⟨inputIds, outputIds⟩, halloc, hrun⟩, rfl, rfl, rfl⟩ := hrun
  exact ⟨rfl, rfl, inputIds, outputIds, halloc, hrun⟩

/-- The nodes of a run have all of their vectors. -/
theorem RunInitialised.hasVectors {run : List NodeId} {s : RunData}
    (hs : RunInitialised h nodes run s) (hmem : ∀ n ∈ run, n ∈ nodes)
    {n : NodeId} (hn : n ∈ run) : HasVectors s (s.heap n).nodeName := by
  have hinputs := (hs.inputs n (hmem n hn)).resolve_left
    fun hnone => hs.present n (.inl hn) hnone.1
  rw [hs.ports.name]
  refine ⟨hs.present n (.inl hn), ?_, ?_, ?_⟩
  · rw [hinputs.2]
    simp
  · rw [hs.outputBlocks n hn]
    simp
  · rw [hs.outputSizes n hn]
    simp

/-- One more run. -/
theorem BetweenRuns.step {data : DataManager} {links current : LinkedNodes}
    {e e' : ExecutionState} {done run : List NodeId} {names : List String}
    {t : SetupState} {resultSizes : List Int} (hnamed : Named h nodes)
    (hs : BetweenRuns h nodes done e.run) (hnodup : (done ++ run).Nodup)
    (hmem : ∀ n ∈ run, n ∈ nodes)
    (hsetup : setupNextRunData data links e run = .ok (names, current, t))
    (hexec : executeAndProcessResults data resultSizes names current t =
      .ok e') : BetweenRuns h nodes (done ++ run) e'.run := by
  obtain ⟨-, -, inputIds, outputIds, -, hrun⟩ := setupNextRunData_cases hsetup
  have hinit := runInitialised hnamed hs hnodup hmem
  have hsame := setupNodes_sameVectors
    (fun n hn => hinit.hasVectors hmem hn) hrun
  simp only [executeAndProcessResults, bind_eq_ok, Except.ok.injEq] at hexec
  obtain ⟨sizes, -, r, hfree, rfl⟩ := hexec
  refine freeMemoryBlocks_betweenRuns ?_ ?_ ?_ hfree
  · show SamePorts h t.run.heap
    rw [hsame.heap]
    exact hinit.ports
  · intro n hn
    rw [List.mem_append, not_or] at hn
    show t.run.heap n = h n
    rw [hsame.heap, initialiseVectorSizes_heap
      (List.nodup_append.mp hnodup).2.1, if_neg hn.2]
    exact hs.pending n hn.1
  · exact hinit.inputs.congr hsame.inputBlocks hsame.inputSizes

end Execute

/-! ## Executing the runs before a run -/

section Runs

variable {h : Heap} {nodes : List NodeId} {data : DataManager}
  {links : LinkedNodes} {runs : List QueryNodeRun} {resultSizes : Nat → List Int}

theorem BetweenRuns.initial (h : Heap) (nodes : List NodeId) :
    BetweenRuns h nodes [] (ExecutionState.initial h).run := by
  refine ⟨.rfl, fun _ _ => rfl, ?_, rfl, rfl⟩
  intro n _
  left
  simp [ExecutionState.initial, lengthOf]

theorem runNodes_take_append_drop (runs : List QueryNodeRun) (j : Nat) :
    runNodes runs = runNodes (runs.take j) ++ runNodes (runs.drop j) := by
  rw [runNodes, runNodes, runNodes, ← List.flatMap_append,
    List.take_append_drop]

/-- The state before run `j`, and the names of the nodes of the runs before. -/
theorem betweenRuns_of_run (hnamed : Named h nodes)
    (hnodup : (runNodes runs).Nodup) (hmem : ∀ n ∈ runNodes runs, n ∈ nodes)
    {j : Nat} {e : ExecutionState}
    (hexec : executedRuns data links runs resultSizes
      (ExecutionState.initial h) j = .ok e) :
    BetweenRuns h nodes (runNodes (runs.take j)) e.run ∧
      e.scheduledNodeNames =
        (runNodes (runs.take j)).map fun n => (h n).nodeName := by
  induction j generalizing e with
  | zero =>
      cases hexec
      exact ⟨BetweenRuns.initial h nodes, rfl⟩
  | succ j ih =>
      simp only [executedRuns, bind_eq_ok] at hexec
      obtain ⟨e₀, hbefore, hexec⟩ := hexec
      obtain ⟨he, hnames⟩ := ih hbefore
      cases hj : runs[j]? with
      | none =>
          rw [hj, Except.ok.injEq] at hexec
          subst hexec
          have hlen := List.getElem?_eq_none_iff.mp hj
          rw [List.take_of_length_le hlen] at he hnames
          rw [List.take_of_length_le (by omega)]
          exact ⟨he, hnames⟩
      | some run =>
          simp only [hj, bind_eq_ok] at hexec
          obtain ⟨⟨names, current, t⟩, hsetup, hexec⟩ := hexec
          have hsplit := runNodes_take_append_drop runs (j + 1)
          rw [runNodes_take_succ hj] at hsplit ⊢
          have hfirst : (runNodes (runs.take j) ++ run.2).Nodup := by
            rw [hsplit] at hnodup
            exact (List.nodup_append.mp hnodup).1
          have hrunMem : ∀ n ∈ run.2, n ∈ nodes := by
            intro n hn
            refine hmem n ?_
            rw [hsplit]
            simp [hn]
          refine ⟨he.step hnamed hfirst hrunMem hsetup hexec, ?_⟩
          obtain ⟨hnew, -⟩ := setupNextRunData_cases hsetup
          simp only [executeAndProcessResults, bind_eq_ok,
            Except.ok.injEq] at hexec
          obtain ⟨-, -, -, -, rfl⟩ := hexec
          rw [hnew, hnames, List.map_append]
          simp only [he.ports.name]

end Runs

/-! ## The indices that are used -/

section Ids

variable {h : Heap} {node : QueryNode} {outputIds : IdMap}
  {availableIds : List Nat} {s s' : NodeIds}

theorem allocateInputIDs_length
    (hrun : allocateInputIDs h node outputIds availableIds = .ok s) :
    s.inputIds.length = node.inputDataDefinitionFiles.length ∧
      s.outputIds.length = min node.inputDataDefinitionFiles.length
        node.outputDataDefinitionFiles.length := by
  refine forRange_invariant (fun i (s : NodeIds) => s.inputIds.length = i ∧
    s.outputIds.length = min i node.outputDataDefinitionFiles.length) _
    ⟨rfl, by simp⟩ ?_ hrun
  rintro i s s' - ⟨hinputs, houtputs⟩ hbody
  obtain ⟨-, id, availableIds, -, -, rfl⟩ :=
    (allocateInputID_eq_ok hinputs).mp hbody
  refine ⟨by simp [hinputs], ?_⟩
  dsimp only
  split
  · rw [List.length_append, List.length_singleton]
    omega
  · rw [houtputs]
    omega

theorem allocateLeftoverOutputIDs_length
    (hrun : allocateLeftoverOutputIDs node s = .ok s') :
    s'.inputIds = s.inputIds ∧ s'.outputIds.length = s.outputIds.length +
      (node.outputDataDefinitionFiles.length -
        node.inputDataDefinitionFiles.length) := by
  refine ⟨allocateLeftoverOutputIDs_inputIds hrun, ?_⟩
  have key := foldlM_invariant (fun done (s' : NodeIds) =>
    s'.outputIds.length = s.outputIds.length + done.length)
    (leftoverOutputs node) rfl ?_ hrun
  · simpa [leftoverOutputs] using key
  · intro before i after t t' _ houtputs hbody
    simp only [allocateLeftoverOutputID, bind_eq_ok, Except.ok.injEq] at hbody
    obtain ⟨⟨id, availableIds⟩, -, rfl⟩ := hbody
    simp only [List.length_append, List.length_singleton, houtputs]
    omega

/-- Each stream of a node that has ids has one. -/
theorem streamIds_length {nodes : List NodeId} {inputIds outputIds : IdMap}
    (hrun : allocateStreamIDs h (createReferenceVector h nodes) ∅ ∅ =
      .ok (inputIds, outputIds)) {name : String} {ids : List Nat} :
    (inputIds[name]? = some ids → ∃ n ∈ nodes, (h n).nodeName = name ∧
      ids.length = (h n).inputDataDefinitionFiles.length) ∧
    (outputIds[name]? = some ids → ∃ n ∈ nodes, (h n).nodeName = name ∧
      ids.length = (h n).outputDataDefinitionFiles.length) := by
  obtain ⟨s, hloop, rfl, rfl⟩ := exists_streamIds hrun
  refine foldlM_invariant (fun done (s : StreamIds) =>
    (s.inputIds[name]? = some ids → ∃ n ∈ done, (h n).nodeName = name ∧
      ids.length = (h n).inputDataDefinitionFiles.length) ∧
    (s.outputIds[name]? = some ids → ∃ n ∈ done, (h n).nodeName = name ∧
      ids.length = (h n).outputDataDefinitionFiles.length)) nodes
    (by simp) ?_ hloop
  rintro before n after s s' - ⟨hinputs, houtputs⟩ hbody
  simp only [allocateNodeIDs, bind_eq_ok, Except.ok.injEq] at hbody
  obtain ⟨first, hfirst, last, hlast, rfl⟩ := hbody
  obtain ⟨hfirstIn, hfirstOut⟩ := allocateInputIDs_length hfirst
  obtain ⟨hlastIn, hlastOut⟩ := allocateLeftoverOutputIDs_length hlast
  have hinsert : ∀ {m : IdMap} {new : List Nat}, (m.insertIfNew
      (h n).nodeName new)[name]? = some ids →
      m[name]? = some ids ∨ (h n).nodeName = name ∧ new = ids := by
    intro m new hget
    rw [Std.TreeMap.getElem?_insertIfNew] at hget
    split at hget
    · next hnew =>
        rw [Option.some.injEq] at hget
        exact .inr ⟨by simpa using hnew.1, hget⟩
    · exact .inl hget
  constructor
  · intro hget
    rcases hinsert hget with hold | ⟨hname, rfl⟩
    · obtain ⟨b, hb, hrest⟩ := hinputs hold
      exact ⟨b, List.mem_append_left _ hb, hrest⟩
    · refine ⟨n, by simp, hname, ?_⟩
      rw [hlastIn, hfirstIn]
  · intro hget
    rcases hinsert hget with hold | ⟨hname, rfl⟩
    · obtain ⟨b, hb, hrest⟩ := houtputs hold
      exact ⟨b, List.mem_append_left _ hb, hrest⟩
    · refine ⟨n, by simp, hname, ?_⟩
      rw [hlastOut, hfirstOut]
      omega

end Ids

/-- Each port of a node has its file. -/
def FilesMatchPorts (h : Heap) (nodes : List NodeId) : Prop :=
  ∀ n ∈ nodes,
    (h n).inputDataDefinitionFiles.length = (h n).previousNodes.length ∧
      (h n).outputDataDefinitionFiles.length = (h n).nextNodes.length

/-- A link leads from an output of its node to an input of a consumer that is
run later. -/
def LinksForward (h : Heap) (runs : List QueryNodeRun) (links : LinkedNodes) :
    Prop :=
  ∀ j run, runs[j]? = some run → ∀ a ∈ run.2, ∀ k targets,
    linkedTargets links (h a).nodeName k = some targets →
    k < (h a).nextNodes.length ∧ ∀ target ∈ targets, ∃ n m,
      some n ∈ (h a).nextNodes ∧ n ∉ runNodes (runs.take (j + 1)) ∧
        target = ((h n).nodeName, m) ∧ m < (h n).previousNodes.length

/-- The vectors have an element under an index of an input. -/
def InputInRange (s : RunData) (name : String) (m : Nat) : Prop :=
  entry s.inputMemoryBlocks name m ≠ none ∧
    entry s.inputStreamSizes name m ≠ none

/-- The vectors have an element under an index of an output. -/
def OutputInRange (s : RunData) (name : String) (k : Nat) : Prop :=
  entry s.outputMemoryBlocks name k ≠ none ∧
    entry s.outputStreamSizes name k ≠ none

/-- The indices that the set-up of the node `n` uses: those of the loops over
its ports, that of the producer's size and those of the loops over its ids. -/
structure SetupInRange (s : RunData) (inputIds outputIds : IdMap) (n : NodeId) :
    Prop where
  outputs : ∀ k < (s.heap n).nextNodes.length,
    OutputInRange s (s.heap n).nodeName k
  inputs : ∀ m < (s.heap n).previousNodes.length,
    InputInRange s (s.heap n).nodeName m
  producers : ∀ a k sizes, some a ∈ (s.heap n).previousNodes →
    findConsumer s.heap (s.heap n) (s.heap a).nextNodes 0 = .ok (some k) →
    s.outputStreamSizes[(s.heap a).nodeName]? = some sizes → k < sizes.length
  inputIds : ∀ m < (inputIds[(s.heap n).nodeName]?.getD []).length,
    InputInRange s (s.heap n).nodeName m
  outputIds : ∀ k < (outputIds[(s.heap n).nodeName]?.getD []).length,
    OutputInRange s (s.heap n).nodeName k

/-- The indices that a run uses: in the set-up of each of its nodes, for each of
its results and for each of its links. -/
structure IndicesInRange (data : DataManager) (links : LinkedNodes)
    (resultSizes : List Int) (e : ExecutionState) (run : List NodeId) :
    Prop where
  setup : ∀ inputIds outputIds before n after t,
    allocateStreamIDs (initialiseVectorSizes run e.run).heap
      (createReferenceVector (initialiseVectorSizes run e.run).heap run) ∅ ∅ =
        .ok (inputIds, outputIds) →
    run = before ++ n :: after →
    before.foldlM (setupNode data inputIds outputIds)
      ⟨initialiseVectorSizes run e.run, [], ∅⟩ = .ok t →
    SetupInRange t.run inputIds outputIds n
  results : ∀ names current t,
    setupNextRunData data links e run = .ok (names, current, t) →
    ∀ (name : String) params, t.resultParameters[name]? = some params →
    ∀ p ∈ params, OutputInRange t.run name p.streamIndex
  links : ∀ names current t sizes,
    setupNextRunData data links e run = .ok (names, current, t) →
    processResults data resultSizes t.resultParameters t.run.outputMemoryBlocks
      t.run.outputStreamSizes = .ok sizes →
    ∀ name k targets, ((name, k), targets) ∈ transfers current →
      OutputInRange { t.run with outputStreamSizes := sizes } name k ∧
        ∀ target ∈ targets, target.1 ∉ names ∧
          InputInRange t.run target.1 target.2

section Indices

variable {h : Heap} {nodes run : List NodeId} {s s' : RunData}
  {data : DataManager} {inputIds outputIds : IdMap}

theorem InputInRange.congr {name : String} {m : Nat}
    (hm : InputInRange s name m) (hs : SameVectors s s') :
    InputInRange s' name m :=
  ⟨hs.inputBlocks.entry_ne_none hm.1, hs.inputSizes.entry_ne_none hm.2⟩

theorem OutputInRange.congr {name : String} {k : Nat}
    (hk : OutputInRange s name k) (hs : SameVectors s s') :
    OutputInRange s' name k :=
  ⟨hs.outputBlocks.entry_ne_none hk.1, hs.outputSizes.entry_ne_none hk.2⟩

/-- The inputs of the nodes of a run and of their consumers. -/
theorem RunInitialised.inputInRange (hs : RunInitialised h nodes run s)
    {n : NodeId} (hmem : n ∈ nodes)
    (hn : n ∈ run ∨ ∃ a ∈ run, some n ∈ (h a).nextNodes) {m : Nat}
    (hm : m < (h n).previousNodes.length) :
    InputInRange s (h n).nodeName m := by
  have hinputs := (hs.inputs n hmem).resolve_left
    fun hnone => hs.present n hn hnone.1
  exact ⟨entry_ne_none_of_lengthOf hinputs.1 hm,
    entry_ne_none_of_lengthOf hinputs.2 hm⟩

/-- The outputs of the nodes of a run, when they are no more than its inputs. -/
theorem RunInitialised.outputInRange (hs : RunInitialised h nodes run s)
    {n : NodeId} (hn : n ∈ run)
    (hports : (h n).previousNodes.length = (h n).nextNodes.length) {k : Nat}
    (hk : k < (h n).nextNodes.length) : OutputInRange s (h n).nodeName k :=
  ⟨entry_ne_none_of_lengthOf (hs.outputBlocks n hn) hk,
    entry_ne_none_of_lengthOf (hs.outputSizes n hn) (hports ▸ hk)⟩

/-- The index of a consumer is that of an output. -/
theorem findConsumer_lt {node : QueryNode} {pointers : List (Option NodeId)}
    {i k : Nat} (hrun : findConsumer h node pointers i = .ok (some k)) :
    k < i + pointers.length := by
  induction pointers generalizing i with
  | nil => cases hrun
  | cons pointer rest ih =>
      cases pointer with
      | none => cases hrun
      | some n =>
          rw [findConsumer] at hrun
          split at hrun
          · cases hrun
            simp
          · have hlt := ih hrun
            rw [List.length_cons]
            omega

theorem RunInitialised.setupInRange (hnamed : Named h nodes)
    (hfiles : FilesMatchPorts h nodes) (hs : RunInitialised h nodes run s)
    (hmem : ∀ n ∈ run, n ∈ nodes)
    (hports : ∀ n ∈ run,
      (h n).previousNodes.length = (h n).nextNodes.length)
    (halloc : allocateStreamIDs s.heap (createReferenceVector s.heap run) ∅ ∅ =
      .ok (inputIds, outputIds)) {n : NodeId} (hn : n ∈ run) :
    SetupInRange s inputIds outputIds n := by
  have hsame : ∀ {b}, b ∈ run → (h b).nodeName = (h n).nodeName → b = n :=
    fun hb heq =>
      hnamed.name_injective _ (hmem _ hb) n (hmem n hn) heq
  have hfile := hfiles n (hmem n hn)
  refine ⟨?_, ?_, ?_, ?_, ?_⟩
  · intro k hk
    rw [hs.ports.next_length] at hk
    rw [hs.ports.name]
    exact hs.outputInRange hn (hports n hn) hk
  · intro m hm
    rw [hs.ports.previous] at hm
    rw [hs.ports.name]
    exact hs.inputInRange (hmem n hn) (.inl hn) hm
  · intro a k sizes ha hfound hsizes
    rw [hs.ports.previous] at ha
    rw [hs.ports.name] at hsizes
    obtain ⟨b, hb, hname⟩ :=
      hs.outputSizes_only (h a).nodeName (by rw [hsizes]; simp)
    have hba := hnamed.name_injective b (hmem b hb) a
      (hnamed.previous_mem n (hmem n hn) a ha) hname
    subst hba
    have hlen := hs.outputSizes b hb
    rw [lengthOf, hsizes, Option.map_some, Option.some.injEq] at hlen
    have hlt := findConsumer_lt hfound
    rw [Nat.zero_add, hs.ports.next_length, ← hports b hb] at hlt
    omega
  · intro m hm
    rw [hs.ports.name] at hm ⊢
    refine hs.inputInRange (hmem n hn) (.inl hn) ?_
    cases hids : inputIds[(h n).nodeName]? with
    | none => simp [hids] at hm
    | some ids =>
        obtain ⟨b, hb, hname, hlen⟩ := (streamIds_length halloc).1 hids
        rw [hs.ports.name] at hname
        rw [hsame hb hname, hs.ports.same n] at hlen
        rw [hids, Option.getD_some, hlen, hfile.1] at hm
        exact hm
  · intro k hk
    rw [hs.ports.name] at hk ⊢
    refine hs.outputInRange hn (hports n hn) ?_
    cases hids : outputIds[(h n).nodeName]? with
    | none => simp [hids] at hk
    | some ids =>
        obtain ⟨b, hb, hname, hlen⟩ := (streamIds_length halloc).2 hids
        rw [hs.ports.name] at hname
        rw [hsame hb hname, hs.ports.same n] at hlen
        rw [hids, Option.getD_some, hlen, hfile.2] at hk
        exact hk

theorem SetupInRange.congr {n : NodeId}
    (hn : SetupInRange s inputIds outputIds n) (hs : SameVectors s s') :
    SetupInRange s' inputIds outputIds n := by
  refine ⟨?_, ?_, ?_, ?_, ?_⟩
  · rw [hs.heap]
    exact fun k hk => (hn.outputs k hk).congr hs
  · rw [hs.heap]
    exact fun m hm => (hn.inputs m hm).congr hs
  · rw [hs.heap]
    intro a k sizes ha hfound hsizes
    have hshape := hs.outputSizes (s.heap a).nodeName
    rw [hsizes, Option.map_some, eq_comm, Option.map_eq_some_iff] at hshape
    obtain ⟨old, hold, hlen⟩ := hshape
    rw [← hlen]
    exact hn.producers a k old ha hfound hold
  · rw [hs.heap]
    exact fun m hm => (hn.inputIds m hm).congr hs
  · rw [hs.heap]
    exact fun k hk => (hn.outputIds k hk).congr hs

/-- The results of a run are those of outputs with a block. -/
theorem results_of_run {t t' : SetupState}
    (hvectors : ∀ n ∈ run, HasVectors t.run (t.run.heap n).nodeName)
    (hempty : t.resultParameters = ∅)
    (hrun : run.foldlM (setupNode data inputIds outputIds) t = .ok t')
    {name : String} {params : List StreamResultParameters}
    (hparams : t'.resultParameters[name]? = some params)
    {p : StreamResultParameters} (hp : p ∈ params) :
    ∃ n ∈ run, (t.run.heap n).nodeName = name ∧
      entry t'.run.outputMemoryBlocks name p.streamIndex ≠ none := by
  have key := foldlM_invariant (fun done (u : SetupState) =>
    SameVectors t.run u.run ∧
      ∀ params, u.resultParameters[name]? = some params → ∀ p ∈ params,
        ∃ n ∈ done, (t.run.heap n).nodeName = name ∧
          entry u.run.outputMemoryBlocks name p.streamIndex ≠ none) run
    ⟨.rfl, by simp [hempty]⟩ ?_ hrun
  · exact key.2 params hparams p hp
  · rintro before n after u u' hsplit ⟨hu, hold⟩ hstep
    have hn : HasVectors u.run (u.run.heap n).nodeName := by
      rw [hu.heap]
      exact (hvectors n (by simp [hsplit])).congr hu
    have hsame := setupNode_sameVectors hn hstep
    refine ⟨hu.trans hsame, ?_⟩
    intro params hparams p hp
    obtain ⟨outputs, inputs, -, -, new, -, -, -, -, hstored, hrun, -,
      hresults⟩ := setupNode_cases hstep
    rw [hresults, Std.TreeMap.getElem?_insertIfNew] at hparams
    split at hparams
    · next hnew =>
        rw [Option.some.injEq] at hparams
        subst hparams
        have hname : (u.run.heap n).nodeName = name := by simpa using hnew.1
        refine ⟨n, by simp, by rw [← hname, hu.heap], ?_⟩
        obtain ⟨-, -, block, hblock⟩ := hstored.sound p hp
        rw [hrun, ← hname]
        show entry (u.run.outputMemoryBlocks.insert _ _) _ _ ≠ none
        rw [entry_insert, if_pos rfl, hblock]
        simp
    · obtain ⟨b, hb, hbname, hentry⟩ := hold params hparams p hp
      exact ⟨b, List.mem_append_left _ hb, hbname,
        hsame.outputBlocks.entry_ne_none hentry⟩

/-- The counts are written to sizes that are there. -/
theorem processResults_sameShape {resultSizes : List Int} {results : ResultMap}
    {blocks : BlockMap} {sizes sizes' : SizeMap}
    (hrun : processResults data resultSizes results blocks sizes = .ok sizes') :
    SameShape sizes sizes' := by
  rw [processResults_eq] at hrun
  refine foldlM_invariant (fun _ u => SameShape sizes u) (filedResults results)
    (fun _ => .refl _) ?_ hrun
  intro before filed after u u' _ hu hstep
  obtain ⟨count, size, -, hsize, rfl⟩ := processResult_writes hstep
  refine hu.trans (sameShape_insert_set ?_ _)
  rw [hsize]
  simp

end Indices

/-! ## Any run -/

section Run

variable {h : Heap} {nodes run : List NodeId} {data : DataManager}
  {links : LinkedNodes} {runs : List QueryNodeRun} {j : Nat}
  {e : ExecutionState}

/-- When the nodes of a run have as many inputs as outputs, all its indices are
in range. -/
theorem indicesInRange_of_run {r : QueryNodeRun} (hnamed : Named h nodes)
    (hfiles : FilesMatchPorts h nodes) (hlinks : LinksForward h runs links)
    (hj : runs[j]? = some r) (he : BetweenRuns h nodes (runNodes (runs.take j)) e.run)
    (hnames : e.scheduledNodeNames =
      (runNodes (runs.take j)).map fun n => (h n).nodeName)
    (hnodup : (runNodes (runs.take j) ++ r.2).Nodup)
    (hmem : ∀ n ∈ runNodes (runs.take (j + 1)), n ∈ nodes)
    (hports : ∀ n ∈ r.2,
      (h n).previousNodes.length = (h n).nextNodes.length)
    (resultSizes : List Int) :
    IndicesInRange data links resultSizes e r.2 := by
  have hrunMem : ∀ n ∈ r.2, n ∈ nodes := by
    intro n hn
    refine hmem n ?_
    rw [runNodes_take_succ hj]
    exact List.mem_append_right _ hn
  have hinit := runInitialised hnamed he hnodup hrunMem
  have hvectors := fun n hn => hinit.hasVectors hrunMem (n := n) hn
  refine ⟨?_, ?_, ?_⟩
  · intro inputIds outputIds before n after t halloc hsplit hrun
    refine (hinit.setupInRange hnamed hfiles hrunMem hports halloc
      (by simp [hsplit])).congr (setupNodes_sameVectors ?_ hrun)
    exact fun b hb => hvectors b (by simp [hsplit, hb])
  · intro names current t hsetup name params hparams p hp
    obtain ⟨-, -, inputIds, outputIds, -, hrun⟩ := setupNextRunData_cases hsetup
    have hsame := setupNodes_sameVectors hvectors hrun
    obtain ⟨n, hn, hname, hentry⟩ := results_of_run hvectors rfl hrun hparams hp
    refine ⟨hentry, hsame.outputSizes.entry_ne_none ?_⟩
    have hname' : (h n).nodeName = name := (hinit.ports.name n).symm.trans hname
    subst hname'
    have hshape := (hsame.outputBlocks _).trans (hinit.outputBlocks n hn)
    rw [Option.map_eq_some_iff] at hshape
    obtain ⟨blocks, hblocks, hlen⟩ := hshape
    rw [entry_eq hblocks, ne_eq, List.getElem?_eq_none_iff, hlen,
      Nat.not_le] at hentry
    exact (hinit.outputInRange hn (hports n hn) hentry).2
  · intro names current t sizes hsetup hprocess name k targets hlink
    obtain ⟨rfl, rfl, inputIds, outputIds, -, hrun⟩ :=
      setupNextRunData_cases hsetup
    have hsame := setupNodes_sameVectors hvectors hrun
    obtain ⟨⟨a, ha, haname⟩, htargets⟩ :=
      mem_transfers_getCurrentLinks.mp hlink
    rw [he.ports.name] at haname
    subst haname
    obtain ⟨hk, hforward⟩ := hlinks j r hj a ha k targets htargets
    have hout := (hinit.outputInRange ha (hports a ha) hk).congr hsame
    refine ⟨⟨hout.1,
      (processResults_sameShape hprocess).entry_ne_none hout.2⟩, ?_⟩
    intro target htarget
    obtain ⟨n, m, hnext, hlater, rfl, hm⟩ := hforward target htarget
    have hn := hnamed.next_mem a (hrunMem a ha) n hnext
    refine ⟨?_, (hinit.inputInRange hn (.inr ⟨a, ha, hnext⟩) hm).congr hsame⟩
    intro hin
    rw [hnames] at hin
    simp only [he.ports.name] at hin
    rw [← List.map_append, ← runNodes_take_succ hj, List.mem_map] at hin
    obtain ⟨b, hb, hname⟩ := hin
    exact hlater (hnamed.name_injective b (hmem b hb) n hn hname ▸ hb)

end Run

/-! ### The runs of a schedule -/

section Scheduled

variable {P : Plan} {lib : AcceleratorLibrary} {fuel : Nat} {o : RunsState}

theorem named_of_finished (hf : Finished P o) : Named o.heap P.nodes := by
  refine ⟨?_, ?_, ?_⟩
  · intro a ha b hb heq
    rw [hf.nodeName, hf.nodeName] at heq
    exact P.nameInjective a ha b hb heq
  · intro a ha b hb
    obtain ⟨k, hk⟩ := List.mem_iff_getElem?.mp hb
    have hplan := hf.handedOver.next_only a ((hf.mem_iff a).mpr ha) k b hk
    exact P.next_mem a ha b (List.mem_of_getElem? hplan)
  · intro b hb a ha
    obtain ⟨m, hm⟩ := List.mem_iff_getElem?.mp ha
    have hplan := (hf.handedOver.cleared b ((hf.mem_iff b).mpr hb) m a hm).1
    exact P.previous_mem b hb a (List.mem_of_getElem? hplan)

/-- The links of a schedule lead to later runs. -/
theorem linksForward_of_run (hf : Finished P o)
    (hrun : findAcceleratedQueryNodeSets lib fuel P.heap P.roots ∅ = .ok o) :
    LinksForward o.heap o.queryNodeRunsQueue o.linkedNodes := by
  intro j run hj a ha k targets htargets
  have hr := runOf_of_run hrun (take_append_drop hj)
  rw [hf.nodeName] at htargets
  obtain ⟨n, m, rfl, hlinked, -⟩ :=
    linked_of_targets hf (hr.run_mem ha) htargets
  obtain ⟨hnext, hprevious, -⟩ := hlinked.pointer hf (hr.run_mem ha)
  refine ⟨(List.getElem?_eq_some_iff.mp hnext).1, ?_⟩
  intro target htarget
  rw [List.mem_singleton] at htarget
  obtain ⟨-, hdone, hnotRun⟩ := hlinked.target hf hr ha
  refine ⟨n, m, List.mem_of_getElem? hnext, ?_, ?_,
    (List.getElem?_eq_some_iff.mp hprevious).1⟩
  · rw [runNodes_take_succ hj, List.mem_append, not_or]
    exact ⟨hdone, hnotRun⟩
  · rw [hf.nodeName]
    exact htarget

/-- Each node is in one run. -/
theorem runNodes_nodup_of_run (hf : Finished P o)
    (hrun : findAcceleratedQueryNodeSets lib fuel P.heap P.roots ∅ = .ok o) :
    (runNodes o.queryNodeRunsQueue).Nodup ∧
      ∀ n ∈ runNodes o.queryNodeRunsQueue, n ∈ P.nodes := by
  have ho := (scheduled_of_run hrun).1
  rw [← ho.runs]
  exact ⟨ho.frontier.nodup,
    fun n hn => (hf.mem_iff n).mp hn⟩

end Scheduled

/-! ### Vectors and ports -/

/-- Whatever runs have come before, the vectors of a run match the ports of its
nodes, and every index is in range, exactly when each of its nodes has as many
inputs as outputs. -/
theorem vectors_match_ports_iff (h : Heap) (nodes : List NodeId)
    (data : DataManager) (links : LinkedNodes) (runs : List QueryNodeRun)
    (resultSizes : Nat → List Int) (j : Nat) (e : ExecutionState)
    (run : QueryNodeRun) (hnamed : Named h nodes)
    (hfiles : FilesMatchPorts h nodes) (hnodup : (runNodes runs).Nodup)
    (hmem : ∀ n ∈ runNodes runs, n ∈ nodes)
    (hlinks : LinksForward h runs links)
    (hexec : executedRuns data links runs resultSizes
      (ExecutionState.initial h) j = .ok e) (hj : runs[j]? = some run) :
    ((∀ n ∈ run.2, VectorsMatchPorts (initialiseVectorSizes run.2 e.run)
        ((initialiseVectorSizes run.2 e.run).heap n)) ∧
      IndicesInRange data links (resultSizes j) e run.2) ↔
    ∀ n ∈ run.2, (h n).previousNodes.length = (h n).nextNodes.length := by
  obtain ⟨he, hnames⟩ := betweenRuns_of_run hnamed hnodup hmem hexec
  have hsplit := runNodes_take_append_drop runs (j + 1)
  have hfirst : ∀ n ∈ runNodes (runs.take (j + 1)), n ∈ nodes := by
    intro n hn
    refine hmem n ?_
    rw [hsplit]
    exact List.mem_append_left _ hn
  have hrunMem : ∀ n ∈ run.2, n ∈ nodes := by
    intro n hn
    refine hfirst n ?_
    rw [runNodes_take_succ hj]
    exact List.mem_append_right _ hn
  have hrunNodup : (runNodes (runs.take j) ++ run.2).Nodup := by
    rw [hsplit, runNodes_take_succ hj] at hnodup
    exact (List.nodup_append.mp hnodup).1
  have hinit := runInitialised hnamed he hrunNodup hrunMem
  constructor
  · rintro ⟨hmatch, -⟩ n hn
    exact (hinit.vectorsMatchPorts_iff hrunMem hn).mp (hmatch n hn)
  · intro hports
    refine ⟨?_, indicesInRange_of_run hnamed hfiles hlinks hj he hnames
      hrunNodup hfirst hports _⟩
    intro n hn
    exact (hinit.vectorsMatchPorts_iff hrunMem hn).mpr (hports n hn)

/-- The run of a sort that waits for the block of a filter. -/
theorem vectors_match_ports_filterThenSort :
    ∃ o e, ∃ run : QueryNodeRun, findAcceleratedQueryNodeSets
        (libraryOf [[.kFilter], [.kLinearSort]]) 16 filterThenSortPlan.heap
        filterThenSortPlan.roots ∅ = .ok o ∧
      executedRuns tenRows o.linkedNodes o.queryNodeRunsQueue
        (fun _ => List.replicate 16 4) (ExecutionState.initial o.heap) 1 =
          .ok e ∧
      o.queryNodeRunsQueue[1]? = some run ∧ run.2 = [1] ∧
      IndicesInRange tenRows o.linkedNodes (List.replicate 16 4) e run.2 := by
  have hchecks : ((findAcceleratedQueryNodeSets
      (libraryOf [[.kFilter], [.kLinearSort]]) 16 filterThenSortPlan.heap
      filterThenSortPlan.roots ∅).toOption.any fun o =>
        (executedRuns tenRows o.linkedNodes o.queryNodeRunsQueue
          (fun _ => List.replicate 16 4) (ExecutionState.initial o.heap) 1).isOk
        && o.queryNodeRunsQueue[1]?.map (·.2) == some [1]
        && decide (∀ n ∈ filterThenSortPlan.nodes,
          (o.heap n).inputDataDefinitionFiles.length =
            (o.heap n).previousNodes.length ∧
          (o.heap n).outputDataDefinitionFiles.length =
            (o.heap n).nextNodes.length)
        && decide ((o.heap 1).previousNodes.length =
          (o.heap 1).nextNodes.length)) = true := by decide +kernel
  simp only [Option.any_eq_true, toOption_eq_some, Bool.and_eq_true,
    beq_iff_eq, decide_eq_true_eq, Option.map_eq_some_iff] at hchecks
  obtain ⟨o, hrun, ⟨⟨hexec, run, hj, hnodes⟩, hfiles⟩, hports⟩ := hchecks
  obtain ⟨e, hexec⟩ := exists_eq_ok hexec
  have hf := finished_of_run (by decide) hrun
  have hall := runNodes_nodup_of_run hf hrun
  have key := (vectors_match_ports_iff o.heap filterThenSortPlan.nodes
    tenRows o.linkedNodes o.queryNodeRunsQueue
    (fun _ => List.replicate 16 4) 1 e run (named_of_finished hf) hfiles
    hall.1 hall.2 (linksForward_of_run hf hrun) hexec hj).mpr
  refine ⟨o, e, run, hrun, hexec, hj, hnodes, (key ?_).2⟩
  intro n hn
  rw [hnodes, List.mem_singleton] at hn
  subst hn
  exact hports

/-! ### One input and two outputs -/

def splitTable : List QueryNode :=
  [{ inputDataDefinitionFiles := ["cars.csv"]
     outputDataDefinitionFiles := ["left.csv", "right.csv"]
     operationType := .kFilter
     nextNodes := [none, none]
     previousNodes := [none]
     operationParameters :=
       ⟨[[], [1], [2], [1]],
         [[], [1], [2], [1], [], [1], [2], [1]], []⟩
     nodeName := "split"
     isChecked := [false, false] }]

/-- The second output has a block but no size. -/
theorem vectors_do_not_match_split :
    ¬((∀ n ∈ [0], VectorsMatchPorts
        (initialiseVectorSizes [0]
          (ExecutionState.initial (tableHeap splitTable)).run)
        ((initialiseVectorSizes [0]
          (ExecutionState.initial (tableHeap splitTable)).run).heap n)) ∧
      IndicesInRange tenRows ∅ (List.replicate 16 4)
        (ExecutionState.initial (tableHeap splitTable)) [0]) ∧
    setupNextRunData tenRows ∅ (ExecutionState.initial (tableHeap splitTable))
      [0] = .error .undefined := by
  constructor
  · rintro ⟨hmatch, -⟩
    have hsizes := (hmatch 0 (List.mem_singleton_self 0)).outputSizes
    revert hsizes
    decide +kernel
  · have hfault : (match setupNextRunData tenRows ∅
        (ExecutionState.initial (tableHeap splitTable)) [0] with
      | .ok _ => none
      | .error fault => some fault) = some .undefined := by decide +kernel
    split at hfault
    · cases hfault
    · next hrun =>
        rw [hrun, Option.some.inj hfault]

end Orkhestra.Ports.PortVectors
