import Orkhestra.Ports.StreamDraws
import Orkhestra.Ports.MergeSortSetup
import Orkhestra.Ports.PortVectors

/-!
# The stream of a merge sort

A merge sort module only runs stream 0.  The scheduler does not know that, and
the ids are drawn in the order in which it has placed the nodes of a run, so a
merge sort gets stream 0 exactly when its lane begins with the first draw.
Otherwise its set-up throws.
-/

namespace Orkhestra.Ports.MergeSortStream

open Orkhestra.Verified.Checked
open Orkhestra.Verified.Loop
open Orkhestra.Verified.VectorMap
open Orkhestra.Ports.StreamParameterCalculator
open Orkhestra.Ports.QuerySchedulingData
open Orkhestra.Ports.NodeScheduler
open Orkhestra.Ports.SchedulePartition
open Orkhestra.Ports.ScheduleLinks
open Orkhestra.Ports.IDManager
open Orkhestra.Ports.QueryManager
open Orkhestra.Ports.RunSetup
open Orkhestra.Ports.PortVectors
open Orkhestra.Ports.StreamLanes
open Orkhestra.Ports.MergeSortSetup
open Orkhestra.Ports.StreamDraws

/-! ## Producers stay in the run -/

section Links

variable {nodes : List NodeId} {a : NodeId} {k : Nat}

theorem OutputStep.previousNodes {s s' : Heap × TargetMaps}
    (hstep : OutputStep nodes a s k s') (n : NodeId) :
    (s'.1 n).previousNodes = (s.1 n).previousNodes := by
  have hmodify : ∀ (h : Heap) (b : NodeId) (f : QueryNode → QueryNode),
      (∀ node, (f node).previousNodes = node.previousNodes) →
      (h.modify b f n).previousNodes = (h n).previousNodes := by
    intro h b f hf
    unfold Heap.modify
    split
    · exact hf _
    · rfl
  cases hstep with
  | kept f _ _ _ => rfl
  | named _ _ => exact hmodify _ _ _ fun _ => rfl
  | within b _ _ => rfl
  | linked b m _ _ _ _ => rfl
  | filed b m f _ _ _ _ _ _ =>
      refine (hmodify _ _ _ ?_).trans (hmodify _ _ _ ?_)
      · exact fun _ => rfl
      · exact fun _ => rfl

/-- The nodes of a run that has been linked only point to producers in it. -/
theorem previousNodes_of_checkExternalLinks {h : Heap} {links : LinkedNodes}
    {s : Heap × LinkedNodes} (hrun : checkExternalLinks h nodes links = .ok s) :
    ∀ n ∈ nodes, ∀ b, some b ∈ (s.1 n).previousNodes → b ∈ nodes := by
  refine foldlM_invariant (fun done (s : Heap × LinkedNodes) =>
    ∀ n ∈ done, ∀ b, some b ∈ (s.1 n).previousNodes → b ∈ nodes) nodes
    (by simp) ?_ hrun
  intro before a after s s' hsplit hs hbody
  have ha : a ∈ nodes := by simp [hsplit]
  simp only [checkExternalLinksOf, bind_eq_ok, Except.ok.injEq] at hbody
  obtain ⟨t, hnext, rfl⟩ := hbody
  have ht : ∀ n, (t.1 n).previousNodes = (s.1 n).previousNodes := by
    refine foldlM_invariant (fun _ (t : Heap × TargetMaps) =>
      ∀ n, (t.1 n).previousNodes = (s.1 n).previousNodes) _ (fun _ => rfl) ?_
      hnext
    intro _ k _ t t' _ ht hbody n
    exact (OutputStep.previousNodes (checkNextNode_cases ha hbody) n).trans
      (ht n)
  intro n hn b hb
  by_cases hna : n = a
  · subst hna
    simp only [Heap.modify_same, clearPreviousNodes, List.mem_map] at hb
    obtain ⟨pointer, -, hb⟩ := hb
    split at hb
    · cases hb
    · next hin =>
        subst hb
        simpa [isNodeMissingFromTheVector] using hin
  · simp only [Heap.modify_of_ne _ hna] at hb
    rw [ht] at hb
    refine hs n ?_ b hb
    simpa [hna] using hn

end Links

/-- Each run only points to producers in it. -/
def PointersInRuns (o : RunsState) : Prop :=
  ∀ run ∈ o.queryNodeRunsQueue, ∀ n ∈ run.2, ∀ a,
    some a ∈ (o.heap n).previousNodes → a ∈ run.2

section Schedule

variable {P : Plan} {lib : AcceleratorLibrary} {fuel : Nat} {o o' : RunsState}

theorem PointersInRuns.step (hs : PointersInRuns o) (ho : Scheduled P lib o)
    (hstep : findNextRun lib fuel o = .ok (.again o')) : PointersInRuns o' := by
  obtain ⟨s, -, hgrown, -, hlinks, -, -, hqueue⟩ := ho.run_of_step hstep
  intro run hrun n hn a ha
  rw [hqueue] at hrun
  rcases List.mem_append.mp hrun with hold | hnew
  · have hscheduled : n ∈ o.scheduledQueries := by
      rw [ho.runs]
      exact List.mem_flatMap.mpr ⟨run, hold, hn⟩
    have hnot : n ∉ s.currentQueryNodes :=
      fun hmem => (hgrown.not_earlier hmem).1 hscheduled
    have hlinked := (LinksOnly.checkExternalLinks hlinks).others n hnot
    refine hs run hold n hn a ?_
    have hprevious : (o'.heap n).previousNodes = (o.heap n).previousNodes := by
      rw [show o'.heap n = _ from hlinked, hgrown.located n]
    rwa [hprevious] at ha
  · rw [List.mem_singleton.mp hnew] at hn ⊢
    exact previousNodes_of_checkExternalLinks hlinks n hn a ha

/-- Whatever the plan, the producers that a schedule keeps are in the run. -/
theorem pointersInRuns_of_run
    (hrun : findAcceleratedQueryNodeSets lib fuel P.heap P.roots ∅ = .ok o) :
    PointersInRuns o := by
  refine iterate_invariant (fun o => Scheduled P lib o ∧ PointersInRuns o)
    PointersInRuns ?_ ?_ ⟨Scheduled.initial P lib ∅, ?_⟩ hrun
  · intro o o' ho hbody
    exact ⟨(ho.1.step hbody).1, ho.2.step ho.1 hbody⟩
  · intro o o' ho hbody
    obtain ⟨-, rfl⟩ := findNextRun_done hbody
    exact ho.2
  · simp [PointersInRuns, RunsState.initial]

end Schedule

/-! ## The heap of a run -/

section Heap

variable {h : Heap} {data : DataManager} {links : LinkedNodes}
  {runs : List QueryNodeRun} {resultSizes : Nat → List Int}

theorem setupNode_heap {inputIds outputIds : IdMap} {t t' : SetupState}
    {n : NodeId} (hrun : setupNode data inputIds outputIds t n = .ok t') :
    t'.run.heap = t.run.heap := by
  obtain ⟨_, _, _, _, _, -, -, -, -, -, hafter, -⟩ := setupNode_cases hrun
  rw [hafter]

theorem freeMemoryBlocks_heap {s s' : RunData} {names : List String}
    (hrun : freeMemoryBlocks s links names = .ok s') : s'.heap = s.heap := by
  simp only [freeMemoryBlocks, bind_eq_ok, Except.ok.injEq] at hrun
  obtain ⟨r, hreuse, rfl⟩ := hrun
  show r.heap = s.heap
  rw [(reuseOutputs_sameInputs hreuse).1]
  exact (MemoryRelease.inputsFreed names s).heap

/-- Runs only forget consumers. -/
theorem executedRuns_sameButNext {j : Nat} {e : ExecutionState}
    (hexec : executedRuns data links runs resultSizes
      (ExecutionState.initial h) j = .ok e) : SameButNext h e.run.heap := by
  induction j generalizing e with
  | zero =>
      cases hexec
      exact fun _ => rfl
  | succ j ih =>
      simp only [executedRuns, bind_eq_ok] at hexec
      obtain ⟨e₀, hbefore, hexec⟩ := hexec
      have he := ih hbefore
      cases hj : runs[j]? with
      | none =>
          rw [hj, Except.ok.injEq] at hexec
          exact hexec ▸ he
      | some run =>
          simp only [hj, bind_eq_ok] at hexec
          obtain ⟨⟨names, current, t⟩, hsetup, hexec⟩ := hexec
          obtain ⟨-, -, inputIds, outputIds, -, hnodes⟩ :=
            setupNextRunData_cases hsetup
          have hheap : t.run.heap =
              (initialiseVectorSizes run.2 e₀.run).heap := by
            refine foldlM_invariant (fun _ (u : SetupState) => u.run.heap =
              (initialiseVectorSizes run.2 e₀.run).heap) run.2 rfl ?_ hnodes
            intro _ n _ u u' _ hu hstep
            exact (setupNode_heap hstep).trans hu
          simp only [executeAndProcessResults, bind_eq_ok,
            Except.ok.injEq] at hexec
          obtain ⟨sizes, -, r, hfree, rfl⟩ := hexec
          intro n
          have hfreed := freeMemoryBlocks_heap hfree
          show r.heap n = _
          rw [hfreed, hheap,
            initialiseVectorSizes_sameButNext run.2 e₀.run n, he n]

end Heap

/-! ## The set-up of the module -/

def unsupportedStream : Fault :=
  .runtimeError "The module doesn't support running other streams!"

/-- The module refuses every stream but 0, and records that do not fit. -/
theorem setupMergeSortModule_cases (id : Nat) {recordSize : Nat}
    (hpos : 0 < recordSize) (baseChannelId : Int) (isFirst : Bool) :
    (id ≠ 0 ∧ setupMergeSortModule id recordSize baseChannelId isFirst =
      .error unsupportedStream) ∨
    (id = 0 ∧ SortFits ((recordSize + 15) / 16) recordSize ∧
      ∃ calls, setupMergeSortModule id recordSize baseChannelId isFirst =
        .ok calls) ∨
    (id = 0 ∧ ¬SortFits ((recordSize + 15) / 16) recordSize ∧
      ∃ what, setupMergeSortModule id recordSize baseChannelId isFirst =
        .error (.runtimeError what)) := by
  unfold setupMergeSortModule
  by_cases hid : id = 0
  · right
    simp only [hid, ne_eq, not_true_eq_false, if_false, true_and,
      calculateChunksPerRecord_natCast]
    rcases recordCountPerFetch_cases
      (Nat.div_pos (show 16 ≤ recordSize + 15 by omega) (by decide))
      (recordSize : Int) with ⟨hfits, hrun⟩ | ⟨hnot, what, hrun⟩
    · left
      refine ⟨hfits, ?_⟩
      rw [bind_eq_ok] at hrun
      obtain ⟨size, hsize, hfetch⟩ := hrun
      rw [hsize, ok_bind, hfetch, ok_bind]
      exact ⟨_, rfl⟩
    · right
      refine ⟨hnot, what, ?_⟩
      rw [bind_eq_error] at hrun
      rcases hrun with hsize | ⟨size, hsize, hfetch⟩
      · rw [hsize, error_bind]
      · rw [hsize, ok_bind, hfetch, error_bind]
  · left
    refine ⟨hid, ?_⟩
    simp only [ne_eq, hid, not_false_eq_true, if_true]
    rfl

/-! ## Stream 0 -/

/-- The heap with which the ids of a run are drawn. -/
def runHeap (e : ExecutionState) (run : List NodeId) : Heap :=
  (initialiseVectorSizes run e.run).heap

/-- The lane of input 0 of `n` begins with the first draw of the run. -/
def GetsFirstDraw (h : Heap) (nodes : List NodeId) (n : NodeId) : Prop :=
  ∃ r, (draws h nodes).head? = some r ∧ BeginsWith h (.input n 0) r

/-- The first node of a run draws first. -/
theorem getsFirstDraw_of_head {h : Heap} {nodes : List NodeId} {n : NodeId}
    (hhead : nodes.head? = some n)
    (hinput : 0 < (h n).inputDataDefinitionFiles.length)
    (hfree : (h n).previousNodes[0]? = some none) :
    GetsFirstDraw h nodes n := by
  obtain ⟨rest, rfl⟩ := List.head?_eq_some_iff.mp hhead
  obtain ⟨count, hcount⟩ := Nat.exists_eq_succ_of_ne_zero hinput.ne'
  have hfirst : (heads h n).head? = some (.input n 0) := by
    rw [heads, freeInputs, hcount, List.range_succ_eq_map, List.filter_cons,
      if_pos (by simp [hfree])]
    rfl
  refine ⟨.input n 0, ?_, ?_⟩
  · rw [draws, List.flatMap_cons, List.head?_append, hfirst]
    rfl
  · exact beginsWith_self (List.mem_of_mem_head? hfirst)

/-- A merge sort of a run has stream 0 on its input exactly when the lane of the
input begins with the first draw, as it does when the merge sort is the first
node of the run and reads from memory.  Then it is set up if its records fit;
otherwise the set-up throws. -/
theorem merge_sort_stream_iff (P : Plan) (lib : AcceleratorLibrary)
    (fuel : Nat) (data : DataManager) (resultSizes : Nat → List Int)
    {o : RunsState}
    (hrun : findAcceleratedQueryNodeSets lib fuel P.heap P.roots ∅ = .ok o)
    {j : Nat} {e : ExecutionState} {run : QueryNodeRun}
    (hexec : executedRuns data o.linkedNodes o.queryNodeRunsQueue resultSizes
      (ExecutionState.initial o.heap) j = .ok e)
    (hj : o.queryNodeRunsQueue[j]? = some run) {inputIds outputIds : IdMap}
    (halloc : allocateStreamIDs (runHeap e run.2)
      (createReferenceVector (runHeap e run.2) run.2) ∅ ∅ =
        .ok (inputIds, outputIds)) :
    ∀ n ∈ run.2, (P.heap n).operationType = .kMergeSort →
      0 < (runHeap e run.2 n).inputDataDefinitionFiles.length →
      ∃ id, entry inputIds (P.heap n).nodeName 0 = some id ∧
        (id = 0 ↔ GetsFirstDraw (runHeap e run.2) run.2 n) ∧
        (run.2.head? = some n →
          (runHeap e run.2 n).previousNodes[0]? = some none → id = 0) ∧
        ∀ (recordSize : Nat) baseChannelId isFirst, 0 < recordSize →
          (id ≠ 0 ∧ setupMergeSortModule id recordSize baseChannelId isFirst =
            .error unsupportedStream) ∨
          (id = 0 ∧ SortFits ((recordSize + 15) / 16) recordSize ∧ ∃ calls,
            setupMergeSortModule id recordSize baseChannelId isFirst =
              .ok calls) ∨
          (id = 0 ∧ ¬SortFits ((recordSize + 15) / 16) recordSize ∧ ∃ what,
            setupMergeSortModule id recordSize baseChannelId isFirst =
              .error (.runtimeError what)) := by
  have ho := (scheduled_of_run hrun).1
  have hmem : run ∈ o.queryNodeRunsQueue := List.mem_of_getElem? hj
  have hsame : SameButNext o.heap (runHeap e run.2) := by
    intro n
    rw [runHeap, initialiseVectorSizes_sameButNext run.2 e.run n,
      executedRuns_sameButNext hexec n]
  have hname : ∀ n, (runHeap e run.2 n).nodeName = (P.heap n).nodeName := by
    intro n
    rw [hsame n]
    exact ho.tracks.nodeName n
  have hnodup : run.2.Nodup := by
    have hall := ho.frontier.nodup
    rw [ho.runs] at hall
    exact (List.nodup_flatMap.mp hall).1 run hmem
  have hnames : (run.2.map fun n => (runHeap e run.2 n).nodeName).Nodup := by
    have hnode : ∀ n ∈ run.2, n ∈ P.nodes := by
      intro n hn
      refine ho.frontier.mem_nodes n ?_
      rw [ho.runs]
      exact List.mem_flatMap.mpr ⟨run, hmem, hn⟩
    refine hnodup.map_on ?_
    intro a ha b hb heq
    rw [hname, hname] at heq
    exact P.nameInjective a (hnode a ha) b (hnode b hb) heq
  obtain ⟨s, rfl, rfl, hs⟩ := traced_of_run hnames
    (fun n hn a ha => pointersInRuns_of_run hrun run hmem n hn a
      (by rwa [hsame n] at ha)) halloc
  intro n hn _ hinput
  have hvalid : (Port.input n 0).Valid (runHeap e run.2) run.2 := ⟨hn, hinput⟩
  obtain ⟨r, hr, -, hid⟩ := hs.traced _ hvalid
  obtain ⟨id, hdraw⟩ := List.mem_iff_getElem?.mp hr
  rw [hs.drawn.head_id hdraw] at hid
  have hiff : id = 0 ↔ GetsFirstDraw (runHeap e run.2) run.2 n := by
    have hzero := hs.id_eq_some_iff hvalid (i := 0)
    rw [hid, Option.some.injEq, ← List.head?_eq_getElem?] at hzero
    exact hzero
  refine ⟨id, ?_, hiff, ?_, ?_⟩
  · rw [← hname]
    exact hid
  · exact fun hhead hfree => hiff.mpr (getsFirstDraw_of_head hhead hinput hfree)
  · exact fun recordSize baseChannelId isFirst hpos =>
      setupMergeSortModule_cases id hpos baseChannelId isFirst

/-! ### A merge sort behind another root -/

def filterAndMergeSort : List QueryNode :=
  [{ inputDataDefinitionFiles := ["cars.csv"]
     outputDataDefinitionFiles := ["filtered.csv"]
     operationType := .kFilter
     nextNodes := [none]
     previousNodes := [none]
     operationParameters :=
       ⟨[[], [1], [2], [1]], [[], [1], [2], [1]], []⟩
     nodeName := "filter"
     isChecked := [false] },
   { inputDataDefinitionFiles := ["orders.csv"]
     outputDataDefinitionFiles := ["sorted.csv"]
     operationType := .kMergeSort
     nextNodes := [none]
     previousNodes := [none]
     operationParameters :=
       ⟨[[], [1], [2], [1]], [[], [1], [2], [1]], [[64, 8]]⟩
     nodeName := "sort"
     isChecked := [false] }]

def filterAndMergeSortPlan : Plan := .ofTable filterAndMergeSort rfl

/-- Bitstreams with a merge sort in the given module sets. -/
def mergeSortLibrary (moduleSets : List (List QueryOperationType)) :
    AcceleratorLibrary where
  supportedAcceleratorBitstreams := moduleSets.map fun types =>
    (types.map fun op => ⟨op, []⟩, "bitstream")
  existingModulesLibrary := [(.kFilter, [[]]), (.kMergeSort, [[]])]

/-- In a run of its own the merge sort has stream 0. -/
theorem merge_sort_stream_iff_alone :
    ∃ o e inputIds outputIds, ∃ run : QueryNodeRun,
      findAcceleratedQueryNodeSets
        (mergeSortLibrary [[.kFilter], [.kMergeSort]]) 16
        filterAndMergeSortPlan.heap filterAndMergeSortPlan.roots ∅ = .ok o ∧
      o.queryNodeRunsQueue[1]? = some run ∧
      allocateStreamIDs (runHeap e run.2)
        (createReferenceVector (runHeap e run.2) run.2) ∅ ∅ =
          .ok (inputIds, outputIds) ∧
      entry inputIds "sort" 0 = some 0 := by
  have hchecks : ((findAcceleratedQueryNodeSets
      (mergeSortLibrary [[.kFilter], [.kMergeSort]]) 16
      filterAndMergeSortPlan.heap filterAndMergeSortPlan.roots
      ∅).toOption.any fun o =>
        (executedRuns tenRows o.linkedNodes o.queryNodeRunsQueue
          (fun _ => List.replicate 16 4) (ExecutionState.initial o.heap)
          1).toOption.any fun e =>
        o.queryNodeRunsQueue[1]?.map (·.2) == some [1] &&
        (allocateStreamIDs (runHeap e [1])
          (createReferenceVector (runHeap e [1]) [1]) ∅ ∅).isOk &&
        decide (0 < (runHeap e [1] 1).inputDataDefinitionFiles.length ∧
          (runHeap e [1] 1).previousNodes[0]? = some none)) = true := by
    decide +kernel
  simp only [Option.any_eq_true, toOption_eq_some, Bool.and_eq_true,
    beq_iff_eq, decide_eq_true_eq, Option.map_eq_some_iff] at hchecks
  obtain ⟨o, hrun, e, hexec, ⟨⟨⟨modules, nodes⟩, hj, hnodes⟩, halloc⟩, hinput,
    hfree⟩ := hchecks
  obtain rfl : nodes = [1] := hnodes
  obtain ⟨⟨inputIds, outputIds⟩, halloc⟩ := exists_eq_ok halloc
  obtain ⟨id, hid, -, hzero, -⟩ := merge_sort_stream_iff
    filterAndMergeSortPlan _ 16 tenRows _ hrun hexec hj halloc 1
    (List.mem_singleton_self 1) rfl hinput
  refine ⟨o, e, inputIds, outputIds, _, hrun, hj, halloc, ?_⟩
  rw [hzero rfl hfree] at hid
  exact hid

/-- Behind the filter it has stream 1, and its set-up throws. -/
theorem merge_sort_stream_not_always_zero :
    ∃ o inputIds outputIds, ∃ run : QueryNodeRun,
      findAcceleratedQueryNodeSets
        (mergeSortLibrary [[.kFilter], [.kFilter, .kMergeSort]]) 16
        filterAndMergeSortPlan.heap filterAndMergeSortPlan.roots ∅ = .ok o ∧
      o.queryNodeRunsQueue[0]? = some run ∧ run.2 = [0, 1] ∧
      allocateStreamIDs (runHeap (ExecutionState.initial o.heap) run.2)
        (createReferenceVector (runHeap (ExecutionState.initial o.heap) run.2)
          run.2) ∅ ∅ = .ok (inputIds, outputIds) ∧
      (filterAndMergeSortPlan.heap 1).operationType = .kMergeSort ∧
      entry inputIds (filterAndMergeSortPlan.heap 1).nodeName 0 = some 1 ∧
      setupMergeSortModule 1 4 0 true = .error unsupportedStream := by
  have hchecks : ((findAcceleratedQueryNodeSets
      (mergeSortLibrary [[.kFilter], [.kFilter, .kMergeSort]]) 16
      filterAndMergeSortPlan.heap filterAndMergeSortPlan.roots
      ∅).toOption.any fun o =>
        o.queryNodeRunsQueue[0]?.any fun run => run.2 == [0, 1] &&
        (allocateStreamIDs (runHeap (ExecutionState.initial o.heap) run.2)
          (createReferenceVector
            (runHeap (ExecutionState.initial o.heap) run.2) run.2) ∅
          ∅).toOption.any fun ids => entry ids.1 "sort" 0 == some 1) = true := by
    decide +kernel
  simp only [Option.any_eq_true, toOption_eq_some, Bool.and_eq_true,
    beq_iff_eq] at hchecks
  obtain ⟨o, hrun, run, hj, hnodes, ⟨inputIds, outputIds⟩, halloc, hid⟩ :=
    hchecks
  exact ⟨o, inputIds, outputIds, run, hrun, hj, hnodes, halloc, rfl, hid, rfl⟩

end Orkhestra.Ports.MergeSortStream
