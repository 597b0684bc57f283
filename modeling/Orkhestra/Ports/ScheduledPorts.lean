import Orkhestra.Ports.PortVectors

/-!
# The ports of a run

The scheduler changes pointers and file names in place, so every node keeps its
number of ports and of files.  With that, the nodes of a run are a `Pipeline`
whose streams are the streams of the plan within the run.
-/

namespace Orkhestra.Ports.ScheduledPorts

open Orkhestra.Verified.Checked
open Orkhestra.Verified.Loop
open Orkhestra.Verified.Occurrence
open Orkhestra.Ports.QuerySchedulingData
open Orkhestra.Ports.NodeScheduler
open Orkhestra.Ports.SchedulePartition
open Orkhestra.Ports.ScheduleLinks
open Orkhestra.Ports.HandOver
open Orkhestra.Ports.ScheduledRuns
open Orkhestra.Ports.IDManager
open Orkhestra.Ports.QueryManager
open Orkhestra.Ports.PortVectors

variable {P : Plan} {lib : AcceleratorLibrary} {fuel : Nat} {o : RunsState}

/-! ## Numbers of ports -/

/-- Numbers of inputs and outputs, by pointers and by files. -/
def portCounts (node : QueryNode) : List Nat :=
  [node.previousNodes.length, node.nextNodes.length,
    node.inputDataDefinitionFiles.length, node.outputDataDefinitionFiles.length]

/-- All nodes have as many ports as before. -/
def SameCounts (h h' : Heap) : Prop := ∀ n, portCounts (h' n) = portCounts (h n)

theorem SameCounts.trans {h h' h'' : Heap} (hs : SameCounts h h')
    (hs' : SameCounts h' h'') : SameCounts h h'' :=
  fun n => (hs' n).trans (hs n)

theorem sameCounts_modify {h : Heap} {n : NodeId} {f : QueryNode → QueryNode}
    (hf : portCounts (f (h n)) = portCounts (h n)) :
    SameCounts h (h.modify n f) := by
  intro m
  by_cases hm : m = n
  · subst hm
    rw [Heap.modify_same, hf]
  · rw [Heap.modify_of_ne h hm]

theorem sameCounts_of_output {nodes : List NodeId} {a : NodeId}
    {s s' : Heap × TargetMaps} {k : Nat} (hstep : OutputStep nodes a s k s') :
    SameCounts s.1 s'.1 := by
  cases hstep with
  | kept | within | linked => exact fun _ => rfl
  | named =>
      exact sameCounts_modify (by simp [portCounts])
  | filed n m f =>
      dsimp only
      refine (sameCounts_modify (n := n) (f := fun node => { node with
        inputDataDefinitionFiles :=
          (s.1 n).inputDataDefinitionFiles.set m f }) ?_).trans
        (sameCounts_modify ?_)
      · simp [portCounts]
      · by_cases han : a = n
        · subst han
          simp [portCounts]
        · simp [portCounts, Heap.modify_of_ne _ han]

/-- Removing the edges that leave a run keeps the ports. -/
theorem sameCounts_of_links {nodes : List NodeId} {h h' : Heap}
    {links links' : LinkedNodes}
    (hrun : checkExternalLinks h nodes links = .ok (h', links')) :
    SameCounts h h' := by
  refine foldlM_invariant (fun _ s => SameCounts h s.1) nodes (fun _ => rfl) ?_
    hrun
  intro before a after s s' hsplit hs hbody
  simp only [checkExternalLinksOf, bind_eq_ok, Except.ok.injEq] at hbody
  obtain ⟨⟨g, targets⟩, hloop, rfl⟩ := hbody
  have ha : a ∈ nodes := by simp [hsplit]
  have hg : SameCounts s.1 g := by
    refine foldlM_invariant (fun _ t => SameCounts s.1 t.1) _ (fun _ => rfl) ?_
      hloop
    intro _ k _ t t' _ ht hstep
    exact ht.trans (sameCounts_of_output (checkNextNode_cases ha hstep))
  refine hs.trans (hg.trans (sameCounts_modify ?_))
  simp [portCounts, clearPreviousNodes]

/-- A schedule keeps the ports of the plan. -/
theorem sameCounts_of_run {links : LinkedNodes}
    (hrun : findAcceleratedQueryNodeSets lib fuel P.heap P.roots links =
      .ok o) : SameCounts P.heap o.heap := by
  refine (iterate_invariant
    (fun o => Scheduled P lib o ∧ SameCounts P.heap o.heap)
    (fun o => SameCounts P.heap o.heap) ?_ ?_
    ⟨Scheduled.initial P lib links, fun _ => rfl⟩ hrun)
  · rintro o o' ⟨ho, hs⟩ hbody
    refine ⟨(ho.step hbody).1, hs.trans ?_⟩
    obtain ⟨s, -, hgrown, -, hlinks, -⟩ := ho.run_of_step hbody
    refine SameCounts.trans (fun n => ?_) (sameCounts_of_links hlinks)
    rw [hgrown.located n]
    rfl
  · rintro o o' ⟨-, hs⟩ hbody
    obtain ⟨-, rfl⟩ := findNextRun_done hbody
    exact hs

theorem SameCounts.lengths {h h' : Heap} (hs : SameCounts h h') (n : NodeId) :
    (h' n).previousNodes.length = (h n).previousNodes.length ∧
    (h' n).nextNodes.length = (h n).nextNodes.length ∧
    (h' n).inputDataDefinitionFiles.length =
      (h n).inputDataDefinitionFiles.length ∧
    (h' n).outputDataDefinitionFiles.length =
      (h n).outputDataDefinitionFiles.length := by
  simpa [portCounts] using hs n

/-! ## The nodes of a run -/

section Edges

variable {run done : List NodeId} {a n : NodeId} {k : Nat}

theorem getElem?_clearNextNodes {run : List NodeId} {node : QueryNode} :
    (clearNextNodes run node).nextNodes[k]? = some (some n) ↔
      node.nextNodes[k]? = some (some n) ∧ n ∈ run := by
  rw [clearNextNodes, List.getElem?_map, Option.map_eq_some_iff]
  constructor
  · rintro ⟨pointer, hpointer, heq⟩
    split at heq
    · cases heq
    · next hin =>
        subst heq
        exact ⟨hpointer, by simpa [isNodeMissingFromTheVector] using hin⟩
  · rintro ⟨hpointer, hin⟩
    exact ⟨some n, hpointer, by simp [isNodeMissingFromTheVector, hin]⟩

/-- The pointers of a node of a run lead to its consumers in the run. -/
theorem nextNodes_of_run (hf : Finished P o) (hr : RunOf P o done run)
    {h : Heap} (hheap : ∀ b ∈ run, h b = clearNextNodes run (o.heap b))
    (ha : a ∈ run) {j : Nat} {b : NodeId} :
    (h a).nextNodes[j]? = some (some b) ↔
      (P.heap a).nextNodes[j]? = some (some b) ∧ b ∈ run := by
  have hmem := (hf.mem_iff a).mpr (hr.run_mem ha)
  rw [hheap a ha, getElem?_clearNextNodes]
  constructor
  · rintro ⟨hj, hb⟩
    exact ⟨hf.handedOver.next_only a hmem j b hj, hb⟩
  · rintro ⟨hj, hb⟩
    exact ⟨hf.handedOver.uncut a hmem j b hj
      (.inl ((hr.same_run_iff a ha b).mpr hb)), hb⟩

/-- Each consumer in the run has its own name and one pointer. -/
theorem consumer_unique_of_run (hf : Finished P o) (hr : RunOf P o done run)
    {h : Heap} (hheap : ∀ b ∈ run, h b = clearNextNodes run (o.heap b))
    (ha : a ∈ run) (hn : n ∈ run) :
    (∀ b, some b ∈ (h a).nextNodes → (h b).nodeName = (h n).nodeName → b = n) ∧
      (h a).nextNodes.count (some n) ≤ 1 := by
  have hname : ∀ b ∈ run, (h b).nodeName = (P.heap b).nodeName := by
    intro b hb
    rw [hheap b hb]
    exact hf.nodeName b
  constructor
  · intro b hb heq
    obtain ⟨j, hj⟩ := List.mem_iff_getElem?.mp hb
    have hbrun := ((nextNodes_of_run hf hr hheap ha).mp hj).2
    rw [hname b hbrun, hname n hn] at heq
    exact P.nameInjective b (hr.run_mem hbrun) n (hr.run_mem hn) heq
  · refine count_le_one_of_index_unique fun i j hi hj => ?_
    exact (hf.single a (hr.run_mem ha)).1.index_unique
      ((nextNodes_of_run hf hr hheap ha).mp hi).1
      ((nextNodes_of_run hf hr hheap ha).mp hj).1

end Edges

/-- The nodes of the run `run` as its set-up leaves them in `h`. -/
structure RunHeap (P : Plan) (o : RunsState) (run : List NodeId) (h : Heap) :
    Prop where
  nodeName : ∀ n, (h n).nodeName = (P.heap n).nodeName
  node : ∀ n ∈ run, h n = clearNextNodes run (o.heap n)

section RunHeap

variable {done run : List NodeId} {h : Heap} {a n : NodeId} {k m : Nat}

/-- A run keeps its pointers to consumers in the run. -/
theorem RunHeap.next_iff (hh : RunHeap P o run h) (hf : Finished P o)
    (hr : RunOf P o done run) (ha : a ∈ run) :
    (h a).nextNodes[k]? = some (some n) ↔
      (P.heap a).nextNodes[k]? = some (some n) ∧ n ∈ run :=
  nextNodes_of_run hf hr hh.node ha

/-- A run keeps its pointers to producers in the run. -/
theorem RunHeap.previous_iff (hh : RunHeap P o run h) (hf : Finished P o)
    (hr : RunOf P o done run) (hn : n ∈ run) :
    (h n).previousNodes[m]? = some (some a) ↔
      (P.heap n).previousNodes[m]? = some (some a) ∧ a ∈ run := by
  have hscheduled := (hf.mem_iff n).mpr (hr.run_mem hn)
  have hsame : SameRun o.queryNodeRunsQueue a n ↔ a ∈ run :=
    ⟨fun h => (hr.same_run_iff n hn a).mp h.symm,
      fun h => ((hr.same_run_iff n hn a).mpr h).symm⟩
  rw [hh.node n hn, clearNextNodes]
  constructor
  · intro hm
    obtain ⟨hplan, hrun⟩ := hf.handedOver.cleared n hscheduled m a hm
    exact ⟨hplan, hsame.mp hrun⟩
  · rintro ⟨hm, ha⟩
    exact hf.handedOver.kept n hscheduled m a hm (hsame.mpr ha)

/-- The streams of a run are streams of the plan. -/
theorem RunHeap.stream_iff (hh : RunHeap P o run h) (hf : Finished P o)
    (hr : RunOf P o done run) (ha : a ∈ run) (hn : n ∈ run) :
    Stream h a k n m ↔ Stream P.heap a k n m := by
  constructor
  · rintro ⟨hk, hm⟩
    exact ⟨((hh.next_iff hf hr ha).mp hk).1, ((hh.previous_iff hf hr hn).mp hm).1⟩
  · rintro ⟨hk, hm⟩
    exact ⟨(hh.next_iff hf hr ha).mpr ⟨hk, hn⟩,
      (hh.previous_iff hf hr hn).mpr ⟨hm, ha⟩⟩

theorem RunHeap.lengths (hh : RunHeap P o run h)
    (hcounts : SameCounts P.heap o.heap) (hn : n ∈ run) :
    (h n).previousNodes.length = (P.heap n).previousNodes.length ∧
    (h n).nextNodes.length = (P.heap n).nextNodes.length ∧
    (h n).inputDataDefinitionFiles.length =
      (P.heap n).inputDataDefinitionFiles.length ∧
    (h n).outputDataDefinitionFiles.length =
      (P.heap n).outputDataDefinitionFiles.length := by
  rw [hh.node n hn]
  simpa [clearNextNodes] using hcounts.lengths n

/-- Counts that are at most one are equal when both elements are there. -/
theorem count_eq_of_mem_iff {pointers pointers' : List (Option NodeId)}
    (hle : pointers.count (some n) ≤ 1) (hle' : pointers'.count (some a) ≤ 1)
    (hmem : some n ∈ pointers ↔ some a ∈ pointers') :
    pointers.count (some n) = pointers'.count (some a) := by
  rw [← List.count_pos_iff, ← List.count_pos_iff] at hmem
  omega

/-- The nodes of a run form a pipeline. -/
theorem pipeline_of_run (hh : RunHeap P o run h) (hf : Finished P o)
    (hr : RunOf P o done run) (hcounts : SameCounts P.heap o.heap)
    (hfiles : FilesMatchPorts P.heap run) : Pipeline h run := by
  have hnext : ∀ a ∈ run, ∀ n, some n ∈ (h a).nextNodes ↔
      some n ∈ (P.heap a).nextNodes ∧ n ∈ run := by
    intro a ha n
    simp only [List.mem_iff_getElem?, hh.next_iff hf hr ha]
    exact exists_and_right
  have hprevious : ∀ n ∈ run, ∀ a, some a ∈ (h n).previousNodes ↔
      some a ∈ (P.heap n).previousNodes ∧ a ∈ run := by
    intro n hn a
    simp only [List.mem_iff_getElem?, hh.previous_iff hf hr hn]
    exact exists_and_right
  have hsingle : ∀ a ∈ run, ∀ b, (h a).nextNodes.count (some b) ≤ 1 := by
    intro a ha b
    refine count_le_one_of_index_unique fun i j hi hj => ?_
    exact (hf.single a (hr.run_mem ha)).1.index_unique
      ((hh.next_iff hf hr ha).mp hi).1 ((hh.next_iff hf hr ha).mp hj).1
  have hsingle' : ∀ b ∈ run, ∀ a, (h b).previousNodes.count (some a) ≤ 1 := by
    intro b hb a
    refine count_le_one_of_index_unique fun i j hi hj => ?_
    exact (hf.single b (hr.run_mem hb)).2.index_unique
      ((hh.previous_iff hf hr hb).mp hi).1 ((hh.previous_iff hf hr hb).mp hj).1
  refine ⟨?_, ?_, ?_, ?_, fun a ha b _ => hsingle a ha b, ?_, ?_⟩
  · refine List.Nodup.map_on ?_ hr.run_nodup
    intro a ha b hb heq
    rw [hh.nodeName, hh.nodeName] at heq
    exact P.nameInjective a (hr.run_mem ha) b (hr.run_mem hb) heq
  · intro a ha b hb c hc heq
    rw [hh.nodeName, hh.nodeName] at heq
    have hb' := ((hnext a ha b).mp hb).2
    exact P.nameInjective b (hr.run_mem hb') c (hr.run_mem hc) heq
  · intro before n after hsplit a ha
    have hn : n ∈ run := by simp [hsplit]
    refine hr.ordered hf hsplit ?_
    rw [hh.node n hn, clearNextNodes] at ha
    exact ha
  · intro a ha b hb
    refine count_eq_of_mem_iff (hsingle a ha b) (hsingle' b hb a) ?_
    rw [hnext a ha, hprevious b hb,
      P.consistent a (hr.run_mem ha) b (hr.run_mem hb)]
    simp [ha, hb]
  · intro n hn
    obtain ⟨hprev, -, hin, -⟩ := hh.lengths hcounts hn
    rw [hprev, hin, (hfiles n hn).1]
  · intro n hn
    obtain ⟨-, hnext, -, hout⟩ := hh.lengths hcounts hn
    rw [hnext, hout, (hfiles n hn).2]

end RunHeap

end Orkhestra.Ports.ScheduledPorts
