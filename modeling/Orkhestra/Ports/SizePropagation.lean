import Orkhestra.Ports.MergeSortStream
import Orkhestra.Ports.ParallelEdges
import Orkhestra.Ports.ScheduledPorts

/-!
# The size of an input

The query manager gives an input that is fed in its run the size of the output
that feeds it.  It searches the pointers of the producer for the node of the
input and dereferences each one on its way, although the pointers to consumers
outside of the run have been nulled.  An output behind such a pointer is never
reached.
-/

namespace Orkhestra.Ports.SizePropagation

open Orkhestra.Verified.Checked
open Orkhestra.Verified.Loop
open Orkhestra.Verified.Occurrence
open Orkhestra.Verified.VectorMap
open Orkhestra.Ports.QuerySchedulingData
open Orkhestra.Ports.NodeScheduler
open Orkhestra.Ports.SchedulePartition
open Orkhestra.Ports.ScheduleLinks
open Orkhestra.Ports.HandOver
open Orkhestra.Ports.ScheduledRuns
open Orkhestra.Ports.IDManager
open Orkhestra.Ports.QueryManager
open Orkhestra.Ports.RunSetup
open Orkhestra.Ports.MemoryConservation
open Orkhestra.Ports.PortVectors
open Orkhestra.Ports.StreamLanes
open Orkhestra.Ports.MergeSortStream
open Orkhestra.Ports.ParallelEdges
open Orkhestra.Ports.ScheduledPorts

/-! ## The search -/

/-- The search for the only pointer to a node dereferences a null pointer
exactly when there is one before it. -/
theorem findConsumer_safe_iff {h : Heap} {pointers : List (Option NodeId)}
    {n : NodeId} {k i : Nat}
    (hname : ∀ b, some b ∈ pointers → (h b).nodeName = (h n).nodeName → b = n)
    (hsingle : pointers.count (some n) ≤ 1)
    (hk : pointers[k]? = some (some n)) :
    findConsumer h (h n) pointers i ≠ .error .undefined ↔
      ∀ j < k, pointers[j]? ≠ some none := by
  constructor
  · intro hsafe
    induction pointers generalizing k i with
    | nil => cases hk
    | cons pointer rest ih =>
        cases k with
        | zero => simp
        | succ k =>
            rw [List.getElem?_cons_succ] at hk
            cases pointer with
            | none => exact absurd rfl hsafe
            | some b =>
                have hne : h n ≠ h b := by
                  intro heq
                  have hbn := hname b List.mem_cons_self (by rw [heq])
                  subst hbn
                  have := index_unique_of_count hsingle
                    (List.getElem?_cons_zero)
                    ((List.getElem?_cons_succ ..).trans hk)
                  omega
                rw [findConsumer, if_neg (by simpa using hne)] at hsafe
                have hrest := ih
                  (fun b hb => hname b (List.mem_cons_of_mem _ hb))
                  ((List.sublist_cons_self _ _).count_le _ |>.trans hsingle) hk
                  hsafe
                intro j hj
                cases j with
                | zero => simp
                | succ j =>
                    rw [List.getElem?_cons_succ]
                    exact hrest j (by omega)
  · intro hbefore
    rw [findConsumer_eq hname hsingle hk hbefore]
    intro herror
    cases herror

/-! ## One edge -/

/-- For the edge from output `k` of `a` to input `m` of `n`: the search of
`AllocateInputMemoryBlocks` dereferences no null pointer, the iteration of the
input gives it the size of the output, and the input has this size when the
function returns. -/
structure SizePropagated (data : DataManager) (t : RunData) (a : NodeId)
    (k : Nat) (n : NodeId) (m : Nat) : Prop where
  safe : findConsumer t.heap (t.heap n) (t.heap a).nextNodes 0 ≠
    .error .undefined
  size : ∃ size, entry t.outputStreamSizes (t.heap a).nodeName k = some size ∧
    (∀ s : StreamData, m < s.sizes.length →
      allocateInputMemoryBlock data t.heap (t.heap n) t.outputStreamSizes s m =
        .ok ⟨s.memory, s.blocks, s.sizes.set m size⟩) ∧
    ∀ s s', allocateInputMemoryBlocks data t.heap (t.heap n)
      t.outputStreamSizes s = .ok s' → s'.sizes[m]? = some size

section Edge

variable {data : DataManager} {t : RunData} {a n : NodeId} {k m : Nat}

theorem sizePropagated_iff
    (hname : ∀ b, some b ∈ (t.heap a).nextNodes →
      (t.heap b).nodeName = (t.heap n).nodeName → b = n)
    (hsingle : (t.heap a).nextNodes.count (some n) ≤ 1)
    (hk : (t.heap a).nextNodes[k]? = some (some n))
    (hm : (t.heap n).previousNodes[m]? = some (some a)) :
    SizePropagated data t a k n m ↔
      (∀ j < k, (t.heap a).nextNodes[j]? ≠ some none) ∧
        entry t.outputStreamSizes (t.heap a).nodeName k ≠ none := by
  rw [← findConsumer_safe_iff hname hsingle hk (i := 0)]
  constructor
  · rintro ⟨hsafe, size, hentry, -⟩
    exact ⟨hsafe, by simp [hentry]⟩
  rintro ⟨hsafe, hentry⟩
  obtain ⟨size, hentry⟩ := Option.ne_none_iff_exists'.mp hentry
  have hfound := findConsumer_eq hname hsingle hk
    ((findConsumer_safe_iff hname hsingle hk).mp hsafe) (i := 0)
  rw [Nat.zero_add] at hfound
  refine ⟨hsafe, size, hentry, ?_, ?_⟩
  · intro s hroom
    obtain ⟨producerSizes, hsizes⟩ : ∃ producerSizes,
        t.outputStreamSizes[(t.heap a).nodeName]? = some producerSizes := by
      refine Option.ne_none_iff_exists'.mp fun hnone => ?_
      rw [entry_eq_none hnone] at hentry
      cases hentry
    have hread : readAt producerSizes k = .ok size := by
      rw [readAt_eq_ok, ← entry_eq hsizes]
      exact hentry
    rw [allocateInputMemoryBlock, readAt_eq_ok.mpr hm, ok_bind]
    dsimp only
    rw [hfound, ok_bind]
    dsimp only
    rw [mapAt_eq_ok.mpr hsizes, ok_bind, hread, ok_bind,
      writeAt_eq_ok.mpr ⟨hroom, rfl⟩, ok_bind]
  · intro s s' hrun
    obtain ⟨size', hentry', hsize⟩ := (inputsBacked_of_run hrun).fed m
      (List.getElem?_eq_some_iff.mp hm).1 a k hm hfound
    rw [hsize, ← hentry', hentry]

end Edge

/-! ## The edges of a run -/

theorem entry_ne_none_iff {β : Type} {m : Std.TreeMap String (List β)}
    {name : String} {length i : Nat} (h : lengthOf m name = some length) :
    entry m name i ≠ none ↔ i < length := by
  refine ⟨fun hentry => ?_, entry_ne_none_of_lengthOf h⟩
  rw [lengthOf, Option.map_eq_some_iff] at h
  obtain ⟨xs, hxs, rfl⟩ := h
  rwa [entry_eq hxs, ne_eq, List.getElem?_eq_none_iff, Nat.not_le] at hentry

/-- Within a run, the size of output `k` reaches the input that it feeds exactly
when every output before it has its consumer in the run, and the node has an
input `k`. -/
theorem size_propagated_iff (P : Plan) (lib : AcceleratorLibrary) (fuel : Nat)
    (data : DataManager) (resultSizes : Nat → List Int) {o : RunsState}
    {j : Nat} {e : ExecutionState} {run : QueryNodeRun} (t : RunData)
    (hsingle : P.SingleEdges)
    (hrun : findAcceleratedQueryNodeSets lib fuel P.heap P.roots ∅ = .ok o)
    (hexec : executedRuns data o.linkedNodes o.queryNodeRunsQueue resultSizes
      (ExecutionState.initial o.heap) j = .ok e)
    (hj : o.queryNodeRunsQueue[j]? = some run)
    (ht : SameVectors (initialiseVectorSizes run.2 e.run) t)
    {a n : NodeId} (ha : a ∈ run.2) (hn : n ∈ run.2) {k m : Nat}
    (hstream : Stream P.heap a k n m) :
    SizePropagated data t a k n m ↔
      (∀ i < k, ∃ b ∈ run.2, (P.heap a).nextNodes[i]? = some (some b)) ∧
        k < (P.heap a).previousNodes.length := by
  have hf := finished_of_run hsingle hrun
  have hr := runOf_of_run hrun (take_append_drop hj)
  obtain ⟨hall, hmem⟩ := runNodes_nodup_of_run hf hrun
  obtain ⟨he, -⟩ := betweenRuns_of_run (named_of_finished hf) hall hmem hexec
  have hinit := runInitialised (named_of_finished hf) he hr.nodup
    fun b hb => hr.run_mem hb
  have hheap : ∀ b ∈ run.2, t.heap b = clearNextNodes run.2 (o.heap b) := by
    intro b hb
    rw [ht.heap, initialiseVectorSizes_heap hr.run_nodup, if_pos hb,
      he.pending b (hr.not_done hb)]
  obtain ⟨hunique, hcount⟩ := consumer_unique_of_run hf hr hheap ha hn
  have hpointer := (nextNodes_of_run hf hr hheap ha).mpr ⟨hstream.1, hn⟩
  have hprevious : (t.heap n).previousNodes[m]? = some (some a) := by
    rw [hheap n hn]
    exact hf.handedOver.kept n ((hf.mem_iff n).mpr (hr.run_mem hn)) m a
      hstream.2 ((hr.same_run_iff a ha n).mpr hn)
  rw [sizePropagated_iff hunique hcount hpointer hprevious]
  refine and_congr ?_ ?_
  · -- The pointers before `k` that are not null lead to nodes of the run.
    refine forall₂_congr fun i hi => ?_
    have hlt := hi.trans (List.getElem?_eq_some_iff.mp hpointer).1
    constructor
    · intro hnull
      cases hget : (t.heap a).nextNodes[i] with
      | none => exact absurd ((List.getElem?_eq_getElem hlt).trans
          (congrArg some hget)) hnull
      | some b =>
          have hb := (nextNodes_of_run hf hr hheap ha).mp
            ((List.getElem?_eq_getElem hlt).trans (congrArg some hget))
          exact ⟨b, hb.2, hb.1⟩
    · rintro ⟨b, hb, hi⟩ hnull
      rw [(nextNodes_of_run hf hr hheap ha).mpr ⟨hi, hb⟩] at hnull
      cases hnull
  · have hlength : lengthOf t.outputStreamSizes (t.heap a).nodeName =
        some (P.heap a).previousNodes.length := by
      rw [lengthOf, ht.outputSizes, hheap a ha,
        ← ((sameCounts_of_run hrun).lengths a).1]
      exact hinit.outputSizes a ha
    exact entry_ne_none_iff hlength

/-! ### A filter and a sort in one run -/

/-- The sort is given the size of the only output of the filter. -/
theorem size_propagated_iff_filterThenSort :
    ∃ o, ∃ run : QueryNodeRun, findAcceleratedQueryNodeSets
        (libraryOf [[.kFilter], [.kFilter, .kLinearSort]]) 16
        filterThenSortPlan.heap filterThenSortPlan.roots ∅ = .ok o ∧
      o.queryNodeRunsQueue[0]? = some run ∧ run.2 = [0, 1] ∧
      SizePropagated tenRows (initialiseVectorSizes run.2
        (ExecutionState.initial o.heap).run) 0 0 1 0 := by
  have hchecks : ((findAcceleratedQueryNodeSets
      (libraryOf [[.kFilter], [.kFilter, .kLinearSort]]) 16
      filterThenSortPlan.heap filterThenSortPlan.roots ∅).toOption.any fun o =>
        o.queryNodeRunsQueue[0]?.map (·.2) == some [0, 1]) = true := by
    decide +kernel
  simp only [Option.any_eq_true, toOption_eq_some, beq_iff_eq,
    Option.map_eq_some_iff] at hchecks
  obtain ⟨o, hrun, run, hj, hnodes⟩ := hchecks
  refine ⟨o, run, hrun, hj, hnodes, ?_⟩
  refine (size_propagated_iff filterThenSortPlan _ 16 tenRows (fun _ => [])
    _ (by decide) hrun rfl hj .rfl (by simp [hnodes]) (by simp [hnodes])
    (by decide)).mpr ⟨?_, by decide⟩
  exact fun i hi => absurd hi (Nat.not_lt_zero i)

/-! ### A join with a second output

The first output of the join is a file; the second one feeds the filter.
-/

def joinThenFilter : List QueryNode :=
  [{ inputDataDefinitionFiles := ["cars.csv", "owners.csv"]
     outputDataDefinitionFiles := ["joined.csv", ""]
     operationType := .kJoin
     nextNodes := [none, some 1]
     previousNodes := [none, none]
     operationParameters :=
       ⟨[[], [1], [2], [1], [], [1], [2], [1]],
         [[], [1], [2], [1], [], [1], [2], [1]], []⟩
     nodeName := "join"
     isChecked := [false, false] },
   { inputDataDefinitionFiles := [""]
     outputDataDefinitionFiles := ["filtered.csv"]
     operationType := .kFilter
     nextNodes := [none]
     previousNodes := [some 0]
     operationParameters :=
       ⟨[[], [1], [2], [1]], [[], [1], [2], [1]], []⟩
     nodeName := "filter"
     isChecked := [true] }]

def joinThenFilterPlan : Plan := .ofTable joinThenFilter rfl

/-- The search for the filter dereferences the null pointer of the first
output. -/
theorem size_not_always_propagated :
    ¬∀ (P : Plan) (lib : AcceleratorLibrary) (fuel : Nat) (data : DataManager)
      (resultSizes : Nat → List Int) (o : RunsState) (j : Nat)
      (e : ExecutionState) (run : QueryNodeRun) (t : RunData),
      P.SingleEdges →
      findAcceleratedQueryNodeSets lib fuel P.heap P.roots ∅ = .ok o →
      executedRuns data o.linkedNodes o.queryNodeRunsQueue resultSizes
        (ExecutionState.initial o.heap) j = .ok e →
      o.queryNodeRunsQueue[j]? = some run →
      SameVectors (initialiseVectorSizes run.2 e.run) t →
      ∀ a ∈ run.2, ∀ n ∈ run.2, ∀ k m, Stream P.heap a k n m →
        SizePropagated data t a k n m := by
  intro hall
  have hchecks : ((findAcceleratedQueryNodeSets
      (libraryOf [[.kJoin], [.kJoin, .kFilter]]) 16 joinThenFilterPlan.heap
      joinThenFilterPlan.roots ∅).toOption.any fun o =>
        o.queryNodeRunsQueue[0]?.map (·.2) == some [0, 1] &&
        ((initialiseVectorSizes [0, 1]
          (ExecutionState.initial o.heap).run).heap 0).nextNodes ==
            [none, some 1]) = true := by decide +kernel
  simp only [Option.any_eq_true, toOption_eq_some, Bool.and_eq_true,
    beq_iff_eq, Option.map_eq_some_iff] at hchecks
  obtain ⟨o, hrun, ⟨run, hj, hnodes⟩, hnext⟩ := hchecks
  have hsafe := (hall joinThenFilterPlan _ 16 tenRows (fun _ => []) o 0 _ run _
    (by decide) hrun rfl hj .rfl 0 (by simp [hnodes]) 1 (by simp [hnodes]) 1 0
    (by decide)).safe
  rw [hnodes, hnext] at hsafe
  exact hsafe rfl

end Orkhestra.Ports.SizePropagation
