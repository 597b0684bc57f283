import Orkhestra.Ports.FirstInputs
import Orkhestra.Ports.SchedulablePlans
import Orkhestra.Ports.SetUpAccesses
import Orkhestra.Ports.SizePropagation

/-!
# Streams that are kept apart

Every input is given the stream of its own output: between two runs a link or a
file, within a run its id and its size.  The searches find the two ends of an
edge when there is no second edge between its nodes, and when the outputs that
stay in the run come first.  Besides, the set-up of a run with an edge has to
stay within its vectors, so that there is a stream to be given.
-/

namespace Orkhestra.Ports.KeptApart

open Orkhestra.Verified.Checked
open Orkhestra.Verified.DefinedBehaviour
open Orkhestra.Verified.Loop
open Orkhestra.Verified.Occurrence
open Orkhestra.Verified.VectorMap
open Orkhestra.Ports.QuerySchedulingData
open Orkhestra.Ports.NodeScheduler
open Orkhestra.Ports.SchedulePartition
open Orkhestra.Ports.ScheduleLinks
open Orkhestra.Ports.SchedulablePlans
open Orkhestra.Ports.HandOver
open Orkhestra.Ports.ScheduledRuns
open Orkhestra.Ports.IDManager
open Orkhestra.Ports.QueryManager
open Orkhestra.Ports.RunSetup
open Orkhestra.Ports.StreamLanes
open Orkhestra.Ports.MemoryConservation
open Orkhestra.Ports.PortVectors
open Orkhestra.Ports.ScheduledPorts
open Orkhestra.Ports.FirstInputs
open Orkhestra.Ports.ParallelEdges
open Orkhestra.Ports.SizePropagation
open Orkhestra.Ports.SetUpAccesses

/-! ## Streams of a plan are kept apart -/

/-- The graph creator compares the numbers of input files and of producers, if
producers are given, and has a flag for each output file. -/
def FilesCounted (P : Plan) : Prop :=
  ∀ n ∈ P.nodes,
    ((P.heap n).previousNodes = [] ∨ (P.heap n).previousNodes.length =
      (P.heap n).inputDataDefinitionFiles.length) ∧
    (P.heap n).isChecked.length = (P.heap n).outputDataDefinitionFiles.length

instance (P : Plan) : Decidable (FilesCounted P) :=
  inferInstanceAs (Decidable (∀ n ∈ P.nodes, _ ∧ _))

/-- Output `k` of `a` is handed over to input `m` of `n` by a link or by a
file, and not by both. -/
def HandedTo (P : Plan) (o : RunsState) (a : NodeId) (k : Nat) (n : NodeId)
    (m : Nat) : Prop :=
  linkedTargets o.linkedNodes (P.heap a).nodeName k =
      some (targetOf P.heap n m) ∧
    (o.heap n).inputDataDefinitionFiles[m]? = some "" ∨
  linkedTargets o.linkedNodes (P.heap a).nodeName k = none ∧
    ∃ f, f ≠ "" ∧ (o.heap a).outputDataDefinitionFiles[k]? = some f ∧
      (o.heap n).inputDataDefinitionFiles[m]? = some f

/-- Input `m` of `q` has the id, the record size and the record count of output
`k` of `q'`. -/
def TakesOver (q' : AcceleratedQueryNode) (k : Nat) (q : AcceleratedQueryNode)
    (m : Nat) : Prop :=
  ∃ output input, q'.outputStreams[k]? = some output ∧
    q.inputStreams[m]? = some input ∧ input.streamId = output.streamId ∧
    input.streamRecordSize = output.streamRecordSize ∧
    input.streamRecordCount = output.streamRecordCount

/-- Both managers find output `k` of `a` for the input of `n` that it feeds. -/
def Finds (h : Heap) (a : NodeId) (k : Nat) (n : NodeId) : Prop :=
  findStreamIndex h (h a).nextNodes (h n) = .ok k ∧
    findConsumer h (h n) (h a).nextNodes 0 = .ok (some k)

/-- Some input of the run is fed by an output of the run. -/
def FedWithin (P : Plan) (run : List NodeId) : Prop :=
  ∃ n ∈ run, ∃ a ∈ run, some a ∈ (P.heap n).previousNodes

/-- The elements that the set-up accesses for the node `b` exist: a pointer for
each input file, an id for each output that feeds an input of the run, a size
for each output and a block for each output file. -/
structure ElementsExist (t : RunData) (b : NodeId) : Prop where
  pointers : (t.heap b).inputDataDefinitionFiles.length ≤
    (t.heap b).previousNodes.length
  ids : ∀ k n, (t.heap b).nextNodes[k]? = some (some n) →
    k < (t.heap b).outputDataDefinitionFiles.length
  sizes : ∀ k < (t.heap b).nextNodes.length,
    entry t.outputStreamSizes (t.heap b).nodeName k ≠ none
  blocks : ∀ k < (t.heap b).outputDataDefinitionFiles.length,
    entry t.outputMemoryBlocks (t.heap b).nodeName k ≠ none

/-- Data with the nodes of the run as the schedule leaves them and without
outputs of an earlier run. -/
structure BeforeRun (o : RunsState) (run : List NodeId) (r : RunData) :
    Prop where
  heap : ∀ b ∈ run, r.heap b = o.heap b
  outputBlocks : r.outputMemoryBlocks = ∅
  outputSizes : r.outputStreamSizes = ∅

/-- Between runs every input is handed its own output and nothing else is handed
over.  Within a run the managers find the own output of every input, and
whatever the vectors hold while the run is set up, the elements that are
accessed exist and the input is given the size of its output; so the set-up
returns or throws, and when it returns every input has taken over its stream. -/
structure StreamsKeptApart (P : Plan) (o : RunsState) : Prop where
  handed : ∀ n ∈ P.nodes, ∀ (m : Nat) a,
    (P.heap n).previousNodes[m]? = some (some a) →
    ¬SameRun o.queryNodeRunsQueue a n →
    ∃ k, OwnStream P.heap a k n m ∧ HandedTo P o a k n m
  linked_only : ∀ a ∈ P.nodes, ∀ k targets,
    linkedTargets o.linkedNodes (P.heap a).nodeName k = some targets →
    ∃ n m, targets = targetOf P.heap n m ∧ OwnStream P.heap a k n m ∧
      ¬SameRun o.queryNodeRunsQueue a n
  filed_only : ∀ n (m : Nat), (o.heap n).inputDataDefinitionFiles[m]? =
      (P.heap n).inputDataDefinitionFiles[m]? ∨
    ∃ a k, OwnStream P.heap a k n m ∧ ¬SameRun o.queryNodeRunsQueue a n ∧
      HandedTo P o a k n m
  found : ∀ run ∈ o.queryNodeRunsQueue, ∀ n ∈ run.2, ∀ a ∈ run.2, ∀ m : Nat,
    (P.heap n).previousNodes[m]? = some (some a) →
    ∃ k, OwnStream P.heap a k n m ∧
      ∀ r : RunData, (∀ b ∈ run.2, r.heap b = o.heap b) →
        Finds (initialiseVectorSizes run.2 r).heap a k n
  accessed : ∀ run ∈ o.queryNodeRunsQueue, FedWithin P run.2 →
    ∀ r t, BeforeRun o run.2 r →
      SameVectors (initialiseVectorSizes run.2 r) t →
      ∀ b ∈ run.2, ElementsExist t b
  sized : ∀ run ∈ o.queryNodeRunsQueue, ∀ n ∈ run.2, ∀ a ∈ run.2, ∀ m : Nat,
    (P.heap n).previousNodes[m]? = some (some a) →
    ∃ k, OwnStream P.heap a k n m ∧ ∀ data r t, BeforeRun o run.2 r →
      SameVectors (initialiseVectorSizes run.2 r) t →
      SizePropagated data t a k n m
  taken : ∀ data resultSizes j e run,
    executedRuns data o.linkedNodes o.queryNodeRunsQueue resultSizes
      (ExecutionState.initial o.heap) j = .ok e →
    o.queryNodeRunsQueue[j]? = some run → FedWithin P run.2 →
    (DataDefined data →
      Defined (setupNextRunData data o.linkedNodes e run.2)) ∧
    ∀ names links t,
      setupNextRunData data o.linkedNodes e run.2 = .ok (names, links, t) →
      ∀ (i i' : Nat) n a m, run.2[i]? = some n → run.2[i']? = some a →
        (P.heap n).previousNodes[m]? = some (some a) →
        ∃ k q q', OwnStream P.heap a k n m ∧ t.queryNodes[i]? = some q ∧
          t.queryNodes[i']? = some q' ∧ TakesOver q' k q m

/-- No node of the run has an output that stays in the run behind one that does
not. -/
def StaysFirst (P : Plan) (run : List NodeId) : Prop :=
  ∀ a ∈ run, ∀ (k : Nat), ∀ n ∈ run,
    (P.heap a).nextNodes[k]? = some (some n) →
    ∀ j < k, ∃ b ∈ run, (P.heap a).nextNodes[j]? = some (some b)

/-- The outputs that stay in the run come first, and if there are any, the ports
of its nodes fit. -/
def KeepsStreams (P : Plan) (run : List NodeId) : Prop :=
  StaysFirst P run ∧ (FedWithin P run → ∀ b ∈ run, PortsFit (P.heap b))

/-! ## Outputs without a consumer -/

/-- The scheduler reads the file of an output that has no consumer. -/
theorem outputFile_of_run {P : Plan} {lib : AcceleratorLibrary} {fuel : Nat}
    {o : RunsState} {links : LinkedNodes}
    (hrun : findAcceleratedQueryNodeSets lib fuel P.heap P.roots links =
      .ok o) : ∀ a ∈ o.scheduledQueries, ∀ k : Nat,
      (P.heap a).nextNodes[k]? = some none →
      k < (P.heap a).outputDataDefinitionFiles.length := by
  refine iterate_invariant
    (fun o => (Scheduled P lib o ∧ SameCounts P.heap o.heap) ∧
      ∀ a ∈ o.scheduledQueries, ∀ k : Nat,
        (P.heap a).nextNodes[k]? = some none →
        k < (P.heap a).outputDataDefinitionFiles.length)
    (fun o => ∀ a ∈ o.scheduledQueries, ∀ k : Nat,
      (P.heap a).nextNodes[k]? = some none →
      k < (P.heap a).outputDataDefinitionFiles.length) ?_ ?_
    ⟨⟨Scheduled.initial P lib links, fun _ => rfl⟩,
      fun a ha => absurd ha List.not_mem_nil⟩ hrun
  · rintro o o' ⟨⟨ho, hcounts⟩, hfiles⟩ hbody
    obtain ⟨s, -, hgrown, -, hlinks, -, hscheduled, -⟩ := ho.run_of_step hbody
    have hlocated : SameCounts P.heap s.heap := by
      refine hcounts.trans fun n => ?_
      rw [hgrown.located n]
      rfl
    refine ⟨⟨(ho.step hbody).1, hlocated.trans (sameCounts_of_links hlinks)⟩,
      ?_⟩
    intro a ha k hk
    rw [hscheduled, hgrown.scheduled] at ha
    rcases List.mem_append.mp ha with ha | ha
    · exact hfiles a ha k hk
    · have hnodup := hgrown.frontier.nodup
      rw [hgrown.scheduled] at hnodup
      have hexist := (checkExternalLinks_returns_iff
        (List.nodup_append.mp hnodup).2.1
        (fun a ha n _ hn => Scheduled.edges_kept ho hgrown ha hn)
        o.linkedNodes).mp ⟨_, hlinks⟩ a ha k
      rw [hgrown.next_of_mem ha] at hexist
      rcases hexist (List.getElem?_eq_some_iff.mp hk).1 none
        (by rw [hgrown.next_of_mem ha, hk]) with ⟨n, -, hn⟩ | ⟨f, hf, -⟩
      · cases hn
      · rw [← (hlocated.lengths a).2.2.2]
        exact (List.getElem?_eq_some_iff.mp hf).1
  · rintro o o' ⟨-, hfiles⟩ hbody
    obtain ⟨-, rfl⟩ := findNextRun_done hbody
    exact hfiles

/-! ## Vectors of a run -/

section Vectors

variable {P : Plan} {o : RunsState} {run done : List NodeId} {r t : RunData}
  {b : NodeId}

/-- The nodes and the output vectors while a run is set up. -/
theorem outputs_of_run (hf : Finished P o) (hr : RunOf P o done run)
    (hcounts : SameCounts P.heap o.heap) (hbefore : BeforeRun o run r)
    (ht : SameVectors (initialiseVectorSizes run r) t) (hb : b ∈ run) :
    t.heap b = clearNextNodes run (o.heap b) ∧
      lengthOf t.outputMemoryBlocks (t.heap b).nodeName =
        some (P.heap b).nextNodes.length ∧
      lengthOf t.outputStreamSizes (t.heap b).nodeName =
        some (P.heap b).previousNodes.length := by
  have hnames : (run.map fun n => (r.heap n).nodeName).Nodup := by
    refine hr.run_nodup.map_on fun a ha b hb heq => ?_
    rw [hbefore.heap a ha, hbefore.heap b hb, hf.nodeName, hf.nodeName] at heq
    exact P.nameInjective a (hr.run_mem ha) b (hr.run_mem hb) heq
  have hinit : Initialised r run run (initialiseVectorSizes run r) :=
    initialised_of_run hnames
      (by simp [hbefore.outputBlocks, hbefore.outputSizes])
  have hheap : t.heap b = clearNextNodes run (o.heap b) := by
    rw [ht.heap, initialiseVectorSizes_heap hr.run_nodup, if_pos hb,
      hbefore.heap b hb]
  have hname : (t.heap b).nodeName = (r.heap b).nodeName := by
    rw [hheap, hbefore.heap b hb]
    rfl
  obtain ⟨hprevious, hnext, -, -⟩ := hcounts.lengths b
  obtain ⟨hblocks, hsizes⟩ := hinit.outputs b hb
  rw [hname]
  refine ⟨hheap, ?_, ?_⟩
  · rw [lengthOf, ht.outputBlocks, hblocks, Option.map_some,
      List.length_replicate, hbefore.heap b hb, hnext]
  · rw [lengthOf, ht.outputSizes, hsizes, Option.map_some,
      List.length_replicate, hbefore.heap b hb, hprevious]

/-- The elements that are accessed exist exactly when the ports fit. -/
theorem elementsExist_iff (hf : Finished P o) (hr : RunOf P o done run)
    (hcounts : SameCounts P.heap o.heap) (hcounted : FilesCounted P)
    (hnull : ∀ k : Nat, (P.heap b).nextNodes[k]? = some none →
      k < (P.heap b).outputDataDefinitionFiles.length)
    (hbefore : BeforeRun o run r)
    (ht : SameVectors (initialiseVectorSizes run r) t) (hb : b ∈ run) :
    ElementsExist t b ↔ PortsFit (P.heap b) := by
  have hheap : ∀ a ∈ run, t.heap a = clearNextNodes run (o.heap a) :=
    fun a ha => (outputs_of_run hf hr hcounts hbefore ht ha).1
  obtain ⟨-, hblocks, hsizes⟩ := outputs_of_run hf hr hcounts hbefore ht hb
  obtain ⟨hprevious, hnext, hinputs, houtputs⟩ := hcounts.lengths b
  have hnextLength : (t.heap b).nextNodes.length =
      (P.heap b).nextNodes.length := by
    rw [hheap b hb, clearNextNodes, List.length_map, hnext]
  have hpointers : (t.heap b).inputDataDefinitionFiles.length ≤
      (t.heap b).previousNodes.length ↔
      (P.heap b).inputDataDefinitionFiles.length ≤
        (P.heap b).previousNodes.length := by
    rw [hheap b hb, clearNextNodes, hinputs, hprevious]
  have houtputsLength : (t.heap b).outputDataDefinitionFiles.length =
      (P.heap b).outputDataDefinitionFiles.length := by
    rw [hheap b hb, clearNextNodes, houtputs]
  have hnode := hr.run_mem hb
  constructor
  · intro he
    refine ⟨?_, ?_, ?_⟩
    · have hle := hpointers.mp he.pointers
      rcases (hcounted b hnode).1 with hnil | heq
      · rw [hnil] at hle ⊢
        exact Nat.le_zero.mp hle
      · exact heq.symm
    · refine Nat.le_antisymm ?_ ?_
      · by_contra hlt
        have hentry := he.blocks (P.heap b).nextNodes.length
          (by rw [houtputsLength]; omega)
        exact Nat.lt_irrefl _ ((entry_ne_none_iff hblocks).mp hentry)
      · -- The last output has a file, whoever its consumer is.
        by_contra hlt
        have hk := Nat.lt_of_not_le hlt
        obtain ⟨pointer, hpointer⟩ : ∃ pointer, (P.heap b).nextNodes[
            (P.heap b).outputDataDefinitionFiles.length]? = some pointer :=
          ⟨_, List.getElem?_eq_getElem hk⟩
        cases pointer with
        | none => exact Nat.lt_irrefl _ (hnull _ hpointer)
        | some n =>
            by_cases hn : n ∈ run
            · have hid := he.ids _ n
                ((nextNodes_of_run hf hr hheap hb).mpr ⟨hpointer, hn⟩)
              rw [houtputsLength] at hid
              exact Nat.lt_irrefl _ hid
            · obtain ⟨f, hfile⟩ := hf.handedOver.crossed b
                ((hf.mem_iff b).mpr hnode) _ n hpointer
                (mt (hr.same_run_iff b hb n).mp hn)
              exact Nat.lt_irrefl _ (List.getElem?_eq_some_iff.mp hfile).1
    · by_contra hlt
      have hentry := he.sizes (P.heap b).previousNodes.length
        (by rw [hnextLength]; omega)
      exact Nat.lt_irrefl _ ((entry_ne_none_iff hsizes).mp hentry)
  · intro hfit
    have hin := hfit.inputFiles
    have hout := hfit.outputFiles
    have hle := hfit.outputs
    refine ⟨hpointers.mpr (by omega), ?_, ?_, ?_⟩
    · intro k n hk
      have hlt := (List.getElem?_eq_some_iff.mp hk).1
      omega
    · intro k hk
      exact (entry_ne_none_iff hsizes).mpr (by omega)
    · intro k hk
      exact (entry_ne_none_iff hblocks).mpr (by omega)

end Vectors

/-! ## Without parallel edges -/

section Single

variable {P : Plan} {o : RunsState} {run done : List NodeId} {a n : NodeId}
  {k m : Nat}

/-- Between two runs the scheduler finds both ends of the edge. -/
theorem handedTo_of_stream (hf : Finished P o) (ha : a ∈ P.nodes)
    (hfed : (P.heap n).inputDataDefinitionFiles[m]? = some "")
    (hstream : Stream P.heap a k n m)
    (hdiff : ¬SameRun o.queryNodeRunsQueue a n) : HandedTo P o a k n m := by
  have hs := hf.handedOver
  have hmem := (hf.mem_iff a).mpr ha
  obtain ⟨f, hfile⟩ := hs.crossed a hmem k n hstream.1 hdiff
  by_cases hempty : f = ""
  · subst hempty
    refine .inl ⟨hs.linked a hmem k n m hstream hdiff hfile, ?_⟩
    refine (hs.unfiled n m ?_).trans hfed
    intro a' _ k' f' hstream' _ hfile'
    have heq := hstream.2
    rw [hstream'.2, Option.some.injEq, Option.some.injEq] at heq
    subst heq
    rw [(hf.single a' ha).1.index_unique hstream'.1 hstream.1, hfile,
      Option.some.injEq] at hfile'
    exact hfile'.symm
  · refine .inr ⟨hs.unlinked (fun b hb => (hf.mem_iff b).mp hb) ha hstream
      (.inr (by simpa [hfile] using hempty)), f, hempty, ?_,
      (hs.filed a hmem k n m f hstream hdiff hfile hempty).2⟩
    rw [hs.output a hmem k, if_neg (by simp [hstream.1]), hfile]

/-- Files of inputs are those of the plan or of their own outputs. -/
theorem filed_cases (hf : Finished P o)
    (hfed : InputFilesNotRequired P) (n : NodeId)
    (m : Nat) : (o.heap n).inputDataDefinitionFiles[m]? =
      (P.heap n).inputDataDefinitionFiles[m]? ∨
    ∃ a k, OwnStream P.heap a k n m ∧ ¬SameRun o.queryNodeRunsQueue a n ∧
      HandedTo P o a k n m := by
  by_cases hcross : ∃ a ∈ P.nodes, ∃ k, Stream P.heap a k n m ∧
      ¬SameRun o.queryNodeRunsQueue a n
  · obtain ⟨a, ha, k, hstream, hdiff⟩ := hcross
    have hn := (Plan.edge_of_stream ha hstream).right
    exact .inr ⟨a, k, ownStream_of_single hf.single ha hstream, hdiff,
      handedTo_of_stream hf ha (hfed.file hn hstream.2) hstream hdiff⟩
  · refine .inl (hf.handedOver.unfiled n m ?_)
    intro a ha k f hstream hdiff
    exact absurd ⟨a, (hf.mem_iff a).mp ha, k, hstream, hdiff⟩ hcross

/-- Within a run both managers find the output of an edge. -/
theorem finds_of_run (hf : Finished P o) (hr : RunOf P o done run)
    (hstays : StaysFirst P run) {h : Heap}
    (hheap : ∀ b ∈ run, h b = clearNextNodes run (o.heap b)) (ha : a ∈ run)
    (hn : n ∈ run) (hk : (P.heap a).nextNodes[k]? = some (some n)) :
    Finds h a k n := by
  obtain ⟨hunique, hcount⟩ := consumer_unique_of_run hf hr hheap ha hn
  have hpointer := (nextNodes_of_run hf hr hheap ha).mpr ⟨hk, hn⟩
  refine ⟨findStreamIndex_eq hunique hcount hpointer, ?_⟩
  rw [findConsumer_eq hunique hcount hpointer, Nat.zero_add]
  intro j hj hnull
  obtain ⟨b, hb, hjb⟩ := hstays a ha k n hn hk j hj
  rw [(nextNodes_of_run hf hr hheap ha).mpr ⟨hjb, hb⟩] at hnull
  cases hnull

/-- Within a run the size of an output reaches the input that it feeds. -/
theorem sized_of_run (hf : Finished P o) (hr : RunOf P o done run)
    (hcounts : SameCounts P.heap o.heap) (hkeeps : KeepsStreams P run)
    {data : DataManager} {r t : RunData} (hbefore : BeforeRun o run r)
    (ht : SameVectors (initialiseVectorSizes run r) t) (ha : a ∈ run)
    (hn : n ∈ run) (hstream : Stream P.heap a k n m) :
    SizePropagated data t a k n m := by
  have hheap : ∀ b ∈ run, t.heap b = clearNextNodes run (o.heap b) :=
    fun b hb => (outputs_of_run hf hr hcounts hbefore ht hb).1
  obtain ⟨-, -, hsizes⟩ := outputs_of_run hf hr hcounts hbefore ht ha
  obtain ⟨hunique, hcount⟩ := consumer_unique_of_run hf hr hheap ha hn
  have hpointer := (nextNodes_of_run hf hr hheap ha).mpr ⟨hstream.1, hn⟩
  have hprevious : (t.heap n).previousNodes[m]? = some (some a) := by
    rw [hheap n hn]
    exact hf.handedOver.kept n ((hf.mem_iff n).mpr (hr.run_mem hn)) m a
      hstream.2 ((hr.same_run_iff a ha n).mpr hn)
  refine (sizePropagated_iff hunique hcount hpointer hprevious).mpr ⟨?_, ?_⟩
  · intro j hj hnull
    obtain ⟨b, hb, hjb⟩ := hkeeps.1 a ha k n hn hstream.1 j hj
    rw [(nextNodes_of_run hf hr hheap ha).mpr ⟨hjb, hb⟩] at hnull
    cases hnull
  · have hfit := hkeeps.2 ⟨n, hn, a, ha, List.mem_of_getElem? hstream.2⟩ a ha
    have hlt := (List.getElem?_eq_some_iff.mp hstream.1).1
    exact (entry_ne_none_iff hsizes).mpr (Nat.lt_of_lt_of_le hlt hfit.outputs)

/-- When a run is set up, its inputs take over the streams of their outputs. -/
theorem taken_of_run {lib : AcceleratorLibrary} {fuel : Nat} (hf : Finished P o)
    (hstays : ∀ run ∈ o.queryNodeRunsQueue, StaysFirst P run.2)
    (hfed : InputFilesNotRequired P)
    (hrun : findAcceleratedQueryNodeSets lib fuel P.heap P.roots ∅ = .ok o)
    {data : DataManager} {resultSizes : Nat → List Int} {j : Nat}
    {e : ExecutionState} {run : QueryNodeRun} {names : List String}
    {links : LinkedNodes} {t : SetupState}
    (hexec : executedRuns data o.linkedNodes o.queryNodeRunsQueue resultSizes
      (ExecutionState.initial o.heap) j = .ok e)
    (hj : o.queryNodeRunsQueue[j]? = some run)
    (hsetup : setupNextRunData data o.linkedNodes e run.2 =
      .ok (names, links, t)) {i i' : Nat} (hi : run.2[i]? = some n)
    (hi' : run.2[i']? = some a)
    (hm : (P.heap n).previousNodes[m]? = some (some a)) :
    ∃ k q q', OwnStream P.heap a k n m ∧ t.queryNodes[i]? = some q ∧
      t.queryNodes[i']? = some q' ∧ TakesOver q' k q m := by
  have he := executed_of_run hf hrun hexec
  have hr := runOf_of_run hrun (take_append_drop hj)
  obtain ⟨-, -, r₀, inputIds, outputIds, hu⟩ := runSetUp_of_run hf he hr hsetup
  have hn : n ∈ run.2 := List.mem_of_getElem? hi
  have ha : a ∈ run.2 := List.mem_of_getElem? hi'
  have hscheduled := (hf.mem_iff n).mpr (hr.run_mem hn)
  have hsame := (hr.same_run_iff a ha n).mpr hn
  have hheap : ∀ b ∈ run.2, r₀.heap b = clearNextNodes run.2 (o.heap b) := by
    intro b hb
    rw [hu.scheduled b (hr.not_done hb), if_pos hb]
  obtain ⟨k, -, hown⟩ := exists_ownStream hf.single (hr.run_mem hn) hm
  obtain ⟨hindex, hconsumer⟩ := finds_of_run hf hr
    (hstays run (List.mem_of_getElem? hj)) hheap ha hn hown.1.1
  have hprevious : (r₀.heap n).previousNodes[m]? = some (some a) := by
    rw [hheap n hn]
    exact hf.handedOver.kept n hscheduled m a hm hsame
  have hfile : (r₀.heap n).inputDataDefinitionFiles[m]? = some "" := by
    rw [hheap n hn]
    refine (hf.handedOver.unfiled n m ?_).trans
      (hfed.file (hr.run_mem hn) hm)
    intro a' _ k' f hstream hdiff
    have heq := hstream.2
    rw [hm, Option.some.injEq, Option.some.injEq] at heq
    exact absurd (heq ▸ hsame) hdiff
  obtain ⟨k', id, hk', hout, hin⟩ := hu.inherited n hn m
    (List.getElem?_eq_some_iff.mp hfile).1 a hprevious
  rw [hindex, Except.ok.injEq] at hk'
  subst hk'
  obtain ⟨size, houtSize, hinSize⟩ :=
    hu.setUp.in_fed n hn m a k hprevious hconsumer
  obtain ⟨q, hq, hinputs, -⟩ := hu.setUp.nodes i n hi
  obtain ⟨q', hq', -, houtputs⟩ := hu.setUp.nodes i' a hi'
  obtain ⟨input, hinput, hinputId, -, hinputSize⟩ := hinputs.exists_stream hin
  obtain ⟨output, houtput, houtputId, -, houtputSize⟩ :=
    houtputs.exists_stream hout
  rw [hinSize, Option.some.injEq] at hinputSize
  rw [houtSize, Option.some.injEq, hinputSize, Prod.mk.injEq] at houtputSize
  exact ⟨k, q, q', hown, hq, hq', output, input, houtput, hinput,
    hinputId.trans houtputId.symm, houtputSize⟩

/-- The set-up of a run that keeps its streams is defined. -/
theorem defined_of_run {lib : AcceleratorLibrary} {fuel : Nat}
    {run : QueryNodeRun}
    (hf : Finished P o) (hkeeps : KeepsStreams P run.2)
    (hcounted : FilesCounted P)
    (hrun : findAcceleratedQueryNodeSets lib fuel P.heap P.roots ∅ = .ok o)
    {data : DataManager} (hdata : DataDefined data)
    {resultSizes : Nat → List Int} {j : Nat} {e : ExecutionState}
    (hexec : executedRuns data o.linkedNodes o.queryNodeRunsQueue resultSizes
      (ExecutionState.initial o.heap) j = .ok e)
    (hj : o.queryNodeRunsQueue[j]? = some run) (hfed : FedWithin P run.2) :
    Defined (setupNextRunData data o.linkedNodes e run.2) := by
  have hr := runOf_of_run hrun (take_append_drop hj)
  obtain ⟨hall, hmem⟩ := runNodes_nodup_of_run hf hrun
  obtain ⟨he, -⟩ := betweenRuns_of_run (named_of_finished hf) hall hmem hexec
  have hinit := runInitialised (named_of_finished hf) he hr.nodup
    fun b hb => hr.run_mem hb
  have hheap : RunHeap P o run.2 (initialiseVectorSizes run.2 e.run).heap := by
    refine ⟨fun n => ?_, fun n hn => ?_⟩
    · rw [hinit.ports.name, hf.nodeName]
    · rw [initialiseVectorSizes_heap hr.run_nodup, if_pos hn,
        he.pending n (hr.not_done hn)]
  have hcounts := sameCounts_of_run hrun
  have hfit := hkeeps.2 hfed
  have hp := pipeline_of_run hheap hf hr hcounts
    fun n hn => ⟨(hfit n hn).inputFiles, (hfit n hn).outputFiles⟩
  have hchecked := (scheduled_of_run hrun).1.tracks.isChecked
  rw [setupNextRunData]
  refine (setupAccelerationNodesForExecution_defined hdata hinit
    (fun b hb => hr.run_mem hb) hp ?_ ?_ ?_).bind fun _ _ => defined_ok _
  · intro n hn
    obtain ⟨hprevious, hnext, hinputs, houtputs⟩ := hheap.lengths hcounts hn
    refine ⟨?_, ?_, ?_⟩
    · rw [hinputs, hprevious, (hfit n hn).inputFiles]
    · rw [houtputs, hnext, (hfit n hn).outputFiles]
    · rw [hnext, hprevious]
      exact (hfit n hn).outputs
  · intro n hn
    obtain ⟨-, -, -, houtputs⟩ := hheap.lengths hcounts hn
    rw [houtputs, hheap.node n hn, clearNextNodes, hchecked,
      (hcounted n (hr.run_mem hn)).2]
  · intro n hn m a hm
    obtain ⟨hplan, ha⟩ := (hheap.previous_iff hf hr hn).mp hm
    obtain ⟨k, -, hown⟩ := exists_ownStream hf.single (hr.run_mem hn) hplan
    refine ⟨k, (finds_of_run hf hr hkeeps.1 hheap.node ha hn hown.1.1).2, ?_⟩
    have hlength := (runVectors_of_initialised hinit
      (fun b hb => hr.run_mem hb) ha).outputSizes
    refine entry_ne_none_of_lengthOf hlength ?_
    have hlt := (List.getElem?_eq_some_iff.mp hown.1.1).1
    rw [(hheap.lengths hcounts ha).1]
    exact Nat.lt_of_lt_of_le hlt (hfit a ha).outputs

theorem keptApart_of_single {lib : AcceleratorLibrary} {fuel : Nat}
    (hsingle : P.SingleEdges)
    (hkeeps : ∀ run ∈ o.queryNodeRunsQueue, KeepsStreams P run.2)
    (hfed : InputFilesNotRequired P) (hcounted : FilesCounted P)
    (hrun : findAcceleratedQueryNodeSets lib fuel P.heap P.roots ∅ = .ok o) :
    StreamsKeptApart P o := by
  have hf := finished_of_run hsingle hrun
  have hcounts := sameCounts_of_run hrun
  have hof : ∀ run ∈ o.queryNodeRunsQueue, ∃ done, RunOf P o done run.2 := by
    intro run hmem
    obtain ⟨before, after, hsplit⟩ := List.append_of_mem hmem
    exact ⟨_, runOf_of_run hrun hsplit⟩
  refine ⟨?_, ?_, filed_cases hf hfed, ?_, ?_, ?_, ?_⟩
  · intro n hn m a hm hdiff
    obtain ⟨k, ha, hown⟩ := exists_ownStream hsingle hn hm
    exact ⟨k, hown, handedTo_of_stream hf ha (hfed.file hn hm) hown.1 hdiff⟩
  · intro a ha k targets htargets
    obtain ⟨n, m, rfl, hlinked, hdiff, -⟩ := linked_of_targets hf ha htargets
    exact ⟨n, m, rfl, ownStream_of_single hsingle ha hlinked.1, hdiff⟩
  · intro run hmem n hn a ha m hm
    obtain ⟨done, hr⟩ := hof run hmem
    obtain ⟨k, -, hown⟩ := exists_ownStream hsingle (hr.run_mem hn) hm
    refine ⟨k, hown, fun r hheap => ?_⟩
    refine finds_of_run hf hr (hkeeps run hmem).1 ?_ ha hn hown.1.1
    intro b hb
    rw [initialiseVectorSizes_heap hr.run_nodup, if_pos hb, hheap b hb]
  · intro run hmem hwithin r t hbefore ht b hb
    obtain ⟨done, hr⟩ := hof run hmem
    have hnull := outputFile_of_run hrun b
      ((hf.mem_iff b).mpr (hr.run_mem hb))
    exact (elementsExist_iff hf hr hcounts hcounted hnull hbefore ht hb).mpr
      ((hkeeps run hmem).2 hwithin b hb)
  · intro run hmem n hn a ha m hm
    obtain ⟨done, hr⟩ := hof run hmem
    obtain ⟨k, -, hown⟩ := exists_ownStream hsingle (hr.run_mem hn) hm
    exact ⟨k, hown, fun data r t hbefore ht =>
      sized_of_run hf hr hcounts (hkeeps run hmem) hbefore ht ha hn hown.1⟩
  · intro data resultSizes j e run hexec hj hwithin
    refine ⟨fun hdata => defined_of_run hf
      (hkeeps run (List.mem_of_getElem? hj)) hcounted hrun hdata hexec hj
      hwithin, ?_⟩
    intro names links t hsetup i i' n a m hi hi' hm
    exact taken_of_run hf (fun run hmem => (hkeeps run hmem).1) hfed hrun hexec
      hj hsetup hi hi' hm

end Single

/-! ## With parallel edges -/

section Parallel

variable {P : Plan} {lib : AcceleratorLibrary} {fuel : Nat} {o : RunsState}
  {a n : NodeId} {k m : Nat}

/-- What an input is handed, it is handed as the first input of its producer. -/
theorem first_of_handedTo (hl : LeadsToFirst P o) (ha : a ∈ P.nodes)
    (hn : n ∈ P.nodes)
    (hfed : (P.heap n).inputDataDefinitionFiles[m]? = some "")
    (hm : (P.heap n).previousNodes[m]? = some (some a))
    (h : HandedTo P o a k n m) :
    findPreviousNodeLocation (P.heap n).previousNodes a = .ok m := by
  rcases h with ⟨hlink, -⟩ | ⟨-, f, hne, -, hfile⟩
  · rw [linkedTargets, Option.bind_eq_some_iff] at hlink
    obtain ⟨targets, htargets, hk⟩ := hlink
    obtain ⟨b, hb, heq, hall⟩ := hl.targets _ targets htargets
    have hba := P.nameInjective b hb a ha heq
    subst hba
    obtain ⟨n', m', ⟨hedge, hlocation⟩, htarget⟩ := hall k _ hk
    simp only [targetOf, List.cons.injEq, Prod.mk.injEq, and_true] at htarget
    obtain ⟨hname, rfl⟩ := htarget
    rwa [P.nameInjective n hn n' hedge.right hname]
  · rcases hl.files n m with hkept | ⟨b, -, hlocation⟩
    · rw [hkept, hfed, Option.some.injEq] at hfile
      exact absurd hfile.symm hne
    · have heq := findLocation_eq_ok hlocation
      rw [hm, Option.some.injEq, Option.some.injEq] at heq
      rwa [heq]

/-- Streams that are kept apart leave no room for parallel edges: within a run
the search finds one output, between runs one input. -/
theorem StreamsKeptApart.input_unique (hs : StreamsKeptApart P o)
    (hl : LeadsToFirst P o) (hfed : InputFilesNotRequired P) (hn : n ∈ P.nodes)
    {m' : Nat} (hm : (P.heap n).previousNodes[m]? = some (some a))
    (hm' : (P.heap n).previousNodes[m']? = some (some a)) : m = m' := by
  by_cases hsame : SameRun o.queryNodeRunsQueue a n
  · obtain ⟨run, hmem, ha, hn⟩ := hsame
    obtain ⟨k, hown, hfinds⟩ := hs.found run hmem n hn a ha m hm
    obtain ⟨k', hown', hfinds'⟩ := hs.found run hmem n hn a ha m' hm'
    have hk := (hfinds (ExecutionState.initial o.heap).run fun _ _ => rfl).1
    rw [(hfinds' (ExecutionState.initial o.heap).run fun _ _ => rfl).1,
      Except.ok.injEq] at hk
    subst hk
    exact hown.input_unique hown'
  · have ha := P.previous_mem n hn a (List.mem_of_getElem? hm)
    obtain ⟨k, -, hhanded⟩ := hs.handed n hn m a hm hsame
    obtain ⟨k', -, hhanded'⟩ := hs.handed n hn m' a hm' hsame
    have hfirst := first_of_handedTo hl ha hn (hfed.file hn hm) hm hhanded
    rw [first_of_handedTo hl ha hn (hfed.file hn hm') hm' hhanded',
      Except.ok.injEq] at hfirst
    exact hfirst.symm

/-- The query manager has to read through the outputs before the one it finds. -/
theorem StreamsKeptApart.staysFirst (hs : StreamsKeptApart P o)
    (hf : Finished P o) {run : QueryNodeRun} {done : List NodeId}
    (hmem : run ∈ o.queryNodeRunsQueue) (hr : RunOf P o done run.2) :
    StaysFirst P run.2 := by
  intro a ha k n hn hk j hj
  have hnode := hr.run_mem ha
  have hscheduled := (hf.mem_iff a).mpr hnode
  have hprevious := (Plan.edge_iff_previous (hr.run_mem hn)).mp
    ⟨hnode, List.mem_of_getElem? hk⟩
  obtain ⟨m, hm⟩ := List.mem_iff_getElem?.mp hprevious
  obtain ⟨k', hown, hfinds⟩ := hs.found run hmem n hn a ha m hm
  have hkk := (hf.single a hnode).1.index_unique hown.1.1 hk
  subst hkk
  have hfound := (hfinds (ExecutionState.initial o.heap).run
    fun _ _ => rfl).2
  rw [← Nat.zero_add k'] at hfound
  have hbefore : (clearNextNodes run.2 (o.heap a)).nextNodes[j]? ≠ some none := by
    have hbefore := findConsumer_before hfound hj
    rwa [initialiseVectorSizes_heap hr.run_nodup, if_pos ha] at hbefore
  have hpointer := getElem?_clearNextNodes.mpr
    ⟨hf.handedOver.uncut a hscheduled k' n hk
      (.inl ((hr.same_run_iff a ha n).mpr hn)), hn⟩
  have hlt := (List.getElem?_eq_some_iff.mp hpointer).1
  obtain ⟨pointer, hget⟩ : ∃ pointer,
      (clearNextNodes run.2 (o.heap a)).nextNodes[j]? = some pointer :=
    ⟨_, List.getElem?_eq_getElem (Nat.lt_trans hj hlt)⟩
  cases pointer with
  | none => exact absurd hget hbefore
  | some b =>
      obtain ⟨hj', hin⟩ := getElem?_clearNextNodes.mp hget
      exact ⟨b, hin, hf.handedOver.next_only a hscheduled j b hj'⟩

/-- The ports of a run fit when what its set-up accesses is there. -/
theorem StreamsKeptApart.portsFit (hs : StreamsKeptApart P o)
    (hf : Finished P o) (hcounted : FilesCounted P)
    (hrun : findAcceleratedQueryNodeSets lib fuel P.heap P.roots ∅ = .ok o)
    {run : QueryNodeRun} {done : List NodeId}
    (hmem : run ∈ o.queryNodeRunsQueue) (hr : RunOf P o done run.2)
    (hwithin : FedWithin P run.2) : ∀ b ∈ run.2, PortsFit (P.heap b) := by
  intro b hb
  have hbefore : BeforeRun o run.2 (ExecutionState.initial o.heap).run :=
    ⟨fun _ _ => rfl, rfl, rfl⟩
  have hnull := outputFile_of_run hrun b ((hf.mem_iff b).mpr (hr.run_mem hb))
  exact (elementsExist_iff hf hr (sameCounts_of_run hrun) hcounted hnull
    hbefore .rfl hb).mp (hs.accessed run hmem hwithin _ _ hbefore .rfl b hb)

end Parallel

/-- The streams of a plan are kept apart exactly when no two nodes are joined by
more than one edge and each run keeps the streams within it. -/
theorem streams_kept_apart_iff (P : Plan) (lib : AcceleratorLibrary)
    (fuel : Nat) (hpaired : EdgesPaired P) (hfed : InputFilesNotRequired P)
    (hcounted : FilesCounted P) {o : RunsState}
    (hrun : findAcceleratedQueryNodeSets lib fuel P.heap P.roots ∅ = .ok o) :
    StreamsKeptApart P o ↔
      P.SingleEdges ∧ ∀ run ∈ o.queryNodeRunsQueue, KeepsStreams P run.2 := by
  constructor
  · intro hs
    have hl := leadsToFirst_of_run hrun
    have hsingle := singleEdges_of_previous hpaired
      fun n hn m m' a hm hm' => hs.input_unique hl hfed hn hm hm'
    have hf := finished_of_run hsingle hrun
    refine ⟨hsingle, fun run hmem => ?_⟩
    obtain ⟨before, after, hsplit⟩ := List.append_of_mem hmem
    have hr := runOf_of_run hrun hsplit
    exact ⟨hs.staysFirst hf hmem hr, hs.portsFit hf hcounted hrun hmem hr⟩
  · rintro ⟨hsingle, hkeeps⟩
    exact keptApart_of_single hsingle hkeeps hfed hcounted hrun

/-! ### A filter and a sort in one run -/

/-- The sort takes over the stream of the filter. -/
theorem streams_kept_apart_filterThenSort :
    ∃ o, findAcceleratedQueryNodeSets
        (libraryOf [[.kFilter], [.kFilter, .kLinearSort]]) 16
        filterThenSortPlan.heap filterThenSortPlan.roots ∅ = .ok o ∧
      o.queryNodeRunsQueue.map (·.2) = [[0, 1]] ∧
      StreamsKeptApart filterThenSortPlan o := by
  obtain ⟨o, hrun, hqueue, -⟩ := placements_eq_some (n := 2)
    (show placements 2 (findAcceleratedQueryNodeSets
        (libraryOf [[.kFilter], [.kFilter, .kLinearSort]]) 16
        filterThenSortPlan.heap filterThenSortPlan.roots ∅) =
      some ([([⟨.kFilter, []⟩, ⟨.kLinearSort, []⟩], [0, 1])], [1, 2]) by
        decide +kernel)
  refine ⟨o, hrun, by simp [hqueue], (streams_kept_apart_iff
    filterThenSortPlan _ 16 (by decide) (by decide) (by decide) hrun).mpr
    ⟨by decide, ?_⟩⟩
  intro run hmem
  obtain rfl : run = ([⟨.kFilter, []⟩, ⟨.kLinearSort, []⟩], [0, 1]) := by
    simpa [hqueue] using hmem
  refine ⟨?_, fun _ b hb => ?_⟩
  swap
  · rcases (show b = 0 ∨ b = 1 by simpa using hb) with rfl | rfl
    · exact ⟨rfl, rfl, Nat.le_refl 1⟩
    · exact ⟨rfl, rfl, Nat.le_refl 1⟩
  intro a ha k n _ hk j hj
  have hlt := (List.getElem?_eq_some_iff.mp hk).1
  rcases (show a = 0 ∨ a = 1 by simpa using ha) with rfl | rfl
  · obtain rfl : k = 0 := Nat.lt_one_iff.mp hlt
    cases hj
  · obtain rfl : k = 0 := Nat.lt_one_iff.mp hlt
    cases hj

/-! ### A join of a filter with itself

Both outputs of the filter are linked to the first input of the join.
-/

def filterJoinedTwice : List QueryNode :=
  [{ inputDataDefinitionFiles := ["cars.csv"]
     outputDataDefinitionFiles := ["", ""]
     operationType := .kFilter
     nextNodes := [some 1, some 1]
     previousNodes := [none]
     operationParameters :=
       ⟨[[], [1], [2], [1]], [[], [1], [2], [1], [], [1], [2], [1]], []⟩
     nodeName := "filter"
     isChecked := [false, false] },
   { inputDataDefinitionFiles := ["", ""]
     outputDataDefinitionFiles := ["joined.csv"]
     operationType := .kJoin
     nextNodes := [none]
     previousNodes := [some 0, some 0]
     operationParameters :=
       ⟨[[], [1], [2], [1], [], [1], [2], [1]], [[], [1], [2], [1]], []⟩
     nodeName := "join"
     isChecked := [true] }]

def filterJoinedTwicePlan : Plan := .ofTable filterJoinedTwice rfl

/-- The second input of the join is handed nothing. -/
theorem streams_not_always_kept_apart :
    ¬∀ (P : Plan) (lib : AcceleratorLibrary) (fuel : Nat) (o : RunsState),
      EdgesPaired P → InputFilesNotRequired P → FilesCounted P →
      findAcceleratedQueryNodeSets lib fuel P.heap P.roots ∅ = .ok o →
      StreamsKeptApart P o := by
  intro h
  have hchecks : ((findAcceleratedQueryNodeSets
      (libraryOf [[.kFilter], [.kJoin]]) 16 filterJoinedTwicePlan.heap
      filterJoinedTwicePlan.roots ∅).toOption.any fun o =>
        o.queryNodeRunsQueue.map (·.2) == [[0], [1]] &&
        linkedTargets o.linkedNodes "filter" 1 == some [("join", 0)]) =
      true := by decide +kernel
  simp only [Option.any_eq_true, toOption_eq_some, Bool.and_eq_true,
    beq_iff_eq] at hchecks
  obtain ⟨o, hrun, hruns, hlink⟩ := hchecks
  have hs := h filterJoinedTwicePlan _ 16 o (by decide) (by decide)
    (by decide) hrun
  have hdiff : ¬SameRun o.queryNodeRunsQueue 0 1 := by
    rintro ⟨run, hmem, h0, h1⟩
    have hnodes := List.mem_map_of_mem (f := (·.2)) hmem
    rw [hruns] at hnodes
    rcases (show run.2 = [0] ∨ run.2 = [1] by simpa using hnodes) with
      heq | heq
    · rw [heq] at h1
      exact absurd h1 (by decide)
    · rw [heq] at h0
      exact absurd h0 (by decide)
  obtain ⟨k, hown, hhanded⟩ := hs.handed 1 (by decide) 1 0 (by decide) hdiff
  have hk : k < 2 := (List.getElem?_eq_some_iff.mp hown.1.1).1
  obtain rfl : k = 1 := by
    rcases (show k = 0 ∨ k = 1 by omega) with rfl | rfl
    · exact absurd hown (by decide)
    · rfl
  rcases hhanded with ⟨htarget, -⟩ | ⟨hnone, -⟩
  · rw [show (filterJoinedTwicePlan.heap 0).nodeName = "filter" from rfl,
      hlink] at htarget
    exact absurd htarget (by decide)
  · rw [show (filterJoinedTwicePlan.heap 0).nodeName = "filter" from rfl,
      hlink] at hnone
    cases hnone

end Orkhestra.Ports.KeptApart
