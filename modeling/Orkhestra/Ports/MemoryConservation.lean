import Orkhestra.Ports.MemoryRelease
import Orkhestra.Ports.ScheduledRuns
import Orkhestra.Ports.StreamLanes

/-!
# Blocks across runs

A schedule is executed run by run.  Between two runs the only blocks in use are
those that wait as inputs of later nodes, and each of them is the block that
some earlier run has written the linked output to.

`Executed` is the invariant; `written` records which output has been written to
which block, with which record size and count.
-/

namespace Orkhestra.Ports.MemoryConservation

open Orkhestra.Verified.Checked
open Orkhestra.Verified.Ownership
open Orkhestra.Verified.VectorMap
open Orkhestra.Ports.QuerySchedulingData
open Orkhestra.Ports.NodeScheduler
open Orkhestra.Ports.SchedulePartition
open Orkhestra.Ports.ScheduleLinks
open Orkhestra.Ports.HandOver
open Orkhestra.Ports.ScheduledRuns
open Orkhestra.Ports.IDManager
open Orkhestra.Ports.QueryManager
open Orkhestra.Ports.RunSetup
open Orkhestra.Ports.StreamLanes
open Orkhestra.Ports.MemoryRelease

/-! ## The links of a run -/

section Links

variable {h : Heap} {nodes : List NodeId}

theorem getElem?_getCurrentLinks (links : LinkedNodes) (name : String)
    (targets : TargetMaps) :
    (getCurrentLinks h nodes links)[name]? = some targets ↔
      (∃ n ∈ nodes, (h n).nodeName = name) ∧ links[name]? = some targets := by
  rw [getCurrentLinks, ← List.foldl_filter,
    getElem?_foldl_insertIfNew ((keys_nodup links).sublist ?_) (by simp)]
  · simp [and_comm]
  · exact List.filter_sublist.map _

/-- The links of a run are those of its own nodes. -/
theorem mem_transfers_getCurrentLinks {links : LinkedNodes} {name : String}
    {k : Nat} {targets : List (String × Nat)} :
    ((name, k), targets) ∈ transfers (getCurrentLinks h nodes links) ↔
      (∃ n ∈ nodes, (h n).nodeName = name) ∧
        linkedTargets links name k = some targets := by
  rw [mem_transfers, linkedTargets, linkedTargets, Option.bind_eq_some_iff,
    Option.bind_eq_some_iff]
  simp only [getElem?_getCurrentLinks]
  constructor
  · rintro ⟨group, ⟨hnode, hgroup⟩, hk⟩
    exact ⟨hnode, group, hgroup, hk⟩
  · rintro ⟨hnode, group, hgroup, hk⟩
    exact ⟨group, ⟨hnode, hgroup⟩, hk⟩

end Links

variable {P : Plan} {o : RunsState}

/-- The stream `a.k → n.m` has a link. -/
def Linked (P : Plan) (o : RunsState) (a : NodeId) (k : Nat) (n : NodeId)
    (m : Nat) : Prop :=
  Stream P.heap a k n m ∧
    linkedTargets o.linkedNodes (P.heap a).nodeName k =
      some [((P.heap n).nodeName, m)]

/-- Links are between runs, of outputs without a file. -/
theorem linked_of_targets (hf : Finished P o) {a : NodeId} (ha : a ∈ P.nodes)
    {k : Nat} {targets : List (String × Nat)}
    (htargets : linkedTargets o.linkedNodes (P.heap a).nodeName k =
      some targets) :
    ∃ n m, targets = [((P.heap n).nodeName, m)] ∧ Linked P o a k n m ∧
      ¬SameRun o.queryNodeRunsQueue a n ∧
      (P.heap a).outputDataDefinitionFiles[k]? = some "" := by
  have hlinked := htargets
  rw [linkedTargets, Option.bind_eq_some_iff] at hlinked
  obtain ⟨group, hgroup, hk⟩ := hlinked
  obtain ⟨-, b, hb, heq, hall⟩ := hf.handedOver.linked_only _ group hgroup
  have hba := P.nameInjective b ((hf.mem_iff b).mp hb) a ha heq
  subst hba
  obtain ⟨n, m, hstream, hdiff, hfile, rfl⟩ := hall k targets hk
  exact ⟨n, m, rfl, ⟨hstream, htargets⟩, hdiff, hfile⟩

theorem Linked.between_runs (hf : Finished P o) {a n : NodeId} {k m : Nat}
    (ha : a ∈ P.nodes) (h : Linked P o a k n m) :
    ¬SameRun o.queryNodeRunsQueue a n ∧
      (P.heap a).outputDataDefinitionFiles[k]? = some "" := by
  obtain ⟨n', m', -, hlinked, hdiff, hfile⟩ := linked_of_targets hf ha h.2
  have hn := h.1.1
  rw [hlinked.1.1, Option.some.injEq, Option.some.injEq] at hn
  exact ⟨hn ▸ hdiff, hfile⟩

/-- An input has one producer. -/
theorem Linked.unique (hf : Finished P o) {a a' n : NodeId} {k k' m : Nat}
    (ha : a ∈ P.nodes) (h : Linked P o a k n m) (h' : Linked P o a' k' n m) :
    a = a' ∧ k = k' := by
  have heq := h.1.2
  rw [h'.1.2, Option.some.injEq, Option.some.injEq] at heq
  subst heq
  exact ⟨rfl, (hf.single a' ha).1.index_unique h.1.1 h'.1.1⟩

/-! ## Between runs -/

/-- The blocks after the runs of the nodes `done`; `written a k b size` says that
output `k` of `a` has been written to `b`, with the record size and count
`size`. -/
structure Executed (P : Plan) (o : RunsState)
    (written : NodeId → Nat → Block → RecordSizeAndCount → Prop)
    (done : List NodeId) (e : ExecutionState) : Prop where
  heap : ∀ n, n ∉ done → e.run.heap n = o.heap n
  same : SameButNext o.heap e.run.heap
  names : e.scheduledNodeNames = done.map fun n => (P.heap n).nodeName
  outputs : e.run.outputMemoryBlocks = ∅
  output_sizes : e.run.outputStreamSizes = ∅
  conserved : BlocksConserved e.run.inputMemoryBlocks e.run.outputMemoryBlocks
    e.run.memory
  inputs : ∀ name blocks, e.run.inputMemoryBlocks[name]? = some blocks →
    ∃ n ∈ P.nodes, n ∉ done ∧ (P.heap n).nodeName = name ∧
      blocks.length = (o.heap n).previousNodes.length
  shape : SameShape e.run.inputMemoryBlocks e.run.inputStreamSizes
  only : ∀ name m b, entry e.run.inputMemoryBlocks name m = some (some b) →
    ∃ a ∈ done, ∃ k n, n ∉ done ∧ (P.heap n).nodeName = name ∧
      Linked P o a k n m
  handed : ∀ a ∈ done, ∀ k n m, n ∉ done → Linked P o a k n m →
    ∃ b size, written a k b size ∧
      entry e.run.inputMemoryBlocks (P.heap n).nodeName m = some (some b) ∧
      entry e.run.inputStreamSizes (P.heap n).nodeName m = some size

/-- Output `k` of `a` has been written to `b` by the run `run` that `t` has set
up: the record size is that of the output, the count is the one that is returned
under the id of its stream. -/
def WrittenBy (P : Plan) (data : DataManager) (run : List NodeId)
    (t : SetupState) (resultSizes : List Int) (a : NodeId) (k : Nat) (b : Block)
    (size : RecordSizeAndCount) : Prop :=
  ∃ (i : Nat) (q : AcceleratedQueryNode) (stream : StreamDataParameters),
    run[i]? = some a ∧ t.queryNodes[i]? = some q ∧
      q.outputStreams[k]? = some stream ∧ stream.physicalAddress = some b ∧
      getRecordSizeFromParameters data
        (P.heap a).operationParameters.outputStreamParameters k = .ok size.1 ∧
      resultSizes[stream.streamId]? = some size.2

/-! ## The set-up of the next run -/

/-- The run `run` is set up behind the nodes `done`; `r₀` is the data with the
vectors of the run. -/
structure RunSetUp (P : Plan) (o : RunsState) (data : DataManager)
    (done run : List NodeId) (r r₀ : RunData) (inputIds outputIds : IdMap)
    (t : SetupState) : Prop where
  initialised : Initialised r run run r₀
  setUp : SetUp data inputIds outputIds r₀ run t
  nodeName : ∀ n, (r₀.heap n).nodeName = (P.heap n).nodeName
  scheduled : ∀ n, n ∉ done → r₀.heap n =
    if n ∈ run then clearNextNodes run (o.heap n) else o.heap n
  ids : ∀ n ∈ run, ∀ k < (o.heap n).outputDataDefinitionFiles.length,
    ∃ id, entry outputIds (P.heap n).nodeName k = some id
  ids_lt : ∀ name k id, entry outputIds name k = some id → id < 16
  inherited : ∀ n ∈ run, ∀ m < (r₀.heap n).inputDataDefinitionFiles.length,
    ∀ a, (r₀.heap n).previousNodes[m]? = some (some a) → ∃ k id,
      findStreamIndex r₀.heap (r₀.heap a).nextNodes (r₀.heap n) = .ok k ∧
      entry outputIds (r₀.heap a).nodeName k = some id ∧
      entry inputIds (r₀.heap n).nodeName m = some id

section SetUp

variable {data : DataManager} {links : LinkedNodes}
  {written : NodeId → Nat → Block → RecordSizeAndCount → Prop}
  {done run : List NodeId} {e : ExecutionState} {names : List String}
  {t : SetupState} {r₀ : RunData} {inputIds outputIds : IdMap}
  {a n : NodeId} {k m : Nat}

theorem runSetUp_of_parts (hf : Finished P o)
    (he : Executed P o written done e) (hr : RunOf P o done run)
    (halloc : allocateStreamIDs (initialiseVectorSizes run e.run).heap
      (createReferenceVector (initialiseVectorSizes run e.run).heap run) ∅ ∅ =
        .ok (inputIds, outputIds))
    (hrun : run.foldlM (setupNode data inputIds outputIds)
      ⟨initialiseVectorSizes run e.run, [], ∅⟩ = .ok t) :
    RunSetUp P o data done run e.run (initialiseVectorSizes run e.run) inputIds
      outputIds t := by
  have hname : ∀ n, (e.run.heap n).nodeName = (P.heap n).nodeName := by
    intro n
    rw [he.same n]
    exact hf.nodeName n
  have hnames : (run.map fun n => (e.run.heap n).nodeName).Nodup := by
    simp only [hname]
    exact List.Nodup.map_on (fun a ha b hb => P.nameInjective a (hr.run_mem ha)
      b (hr.run_mem hb)) hr.run_nodup
  have hinit : Initialised e.run run run (initialiseVectorSizes run e.run) := by
    refine initialised_of_run hnames ?_
    intro n _
    rw [he.outputs, he.output_sizes]
    simp
  have hname₀ : ∀ n, ((initialiseVectorSizes run e.run).heap n).nodeName =
      (P.heap n).nodeName := by
    intro n
    rw [hinit.sameButNext n]
    exact hname n
  have hheap : ∀ n, n ∉ done → (initialiseVectorSizes run e.run).heap n =
      if n ∈ run then clearNextNodes run (o.heap n) else o.heap n := by
    intro n hn
    rw [hinit.heap, he.heap n hn]
  have hnames₀ : (run.map fun n =>
      ((initialiseVectorSizes run e.run).heap n).nodeName).Nodup := by
    simpa only [hname₀, hname] using hnames
  obtain ⟨hids, hlt⟩ := outputIds_of_run hnames₀ halloc
  refine ⟨hinit, ?_, hname₀, hheap, ?_, hlt, inherited_of_run hnames₀ halloc⟩
  · refine setUp_of_run hnames₀ ?_ hrun
    intro before n after hsplit a ha
    have hn : n ∈ run := by simp [hsplit]
    rw [hheap n (hr.not_done hn), if_pos hn] at ha
    exact hr.ordered hf hsplit ha
  · intro n hn k hk
    rw [← hname₀ n]
    refine hids n hn k ?_
    rwa [hheap n (hr.not_done hn), if_pos hn]

theorem runSetUp_of_run (hf : Finished P o) (he : Executed P o written done e)
    (hr : RunOf P o done run)
    (hrun : setupNextRunData data o.linkedNodes e run =
      .ok (names, links, t)) :
    names = (done ++ run).map (fun n => (P.heap n).nodeName) ∧
      links = getCurrentLinks e.run.heap run o.linkedNodes ∧
      ∃ r₀ inputIds outputIds,
        RunSetUp P o data done run e.run r₀ inputIds outputIds t := by
  simp only [setupNextRunData, bind_eq_ok, Except.ok.injEq, Prod.mk.injEq,
    setupAccelerationNodesForExecution] at hrun
  obtain ⟨t', ⟨⟨inputIds, outputIds⟩, halloc, hrun⟩, rfl, rfl, rfl⟩ := hrun
  refine ⟨?_, rfl, _, inputIds, outputIds,
    runSetUp_of_parts hf he hr halloc hrun⟩
  have hname : ∀ n, (e.run.heap n).nodeName = (P.heap n).nodeName := by
    intro n
    rw [he.same n]
    exact hf.nodeName n
  simp [he.names, hname]

/-- Blocks are conserved by the set-up. -/
theorem RunSetUp.conserved (he : Executed P o written done e)
    (hu : RunSetUp P o data done run e.run r₀ inputIds outputIds t) :
    BlocksConserved t.run.inputMemoryBlocks t.run.outputMemoryBlocks
      t.run.memory := by
  refine hu.setUp.conserved ?_
    (fun n hn => Initialised.outputs_empty hu.initialised hn)
  unfold BlocksConserved
  rw [hu.initialised.memory]
  refine Conserved.congr he.conserved (hu.initialised.holds_eq ?_)
  intro n _
  rw [he.outputs]
  simp

/-- A link of the run leads to a node that has not run. -/
theorem Linked.target (hf : Finished P o) (hr : RunOf P o done run)
    (ha : a ∈ run) (h : Linked P o a k n m) :
    n ∈ P.nodes ∧ n ∉ done ∧ n ∉ run := by
  have hmem := hr.run_mem ha
  have hedge := Plan.edge_of_stream hmem h.1
  refine ⟨hedge.right, ?_, ?_⟩
  · exact fun hn => hr.not_done ha (hr.producers_done n hn a hedge)
  · exact fun hn => (h.between_runs hf hmem).1 ((hr.same_run_iff a ha n).mpr hn)

/-- The pointer of a linked output is there until the set-up forgets it. -/
theorem Linked.pointer (hf : Finished P o) (ha : a ∈ P.nodes)
    (h : Linked P o a k n m) :
    (o.heap a).nextNodes[k]? = some (some n) ∧
      (o.heap n).previousNodes[m]? = some none ∧
      (o.heap a).outputDataDefinitionFiles[k]? = some "" := by
  obtain ⟨hdiff, hfile⟩ := h.between_runs hf ha
  have hn := (Plan.edge_of_stream ha h.1).right
  refine ⟨?_, ?_, ?_⟩
  · exact hf.handedOver.uncut a ((hf.mem_iff a).mpr ha) k n h.1.1 (.inr hfile)
  · exact hf.handedOver.forgotten n ((hf.mem_iff n).mpr hn) m a h.1.2 hdiff
  · rw [hf.handedOver.output a ((hf.mem_iff a).mpr ha) k, if_neg, hfile]
    rintro ⟨hnone, -⟩
    rw [h.1.1] at hnone
    cases hnone

theorem RunSetUp.next_forgotten (hf : Finished P o) (hr : RunOf P o done run)
    (hu : RunSetUp P o data done run e.run r₀ inputIds outputIds t)
    (ha : a ∈ run) (h : Linked P o a k n m) :
    (r₀.heap a).nextNodes[k]? = some none := by
  have hn := (h.target hf hr ha).2.2
  rw [hu.scheduled a (hr.not_done ha), if_pos ha, clearNextNodes,
    List.getElem?_map, (h.pointer hf (hr.run_mem ha)).1]
  simp [isNodeMissingFromTheVector, hn]

/-- Input vectors belong to nodes that have not run and have their lengths. -/
theorem RunSetUp.inputs (hf : Finished P o) (he : Executed P o written done e)
    (hr : RunOf P o done run)
    (hu : RunSetUp P o data done run e.run r₀ inputIds outputIds t)
    {name : String} {blocks : List (Option Block)}
    (hblocks : r₀.inputMemoryBlocks[name]? = some blocks) :
    ∃ n ∈ P.nodes, n ∉ done ∧ (P.heap n).nodeName = name ∧
      blocks.length = (o.heap n).previousNodes.length := by
  by_cases hnone : e.run.inputMemoryBlocks[name]? = none
  · rcases hu.initialised.inputs.fresh name hnone with
      ⟨h, -⟩ | ⟨n, hwho, hname, h, -⟩
    · rw [h] at hblocks
      cases hblocks
    · rw [h, Option.some.injEq] at hblocks
      subst hblocks
      have hn : n ∈ P.nodes ∧ n ∉ done := by
        rcases hwho with hn | ⟨a, ha, hnext⟩
        · exact ⟨hr.run_mem hn, hr.not_done hn⟩
        · rw [he.heap a (hr.not_done ha)] at hnext
          obtain ⟨k, hk⟩ := List.mem_iff_getElem?.mp hnext
          have hplan := hf.handedOver.next_only a
            ((hf.mem_iff a).mpr (hr.run_mem ha)) k n hk
          have hedge : P.Edge a n :=
            ⟨hr.run_mem ha, List.mem_of_getElem? hplan⟩
          exact ⟨hedge.right,
            fun hn => hr.not_done ha (hr.producers_done n hn a hedge)⟩
      refine ⟨n, hn.1, hn.2, ?_, ?_⟩
      · rw [← hname, he.same n]
        exact (hf.nodeName n).symm
      · rw [List.length_replicate, he.heap n hn.2]
  · rw [(hu.initialised.inputs.kept name hnone).1] at hblocks
    exact he.inputs name blocks hblocks

/-- Block and size vectors have the same lengths. -/
theorem RunSetUp.shape (he : Executed P o written done e)
    (hu : RunSetUp P o data done run e.run r₀ inputIds outputIds t) :
    SameShape r₀.inputMemoryBlocks r₀.inputStreamSizes := by
  intro name
  have hshape := he.shape name
  by_cases hnone : e.run.inputMemoryBlocks[name]? = none
  · rw [hnone, Option.map_none, Option.map_eq_none_iff] at hshape
    rcases hu.initialised.inputs.fresh name hnone with
      ⟨h, hsizes⟩ | ⟨n, -, -, h, hsizes⟩
    · rw [h, hsizes, hshape]
      rfl
    · rw [h, hsizes hshape]
      simp
  · obtain ⟨h, hsizes⟩ := hu.initialised.inputs.kept name hnone
    rw [h, hsizes, hshape]

/-- The vectors of nodes outside of the run are not touched by its nodes. -/
theorem RunSetUp.others
    (hu : RunSetUp P o data done run e.run r₀ inputIds outputIds t)
    {name : String} (hname : ∀ n ∈ run, (P.heap n).nodeName ≠ name) :
    t.run.inputMemoryBlocks[name]? = r₀.inputMemoryBlocks[name]? ∧
      t.run.inputStreamSizes[name]? = r₀.inputStreamSizes[name]? := by
  refine hu.setUp.in_others name ?_
  intro n hn
  rw [hu.nodeName]
  exact hname n hn

/-- The target of a link is an empty slot. -/
theorem RunSetUp.target_empty (hf : Finished P o)
    (he : Executed P o written done e) (hr : RunOf P o done run)
    (hu : RunSetUp P o data done run e.run r₀ inputIds outputIds t)
    (ha : a ∈ run) (h : Linked P o a k n m) :
    entry t.run.inputMemoryBlocks (P.heap n).nodeName m = some none ∧
      entry t.run.inputStreamSizes (P.heap n).nodeName m ≠ none := by
  obtain ⟨hn, hnotDone, hnotRun⟩ := h.target hf hr ha
  obtain ⟨hpointer, hprevious, -⟩ := h.pointer hf (hr.run_mem ha)
  have hother : ∀ b ∈ run, (P.heap b).nodeName ≠ (P.heap n).nodeName :=
    fun b hb heq => hnotRun
      (P.nameInjective b (hr.run_mem hb) n hn heq ▸ hb)
  obtain ⟨hblocks, hsizes⟩ := hu.others hother
  -- The set-up has made a vector for `n`, as a consumer of `a`.
  have hpresent : r₀.inputMemoryBlocks[(P.heap n).nodeName]? ≠ none := by
    have hconsumer := hu.initialised.inputs.present n (.inr ⟨a, ha, by
      rw [he.heap a (hr.not_done ha)]
      exact List.mem_of_getElem? hpointer⟩)
    rwa [he.heap n hnotDone, hf.nodeName] at hconsumer
  obtain ⟨vector, hvector⟩ := Option.ne_none_iff_exists'.mp hpresent
  obtain ⟨n', hn', -, hname, hlength⟩ := hu.inputs hf he hr hvector
  have hsame := P.nameInjective n' hn' n hn hname
  subst hsame
  have hlt : m < vector.length := by
    rw [hlength]
    exact (List.getElem?_eq_some_iff.mp hprevious).1
  have hentry₀ : entry r₀.inputMemoryBlocks (P.heap n').nodeName m =
      some vector[m] := by
    rw [entry_eq hvector, List.getElem?_eq_getElem hlt]
  have hentry : entry t.run.inputMemoryBlocks (P.heap n').nodeName m =
      some vector[m] := by
    rw [← hentry₀, entry, entry, hblocks]
  refine ⟨?_, ?_⟩
  · cases hheld : vector[m] with
    | none => rw [hentry, hheld]
    | some b =>
        exfalso
        have hholds := hu.initialised.holds_eq
          (fun b _ => by rw [he.outputs]; simp)
          (.input (P.heap n').nodeName m)
        rw [holds, holds, hentry₀, hheld, Option.join_some, eq_comm,
          Option.join_eq_some_iff] at hholds
        obtain ⟨a', ha', k', n'', hn'', hname', hlinked⟩ := he.only _ m b hholds
        have heq := P.nameInjective n''
          (Plan.edge_of_stream (hr.done_mem ha') hlinked.1).right n' hn' hname'
        subst heq
        have := (h.unique hf (hr.run_mem ha) hlinked).1
        exact hr.not_done ha (this ▸ ha')
  · have hsome : entry r₀.inputMemoryBlocks (P.heap n').nodeName m ≠ none := by
      rw [hentry₀]
      simp
    have hne := (hu.shape he).entry_ne_none hsome
    rwa [entry, ← hsizes] at hne

/-! ### Results and links of the run -/

/-- The outputs that are linked have been written. -/
theorem RunSetUp.writtenBy (hf : Finished P o) (hr : RunOf P o done run)
    (hu : RunSetUp P o data done run e.run r₀ inputIds outputIds t)
    {resultSizes : List Int} {sizes : SizeMap}
    (hprocess : processResults data resultSizes t.resultParameters
      t.run.outputMemoryBlocks t.run.outputStreamSizes = .ok sizes)
    (ha : a ∈ run) (h : Linked P o a k n m) :
    ∃ b size, WrittenBy P data run t resultSizes a k b size ∧
      entry t.run.outputMemoryBlocks (P.heap a).nodeName k = some (some b) ∧
      entry sizes (P.heap a).nodeName k = some size := by
  have hnext := hu.next_forgotten hf hr ha h
  have hlt := (List.getElem?_eq_some_iff.mp hnext).1
  obtain ⟨-, -, hfile⟩ := h.pointer hf (hr.run_mem ha)
  obtain ⟨id, hid⟩ :=
    hu.ids a ha k (List.getElem?_eq_some_iff.mp hfile).1
  obtain ⟨b, hb⟩ := hu.setUp.out_backed a ha k hnext
  obtain ⟨recordSize, size₀, hrecord, -, hsize⟩ :=
    hu.setUp.out_sized a ha k hlt
  obtain ⟨i, hi⟩ := List.mem_iff_getElem?.mp ha
  obtain ⟨q, hq, -, hstreams⟩ := hu.setUp.nodes i a hi
  have hcounted := (resultsStored_of_setUp hu.setUp).counted hprocess ha
    (by rw [hu.nodeName]; exact hid) hb
  rw [hu.nodeName] at hb hsize hstreams hcounted
  obtain ⟨count, size, hcount, hsize', hentry⟩ := hcounted
  rw [hsize, Option.some.injEq] at hsize'
  subst hsize'
  obtain ⟨stream, hstream, hstreamId, haddress, -⟩ :=
    hstreams.exists_stream hid
  rw [hb, Option.some.injEq] at haddress
  refine ⟨b, (recordSize, count), ⟨i, q, stream, hi, hq, hstream,
    haddress.symm, ?_, ?_⟩, hb, hentry⟩
  · rw [hu.scheduled a (hr.not_done ha), if_pos ha] at hrecord
    rw [← hf.operationParameters a]
    exact hrecord
  · rw [hstreamId]
    exact hcount

theorem mem_transfers_iff (hf : Finished P o)
    (he : Executed P o written done e) (hr : RunOf P o done run)
    {name : String} {targets : List (String × Nat)} :
    ((name, k), targets) ∈
        transfers (getCurrentLinks e.run.heap run o.linkedNodes) ↔
      ∃ a ∈ run, (P.heap a).nodeName = name ∧
        ∃ n m, targets = [((P.heap n).nodeName, m)] ∧ Linked P o a k n m := by
  have hname : ∀ n, (e.run.heap n).nodeName = (P.heap n).nodeName := by
    intro n
    rw [he.same n]
    exact hf.nodeName n
  simp only [mem_transfers_getCurrentLinks, hname]
  constructor
  · rintro ⟨⟨a, ha, rfl⟩, htargets⟩
    obtain ⟨n, m, heq, hlinked, -⟩ :=
      linked_of_targets hf (hr.run_mem ha) htargets
    exact ⟨a, ha, rfl, n, m, heq, hlinked⟩
  · rintro ⟨a, ha, rfl, n, m, rfl, hlinked⟩
    exact ⟨⟨a, ha, rfl⟩, hlinked.2⟩

/-- The name of an input tells which output is handed to it. -/
theorem Linked.source_eq (hf : Finished P o) {a a' n n' : NodeId}
    {k k' m : Nat} (ha : a ∈ P.nodes) (hn : n ∈ P.nodes) (hn' : n' ∈ P.nodes)
    (hlinked : Linked P o a k n m) (hlinked' : Linked P o a' k' n' m)
    (hname : (P.heap n).nodeName = (P.heap n').nodeName) :
    a = a' ∧ k = k' := by
  obtain rfl := P.nameInjective n hn n' hn' hname
  exact hlinked.unique hf ha hlinked'

/-- The links of the run can be used. -/
theorem RunSetUp.transferable (hf : Finished P o)
    (he : Executed P o written done e) (hr : RunOf P o done run)
    (hu : RunSetUp P o data done run e.run r₀ inputIds outputIds t)
    {resultSizes : List Int} {sizes : SizeMap}
    (hprocess : processResults data resultSizes t.resultParameters
      t.run.outputMemoryBlocks t.run.outputStreamSizes = .ok sizes) :
    Transferable { t.run with outputStreamSizes := sizes }
      (getCurrentLinks e.run.heap run o.linkedNodes) := by
  constructor
  · rintro ⟨name, k⟩ targets hmem
    obtain ⟨a, ha, rfl, n, m, rfl, hlinked⟩ :=
      (mem_transfers_iff hf he hr).mp hmem
    obtain ⟨b, size, -, hb, hsize⟩ := hu.writtenBy hf hr hprocess ha hlinked
    obtain ⟨hempty, hne⟩ := hu.target_empty hf he hr ha hlinked
    exact ⟨_, b, rfl, hb, by simp [hsize], hempty, hne⟩
  · rintro ⟨⟨name, k⟩, targets⟩ hx ⟨⟨name', k'⟩, targets'⟩ hy heq
    obtain ⟨a, ha, rfl, n, m, rfl, hlinked⟩ :=
      (mem_transfers_iff hf he hr).mp hx
    obtain ⟨a', ha', rfl, n', m', rfl, hlinked'⟩ :=
      (mem_transfers_iff hf he hr).mp hy
    simp only [List.cons.injEq, Prod.mk.injEq, and_true] at heq
    obtain ⟨hname, rfl⟩ := heq
    obtain ⟨rfl, rfl⟩ := hlinked.source_eq hf (hr.run_mem ha)
      (hlinked.target hf hr ha).1 (hlinked'.target hf hr ha').1 hlinked' hname
    rfl

/-- Freeing the run returns. -/
theorem RunSetUp.released (hf : Finished P o)
    (he : Executed P o written done e) (hr : RunOf P o done run)
    (hu : RunSetUp P o data done run e.run r₀ inputIds outputIds t)
    {resultSizes : List Int} {sizes : SizeMap}
    (hprocess : processResults data resultSizes t.resultParameters
      t.run.outputMemoryBlocks t.run.outputStreamSizes = .ok sizes) :
    ∃ s', freeMemoryBlocks { t.run with outputStreamSizes := sizes }
        (getCurrentLinks e.run.heap run o.linkedNodes)
        ((done ++ run).map fun n => (P.heap n).nodeName) = .ok s' ∧
      Released { t.run with outputStreamSizes := sizes }
        (getCurrentLinks e.run.heap run o.linkedNodes)
        ((done ++ run).map fun n => (P.heap n).nodeName) s' := by
  refine released_of_run (hu.transferable hf he hr hprocess) ?_
  rintro ⟨name, k⟩ target hmem hin
  obtain ⟨a, ha, -, n, m, heq, hlinked⟩ := (mem_transfers_iff hf he hr).mp hmem
  obtain ⟨hn, hnotDone, hnotRun⟩ := hlinked.target hf hr ha
  rw [List.singleton_inj.mp heq] at hin
  obtain ⟨b, hb, hname⟩ := List.mem_map.mp hin
  have hbn := P.nameInjective b (hr.mem_nodes b hb) n hn hname
  subst hbn
  rcases List.mem_append.mp hb with hb | hb
  · exact hnotDone hb
  · exact hnotRun hb

/-- Names of nodes that have run. -/
theorem name_mem_iff (hr : RunOf P o done run) (hn : n ∈ P.nodes) :
    (P.heap n).nodeName ∈ (done ++ run).map (fun n => (P.heap n).nodeName) ↔
      n ∈ done ++ run := by
  constructor
  · intro hin
    obtain ⟨b, hb, hname⟩ := List.mem_map.mp hin
    exact P.nameInjective b (hr.mem_nodes b hb) n hn hname ▸ hb
  · exact fun hin => List.mem_map.mpr ⟨n, hin, rfl⟩

/-- Blocks in the inputs of later nodes that the run does not feed were there
before the run. -/
theorem RunSetUp.kept (he : Executed P o written done e)
    (hu : RunSetUp P o data done run e.run r₀ inputIds outputIds t)
    {name : String} (hname : ∀ n ∈ run, (P.heap n).nodeName ≠ name) {b : Block} :
    entry t.run.inputMemoryBlocks name m = some (some b) ↔
      entry e.run.inputMemoryBlocks name m = some (some b) := by
  have hholds := hu.initialised.holds_eq
    (fun b _ => by rw [he.outputs]; simp) (.input name m)
  rw [entry, (hu.others hname).1, ← entry]
  rw [holds, holds] at hholds
  constructor
  · intro h
    rw [h, Option.join_some, eq_comm, Option.join_eq_some_iff] at hholds
    exact hholds
  · intro h
    rw [h, Option.join_some, Option.join_eq_some_iff] at hholds
    exact hholds

/-- An input that an earlier run feeds is not moved to again. -/
theorem Executed.not_moved (hf : Finished P o)
    (he : Executed P o written done e) (hr : RunOf P o done run) {a n : NodeId}
    {k m : Nat} (ha : a ∈ done) (hlinked : Linked P o a k n m) :
    ∀ x ∈ transfers (getCurrentLinks e.run.heap run o.linkedNodes),
      x.2 ≠ [((P.heap n).nodeName, m)] := by
  rintro ⟨⟨source, k'⟩, targets⟩ hx rfl
  obtain ⟨a', ha', -, n', m', heq, hlinked'⟩ :=
    (mem_transfers_iff hf he hr).mp hx
  rw [List.singleton_inj, Prod.mk.injEq] at heq
  obtain ⟨hname, rfl⟩ := heq
  obtain ⟨rfl, -⟩ := hlinked.source_eq hf (hr.done_mem ha)
    (Plan.edge_of_stream (hr.done_mem ha) hlinked.1).right
    (hlinked'.target hf hr ha').1 hlinked' hname
  exact hr.not_done ha' ha

/-- One more run. -/
theorem Executed.step (hf : Finished P o) (he : Executed P o written done e)
    (hr : RunOf P o done run)
    (hsetup : setupNextRunData data o.linkedNodes e run = .ok (names, links, t))
    {resultSizes : List Int} {e' : ExecutionState}
    (hrun : executeAndProcessResults data resultSizes names links t = .ok e') :
    Executed P o (fun a k b size => written a k b size ∨
      WrittenBy P data run t resultSizes a k b size) (done ++ run) e' := by
  obtain ⟨hnames, hlinks, r₀, inputIds, outputIds, hu⟩ :=
    runSetUp_of_run hf he hr hsetup
  simp only [executeAndProcessResults, bind_eq_ok, Except.ok.injEq] at hrun
  obtain ⟨sizes, hprocess, run', hfree, rfl⟩ := hrun
  obtain ⟨s', hfree', hs'⟩ := hu.released hf he hr hprocess
  rw [hlinks, hnames, hfree', Except.ok.injEq] at hfree
  subst hfree
  have hother : ∀ {name : String},
      name ∉ (done ++ run).map (fun n => (P.heap n).nodeName) →
      ∀ n ∈ run, (P.heap n).nodeName ≠ name :=
    fun hname n hn heq => hname
      (List.mem_map.mpr ⟨n, List.mem_append_right _ hn, heq⟩)
  refine ⟨?_, ?_, hnames, hs'.outputs, hs'.output_sizes,
    hs'.conserved (hu.conserved he), ?_, ?_, ?_, ?_⟩
  · intro n hn
    rw [List.mem_append, not_or] at hn
    rw [hs'.heap]
    show t.run.heap n = _
    rw [hu.setUp.heap, hu.scheduled n hn.1, if_neg hn.2]
  · intro n
    rw [hs'.heap]
    show t.run.heap n = { o.heap n with nextNodes := (t.run.heap n).nextNodes }
    rw [hu.setUp.heap, hu.initialised.sameButNext n, he.same n]
  · intro name blocks hblocks
    have hlength := hs'.inputs_length name
    rw [hblocks, Option.map_some] at hlength
    split at hlength
    · cases hlength
    · next hname =>
        rw [eq_comm, Option.map_eq_some_iff] at hlength
        obtain ⟨before, hbefore, hlength⟩ := hlength
        rw [(hu.others (hother hname)).1] at hbefore
        obtain ⟨n, hn, -, rfl, hsame⟩ := hu.inputs hf he hr hbefore
        refine ⟨n, hn, ?_, rfl, hlength ▸ hsame⟩
        exact fun hin => hname ((name_mem_iff hr hn).mpr hin)
  · intro name
    rw [hs'.inputs_length, hs'.input_sizes_length]
    split
    · rfl
    · next hname =>
        obtain ⟨hblocks, hsizes⟩ := hu.others (hother hname)
        show t.run.inputStreamSizes[name]?.map _ =
          t.run.inputMemoryBlocks[name]?.map _
        rw [hblocks, hsizes]
        exact hu.shape he name
  · intro name m b hb
    by_cases htarget : ∃ x ∈ transfers
        (getCurrentLinks e.run.heap run o.linkedNodes), x.2 = [(name, m)]
    · obtain ⟨⟨⟨source, k⟩, targets⟩, hx, rfl⟩ := htarget
      obtain ⟨a, ha, -, n, m', heq, hlinked⟩ :=
        (mem_transfers_iff hf he hr).mp hx
      rw [List.singleton_inj, Prod.mk.injEq] at heq
      obtain ⟨rfl, rfl⟩ := heq
      obtain ⟨-, hnotDone, hnotRun⟩ := hlinked.target hf hr ha
      exact ⟨a, List.mem_append_right _ ha, k, n, by simp [hnotDone, hnotRun],
        rfl, hlinked⟩
    · have hkept := (hs'.inputs_kept name m
        fun x hx heq => htarget ⟨x, hx, heq⟩).1
      rw [hb] at hkept
      split at hkept
      · cases hkept
      · next hname =>
          obtain ⟨a, ha, k, n, hn, rfl, hlinked⟩ := he.only name m b
            ((hu.kept he (hother hname)).mp hkept.symm)
          have hmem := (Plan.edge_of_stream (hr.done_mem ha) hlinked.1).right
          exact ⟨a, List.mem_append_left _ ha, k, n,
            fun hin => hname ((name_mem_iff hr hmem).mpr hin), rfl, hlinked⟩
  · intro a ha k n m hn hlinked
    have hmem := (Plan.edge_of_stream (hr.mem_nodes a ha) hlinked.1).right
    have hname := mt (name_mem_iff hr hmem).mp hn
    rw [List.mem_append, not_or] at hn
    rcases List.mem_append.mp ha with ha | ha
    · obtain ⟨b, size, hwritten, hb, hsize⟩ := he.handed a ha k n m hn.1 hlinked
      refine ⟨b, size, .inl hwritten, ?_⟩
      have hpresent : e.run.inputMemoryBlocks[(P.heap n).nodeName]? ≠ none := by
        intro hnone
        rw [entry_eq_none hnone] at hb
        cases hb
      obtain ⟨hkept, hkeptSize⟩ :=
        hs'.inputs_kept (P.heap n).nodeName m (he.not_moved hf hr ha hlinked)
      rw [hkept, hkeptSize, if_neg hname, if_neg hname]
      refine ⟨(hu.kept he (hother hname)).mpr hb, ?_⟩
      show entry t.run.inputStreamSizes _ _ = _
      rw [entry, (hu.others (hother hname)).2,
        (hu.initialised.inputs.kept _ hpresent).2]
      exact hsize
    · obtain ⟨b, size, hwritten, hb, hsize⟩ :=
        hu.writtenBy hf hr hprocess ha hlinked
      obtain ⟨hmoved, hmovedSize⟩ := hs'.moved ((P.heap a).nodeName, k)
        ((P.heap n).nodeName, m)
        ((mem_transfers_iff hf he hr).mpr ⟨a, ha, rfl, n, m, rfl, hlinked⟩)
      exact ⟨b, size, .inr hwritten, hmoved.trans hb, hmovedSize.trans hsize⟩

end SetUp

/-! ## Any number of runs -/

section Runs

variable {lib : AcceleratorLibrary} {fuel : Nat} {data : DataManager}
  {resultSizes : Nat → List Int} {e : ExecutionState} {j : Nat}
  {written written' : NodeId → Nat → Block → RecordSizeAndCount → Prop}
  {done : List NodeId}

/-- Output `k` of `a` has been written to `b` in one of the first `j` runs. -/
def WrittenBefore (P : Plan) (o : RunsState) (data : DataManager)
    (resultSizes : Nat → List Int) (j : Nat) (a : NodeId) (k : Nat) (b : Block)
    (size : RecordSizeAndCount) : Prop :=
  ∃ i < j, ∃ e run names links t,
    executedRuns data o.linkedNodes o.queryNodeRunsQueue resultSizes
      (ExecutionState.initial o.heap) i = .ok e ∧
    o.queryNodeRunsQueue[i]? = some run ∧
    setupNextRunData data o.linkedNodes e run.2 = .ok (names, links, t) ∧
    WrittenBy P data run.2 t (resultSizes i) a k b size

theorem Executed.mono (he : Executed P o written done e)
    (h : ∀ a k b size, written a k b size → written' a k b size) :
    Executed P o written' done e := by
  refine { he with handed := ?_ }
  intro a ha k n m hn hlinked
  obtain ⟨b, size, hwritten, hrest⟩ := he.handed a ha k n m hn hlinked
  exact ⟨b, size, h a k b size hwritten, hrest⟩

theorem Executed.initial (P : Plan) (o : RunsState) :
    Executed P o written [] (ExecutionState.initial o.heap) where
  heap _ _ := rfl
  same _ := rfl
  names := rfl
  outputs := rfl
  output_sizes := rfl
  conserved := by
    refine Conserved.congr conserved_empty ?_
    intro slot
    cases slot with
    | input name i =>
        rw [holds, entry_eq_none (by simp [ExecutionState.initial])]
        rfl
    | output name i =>
        rw [holds, entry_eq_none (by simp [ExecutionState.initial])]
        rfl
  inputs name blocks h := by simp [ExecutionState.initial] at h
  shape name := by simp [ExecutionState.initial]
  only name m b h := by
    rw [entry_eq_none (by simp [ExecutionState.initial])] at h
    cases h
  handed a ha := absurd ha List.not_mem_nil

/-- The runs before run `j`, run `j` and the runs behind it. -/
theorem take_append_drop {runs : List QueryNodeRun} {run : QueryNodeRun}
    (hj : runs[j]? = some run) :
    runs = runs.take j ++ run :: runs.drop (j + 1) := by
  obtain ⟨hlt, rfl⟩ := List.getElem?_eq_some_iff.mp hj
  rw [List.cons_getElem_drop_succ, List.take_append_drop]

theorem runNodes_take_succ {runs : List QueryNodeRun} {run : QueryNodeRun}
    (hj : runs[j]? = some run) :
    runNodes (runs.take (j + 1)) = runNodes (runs.take j) ++ run.2 := by
  rw [List.take_add_one, hj]
  simp [runNodes]

theorem executed_of_run (hf : Finished P o)
    (hrun : findAcceleratedQueryNodeSets lib fuel P.heap P.roots ∅ = .ok o)
    (hexec : executedRuns data o.linkedNodes o.queryNodeRunsQueue resultSizes
      (ExecutionState.initial o.heap) j = .ok e) :
    Executed P o (WrittenBefore P o data resultSizes j)
      (runNodes (o.queryNodeRunsQueue.take j)) e := by
  induction j generalizing e with
  | zero =>
      cases hexec
      exact Executed.initial P o
  | succ j ih =>
      simp only [executedRuns, bind_eq_ok] at hexec
      obtain ⟨e₀, hbefore, hexec⟩ := hexec
      have he := ih hbefore
      cases hj : o.queryNodeRunsQueue[j]? with
      | none =>
          rw [hj, Except.ok.injEq] at hexec
          subst hexec
          have hlen := List.getElem?_eq_none_iff.mp hj
          rw [List.take_of_length_le hlen] at he
          rw [List.take_of_length_le (by omega)]
          refine he.mono ?_
          rintro a k b size ⟨i, hi, hwritten⟩
          exact ⟨i, Nat.lt_succ_of_lt hi, hwritten⟩
      | some run =>
          simp only [hj, bind_eq_ok] at hexec
          obtain ⟨⟨names, links, t⟩, hsetup, hexec⟩ := hexec
          have hr := runOf_of_run hrun (take_append_drop hj)
          rw [runNodes_take_succ hj]
          refine (he.step hf hr hsetup hexec).mono ?_
          rintro a k b size (⟨i, hi, hwritten⟩ | hwritten)
          · exact ⟨i, Nat.lt_succ_of_lt hi, hwritten⟩
          · exact ⟨j, Nat.lt_succ_self j, e₀, run, names, links, t, hbefore, hj,
              hsetup, hwritten⟩

/-- What is held between runs, and by whom. -/
theorem Executed.held (he : Executed P o written done e)
    (hdone : ∀ n ∈ done, n ∈ P.nodes) {name : String} {m : Nat} {b : Block}
    (hb : entry e.run.inputMemoryBlocks name m = some (some b)) :
    ∃ a ∈ done, ∃ k, ∃ n ∈ P.nodes, n ∉ done ∧ (P.heap n).nodeName = name ∧
      Linked P o a k n m ∧ ∃ size, written a k b size ∧
        entry e.run.inputStreamSizes name m = some size := by
  obtain ⟨a, ha, k, n, hn, rfl, hlinked⟩ := he.only name m b hb
  obtain ⟨b', size, hwritten, hb', hsize⟩ := he.handed a ha k n m hn hlinked
  rw [hb, Option.some.injEq, Option.some.injEq] at hb'
  subst hb'
  exact ⟨a, ha, k, n, (Plan.edge_of_stream (hdone a ha) hlinked.1).right, hn,
    rfl, hlinked, size, hwritten, hsize⟩

/-- When all nodes have run, nothing is held. -/
theorem Executed.all_free (he : Executed P o written done e)
    (hdone : ∀ n ∈ done, n ∈ P.nodes) (hall : ∀ n ∈ P.nodes, n ∈ done)
    {b : Block} (hb : b < e.run.memory.memoryBlockCount) :
    e.run.memory.availableMemoryBlocks.count b = 1 := by
  refine Conserved.all_free he.conserved ?_ hb
  intro slot
  cases slot with
  | input name m =>
      rw [holds, Option.eq_none_iff_forall_ne_some]
      intro b hb
      rw [Option.join_eq_some_iff] at hb
      obtain ⟨a, ha, k, n, hn, -, hlinked⟩ := he.only name m b hb
      exact hn (hall n (Plan.edge_of_stream (hdone a ha) hlinked.1).right)
  | output name k =>
      rw [holds, he.outputs, entry_eq_none (by simp)]
      rfl

end Runs

/-! ## Memory blocks are conserved -/

/-- Before run `j` and after its set-up every block is in one place.  Before the
run the outputs hold nothing and the inputs hold exactly the linked outputs of
the runs before, with their sizes; the run can be processed and freed; and when
there are no more runs, all blocks are free. -/
theorem memory_blocks_conserved (P : Plan) (lib : AcceleratorLibrary)
    (fuel : Nat) (data : DataManager) (resultSizes : Nat → List Int)
    (hsingle : P.SingleEdges) {o : RunsState}
    (hrun : findAcceleratedQueryNodeSets lib fuel P.heap P.roots ∅ = .ok o)
    {j : Nat} {e : ExecutionState}
    (hexec : executedRuns data o.linkedNodes o.queryNodeRunsQueue resultSizes
      (ExecutionState.initial o.heap) j = .ok e) :
    BlocksConserved e.run.inputMemoryBlocks e.run.outputMemoryBlocks
      e.run.memory ∧
    e.run.outputMemoryBlocks = ∅ ∧
    (∀ name m b, entry e.run.inputMemoryBlocks name m = some (some b) →
      ∃ a ∈ runNodes (o.queryNodeRunsQueue.take j), ∃ k, ∃ n ∈ P.nodes,
        n ∉ runNodes (o.queryNodeRunsQueue.take j) ∧
        (P.heap n).nodeName = name ∧ Linked P o a k n m ∧
        ∃ size, WrittenBefore P o data resultSizes j a k b size ∧
          entry e.run.inputStreamSizes name m = some size) ∧
    (∀ a ∈ runNodes (o.queryNodeRunsQueue.take j), ∀ k n m,
      n ∉ runNodes (o.queryNodeRunsQueue.take j) → Linked P o a k n m →
      ∃ b, entry e.run.inputMemoryBlocks (P.heap n).nodeName m =
        some (some b)) ∧
    (∀ run names links t, o.queryNodeRunsQueue[j]? = some run →
      setupNextRunData data o.linkedNodes e run.2 = .ok (names, links, t) →
      BlocksConserved t.run.inputMemoryBlocks t.run.outputMemoryBlocks
        t.run.memory ∧
      (AcceptsResults data → (resultSizes j).length = 16 →
        ∃ sizes, processResults data (resultSizes j) t.resultParameters
          t.run.outputMemoryBlocks t.run.outputStreamSizes = .ok sizes) ∧
      ∀ sizes, processResults data (resultSizes j) t.resultParameters
          t.run.outputMemoryBlocks t.run.outputStreamSizes = .ok sizes →
        ∃ s', freeMemoryBlocks { t.run with outputStreamSizes := sizes } links
            names = .ok s' ∧
          BlocksConserved s'.inputMemoryBlocks s'.outputMemoryBlocks
            s'.memory) ∧
    (o.queryNodeRunsQueue.length ≤ j → ∀ b < e.run.memory.memoryBlockCount,
      e.run.memory.availableMemoryBlocks.count b = 1) := by
  have hf := finished_of_run hsingle hrun
  have he := executed_of_run hf hrun hexec
  have hscheduled := (scheduled_of_run hrun).1
  have hdone : ∀ n ∈ runNodes (o.queryNodeRunsQueue.take j), n ∈ P.nodes := by
    intro n hn
    rw [← hf.mem_iff, hscheduled.runs]
    obtain ⟨run, hmem, hn⟩ := List.mem_flatMap.mp hn
    exact List.mem_flatMap.mpr ⟨run, List.mem_of_mem_take hmem, hn⟩
  refine ⟨he.conserved, he.outputs, fun name m b hb => he.held hdone hb, ?_,
    ?_, ?_⟩
  · intro a ha k n m hn hlinked
    obtain ⟨b, size, -, hb, -⟩ := he.handed a ha k n m hn hlinked
    exact ⟨b, hb⟩
  · intro run names links t hj hsetup
    have hr := runOf_of_run hrun (take_append_drop hj)
    obtain ⟨rfl, rfl, r₀, inputIds, outputIds, hu⟩ :=
      runSetUp_of_run hf he hr hsetup
    refine ⟨hu.conserved he, ?_, ?_⟩
    · intro hdata hlen
      refine processResults_of_setUp hu.setUp
        (fun n hn => Initialised.outputs_empty hu.initialised hn) ?_ hdata
      intro name k id hid
      rw [hlen]
      exact hu.ids_lt name k id hid
    · intro sizes hprocess
      obtain ⟨s', hfree, hs'⟩ := hu.released hf he hr hprocess
      exact ⟨s', hfree, hs'.conserved (hu.conserved he)⟩
  · intro hlen b hb
    refine he.all_free hdone ?_ hb
    intro n hn
    rw [← hf.mem_iff, hscheduled.runs] at hn
    rwa [List.take_of_length_le hlen]

/-! ### A filter and a sort in two runs -/

def filterThenSort : List QueryNode :=
  [{ inputDataDefinitionFiles := ["cars.csv"]
     outputDataDefinitionFiles := [""]
     operationType := .kFilter
     nextNodes := [some 1]
     previousNodes := [none]
     operationParameters :=
       ⟨[[], [1], [2], [1]], [[], [1], [2], [1]], []⟩
     nodeName := "filter"
     isChecked := [false] },
   { inputDataDefinitionFiles := [""]
     outputDataDefinitionFiles := ["sorted.csv"]
     operationType := .kLinearSort
     nextNodes := [none]
     previousNodes := [some 0]
     operationParameters :=
       ⟨[[], [1], [2], [1]], [[], [1], [2], [1]], []⟩
     nodeName := "sort"
     isChecked := [true] }]

def filterThenSortPlan : Plan := .ofTable filterThenSort rfl

/-- Between the runs the block of the filter is the input of the sort. -/
theorem memory_blocks_conserved_filterThenSort :
    ∃ o e, findAcceleratedQueryNodeSets
        (libraryOf [[.kFilter], [.kLinearSort]]) 16 filterThenSortPlan.heap
        filterThenSortPlan.roots ∅ = .ok o ∧
      executedRuns tenRows o.linkedNodes o.queryNodeRunsQueue
        (fun _ => List.replicate 16 4) (ExecutionState.initial o.heap) 1 =
          .ok e ∧
      BlocksConserved e.run.inputMemoryBlocks e.run.outputMemoryBlocks
        e.run.memory ∧
      ∃ b size, entry e.run.inputMemoryBlocks "sort" 0 = some (some b) ∧
        entry e.run.inputStreamSizes "sort" 0 = some size ∧
        WrittenBefore filterThenSortPlan o tenRows
          (fun _ => List.replicate 16 4) 1 0 0 b size := by
  have hchecks : ((findAcceleratedQueryNodeSets
      (libraryOf [[.kFilter], [.kLinearSort]]) 16 filterThenSortPlan.heap
      filterThenSortPlan.roots ∅).toOption.any fun o =>
        (executedRuns tenRows o.linkedNodes o.queryNodeRunsQueue
          (fun _ => List.replicate 16 4) (ExecutionState.initial o.heap) 1).isOk
        && runNodes (o.queryNodeRunsQueue.take 1) == [0]
        && linkedTargets o.linkedNodes "filter" 0 == some [("sort", 0)]) =
      true := by decide +kernel
  simp only [Option.any_eq_true, toOption_eq_some, Bool.and_eq_true,
    beq_iff_eq] at hchecks
  obtain ⟨o, hrun, ⟨hexec, hnodes⟩, hlink⟩ := hchecks
  obtain ⟨e, hexec⟩ := exists_eq_ok hexec
  obtain ⟨hconserved, -, honly, hheld, -, -⟩ :=
    memory_blocks_conserved filterThenSortPlan _ 16 tenRows
      (fun _ => List.replicate 16 4) (by decide) hrun hexec
  have hstream : Stream filterThenSortPlan.heap 0 0 1 0 := by decide
  obtain ⟨b, hb⟩ := hheld 0 (by simp [hnodes]) 0 1 0 (by simp [hnodes])
    ⟨hstream, hlink⟩
  obtain ⟨a, ha, k, n, -, -, -, hlinked, size, hwritten, hsize⟩ :=
    honly _ 0 b hb
  rw [hnodes, List.mem_singleton] at ha
  subst ha
  have hlt : k < 1 := (List.getElem?_eq_some_iff.mp hlinked.1.1).1
  obtain rfl : k = 0 := by omega
  exact ⟨o, e, hrun, hexec, hconserved, b, size, hb, hsize, hwritten⟩

end Orkhestra.Ports.MemoryConservation
