import Orkhestra.Ports.AcceleratedRun

/-!
# A run of a schedule on the accelerator

The set-up of a run of a schedule, with the storage: what the earlier modules
say about its streams, its ids and its blocks, put together as `Accelerated`.
-/

namespace Orkhestra.Ports.AcceleratedSetup

open Orkhestra.Verified.Checked
open Orkhestra.Verified.Occurrence
open Orkhestra.Verified.VectorMap
open Orkhestra.Ports.QuerySchedulingData
open Orkhestra.Ports.NodeScheduler
open Orkhestra.Ports.SchedulePartition
open Orkhestra.Ports.ModulePlacement
open Orkhestra.Ports.HandOver
open Orkhestra.Ports.ScheduledRuns
open Orkhestra.Ports.IDManager
open Orkhestra.Ports.CSVReader (File recordSize)
open Orkhestra.Ports.QueryManager
open Orkhestra.Ports.RunSetup
open Orkhestra.Ports.StreamLanes
open Orkhestra.Ports.MemoryConservation
open Orkhestra.Ports.PortVectors
open Orkhestra.Ports.ScheduledPorts
open Orkhestra.Ports.RunLanes
open Orkhestra.Ports.TableManager
open Orkhestra.Ports.Accelerator
open Orkhestra.Ports.PlanMeaning
open Orkhestra.Ports.PreparedRun
open Orkhestra.Ports.AcceleratedRun

/-! ## Schedules -/

/-- A schedule of the plan whose modules follow the data flow. -/
structure Executable (P : Plan) (o : RunsState) : Prop where
  finished : Finished P o
  counts : SameCounts P.heap o.heap
  operationType : ∀ n, (o.heap n).operationType = (P.heap n).operationType
  isChecked : ∀ n, (o.heap n).isChecked = (P.heap n).isChecked
  files : FilesMatchPorts P.heap P.nodes
  located : ∀ run ∈ o.queryNodeRunsQueue, LocationsConsistent P o.heap run
  flow : ∀ run ∈ o.queryNodeRunsQueue, FollowsDataFlow P o.heap run

theorem executable_of_run {P : Plan} {lib : AcceleratorLibrary} {fuel : Nat}
    {o : RunsState} (hsingle : P.SingleEdges)
    (hfiles : FilesMatchPorts P.heap P.nodes)
    (hrun : findAcceleratedQueryNodeSets lib fuel P.heap P.roots ∅ = .ok o)
    (hlocated : ∀ run ∈ o.queryNodeRunsQueue, LocationsConsistent P o.heap run)
    (hflow : ∀ run ∈ o.queryNodeRunsQueue, FollowsDataFlow P o.heap run) :
    Executable P o := by
  have htracks := (scheduled_of_run hrun).1.tracks
  exact ⟨finished_of_run hsingle hrun, sameCounts_of_run hrun,
    htracks.operationType, htracks.isChecked, hfiles, hlocated, hflow⟩

/-! ## Set-up -/

section SetUp

variable {c : Conversions} {P : Plan} {o : RunsState}
  {written : NodeId → Nat → Block → RecordSizeAndCount → Prop}
  {done : List NodeId} {run : QueryNodeRun} {e : ExecutionState}
  {storage storage' : Storage} {names : List String} {links : LinkedNodes}
  {t : SetupState} {ids : StreamIds}

/-- The run is set up behind the nodes `done`, with the ids `ids`. -/
structure OnAccelerator (c : Conversions) (P : Plan) (o : RunsState)
    (done : List NodeId) (run : QueryNodeRun) (e : ExecutionState)
    (storage : Storage) (ids : StreamIds) (t : SetupState)
    (storage' : Storage) : Prop where
  setUp : RunSetUp P o (recordsOf c storage.files) done run.2 e.run
    (initialiseVectorSizes run.2 e.run) ids.inputIds ids.outputIds t
  prepared : Prepared c (initialiseVectorSizes run.2 e.run) storage run.2
    (t, storage')
  runHeap : RunHeap P o run.2 (initialiseVectorSizes run.2 e.run).heap
  pipeline : Pipeline (initialiseVectorSizes run.2 e.run).heap run.2
  allocated : Allocated (initialiseVectorSizes run.2 e.run).heap run.2 ids

theorem onAccelerator_of_run (hx : Executable P o)
    (he : Executed P o written done e) (hr : RunOf P o done run.2)
    (hrun : DataPath.setupNextRunData c o.linkedNodes e storage run.2 =
      .ok (names, links, t, storage')) :
    ∃ ids, OnAccelerator c P o done run e storage ids t storage' := by
  obtain ⟨hrecords, -⟩ := DataPath.setupNextRunData_records hrun
  obtain ⟨-, -, inputIds, outputIds, halloc, hloop⟩ :=
    setupNextRunData_cases hrecords
  have hsetup := runSetUp_of_parts hx.finished he hr halloc hloop
  have hheap : RunHeap P o run.2 (initialiseVectorSizes run.2 e.run).heap :=
    ⟨hsetup.nodeName, fun n hn => by
      rw [hsetup.scheduled n (hr.not_done hn), if_pos hn]⟩
  have hp := pipeline_of_run hheap hx.finished hr hx.counts
    fun n hn => hx.files n (hr.run_mem hn)
  -- The allocation has returned, so it has not run out of ids.
  obtain ⟨ids, hids, hallocated⟩ : ∃ ids : StreamIds,
      (inputIds, outputIds) = (ids.inputIds, ids.outputIds) ∧
        Allocated (initialiseVectorSizes run.2 e.run).heap run.2 ids := by
    rcases allocateStreamIDs_cases hp with ⟨ids, hids, hs⟩ | ⟨herror, -⟩
    · rw [halloc, Except.ok.injEq] at hids
      exact ⟨ids, hids, hs⟩
    · rw [halloc] at herror
      cases herror
  rw [Prod.mk.injEq] at hids
  obtain ⟨rfl, rfl⟩ := hids
  refine ⟨ids, hsetup, ?_, hheap, hp, hallocated⟩
  have hsound : FreeSound (initialiseVectorSizes run.2 e.run).memory := by
    rw [hsetup.initialised.memory]
    exact freeSound_of_conserved he.conserved
  simp only [DataPath.setupNextRunData, bind_eq_ok, Except.ok.injEq,
    Prod.mk.injEq, DataPath.setupAccelerationNodesForExecution] at hrun
  obtain ⟨⟨t', s'⟩, ⟨⟨inputIds, outputIds⟩, halloc', hdata⟩, -, -, rfl, rfl⟩ :=
    hrun
  exact prepared_of_run hsound hp.names hdata

variable {r₀ : RunData} {a n : NodeId} {k m : Nat}

/-! ### What the search for a consumer finds -/

/-- The search returns the index of the only pointer to the node. -/
theorem findConsumer_eq {h : Heap} {pointers : List (Option NodeId)}
    {found : Option Nat} {i : Nat}
    (hname : ∀ b, some b ∈ pointers → (h b).nodeName = (h n).nodeName → b = n)
    (hn : some n ∈ pointers)
    (hrun : findConsumer h (h n) pointers i = .ok found) :
    found = some (i + pointers.idxOf (some n)) := by
  induction pointers generalizing i with
  | nil => exact absurd hn List.not_mem_nil
  | cons pointer rest ih =>
      cases pointer with
      | none => cases hrun
      | some b =>
          rw [findConsumer] at hrun
          split at hrun
          · next heq =>
              have hb := hname b List.mem_cons_self
                (congrArg QueryNode.nodeName (eq_of_beq heq)).symm
              subst hb
              simp only [Except.ok.injEq] at hrun
              rw [← hrun, List.idxOf_cons_self, Nat.add_zero]
          · next hne =>
              have hbn : b ≠ n := by
                rintro rfl
                exact hne (beq_self_eq_true _)
              have hrest : some n ∈ rest := by
                rcases List.mem_cons.mp hn with heq | hmem
                · exact absurd (Option.some.inj heq).symm hbn
                · exact hmem
              rw [ih (fun b hb => hname b (List.mem_cons_of_mem _ hb)) hrest
                hrun, List.idxOf_cons_ne _ (by simpa using hbn)]
              congr 1
              omega

/-! ### Inputs -/

/-- What an input without a producer in the run has got: the block that has been
handed to it, or one that its file has been loaded into. -/
inductive InputSource (c : Conversions) (e : ExecutionState)
    (storage : Storage) (node : QueryNode) (m : Nat) (t : SetupState)
    (storage' : Storage) : Prop where
  | handed (b : Block) (size : RecordSizeAndCount) :
      entry e.run.inputMemoryBlocks node.nodeName m = some (some b) →
      entry e.run.inputStreamSizes node.nodeName m = some size →
      entry t.run.inputMemoryBlocks node.nodeName m = some (some b) →
      entry t.run.inputStreamSizes node.nodeName m = some size →
      storage'.blocks b = storage.blocks b →
      InputSource c e storage node m t storage'
  | loaded :
      (∀ b, entry e.run.inputMemoryBlocks node.nodeName m ≠ some (some b)) →
      LoadsInput c storage.files node m t.run storage' →
      InputSource c e storage node m t storage'

/-- The vector of a node of the run has an element for each input. -/
theorem OnAccelerator.input_entry
    (hs : OnAccelerator c P o done run e storage ids t storage')
    (hx : Executable P o) (he : Executed P o written done e)
    (hr : RunOf P o done run.2) (hn : n ∈ run.2)
    (hm : m < ((initialiseVectorSizes run.2 e.run).heap n).previousNodes.length) :
    entry (initialiseVectorSizes run.2 e.run).inputMemoryBlocks
      (P.heap n).nodeName m ≠ none := by
  have hpresent := hs.setUp.initialised.inputs.present n (.inl hn)
  rw [he.heap n (hr.not_done hn), hx.finished.nodeName] at hpresent
  obtain ⟨blocks, hblocks⟩ := Option.ne_none_iff_exists'.mp hpresent
  obtain ⟨n', hn', -, hname, hlength⟩ :=
    hs.setUp.inputs hx.finished he hr hblocks
  have hsame := P.nameInjective n' hn' n (hr.run_mem hn) hname
  subst hsame
  rw [entry_eq hblocks, List.getElem?_eq_getElem]
  · simp
  · rw [hs.runHeap.node n' hn, clearNextNodes] at hm
    rw [hlength]
    exact hm

theorem OnAccelerator.input_source
    (hs : OnAccelerator c P o done run e storage ids t storage')
    (hx : Executable P o) (he : Executed P o written done e)
    (hr : RunOf P o done run.2) (hn : n ∈ run.2)
    (hm : ((initialiseVectorSizes run.2 e.run).heap n).previousNodes[m]? =
      some none) :
    InputSource c e storage ((initialiseVectorSizes run.2 e.run).heap n) m t
      storage' := by
  have hname := hs.setUp.nodeName n
  have hholds := hs.setUp.initialised.holds_eq
    (fun b _ => by rw [he.outputs]; simp) (.input (P.heap n).nodeName m)
  rw [holds, holds] at hholds
  obtain ⟨block, hblock⟩ := Option.ne_none_iff_exists'.mp
    (hs.input_entry hx he hr hn (List.getElem?_eq_some_iff.mp hm).1)
  rw [hblock, Option.join_some] at hholds
  cases block with
  | some b =>
      rw [eq_comm, Option.join_eq_some_iff] at hholds
      have hkept := hs.setUp.initialised.inputs.kept (P.heap n).nodeName
        (fun hnone => by rw [entry, hnone] at hholds; simp at hholds)
      obtain ⟨hkeptBlock, hkeptSize⟩ :=
        hs.prepared.handed n hn m b hm (by rw [hname, hblock])
      have hsize : entry e.run.inputStreamSizes (P.heap n).nodeName m ≠
          none := he.shape.entry_ne_none (by rw [hholds]; simp)
      obtain ⟨size, hsize⟩ := Option.ne_none_iff_exists'.mp hsize
      refine .handed b size (hname ▸ hholds) (hname ▸ hsize) ?_ ?_ ?_
      · rw [hkeptBlock, hname, hblock]
      · rw [hkeptSize, hname, entry, hkept.2, ← entry, hsize]
      · refine hs.prepared.undisturbed.blocks b ?_
        rw [hs.setUp.initialised.memory]
        have hheld : holds e.run.inputMemoryBlocks e.run.outputMemoryBlocks
            (.input (P.heap n).nodeName m) = some b := by
          rw [holds, hholds, Option.join_some]
        exact inUse_of_holds he.conserved hheld
  | none =>
      refine .loaded (fun b hb => ?_)
        (hs.prepared.loaded n hn m hm (by rw [hname, hblock]))
      rw [hname] at hb
      rw [hb] at hholds
      cases hholds

/-- An input that is fed within the run has not been handed a block. -/
theorem OnAccelerator.fed_not_held
    (hs : OnAccelerator c P o done run e storage ids t storage')
    (hx : Executable P o) (he : Executed P o written done e)
    (hr : RunOf P o done run.2) (hn : n ∈ run.2)
    (hm : ((initialiseVectorSizes run.2 e.run).heap n).previousNodes[m]? =
      some (some a)) (b : Block) :
    entry t.run.inputMemoryBlocks
      ((initialiseVectorSizes run.2 e.run).heap n).nodeName m ≠
        some (some b) := by
  intro hb
  have hf := hx.finished
  obtain ⟨hplan, ha⟩ := (hs.runHeap.previous_iff hf hr hn).mp hm
  rw [hs.setUp.setUp.in_kept _ m, hs.setUp.nodeName] at hb
  · have hholds := hs.setUp.initialised.holds_eq
      (fun b _ => by rw [he.outputs]; simp) (.input (P.heap n).nodeName m)
    rw [holds, holds, hb, Option.join_some, eq_comm,
      Option.join_eq_some_iff] at hholds
    obtain ⟨a', ha', k, n', -, hname, hlinked⟩ := he.only _ m b hholds
    have hn' := (Plan.edge_of_stream (hr.done_mem ha') hlinked.1).right
    obtain rfl := P.nameInjective n' hn' n (hr.run_mem hn) hname
    have hproducer := hlinked.1.2
    rw [hplan, Option.some.injEq, Option.some.injEq] at hproducer
    exact hr.not_done ha (hproducer ▸ ha')
  · intro b' hb' hname hnone
    obtain rfl := hs.pipeline.name_injective hb' hn hname
    rw [hm] at hnone
    cases hnone

/-- The search of the set-up has found the output that feeds the input. -/
theorem OnAccelerator.fed_size
    (hs : OnAccelerator c P o done run e storage ids t storage')
    (hx : Executable P o) (hr : RunOf P o done run.2) (hn : n ∈ run.2)
    (hm : ((initialiseVectorSizes run.2 e.run).heap n).previousNodes[m]? =
      some (some a)) :
    ∃ k size, Stream P.heap a k n m ∧ a ∈ run.2 ∧
      entry t.run.outputStreamSizes
        ((initialiseVectorSizes run.2 e.run).heap a).nodeName k = some size ∧
      entry t.run.inputStreamSizes
        ((initialiseVectorSizes run.2 e.run).heap n).nodeName m =
          some size := by
  have ha := hs.pipeline.previous_mem hn (List.mem_of_getElem? hm)
  obtain ⟨k, hstream⟩ := hs.pipeline.stream_of_previous hn hm
  obtain ⟨found, hfound⟩ := hs.prepared.searched n hn m a hm
  have hindex := findConsumer_eq (fun b hb hname =>
    hs.pipeline.consumer_names a ha b hb n hn hname)
    (List.mem_of_getElem? hstream.1) hfound
  have hk : ((initialiseVectorSizes run.2 e.run).heap a).nextNodes.idxOf
      (some n) = k :=
    index_unique_of_count (hs.pipeline.single a ha n hn)
      (List.getElem?_idxOf (List.mem_of_getElem? hstream.1)) hstream.1
  rw [hindex, Nat.zero_add, hk] at hfound
  obtain ⟨size, hout, hin⟩ := hs.setUp.setUp.in_fed n hn m a k hm hfound
  exact ⟨k, size, (hs.runHeap.stream_iff hx.finished hr ha hn).mp hstream, ha,
    hout, hin⟩
/-- Where the file of an input comes from: it is an input of the plan, or an
earlier run has written the file. -/
inductive FileSource (P : Plan) (o : RunsState) (done : List NodeId)
    (n : NodeId) (m : Nat) : Prop where
  | plan : (P.heap n).previousNodes[m]? = some none →
      (o.heap n).inputDataDefinitionFiles[m]? =
        (P.heap n).inputDataDefinitionFiles[m]? → FileSource P o done n m
  | earlier (a : NodeId) (k : Nat) (f : String) : a ∈ done →
      Stream P.heap a k n m → ¬SameRun o.queryNodeRunsQueue a n →
      (P.heap a).outputDataDefinitionFiles[k]? = some f → f ≠ "" →
      (o.heap n).inputDataDefinitionFiles[m]? = some f →
      FileSource P o done n m

theorem OnAccelerator.file_source
    (hs : OnAccelerator c P o done run e storage ids t storage')
    (hx : Executable P o) (he : Executed P o written done e)
    (hr : RunOf P o done run.2) (hn : n ∈ run.2)
    (hm : ((initialiseVectorSizes run.2 e.run).heap n).previousNodes[m]? =
      some none)
    (hempty : ∀ b, entry e.run.inputMemoryBlocks (P.heap n).nodeName m ≠
      some (some b)) : FileSource P o done n m := by
  have hf := hx.finished
  have hmem := hr.run_mem hn
  have hlt := (List.getElem?_eq_some_iff.mp hm).1
  rw [(hs.runHeap.lengths hx.counts hn).1] at hlt
  cases hproducer : (P.heap n).previousNodes[m] with
  | none =>
      have hplan : (P.heap n).previousNodes[m]? = some none := by
        rw [List.getElem?_eq_getElem hlt, hproducer]
      refine .plan hplan (hf.handedOver.unfiled n m ?_)
      intro a _ k f hstream
      have := hstream.2
      rw [hplan] at this
      cases this
  | some a =>
      have hplan : (P.heap n).previousNodes[m]? = some (some a) := by
        rw [List.getElem?_eq_getElem hlt, hproducer]
      have hedge := (Plan.edge_iff_previous hmem).mpr
        (List.mem_of_getElem? hplan)
      have hout : a ∉ run.2 := by
        intro ha
        have hkept := (hs.runHeap.previous_iff hf hr hn).mpr ⟨hplan, ha⟩
        rw [hm] at hkept
        cases hkept
      have hdone : a ∈ done := by
        obtain ⟨before, after, hsplit⟩ := List.append_of_mem hn
        rcases List.mem_append.mp (hr.producers before n after hsplit a hedge)
          with ha | ha
        · exact ha
        · exact absurd (by rw [hsplit]; exact List.mem_append_left _ ha) hout
      obtain ⟨k, m', hstream⟩ := hedge.stream
      obtain rfl := (hf.single n hmem).2.index_unique hstream.2 hplan
      have hcut : ¬SameRun o.queryNodeRunsQueue a n := fun hsame =>
        hr.not_done hn (hr.same_run_done a hdone n hsame)
      have hscheduled := (hf.mem_iff a).mpr hedge.left
      obtain ⟨f, hfile⟩ :=
        hf.handedOver.crossed a hscheduled k n hstream.1 hcut
      by_cases hempty' : f = ""
      · subst hempty'
        have hlinked : Linked P o a k n m' := ⟨hstream,
          hf.handedOver.linked a hscheduled k n m' hstream hcut hfile⟩
        obtain ⟨b, size, -, hb, -⟩ :=
          he.handed a hdone k n m' (hr.not_done hn) hlinked
        exact absurd hb (hempty b)
      · exact .earlier a k f hdone hstream hcut hfile hempty'
          (hf.handedOver.filed a hscheduled k n m' f hstream hcut hfile
            hempty').2

/-! ### Record sizes -/

/-- Files between two runs are written and read with one record size. -/
def FileSizesAgree (c : Conversions) (P : Plan) (o : RunsState) : Prop :=
  ∀ a ∈ P.nodes, ∀ k n m f columns, Stream P.heap a k n m →
    ¬SameRun o.queryNodeRunsQueue a n →
    (P.heap a).outputDataDefinitionFiles[k]? = some f → f ≠ "" →
    getColumnDefsVector c
      (P.heap n).operationParameters.inputStreamParameters m = .ok columns →
    outputRecordSize c P a k = .ok (recordSize columns)

/-- Blocks that wait for a node have the record size of its input. -/
def HandedSizes (c : Conversions) (P : Plan) (e : ExecutionState) : Prop :=
  ∀ n ∈ P.nodes, ∀ (m : Nat) b size,
    entry e.run.inputMemoryBlocks (P.heap n).nodeName m = some (some b) →
    entry e.run.inputStreamSizes (P.heap n).nodeName m = some size →
    inputRecordSize c P n m = .ok size.1

theorem inputRecordSize_of_stream (hsingle : P.SingleEdges) (ha : a ∈ P.nodes)
    (hstream : Stream P.heap a k n m) :
    inputRecordSize c P n m = outputRecordSize c P a k := by
  have hmem := List.mem_of_getElem? hstream.1
  have hk : (P.heap a).nextNodes.idxOf (some n) = k :=
    (hsingle a ha).1.index_unique (List.getElem?_idxOf hmem) hstream.1
  simp only [inputRecordSize, hstream.2, hk]

theorem OnAccelerator.output_sized
    (hs : OnAccelerator c P o done run e storage ids t storage')
    (hx : Executable P o) (hn : n ∈ run.2)
    (hk : k < ((initialiseVectorSizes run.2 e.run).heap n).nextNodes.length)
    {size : RecordSizeAndCount}
    (hsize : entry t.run.outputStreamSizes
      ((initialiseVectorSizes run.2 e.run).heap n).nodeName k = some size) :
    outputRecordSize c P n k = .ok size.1 := by
  obtain ⟨recordSize, size', hrecord, -, hsize'⟩ :=
    hs.setUp.setUp.out_sized n hn k hk
  rw [hsize, Option.some.injEq] at hsize'
  obtain ⟨columns, hcolumns, rfl⟩ :=
    getRecordSizeFromParameters_recordsOf.mp hrecord
  rw [hs.runHeap.node n hn, clearNextNodes, hx.finished.operationParameters]
    at hcolumns
  rw [outputRecordSize, hcolumns, ok_bind, hsize']

theorem OnAccelerator.input_sized
    (hs : OnAccelerator c P o done run e storage ids t storage')
    (hx : Executable P o) (he : Executed P o written done e)
    (hr : RunOf P o done run.2) (hfile : FileSizesAgree c P o)
    (hhanded : HandedSizes c P e) (hn : n ∈ run.2)
    (hm : m < ((initialiseVectorSizes run.2 e.run).heap n).previousNodes.length)
    {size : RecordSizeAndCount}
    (hsize : entry t.run.inputStreamSizes
      ((initialiseVectorSizes run.2 e.run).heap n).nodeName m = some size) :
    inputRecordSize c P n m = .ok size.1 := by
  have hmem := hr.run_mem hn
  cases hproducer : ((initialiseVectorSizes run.2 e.run).heap n).previousNodes[m]
    with
  | some a =>
      have hprevious : ((initialiseVectorSizes run.2 e.run).heap
          n).previousNodes[m]? = some (some a) := by
        rw [List.getElem?_eq_getElem hm, hproducer]
      obtain ⟨k, size', hstream, ha, hout, hin⟩ :=
        hs.fed_size hx hr hn hprevious
      rw [hsize, Option.some.injEq] at hin
      subst hin
      rw [inputRecordSize_of_stream hx.finished.single (hr.run_mem ha) hstream]
      refine hs.output_sized hx ha ?_ hout
      rw [(hs.runHeap.lengths hx.counts ha).2.1]
      exact (List.getElem?_eq_some_iff.mp hstream.1).1
  | none =>
      have hprevious : ((initialiseVectorSizes run.2 e.run).heap
          n).previousNodes[m]? = some none := by
        rw [List.getElem?_eq_getElem hm, hproducer]
      have hname := hs.setUp.nodeName n
      rcases hs.input_source hx he hr hn hprevious with
        ⟨b, size', hb, hb', -, hsize', -⟩ | ⟨hempty, hloads⟩
      · rw [hsize, Option.some.injEq] at hsize'
        subst hsize'
        rw [hname] at hb hb'
        exact hhanded n hmem m b size hb hb'
      · obtain ⟨b, filename, recordSize, count, -, -, hsize', -, columns, -, -,
          hcolumns, rfl, -⟩ := hloads
        rw [hsize, Option.some.injEq] at hsize'
        subst hsize'
        rw [hs.runHeap.node n hn, clearNextNodes,
          hx.finished.operationParameters] at hcolumns
        rw [hname] at hempty
        rcases hs.file_source hx he hr hn hprevious hempty with
          ⟨hplan, -⟩ | ⟨a, k, f, hdone, hstream, hcut, hf, hne, -⟩
        · rw [inputRecordSize, hplan]
          simp only [hcolumns, ok_bind]
        · have ha := hr.done_mem hdone
          rw [inputRecordSize_of_stream hx.finished.single ha hstream]
          exact hfile a ha k n m f columns hstream hcut hf hne hcolumns

/-! ### The accelerated nodes -/

/-- There are no more outputs than inputs, as sizes are kept for the latter. -/
theorem OnAccelerator.outputs_le
    (hs : OnAccelerator c P o done run e storage ids t storage')
    (hn : n ∈ run.2) :
    ((initialiseVectorSizes run.2 e.run).heap n).nextNodes.length ≤
      ((initialiseVectorSizes run.2 e.run).heap n).previousNodes.length := by
  refine Nat.le_of_not_lt fun hlt => ?_
  obtain ⟨-, size, -, hsize, -⟩ := hs.setUp.setUp.out_sized n hn _ hlt
  have hname : (e.run.heap n).nodeName =
      ((initialiseVectorSizes run.2 e.run).heap n).nodeName :=
    (congrArg QueryNode.nodeName
      (hs.setUp.initialised.sameButNext n)).symm
  rw [entry, ← hname, (hs.setUp.initialised.outputs n hn).2, Option.getD_some,
    List.getElem?_eq_none] at hsize
  · cases hsize
  · rw [List.length_replicate, hs.setUp.initialised.sameButNext n]

theorem OnAccelerator.output_backed_iff
    (hs : OnAccelerator c P o done run e storage ids t storage')
    (hn : n ∈ run.2) :
    (∃ b, entry t.run.outputMemoryBlocks
      ((initialiseVectorSizes run.2 e.run).heap n).nodeName k =
        some (some b)) ↔
      ((initialiseVectorSizes run.2 e.run).heap n).nextNodes[k]? =
        some none := by
  constructor
  · rintro ⟨b, hb⟩
    by_contra hnext
    rw [hs.setUp.setUp.out_kept _ k] at hb
    · have hempty := Initialised.outputs_empty hs.setUp.initialised hn k
      rw [hb] at hempty
      cases hempty
    · intro n' hn' hname
      obtain rfl := hs.pipeline.name_injective hn' hn hname
      exact hnext
  · exact hs.setUp.setUp.out_backed n hn k

theorem OnAccelerator.input_backed_iff
    (hs : OnAccelerator c P o done run e storage ids t storage')
    (hx : Executable P o) (he : Executed P o written done e)
    (hr : RunOf P o done run.2) (hn : n ∈ run.2) :
    (∃ b, entry t.run.inputMemoryBlocks
      ((initialiseVectorSizes run.2 e.run).heap n).nodeName m =
        some (some b)) ↔
      ((initialiseVectorSizes run.2 e.run).heap n).previousNodes[m]? =
        some none := by
  constructor
  · rintro ⟨b, hb⟩
    cases hprevious : ((initialiseVectorSizes run.2 e.run).heap
        n).previousNodes[m]? with
    | some pointer =>
        cases pointer with
        | none => rfl
        | some a => exact absurd hb (hs.fed_not_held hx he hr hn hprevious b)
    | none =>
        -- There is no element without an input.
        have hnone := List.getElem?_eq_none_iff.mp hprevious
        rw [hs.setUp.setUp.in_kept _ m, entry] at hb
        · cases hblocks : (initialiseVectorSizes run.2
              e.run).inputMemoryBlocks[((initialiseVectorSizes run.2
                e.run).heap n).nodeName]? with
          | none =>
              rw [hblocks] at hb
              cases hb
          | some blocks =>
              obtain ⟨n', hn', -, hname, hlength⟩ :=
                hs.setUp.inputs hx.finished he hr hblocks
              rw [hs.setUp.nodeName] at hname
              obtain rfl :=
                P.nameInjective n' hn' n (hr.run_mem hn) hname
              rw [hs.runHeap.node n' hn, clearNextNodes] at hnone
              rw [hblocks, Option.getD_some, List.getElem?_eq_none] at hb
              · cases hb
              · rw [hlength]
                exact hnone
        · intro n' hn' hname heq
          obtain rfl := hs.pipeline.name_injective hn' hn hname
          rw [hprevious] at heq
          cases heq
  · intro hprevious
    rcases hs.input_source hx he hr hn hprevious with
      ⟨b, size, -, -, hb, -, -⟩ | ⟨-, b, filename, size, count, hb, -⟩
    · exact ⟨b, hb⟩
    · exact ⟨b, hb⟩

theorem OnAccelerator.accelerated
    (hs : OnAccelerator c P o done run e storage ids t storage')
    (hx : Executable P o) (he : Executed P o written done e)
    (hr : RunOf P o done run.2) (hfile : FileSizesAgree c P o)
    (hhanded : HandedSizes c P e) :
    ∃ q, Accelerated c P (initialiseVectorSizes run.2 e.run).heap run.2 ids t
      q := by
  have hsame : ∀ n, (initialiseVectorSizes run.2 e.run).heap n =
      { o.heap n with nextNodes :=
        ((initialiseVectorSizes run.2 e.run).heap n).nextNodes } := by
    intro n
    rw [hs.setUp.initialised.sameButNext n, he.same n]
  obtain ⟨q, hq, hconfigured⟩ := hs.prepared.configured
  have hstreams : ∀ n ∈ run.2,
      StreamsOf ids.inputIds t.run.inputMemoryBlocks t.run.inputStreamSizes
        ((initialiseVectorSizes run.2 e.run).heap n).nodeName
        (q n).inputStreams ∧
      StreamsOf ids.outputIds t.run.outputMemoryBlocks t.run.outputStreamSizes
        ((initialiseVectorSizes run.2 e.run).heap n).nodeName
        (q n).outputStreams := by
    intro n hn
    obtain ⟨i, hi⟩ := List.mem_iff_getElem?.mp hn
    obtain ⟨q', hq', hin, hout⟩ := hs.setUp.setUp.nodes i n hi
    rw [show t.queryNodes = run.2.map q from hq, List.getElem?_map, hi,
      Option.map_some, Option.some.injEq] at hq'
    subst hq'
    exact ⟨hin, hout⟩
  refine ⟨q, hq, hconfigured, fun n => ?_, fun n => ?_,
    fun n hn => (hstreams n hn).1, fun n hn => (hstreams n hn).2,
    fun n hn m => hs.input_backed_iff hx he hr hn,
    fun n hn k => hs.output_backed_iff hn, ?_,
    fun n hn m hm size hsize =>
      hs.input_sized hx he hr hfile hhanded hn hm hsize,
    fun n hn k hk size hsize => hs.output_sized hx hn hk hsize⟩
  · rw [hsame n]
    exact hx.operationType n
  · rw [hsame n]
    exact hx.finished.operationParameters n
  · exact (hs.setUp.conserved he).slot_unique

end SetUp

end Orkhestra.Ports.AcceleratedSetup
