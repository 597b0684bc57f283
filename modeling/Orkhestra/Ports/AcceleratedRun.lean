import Orkhestra.Ports.PreparedRun
import Orkhestra.Ports.RunLanes

/-!
# What the accelerator computes

A run that is set up as `Accelerated` says, whose inputs in memory carry the
values of the plan, leaves the values of the plan in the blocks of its outputs:
the stages of its modules form the lane machine of `RunLanes`, and each memory
stream is told apart from the others by its id and its block.
-/

namespace Orkhestra.Ports.AcceleratedRun

open Orkhestra.Verified.Checked
open Orkhestra.Verified.LaneMachine
open Orkhestra.Verified.VectorMap
open Orkhestra.Ports.QuerySchedulingData
open Orkhestra.Ports.NodeScheduler
open Orkhestra.Ports.ModulePlacement
open Orkhestra.Ports.ScheduledRuns
open Orkhestra.Ports.IDManager
open Orkhestra.Ports.CSVReader (File)
open Orkhestra.Ports.QueryManager
open Orkhestra.Ports.RunSetup
open Orkhestra.Ports.StreamLanes
open Orkhestra.Ports.ScheduledPorts
open Orkhestra.Ports.RunLanes
open Orkhestra.Ports.TableManager (Conversions Storage readWords)
open Orkhestra.Ports.Accelerator
open Orkhestra.Ports.PlanMeaning
open Orkhestra.Ports.PreparedRun

/-! ## The set-up -/

/-- The streams of the run, as the accelerator is told about them: `q` are the
accelerated nodes. -/
structure Accelerated (c : Conversions) (P : Plan) (h : Heap)
    (nodes : List NodeId) (ids : StreamIds) (t : SetupState)
    (q : NodeId → AcceleratedQueryNode) : Prop where
  queryNodes : t.queryNodes = nodes.map q
  configured : ∀ n ∈ nodes, Configured (h n) (q n)
  operationType : ∀ n, (h n).operationType = (P.heap n).operationType
  operationParameters : ∀ n,
    (h n).operationParameters = (P.heap n).operationParameters
  inputs : ∀ n ∈ nodes, StreamsOf ids.inputIds t.run.inputMemoryBlocks
    t.run.inputStreamSizes (h n).nodeName (q n).inputStreams
  outputs : ∀ n ∈ nodes, StreamsOf ids.outputIds t.run.outputMemoryBlocks
    t.run.outputStreamSizes (h n).nodeName (q n).outputStreams
  input_backed_iff : ∀ n ∈ nodes, ∀ m : Nat,
    (∃ b, entry t.run.inputMemoryBlocks (h n).nodeName m = some (some b)) ↔
      (h n).previousNodes[m]? = some none
  output_backed_iff : ∀ n ∈ nodes, ∀ k : Nat,
    (∃ b, entry t.run.outputMemoryBlocks (h n).nodeName k = some (some b)) ↔
      (h n).nextNodes[k]? = some none
  differ : ∀ slot slot' b,
    holds t.run.inputMemoryBlocks t.run.outputMemoryBlocks slot = some b →
    holds t.run.inputMemoryBlocks t.run.outputMemoryBlocks slot' = some b →
    slot = slot'
  input_sized : ∀ n ∈ nodes, ∀ m < (h n).previousNodes.length, ∀ size,
    entry t.run.inputStreamSizes (h n).nodeName m = some size →
    inputRecordSize c P n m = .ok size.1
  output_sized : ∀ n ∈ nodes, ∀ k < (h n).nextNodes.length, ∀ size,
    entry t.run.outputStreamSizes (h n).nodeName k = some size →
    outputRecordSize c P n k = .ok size.1

theorem map_eq_map_range {α β : Type} {xs : List α} {f : α → β} {g : Nat → β}
    (h : ∀ (i : Nat) x, xs[i]? = some x → f x = g i) :
    xs.map f = (List.range xs.length).map g := by
  refine List.ext_getElem (by simp) fun i hi _ => ?_
  rw [List.length_map] at hi
  rw [List.getElem_map, List.getElem_map, List.getElem_range]
  exact h i _ (List.getElem?_eq_getElem hi)

section Run

variable {V : Type} {c : Conversions} {acc : Accelerator V}
  {P : Plan} {o : RunsState} {done : List NodeId} {run : QueryNodeRun}
  {h : Heap} {ids : StreamIds} {t : SetupState}
  {q : NodeId → AcceleratedQueryNode} {n : NodeId}

theorem Accelerated.inputs_length
    (ha : Accelerated c P h run.2 ids t q) (hp : Pipeline h run.2)
    (hs : Allocated h run.2 ids) (hn : n ∈ run.2) :
    (q n).inputStreams.length = (h n).previousNodes.length := by
  obtain ⟨row, hrow, hlength⟩ := hs.inputs n hn
  rw [(ha.inputs n hn).length, hrow, Option.getD_some, hlength,
    hp.inputs n hn]

theorem Accelerated.outputs_length
    (ha : Accelerated c P h run.2 ids t q) (hp : Pipeline h run.2)
    (hs : Allocated h run.2 ids) (hn : n ∈ run.2) :
    (q n).outputStreams.length = (h n).nextNodes.length := by
  obtain ⟨row, hrow, hlength⟩ := hs.outputs n hn
  rw [(ha.outputs n hn).length, hrow, Option.getD_some, hlength,
    hp.outputs n hn]

/-- The registers of the inputs of a module. -/
theorem Accelerated.reads (ha : Accelerated c P h run.2 ids t q)
    (hp : Pipeline h run.2) (hs : Allocated h run.2 ids) (hn : n ∈ run.2) :
    (q n).inputStreams.map (·.streamId) =
      (inputPorts h n).map (streamLabel h ids) := by
  rw [inputPorts, List.map_map, ← ha.inputs_length hp hs hn]
  refine map_eq_map_range fun i p hi => ?_
  have hid := ((ha.inputs n hn).stream i p hi).1
  simp [streamLabel, StreamIds.id, hid]

/-- The registers of the outputs of a module. -/
theorem Accelerated.writes (ha : Accelerated c P h run.2 ids t q)
    (hp : Pipeline h run.2) (hs : Allocated h run.2 ids) (hn : n ∈ run.2) :
    (q n).outputStreams.map (·.streamId) =
      (outputPorts h n).map (streamLabel h ids) := by
  rw [outputPorts, List.map_map, ← ha.outputs_length hp hs hn]
  refine map_eq_map_range fun i p hi => ?_
  have hid := ((ha.outputs n hn).stream i p hi).1
  simp [streamLabel, StreamIds.id, hid]

/-! ### Shapes -/

theorem Accelerated.inputShape_eq (ha : Accelerated c P h run.2 ids t q)
    (hp : Pipeline h run.2) (hs : Allocated h run.2 ids) (hn : n ∈ run.2)
    {m : Nat} {p : StreamDataParameters}
    (hm : (q n).inputStreams[m]? = some p) :
    inputShape c P n m = .ok (shapeOf p) := by
  have hlt := (List.getElem?_eq_some_iff.mp hm).1
  rw [ha.inputs_length hp hs hn] at hlt
  have hsize := ha.input_sized n hn m hlt _
    ((ha.inputs n hn).stream m p hm).2.2
  rw [inputShape, hsize, ok_bind, (ha.configured n hn).inputs m p hm,
    ha.operationParameters]

theorem Accelerated.outputShape_eq (ha : Accelerated c P h run.2 ids t q)
    (hp : Pipeline h run.2) (hs : Allocated h run.2 ids) (hn : n ∈ run.2)
    {k : Nat} {p : StreamDataParameters}
    (hk : (q n).outputStreams[k]? = some p) :
    outputShape c P n k = .ok (shapeOf p) := by
  have hlt := (List.getElem?_eq_some_iff.mp hk).1
  rw [ha.outputs_length hp hs hn] at hlt
  have hsize := ha.output_sized n hn k hlt _
    ((ha.outputs n hn).stream k p hk).2.2
  rw [outputShape, hsize, ok_bind, (ha.configured n hn).outputs k p hk,
    ha.operationParameters]

/-- All shapes of one side of a node. -/
theorem mapM_shapes {streams : List StreamDataParameters}
    {shape : Nat → Outcome StreamShape} {length : Nat}
    (hlength : streams.length = length)
    (hall : ∀ (i : Nat) p, streams[i]? = some p → shape i = .ok (shapeOf p)) :
    (List.range length).mapM shape = .ok (streams.map shapeOf) := by
  rw [mapM_eq_ok_iff]
  refine ⟨by simp [hlength], fun i x hx => ?_⟩
  obtain ⟨hlt, rfl⟩ := List.getElem?_eq_some_iff.mp hx
  rw [List.length_range, ← hlength] at hlt
  have hget := List.getElem?_eq_getElem hlt
  refine ⟨shapeOf streams[i], by rw [List.getElem?_map, hget]; rfl, ?_⟩
  rw [List.getElem_range]
  exact hall i _ hget

/-! ### Modules -/

/-- What the module of a node does. -/
def nodeStage (acc : Accelerator V) (P : Plan) (q : NodeId → AcceleratedQueryNode)
    (n : NodeId) : Stage Nat V :=
  moduleStage acc ⟨(P.heap n).operationType, []⟩ (q n)

/-- The modules of the bitstream are those of the nodes. -/
theorem Accelerated.stages_eq (ha : Accelerated c P h run.2 ids t q)
    (hlocated : LocationsConsistent P h run) :
    moduleStages acc run.1 t.queryNodes =
      (nodeOrder P h run).map (nodeStage acc P q) := by
  have hat : ∀ i, moduleAt t.queryNodes i = (nodeAt P h run.2 i).map q := by
    intro i
    rw [moduleAt, ha.queryNodes, List.filter_map, List.getLast?_map, nodeAt]
    refine congrArg (fun nodes => (List.getLast? nodes).map q)
      (List.filter_congr fun n hn => ?_)
    simp only [Function.comp_apply, (ha.configured n hn).operationType,
      (ha.configured n hn).location, ha.operationType]
  have hstage : ∀ operation ∈ run.1.zipIdx,
      (moduleAt t.queryNodes operation.2).map (moduleStage acc operation.1) =
        (nodeAt P h run.2 operation.2).map (nodeStage acc P q) := by
    rintro ⟨operation, i⟩ hoperation
    rw [hat, Option.map_map]
    refine Option.map_congr fun n hn => ?_
    -- The module at the location of a node has the type of the node.
    obtain ⟨hmem, hlocation⟩ := (nodeAt_eq_some_iff hlocated).mp hn
    obtain ⟨j, operation', hj, hget, htype⟩ := hlocated.1 n
      (mem_moduleNodes.mp hmem).1 (mem_moduleNodes.mp hmem).2
    obtain rfl : j = i := by omega
    rw [List.mk_mem_zipIdx_iff_getElem?, hget, Option.some.injEq] at hoperation
    subst hoperation
    simp only [Function.comp_apply, nodeStage, moduleStage, htype]
  rw [moduleStages, List.filterMap_congr hstage, nodeOrder, List.map_filterMap,
    List.range_eq_range', ← List.zipIdx_map_snd 0 run.1, List.filterMap_map]
  rfl

/-! ### Streams in memory -/

theorem memoryBacked_of_previous {m : Nat}
    (hm : (h n).previousNodes[m]? = some none) :
    MemoryBacked h run.2 (.input n m) := fun a _ heq => by
  rw [hm] at heq
  cases heq

theorem memoryBacked_of_next {k : Nat}
    (hk : (h n).nextNodes[k]? = some none) :
    MemoryBacked h run.2 (.output n k) := fun b _ heq => by
  rw [hk] at heq
  cases heq

/-- A stream that is read from memory belongs to an input. -/
theorem Accelerated.mem_inputs (ha : Accelerated c P h run.2 ids t q)
    (hp : Pipeline h run.2) {x : MemoryStream}
    (hx : x ∈ memoryInputs t.queryNodes) : ∃ n ∈ run.2, ∃ m : Nat,
      x.node = q n ∧ (q n).inputStreams[m]? = some x.stream ∧
      x.stream.physicalAddress = some x.block ∧
      (Port.input n m).Valid h run.2 ∧
      MemoryBacked h run.2 (.input n m) ∧
      ids.id h (.input n m) = some x.stream.streamId := by
  obtain ⟨hnode, hstream, hblock⟩ := mem_memoryStreams.mp hx
  rw [ha.queryNodes, List.mem_map] at hnode
  obtain ⟨n, hn, hnode⟩ := hnode
  rw [← hnode] at hstream
  obtain ⟨m, hm⟩ := List.mem_iff_getElem?.mp hstream
  obtain ⟨hid, haddress, -⟩ := (ha.inputs n hn).stream m _ hm
  have hprevious := (ha.input_backed_iff n hn m).mp
    ⟨x.block, by rw [haddress, hblock]⟩
  refine ⟨n, hn, m, hnode.symm, hm, hblock, ⟨hn, ?_⟩,
    memoryBacked_of_previous hprevious, hid⟩
  rw [← hp.inputs n hn]
  exact (List.getElem?_eq_some_iff.mp hprevious).1

/-- A stream that is written to memory belongs to an output. -/
theorem Accelerated.mem_outputs (ha : Accelerated c P h run.2 ids t q)
    (hp : Pipeline h run.2) {x : MemoryStream}
    (hx : x ∈ memoryOutputs t.queryNodes) : ∃ n ∈ run.2, ∃ k : Nat,
      x.node = q n ∧ (q n).outputStreams[k]? = some x.stream ∧
      x.stream.physicalAddress = some x.block ∧
      (Port.output n k).Valid h run.2 ∧
      MemoryBacked h run.2 (.output n k) ∧
      ids.id h (.output n k) = some x.stream.streamId := by
  obtain ⟨hnode, hstream, hblock⟩ := mem_memoryStreams.mp hx
  rw [ha.queryNodes, List.mem_map] at hnode
  obtain ⟨n, hn, hnode⟩ := hnode
  rw [← hnode] at hstream
  obtain ⟨k, hk⟩ := List.mem_iff_getElem?.mp hstream
  obtain ⟨hid, haddress, -⟩ := (ha.outputs n hn).stream k _ hk
  have hnext := (ha.output_backed_iff n hn k).mp
    ⟨x.block, by rw [haddress, hblock]⟩
  refine ⟨n, hn, k, hnode.symm, hk, hblock, ⟨hn, ?_⟩,
    memoryBacked_of_next hnext, hid⟩
  rw [← hp.outputs n hn]
  exact (List.getElem?_eq_some_iff.mp hnext).1

theorem eq_of_parts {x y : MemoryStream} (hnode : y.node = x.node)
    (hstream : y.stream = x.stream)
    (hx : x.stream.physicalAddress = some x.block)
    (hy : y.stream.physicalAddress = some y.block) : y = x := by
  cases x
  cases y
  simp only at hnode hstream hx hy
  subst hnode hstream
  rw [hx, Option.some.injEq] at hy
  rw [hy]

/-- An id belongs to one input in memory. -/
theorem Accelerated.input_unique (ha : Accelerated c P h run.2 ids t q)
    (hp : Pipeline h run.2) (hs : Allocated h run.2 ids) {x y : MemoryStream}
    (hx : x ∈ memoryInputs t.queryNodes) (hy : y ∈ memoryInputs t.queryNodes)
    (heq : y.stream.streamId = x.stream.streamId) : y = x := by
  obtain ⟨n, hn, m, hnode, hm, hblock, hv, hmem, hid⟩ := ha.mem_inputs hp hx
  obtain ⟨n', hn', m', hnode', hm', hblock', hv', hmem', hid'⟩ :=
    ha.mem_inputs hp hy
  obtain ⟨rfl, rfl⟩ := memoryBacked_input_unique hp hs hv' hv hmem' hmem
    (by rw [hid', hid, heq])
  rw [hm, Option.some.injEq] at hm'
  exact eq_of_parts (hnode'.trans hnode.symm) hm'.symm hblock hblock'

/-- An id belongs to one output in memory. -/
theorem Accelerated.output_unique (ha : Accelerated c P h run.2 ids t q)
    (hp : Pipeline h run.2) (hs : Allocated h run.2 ids) {x y : MemoryStream}
    (hx : x ∈ memoryOutputs t.queryNodes)
    (hy : y ∈ memoryOutputs t.queryNodes)
    (heq : y.stream.streamId = x.stream.streamId) : y = x := by
  obtain ⟨n, hn, k, hnode, hk, hblock, hv, hmem, hid⟩ := ha.mem_outputs hp hx
  obtain ⟨n', hn', k', hnode', hk', hblock', hv', hmem', hid'⟩ :=
    ha.mem_outputs hp hy
  obtain ⟨rfl, rfl⟩ := memoryBacked_output_unique hp hs hv' hv hmem' hmem
    (by rw [hid', hid, heq])
  rw [hk, Option.some.injEq] at hk'
  exact eq_of_parts (hnode'.trans hnode.symm) hk'.symm hblock hblock'

/-- Outputs in memory have different blocks. -/
theorem Accelerated.blocks_nodup (ha : Accelerated c P h run.2 ids t q)
    (hp : Pipeline h run.2) :
    ((memoryOutputs t.queryNodes).map (·.block)).Nodup := by
  have hheld : ∀ n ∈ run.2, ∀ (k : Nat) p b,
      (q n).outputStreams[k]? = some p → p.physicalAddress = some b →
      holds t.run.inputMemoryBlocks t.run.outputMemoryBlocks
        (.output (h n).nodeName k) = some b := by
    intro n hn k p b hk hb
    rw [holds, ((ha.outputs n hn).stream k p hk).2.1, hb, Option.join_some]
  have hblocks : (memoryOutputs t.queryNodes).map (·.block) =
      run.2.flatMap fun n => (q n).outputStreams.filterMap
        (·.physicalAddress) := by
    rw [memoryOutputs, memoryStreams, ha.queryNodes, List.flatMap_map,
      List.map_flatMap]
    refine List.flatMap_congr fun n _ => ?_
    rw [List.map_filterMap]
    refine List.filterMap_congr fun p _ => ?_
    cases p.physicalAddress <;> rfl
  rw [hblocks, List.nodup_flatMap]
  constructor
  · intro n hn
    refine List.pairwise_filterMap.mpr (List.pairwise_iff_getElem.mpr ?_)
    intro i j hi hj hij x hx x' hx' heq
    subst heq
    have heq := ha.differ _ _ x
      (hheld n hn i _ x (List.getElem?_eq_getElem hi) hx)
      (hheld n hn j _ x (List.getElem?_eq_getElem hj) hx')
    simp only [Slot.output.injEq] at heq
    omega
  · refine hp.nodup.imp_of_mem ?_
    intro a b ha' hb hne x hx hx'
    obtain ⟨p, hp', hxp⟩ := List.mem_filterMap.mp hx
    obtain ⟨p', hp'', hxp'⟩ := List.mem_filterMap.mp hx'
    obtain ⟨i, hi⟩ := List.mem_iff_getElem?.mp hp'
    obtain ⟨j, hj⟩ := List.mem_iff_getElem?.mp hp''
    have heq := ha.differ _ _ x (hheld a ha' i p x hi hxp)
      (hheld b hb j p' x hj hxp')
    simp only [Slot.output.injEq] at heq
    exact hne (hp.name_injective ha' hb heq.1)

/-! ### Values -/

section Values

variable [Inhabited V] {files : String → File} {s s' : Storage} {resultSizes : List Int}

/-- The inputs in memory carry the values of the plan. -/
def SourcesCarry (c : Conversions) (acc : Accelerator V) (P : Plan)
    (files : String → File) (h : Heap) (nodes : List NodeId) (t : SetupState)
    (s : Storage) : Prop :=
  ∀ n ∈ nodes, ∀ (m : Nat) b size words,
    (h n).previousNodes[m]? = some none →
    entry t.run.inputMemoryBlocks (h n).nodeName m = some (some b) →
    entry t.run.inputStreamSizes (h n).nodeName m = some size →
    readWords (s.blocks b) (size.2 * size.1) = .ok words →
    Carries c acc P files (.input n m) (acc.fetch (P.heap n).operationType
      (P.heap n).operationParameters.operationParameters
      (streamShape (P.heap n).operationParameters.inputStreamParameters m
        size.1) size.2 words)

theorem Accelerated.source (ha : Accelerated c P h run.2 ids t q)
    (hp : Pipeline h run.2) (hs : Allocated h run.2 ids)
    (hsources : SourcesCarry c acc P files h run.2 t s) {streams : Nat → V}
    (hrun : inputStreams acc t.queryNodes s = .ok streams) {p : Port}
    (hmemory : FromMemory h run.2 p) :
    Carries c acc P files p (streams (streamLabel h ids p)) := by
  obtain ⟨n, hn, m, rfl, hm⟩ := hmemory
  obtain ⟨b, hb⟩ := (ha.input_backed_iff n hn m).mpr hm
  have hlt : m < (q n).inputStreams.length := by
    rw [ha.inputs_length hp hs hn]
    exact (List.getElem?_eq_some_iff.mp hm).1
  obtain ⟨hid, haddress, hsize⟩ :=
    (ha.inputs n hn).stream m _ (List.getElem?_eq_getElem hlt)
  rw [hb, Option.some.injEq] at haddress
  have hx : ⟨q n, (q n).inputStreams[m], b⟩ ∈ memoryInputs t.queryNodes := by
    refine mem_memoryStreams.mpr ⟨?_, List.getElem_mem hlt, haddress.symm⟩
    rw [ha.queryNodes]
    exact List.mem_map_of_mem hn
  obtain ⟨words, hwords, hvalue⟩ := inputStreams_eq hrun hx
    fun y hy heq => ha.input_unique hp hs hx hy heq
  have hconfigured := ha.configured n hn
  have hcarried := hsources n hn m b _ words hm hb hsize hwords
  rw [streamLabel, StreamIds.id, hid, Option.getD_some, hvalue]
  simp only [hconfigured.operationType, hconfigured.parameters,
    hconfigured.inputs m _ (List.getElem?_eq_getElem hlt), ha.operationType,
    ha.operationParameters]
  exact hcarried

/-- The registers hold the values of the plan. -/
theorem Accelerated.computes (ha : Accelerated c P h run.2 ids t q)
    (hh : RunHeap P o run.2 h) (hf : Finished P o) (hr : RunOf P o done run.2)
    (hcounts : SameCounts P.heap o.heap) (hp : Pipeline h run.2)
    (hs : Allocated h run.2 ids) (hlocated : LocationsConsistent P h run)
    (hsources : SourcesCarry c acc P files h run.2 t s) {streams : Nat → V}
    (hrun : inputStreams acc t.queryNodes s = .ok streams) :
    Computes (LaneStep h run.2) (streamLabel h ids) (nodeStage acc P q)
      (inputPorts h) (outputPorts h) (FromMemory h run.2)
      (Carries c acc P files) streams (nodeOrder P h run) where
  source _ hmemory := ha.source hp hs hsources hrun hmemory
  pass p p' v hstep hfree hv := by
    cases hstep with
    | through n i hn hin hout =>
        have hnext : i < (h n).nextNodes.length := hp.outputs n hn ▸ hout
        refine .passed n i v (hr.run_mem hn) ?_ ?_ hv
        · -- A node with a module writes its outputs.
          by_contra hop
          refine hfree n ((mem_nodeOrder hlocated).mpr ?_)
            (mem_outputPorts.mpr ⟨i, hnext, rfl⟩)
          exact mem_moduleNodes.mpr ⟨hn, hop⟩
        · rw [← (hh.lengths hcounts hn).2.1]
          exact hnext
    | along a k n m hmem hn hstream =>
        exact .handed a k n m v (hr.run_mem hmem)
          ((hh.stream_iff hf hr hmem hn).mp hstream) hv
  kernel n hn values hvalues hlength k p hout := by
    obtain ⟨hmem, hop⟩ := mem_moduleNodes.mp ((mem_nodeOrder hlocated).mp hn)
    obtain ⟨hprevious, hnext, -, -⟩ := hh.lengths hcounts hmem
    rw [outputPorts, List.getElem?_map, Option.map_eq_some_iff] at hout
    obtain ⟨j, hj, rfl⟩ := hout
    obtain ⟨hk, rfl⟩ := List.getElem?_eq_some_iff.mp hj
    rw [List.length_range] at hk
    rw [List.getElem_range]
    rw [inputPorts, List.length_map, List.length_range] at hlength
    have hkernel : (nodeStage acc P q n).kernel values k =
        acc.kernel (P.heap n).operationType
          (P.heap n).operationParameters.operationParameters
          ((q n).inputStreams.map shapeOf) ((q n).outputStreams.map shapeOf)
          values k := by
      simp only [nodeStage, moduleStage, (ha.configured n hmem).parameters,
        ha.operationParameters]
    rw [hkernel]
    refine .computed n k _ _ values (hr.run_mem hmem) hop (hnext ▸ hk) ?_ ?_
      (hlength.trans hprevious) ?_
    · exact mapM_shapes ((ha.inputs_length hp hs hmem).trans hprevious)
        fun m p hm => ha.inputShape_eq hp hs hmem hm
    · exact mapM_shapes ((ha.outputs_length hp hs hmem).trans hnext)
        fun k p hk => ha.outputShape_eq hp hs hmem hk
    · intro m v hm
      have hlt : m < (h n).previousNodes.length :=
        hlength ▸ (List.getElem?_eq_some_iff.mp hm).1
      obtain ⟨v', hv', hcarried⟩ := hvalues m (.input n m)
        (by simp [inputPorts, hlt])
      rw [hm, Option.some.injEq] at hv'
      exact hv' ▸ hcarried

/-- The blocks of the outputs hold the records of the values of the plan, and
the counts are theirs. -/
structure Ran (c : Conversions) (acc : Accelerator V) (P : Plan)
    (files : String → File) (h : Heap) (nodes : List NodeId) (ids : StreamIds)
    (t : SetupState) (s : Storage) (resultSizes : List Int) (s' : Storage) :
    Prop where
  sameFiles : s'.files = s.files
  sameOpen : s'.canOpen = s.canOpen
  kept : ∀ b, (∀ n ∈ nodes, ∀ k : Nat,
    entry t.run.outputMemoryBlocks (h n).nodeName k ≠ some (some b)) →
    s'.blocks b = s.blocks b
  carried : ∀ n ∈ nodes, ∀ (k : Nat) b,
    entry t.run.outputMemoryBlocks (h n).nodeName k = some (some b) →
    ∃ v shape id, Carries c acc P files (.output n k) v ∧
      outputShape c P n k = .ok shape ∧
      ids.id h (.output n k) = some id ∧
      resultSizes[id]? = some (acc.recordCount shape v) ∧
      acc.deposit shape v <+: (s'.blocks b).words

theorem ran_of_run (ha : Accelerated c P h run.2 ids t q)
    (hh : RunHeap P o run.2 h) (hf : Finished P o) (hr : RunOf P o done run.2)
    (hcounts : SameCounts P.heap o.heap) (hp : Pipeline h run.2)
    (hs : Allocated h run.2 ids)
    (houtputs : ∀ n ∈ run.2,
      (h n).nextNodes.length ≤ (h n).previousNodes.length)
    (hlocated : LocationsConsistent P h run) (hflow : FollowsDataFlow P h run)
    (hsources : SourcesCarry c acc P files h run.2 t s)
    (hrun : runQueryAcceleration acc run.1 t.queryNodes s =
      .ok (resultSizes, s')) :
    Ran c acc P files h run.2 ids t s resultSizes s' := by
  unfold runQueryAcceleration at hrun
  split at hrun
  · cases hrun
  simp only [bind_eq_ok, Except.ok.injEq, Prod.mk.injEq] at hrun
  obtain ⟨streams, hfetch, stored, hstore, rfl, rfl⟩ := hrun
  rw [ha.stages_eq hlocated] at hstore
  rw [ha.stages_eq hlocated]
  generalize hfinal : ((nodeOrder P h run).map (nodeStage acc P q)).foldl
    Stage.run streams = final at hstore
  have hstored := stored_of_run (ha.blocks_nodup hp) hstore
  refine ⟨hstored.files, hstored.canOpen, ?_, ?_⟩
  · intro b hb
    refine hstored.kept b fun x hx heq => ?_
    obtain ⟨n, hn, k, -, hk, hblock, -⟩ := ha.mem_outputs hp hx
    refine hb n hn k ?_
    rw [((ha.outputs n hn).stream k _ hk).2.1, hblock, heq]
  · intro n hn k b hb
    have hnext := (ha.output_backed_iff n hn k).mp ⟨b, hb⟩
    have hlt : k < (h n).nextNodes.length :=
      (List.getElem?_eq_some_iff.mp hnext).1
    have hvalid : (Port.output n k).Valid h run.2 :=
      ⟨hn, hp.outputs n hn ▸ hlt⟩
    rw [← ha.outputs_length hp hs hn] at hlt
    obtain ⟨hid, haddress, -⟩ :=
      (ha.outputs n hn).stream k _ (List.getElem?_eq_getElem hlt)
    rw [hb, Option.some.injEq] at haddress
    have hx : ⟨q n, (q n).outputStreams[k], b⟩ ∈
        memoryOutputs t.queryNodes := by
      refine mem_memoryStreams.mpr ⟨?_, List.getElem_mem hlt, haddress.symm⟩
      rw [ha.queryNodes]
      exact List.mem_map_of_mem hn
    have hlanes : InLanes _ _ _ (nodeStage acc P q) _ _ _ _ :=
      inLanes_of_run hh hf hr hp hs houtputs hlocated hflow
        (fun n hn => ha.reads hp hs hn) fun n hn => ha.writes hp hs hn
    have hcomputes := ha.computes hh hf hr hcounts hp hs hlocated hsources
      hfetch
    obtain ⟨r, hmemory, hpath⟩ := reached_from_memory hp houtputs hvalid
    have hvalue := holds_of_end hlanes hcomputes hvalid
      (not_laneStep_of_memoryBacked (memoryBacked_of_next hnext))
      ⟨r, .inl hmemory, hpath⟩
    obtain ⟨id, hlt16, hid'⟩ := hs.id_lt hp hvalid
    have hlabel : streamLabel h ids (.output n k) =
        (q n).outputStreams[k].streamId := by
      rw [streamLabel, StreamIds.id, hid, Option.getD_some]
    rw [hfinal, hlabel] at hvalue
    rw [StreamIds.id, hid, Option.some.injEq] at hid'
    refine ⟨_, _, id, hvalue,
      ha.outputShape_eq hp hs hn (List.getElem?_eq_getElem hlt),
      by rw [StreamIds.id, hid, hid'], ?_, hstored.written _ hx⟩
    rw [kMaxIOStreamCount, List.getElem?_map, List.getElem?_range hlt16,
      Option.map_some, ← hid']
    exact congrArg some (streamSize_eq hx
      fun y hy heq => ha.output_unique hp hs hx hy heq)

end Values

end Run

end Orkhestra.Ports.AcceleratedRun
