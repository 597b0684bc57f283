import Orkhestra.Ports.DataPath
import Orkhestra.Ports.PlanMeaning

/-!
# A run in memory

What the set-up of a run leaves in the blocks: an input that has been handed
over keeps its block and its size, any other input without a producer in the run
is loaded from its file, and a block that is in use is not written to.

`Configured` is what the accelerator is told about a node.
-/

namespace Orkhestra.Ports.PreparedRun

open Orkhestra.Verified.Checked
open Orkhestra.Verified.VectorMap
open Orkhestra.Ports.QuerySchedulingData
open Orkhestra.Ports.NodeScheduler
open Orkhestra.Ports.IDManager
open Orkhestra.Ports.CSVReader (File MemoryBlock)
open Orkhestra.Ports.QueryManager
open Orkhestra.Ports.RunSetup
open Orkhestra.Ports.TableManager
open Orkhestra.Ports.Accelerator
open Orkhestra.Ports.PlanMeaning

/-! ## Blocks in use -/

/-- The block has been given out. -/
def InUse (m : MemoryManager) (b : Block) : Prop :=
  b < m.memoryBlockCount ∧ b ∉ m.availableMemoryBlocks

/-- The free blocks are different blocks that exist. -/
def FreeSound (m : MemoryManager) : Prop :=
  m.availableMemoryBlocks.Nodup ∧
    ∀ b ∈ m.availableMemoryBlocks, b < m.memoryBlockCount

theorem freeSound_of_conserved {inputs outputs : BlockMap} {m : MemoryManager}
    (h : BlocksConserved inputs outputs m) : FreeSound m :=
  ⟨h.free_nodup, fun b hb => (h.lt_created_iff b).mpr (.inl hb)⟩

theorem inUse_of_holds {inputs outputs : BlockMap} {m : MemoryManager}
    (h : BlocksConserved inputs outputs m) {slot : Slot} {b : Block}
    (hb : holds inputs outputs slot = some b) : InUse m b :=
  ⟨(h.lt_created_iff b).mpr (.inr ⟨slot, hb⟩), h.disjoint slot b hb⟩

/-- A block that is given out has been free, and blocks in use stay in use. -/
theorem inUse_of_get {m m' : MemoryManager} {b : Block} (hm : FreeSound m)
    (hrun : getAvailableMemoryBlock m = .ok (b, m')) :
    FreeSound m' ∧ InUse m' b ∧ ¬InUse m b ∧ ∀ b', InUse m b' → InUse m' b' := by
  unfold getAvailableMemoryBlock at hrun
  split at hrun
  · next hnil =>
      unfold allocateMemoryBlock at hrun
      split at hrun
      · cases hrun
      · simp only [Except.ok.injEq, Prod.mk.injEq] at hrun
        obtain ⟨rfl, rfl⟩ := hrun
        refine ⟨⟨by simp [hnil], by simp [hnil]⟩, ⟨by simp, by simp [hnil]⟩,
          fun h => Nat.lt_irrefl _ h.1, ?_⟩
        rintro b' ⟨hlt, hnot⟩
        exact ⟨Nat.lt_succ_of_lt hlt, hnot⟩
  · next block rest hcons =>
      simp only [Except.ok.injEq, Prod.mk.injEq] at hrun
      obtain ⟨rfl, rfl⟩ := hrun
      obtain ⟨hnodup, hlt⟩ := hm
      rw [hcons] at hnodup hlt
      rw [List.nodup_cons] at hnodup
      refine ⟨⟨hnodup.2, fun b hb => hlt b (List.mem_cons_of_mem _ hb)⟩,
        ⟨hlt block List.mem_cons_self, hnodup.1⟩, ?_, ?_⟩
      · rintro ⟨-, hnot⟩
        exact hnot (by simp [hcons])
      · rintro b' ⟨hlt', hnot⟩
        refine ⟨hlt', fun hmem => hnot ?_⟩
        rw [hcons]
        exact List.mem_cons_of_mem _ hmem

/-- Files and the blocks in use are as they were. -/
structure Undisturbed (m : MemoryManager) (s : Storage) (m' : MemoryManager)
    (s' : Storage) : Prop where
  files : s'.files = s.files
  canOpen : s'.canOpen = s.canOpen
  sound : FreeSound m'
  inUse : ∀ b, InUse m b → InUse m' b
  blocks : ∀ b, InUse m b → s'.blocks b = s.blocks b

theorem Undisturbed.rfl {m : MemoryManager} {s : Storage} (hm : FreeSound m) :
    Undisturbed m s m s :=
  ⟨by rfl, by rfl, hm, fun _ h => h, fun _ _ => by rfl⟩

theorem Undisturbed.trans {m m' m'' : MemoryManager} {s s' s'' : Storage}
    (h : Undisturbed m s m' s') (h' : Undisturbed m' s' m'' s'') :
    Undisturbed m s m'' s'' :=
  ⟨h'.files.trans h.files, h'.canOpen.trans h.canOpen, h'.sound,
    fun b hb => h'.inUse b (h.inUse b hb),
    fun b hb => (h'.blocks b (h.inUse b hb)).trans (h.blocks b hb)⟩

/-- A new block is written to. -/
theorem undisturbed_write {m m' : MemoryManager} {s : Storage} {b : Block}
    (hm : FreeSound m) (hrun : getAvailableMemoryBlock m = .ok (b, m'))
    (contents : MemoryBlock) :
    Undisturbed m s m' (s.writeBlock b contents) := by
  obtain ⟨hsound, -, hnew, hkeep⟩ := inUse_of_get hm hrun
  refine ⟨rfl, rfl, hsound, hkeep, ?_⟩
  intro b' hb'
  refine s.writeBlock_of_ne ?_ contents
  rintro rfl
  exact hnew hb'

/-! ## Outputs of one node -/

theorem undisturbed_outputs {data : DataManager} {node : QueryNode}
    {sd sd' : StreamData} (s : Storage) (hm : FreeSound sd.memory)
    (hrun : allocateOutputMemoryBlocks data node sd = .ok sd') :
    Undisturbed sd.memory s sd'.memory s := by
  refine forRange_invariant
    (fun _ sd' => Undisturbed sd.memory s sd'.memory s) _
    (Undisturbed.rfl hm) ?_ hrun
  intro i t t' _ ht hbody
  obtain ⟨-, -, -, -, -, ⟨-, hmemory, -⟩ | ⟨-, block, hget, -⟩⟩ :=
    allocateOutputMemoryBlock_cases hbody
  · rw [hmemory]
    exact ht
  · obtain ⟨hsound, -, -, hkeep⟩ := inUse_of_get ht.sound hget
    exact ht.trans ⟨rfl, rfl, hsound, hkeep, fun _ _ => rfl⟩

/-! ## Inputs of one node -/

section Inputs

variable {c : Conversions} {h : Heap} {node : QueryNode} {outputSizes : SizeMap}
  {sd₀ : StreamData} {s₀ : Storage} {state state' : StreamData × Storage}
  {i : Nat}

/-- Inputs before `i` are in memory. -/
structure InputsPrepared (c : Conversions) (h : Heap) (node : QueryNode)
    (sd₀ : StreamData) (s₀ : Storage) (i : Nat) (state : StreamData × Storage) :
    Prop where
  undisturbed : Undisturbed sd₀.memory s₀ state.1.memory state.2
  handed : ∀ (m : Nat) b, node.previousNodes[m]? = some none →
    sd₀.blocks[m]? = some (some b) → state.1.blocks[m]? = some (some b) ∧
      state.1.sizes[m]? = sd₀.sizes[m]?
  loaded : ∀ m < i, node.previousNodes[m]? = some none →
    sd₀.blocks[m]? = some none → ∃ b filename size count,
      state.1.blocks[m]? = some (some b) ∧
      node.inputDataDefinitionFiles[m]? = some filename ∧
      state.1.sizes[m]? = some (size, count) ∧ InUse state.1.memory b ∧
      Loads c node.operationParameters.inputStreamParameters m filename
        (s₀.files filename) size count (state.2.blocks b)
  later : ∀ m : Nat, i ≤ m → state.1.blocks[m]? = sd₀.blocks[m]?
  searched : ∀ m < i, ∀ a, node.previousNodes[m]? = some (some a) →
    ∃ found, findConsumer h node (h a).nextNodes 0 = .ok found

/-- What a load leaves in the block. -/
theorem loads_of_run {parameters : List (List Int)} {b : Block}
    {filename : String} {s s' : Storage} {size : RecordSizeAndCount}
    (hrun : TableManager.writeDataToMemory c parameters i b filename s =
      .ok (size, s')) :
    ∃ contents, s' = s.writeBlock b contents ∧
      Loads c parameters i filename (s.files filename) size.1 size.2
        contents := by
  simp only [TableManager.writeDataToMemory, bind_eq_ok, Except.ok.injEq,
    Prod.mk.injEq] at hrun
  obtain ⟨columns, hcolumns, ⟨recordCount, contents⟩, hload, rfl, rfl⟩ := hrun
  exact ⟨contents, rfl, columns, _, recordCount, hcolumns, rfl, rfl, hload⟩

theorem InputsPrepared.step (hs : InputsPrepared c h node sd₀ s₀ i state)
    (hrun : DataPath.allocateInputMemoryBlock c h node outputSizes state i =
      .ok state') : InputsPrepared c h node sd₀ s₀ (i + 1) state' := by
  obtain ⟨sd, s⟩ := state
  simp only [DataPath.allocateInputMemoryBlock, bind_eq_ok, readAt_eq_ok] at hrun
  obtain ⟨observed, hobserved, hrun⟩ := hrun
  cases observed with
  | none =>
      simp only [bind_eq_ok, readAt_eq_ok] at hrun
      obtain ⟨block, hblock, hrun⟩ := hrun
      have hsearched : ∀ m < i + 1, ∀ a,
          node.previousNodes[m]? = some (some a) →
          ∃ found, findConsumer h node (h a).nextNodes 0 = .ok found := by
        intro m hm a ha
        rcases Nat.lt_succ_iff_lt_or_eq.mp hm with hm | rfl
        · exact hs.searched m hm a ha
        · rw [hobserved] at ha
          cases ha
      cases block with
      | some block =>
          simp only [Except.ok.injEq] at hrun
          subst hrun
          refine ⟨hs.undisturbed, hs.handed, ?_, ?_, hsearched⟩
          · intro m hm hnone hempty
            rcases Nat.lt_succ_iff_lt_or_eq.mp hm with hm | rfl
            · exact hs.loaded m hm hnone hempty
            · have hlater := hs.later m (Nat.le_refl m)
              rw [hempty, hblock] at hlater
              cases hlater
          · exact fun m hm => hs.later m (Nat.le_of_succ_le hm)
      | none =>
          simp only [bind_eq_ok, readAt_eq_ok, writeAt_eq_ok, Except.ok.injEq]
            at hrun
          obtain ⟨⟨b, memory⟩, hget, blocks, ⟨hlt, rfl⟩, filename, hfile,
            ⟨size, s'⟩, hload, sizes, ⟨hltSizes, rfl⟩, rfl⟩ := hrun
          obtain ⟨contents, rfl, hcontents⟩ := loads_of_run hload
          have hwrite := undisturbed_write (s := s) hs.undisturbed.sound hget
            contents
          have hother : ∀ m, m ≠ i → (sd.blocks.set i (some b))[m]? =
              sd.blocks[m]? ∧ (sd.sizes.set i size)[m]? = sd.sizes[m]? := by
            intro m hm
            rw [List.getElem?_set_ne (Ne.symm hm),
              List.getElem?_set_ne (Ne.symm hm)]
            exact ⟨rfl, rfl⟩
          refine ⟨hs.undisturbed.trans hwrite, ?_, ?_, ?_, hsearched⟩
          · intro m b' hnone hheld
            have hne : m ≠ i := by
              rintro rfl
              have hlater := hs.later m (Nat.le_refl m)
              rw [hheld, hblock] at hlater
              cases hlater
            dsimp only
            rw [(hother m hne).1, (hother m hne).2]
            exact hs.handed m b' hnone hheld
          · intro m hm hnone hempty
            rcases Nat.lt_succ_iff_lt_or_eq.mp hm with hm | rfl
            · obtain ⟨b', filename', size', count, hb', hfile', hsize, huse,
                hloads⟩ := hs.loaded m hm hnone hempty
              refine ⟨b', filename', size', count, ?_, hfile', ?_,
                hwrite.inUse b' huse, ?_⟩
              · rw [(hother m hm.ne).1]
                exact hb'
              · rw [(hother m hm.ne).2]
                exact hsize
              · rw [hwrite.blocks b' huse]
                exact hloads
            · refine ⟨b, filename, size.1, size.2, ?_, hfile, ?_, ?_, ?_⟩
              · rw [List.getElem?_set_self hlt]
              · rw [List.getElem?_set_self hltSizes]
              · exact (inUse_of_get hs.undisturbed.sound hget).2.1
              · rw [Storage.writeBlock_same]
                rw [show s.files = s₀.files from hs.undisturbed.files]
                  at hcontents
                exact hcontents
          · intro m hm
            rw [(hother m (by omega)).1]
            exact hs.later m (Nat.le_of_succ_le hm)
  | some a =>
      simp only [bind_eq_ok] at hrun
      obtain ⟨found, hfound, hrun⟩ := hrun
      have hsearched : ∀ m < i + 1, ∀ a,
          node.previousNodes[m]? = some (some a) →
          ∃ found, findConsumer h node (h a).nextNodes 0 = .ok found := by
        intro m hm a' ha'
        rcases Nat.lt_succ_iff_lt_or_eq.mp hm with hm | rfl
        · exact hs.searched m hm a' ha'
        · rw [hobserved, Option.some.injEq, Option.some.injEq] at ha'
          exact ⟨found, ha' ▸ hfound⟩
      -- Blocks stay, and so does the size of every input without a producer.
      have hkeep : state'.2 = s ∧ state'.1.memory = sd.memory ∧
          state'.1.blocks = sd.blocks ∧
          ∀ m, m ≠ i → state'.1.sizes[m]? = sd.sizes[m]? := by
        cases found with
        | none =>
            simp only [Except.ok.injEq] at hrun
            subst hrun
            exact ⟨rfl, rfl, rfl, fun _ _ => rfl⟩
        | some k =>
            simp only [bind_eq_ok, readAt_eq_ok, writeAt_eq_ok,
              Except.ok.injEq] at hrun
            obtain ⟨producerSizes, -, size, -, sizes, ⟨-, rfl⟩, rfl⟩ := hrun
            exact ⟨rfl, rfl, rfl, fun m hm => List.getElem?_set_ne hm.symm⟩
      obtain ⟨hstorage, hmemory, hblocks, hsizes⟩ := hkeep
      have hne : ∀ m, node.previousNodes[m]? = some none → m ≠ i := by
        rintro m hnone rfl
        rw [hobserved] at hnone
        cases hnone
      refine ⟨?_, ?_, ?_, ?_, hsearched⟩
      · rw [hstorage, hmemory]
        exact hs.undisturbed
      · intro m b hnone hheld
        rw [hblocks, hsizes m (hne m hnone)]
        exact hs.handed m b hnone hheld
      · intro m hm hnone hempty
        have hm' : m < i :=
          Nat.lt_of_le_of_ne (Nat.lt_succ_iff.mp hm) (hne m hnone)
        rw [hblocks, hsizes m hm'.ne, hmemory, hstorage]
        exact hs.loaded m hm' hnone hempty
      · intro m hm
        rw [hblocks]
        exact hs.later m (Nat.le_of_succ_le hm)

theorem inputsPrepared_of_run (hm : FreeSound state.1.memory)
    (hrun : DataPath.allocateInputMemoryBlocks c h node outputSizes state =
      .ok state') :
    InputsPrepared c h node state.1 state.2 node.previousNodes.length
      state' := by
  refine forRange_invariant (fun i state' =>
    InputsPrepared c h node state.1 state.2 i state') _ ?_ ?_ hrun
  · exact ⟨Undisturbed.rfl hm, fun m b _ hb => ⟨hb, rfl⟩,
      fun m hm => absurd hm (Nat.not_lt_zero m), fun _ _ => rfl,
      fun m hm => absurd hm (Nat.not_lt_zero m)⟩
  · exact fun i t t' _ ht hbody => ht.step hbody

end Inputs

/-! ## What the accelerator is told -/

/-- The accelerated node has the operation and the streams of the node. -/
structure Configured (node : QueryNode) (q : AcceleratedQueryNode) : Prop where
  operationType : q.operationType = node.operationType
  location : q.operationModuleLocation = node.moduleLocation
  parameters : q.operationParameters =
    node.operationParameters.operationParameters
  inputs : ∀ (m : Nat) p, q.inputStreams[m]? = some p → shapeOf p =
    streamShape node.operationParameters.inputStreamParameters m
      p.streamRecordSize
  outputs : ∀ (k : Nat) p, q.outputStreams[k]? = some p → shapeOf p =
    streamShape node.operationParameters.outputStreamParameters k
      p.streamRecordSize

theorem shapes_of_run {ids : List Nat} {parameters : List (List Int)}
    {blocks : List (Option Block)} {sizes : List RecordSizeAndCount}
    {streams : List StreamDataParameters}
    (hrun : createStreamParams ids parameters blocks sizes = .ok streams)
    {i : Nat} {p : StreamDataParameters} (hp : streams[i]? = some p) :
    shapeOf p = streamShape parameters i p.streamRecordSize := by
  have hall : streams.length = ids.length ∧ ∀ (i : Nat) p,
      streams[i]? = some p →
        shapeOf p = streamShape parameters i p.streamRecordSize := by
    refine forRange_invariant (fun j (streams : List StreamDataParameters) =>
      streams.length = j ∧ ∀ (i : Nat) p, streams[i]? = some p →
        shapeOf p = streamShape parameters i p.streamRecordSize) _
      ⟨rfl, fun i p h => by cases h⟩ ?_ hrun
    rintro j streams streams' - ⟨hlength, hs⟩ hbody
    simp only [createStreamParam, bind_eq_ok, readAt_eq_ok, checkedAt_eq_ok,
      Except.ok.injEq] at hbody
    obtain ⟨address, -, chunks, hchunks, id, -, size, -, projection, hprojection,
      rfl⟩ := hbody
    refine ⟨by simp [hlength], ?_⟩
    intro i p hp
    rcases Nat.lt_trichotomy i j with hlt | rfl | hgt
    · rw [List.getElem?_append_left (by omega)] at hp
      exact hs i p hp
    · rw [List.getElem?_append_right (by omega)] at hp
      simp only [hlength, Nat.sub_self, List.getElem?_cons_zero,
        Option.some.injEq] at hp
      subst hp
      simp [shapeOf, streamShape, hchunks, hprojection]
    · rw [List.getElem?_eq_none (by simp; omega)] at hp
      cases hp
  exact hall.2 i p hp

/-- What a result is filed with. -/
def FiledFor (node : QueryNode) (p : StreamResultParameters) : Prop :=
  node.outputDataDefinitionFiles[p.streamIndex]? = some p.filename ∧
    node.isChecked[p.streamIndex]? = some p.checkResults ∧
    p.streamSpecifications = node.operationParameters.outputStreamParameters

theorem filedFor_of_run {results results' : ResultMap} {ids : List Nat}
    {node : QueryNode} {blocks : List (Option Block)}
    (hrun : storeStreamResultParameters results ids node blocks =
      .ok results') :
    ∃ params, results' = results.insertIfNew node.nodeName params ∧
      ∀ p ∈ params, FiledFor node p := by
  simp only [storeStreamResultParameters, bind_eq_ok, Except.ok.injEq] at hrun
  obtain ⟨params, hloop, rfl⟩ := hrun
  refine ⟨params, rfl, ?_⟩
  refine forRange_invariant (fun _ params => ∀ p ∈ params, FiledFor node p) _
    (by simp) ?_ hloop
  intro k params params' _ hparams hbody
  simp only [storeStreamResultParameter, bind_eq_ok, readAt_eq_ok] at hbody
  obtain ⟨block, -, hbody⟩ := hbody
  cases block with
  | none =>
      simp only [Except.ok.injEq] at hbody
      exact hbody ▸ hparams
  | some block =>
      simp only [bind_eq_ok, readAt_eq_ok, Except.ok.injEq] at hbody
      obtain ⟨outputId, -, filename, hfile, isChecked, hchecked, rfl⟩ := hbody
      exact forall_mem_concat hparams ⟨hfile, hchecked, rfl⟩

/-! ## The nodes of a run -/

section Nodes

variable {c : Conversions} {inputIds outputIds : IdMap} {r₀ : RunData}
  {s₀ : Storage} {done nodes : List NodeId} {state state' : SetupState × Storage}
  {n : NodeId}

/-- Input `m` of `n` has the block and the size of before. -/
def KeepsInput (r₀ r : RunData) (name : String) (m : Nat) : Prop :=
  entry r.inputMemoryBlocks name m = entry r₀.inputMemoryBlocks name m ∧
    entry r.inputStreamSizes name m = entry r₀.inputStreamSizes name m

/-- Input `m` of the node has been loaded from its file. -/
def LoadsInput (c : Conversions) (files : String → File) (node : QueryNode)
    (m : Nat) (r : RunData) (s : Storage) : Prop :=
  ∃ b filename size count,
    entry r.inputMemoryBlocks node.nodeName m = some (some b) ∧
    node.inputDataDefinitionFiles[m]? = some filename ∧
    entry r.inputStreamSizes node.nodeName m = some (size, count) ∧
    InUse r.memory b ∧
    Loads c node.operationParameters.inputStreamParameters m filename
      (files filename) size count (s.blocks b)

/-- The nodes `done` are set up and their inputs are in memory. -/
structure Prepared (c : Conversions) (r₀ : RunData) (s₀ : Storage)
    (done : List NodeId) (state : SetupState × Storage) : Prop where
  heap : state.1.run.heap = r₀.heap
  undisturbed : Undisturbed r₀.memory s₀ state.1.run.memory state.2
  pending : ∀ name, (∀ n ∈ done, (r₀.heap n).nodeName ≠ name) → ∀ m,
    KeepsInput r₀ state.1.run name m
  handed : ∀ n ∈ done, ∀ (m : Nat) b,
    (r₀.heap n).previousNodes[m]? = some none →
    entry r₀.inputMemoryBlocks (r₀.heap n).nodeName m = some (some b) →
    KeepsInput r₀ state.1.run (r₀.heap n).nodeName m
  loaded : ∀ n ∈ done, ∀ m : Nat,
    (r₀.heap n).previousNodes[m]? = some none →
    entry r₀.inputMemoryBlocks (r₀.heap n).nodeName m = some none →
    LoadsInput c s₀.files (r₀.heap n) m state.1.run state.2
  searched : ∀ n ∈ done, ∀ (m : Nat) a,
    (r₀.heap n).previousNodes[m]? = some (some a) →
    ∃ found, findConsumer r₀.heap (r₀.heap n) (r₀.heap a).nextNodes 0 =
      .ok found
  configured : ∃ q : NodeId → AcceleratedQueryNode,
    state.1.queryNodes = done.map q ∧
    ∀ n ∈ done, Configured (r₀.heap n) (q n)
  filed : ∀ (name : String) params,
    state.1.resultParameters[name]? = some params → ∀ p ∈ params,
      ∃ n ∈ done, (r₀.heap n).nodeName = name ∧ FiledFor (r₀.heap n) p

theorem Prepared.initial (hm : FreeSound r₀.memory) :
    Prepared c r₀ s₀ [] (⟨r₀, [], ∅⟩, s₀) where
  heap := rfl
  undisturbed := Undisturbed.rfl hm
  pending _ _ _ := ⟨rfl, rfl⟩
  handed _ hn := absurd hn List.not_mem_nil
  loaded _ hn := absurd hn List.not_mem_nil
  searched _ hn := absurd hn List.not_mem_nil
  configured := ⟨fun _ => ⟨[], [], .kFilter, 0, []⟩, rfl,
    fun _ hn => absurd hn List.not_mem_nil⟩
  filed name params h := by simp at h

/-- One more node. -/
theorem Prepared.step (hs : Prepared c r₀ s₀ done state)
    (hnew : ∀ b ∈ done, (r₀.heap b).nodeName ≠ (r₀.heap n).nodeName)
    (hrun : DataPath.setupNode c inputIds outputIds state n = .ok state') :
    Prepared c r₀ s₀ (done ++ [n]) state' := by
  obtain ⟨t, s⟩ := state
  simp only [DataPath.setupNode, bind_eq_ok] at hrun
  obtain ⟨outputs, houtputs, ⟨inputs, s'⟩, hinputs, inputParams, hin,
    outputParams, hout, results, hresults, hrun⟩ := hrun
  simp only [Except.ok.injEq] at hrun
  have hheap : t.run.heap = r₀.heap := hs.heap
  rw [hheap] at houtputs hinputs hin hout hresults
  simp only [hheap] at hrun
  have hout' := undisturbed_outputs s hs.undisturbed.sound houtputs
  have hin' := inputsPrepared_of_run hout'.sound hinputs
  have hbefore : ∀ m, KeepsInput r₀ t.run (r₀.heap n).nodeName m :=
    hs.pending _ fun b hb => hnew b hb
  have hreplaced := replaced_insert (r₀.heap n).nodeName outputs inputs t.run
  subst hrun
  -- The other nodes keep their inputs.
  have hkeep : ∀ name, name ≠ (r₀.heap n).nodeName → ∀ m,
      KeepsInput t.run _ name m := fun name hne m =>
    ⟨by rw [hreplaced.inputBlocks, if_neg hne],
      by rw [hreplaced.inputSizes, if_neg hne]⟩
  have hundisturbed := (hs.undisturbed.trans hout').trans hin'.undisturbed
  have hlater := hout'.trans hin'.undisturbed
  refine ⟨rfl, hundisturbed, ?_, ?_, ?_, ?_, ?_, ?_⟩
  · intro name hall m
    obtain ⟨hblocks, hsizes⟩ :=
      hs.pending name (fun b hb => hall b (List.mem_append_left _ hb)) m
    obtain ⟨hblocks', hsizes'⟩ :=
      hkeep name (fun heq => hall n (by simp) heq.symm) m
    exact ⟨hblocks'.trans hblocks, hsizes'.trans hsizes⟩
  · refine forall_mem_concat (fun b hb m block hnone hheld => ?_)
      fun m block hnone hheld => ?_
    · obtain ⟨hblocks, hsizes⟩ := hs.handed b hb m block hnone hheld
      obtain ⟨hblocks', hsizes'⟩ := hkeep _ (hnew b hb) m
      exact ⟨hblocks'.trans hblocks, hsizes'.trans hsizes⟩
    · have hheld' := hheld
      rw [← (hbefore m).1] at hheld'
      obtain ⟨hblock, hsize⟩ := hin'.handed m block hnone hheld'
      refine ⟨?_, ?_⟩
      · rw [hreplaced.inputBlocks, if_pos rfl, hheld]
        exact hblock
      · rw [hreplaced.inputSizes, if_pos rfl, ← (hbefore m).2]
        exact hsize
  · refine forall_mem_concat (fun b hb m hnone hempty => ?_)
      fun m hnone hempty => ?_
    · obtain ⟨block, filename, size, count, hblock, hfile, hsize, huse,
        hloads⟩ := hs.loaded b hb m hnone hempty
      obtain ⟨hblocks', hsizes'⟩ := hkeep _ (hnew b hb) m
      refine ⟨block, filename, size, count, hblocks'.trans hblock, hfile,
        hsizes'.trans hsize, hlater.inUse block huse, ?_⟩
      rw [hlater.blocks block huse]
      exact hloads
    · rw [← (hbefore m).1] at hempty
      obtain ⟨block, filename, size, count, hblock, hfile, hsize, huse,
        hloads⟩ := hin'.loaded m (List.getElem?_eq_some_iff.mp hnone).1 hnone
          hempty
      refine ⟨block, filename, size, count, ?_, hfile, ?_, huse, ?_⟩
      · rw [hreplaced.inputBlocks, if_pos rfl]
        exact hblock
      · rw [hreplaced.inputSizes, if_pos rfl]
        exact hsize
      · rw [← show s.files = s₀.files from hs.undisturbed.files]
        exact hloads
  · refine forall_mem_concat hs.searched fun m a ha => ?_
    exact hin'.searched m (List.getElem?_eq_some_iff.mp ha).1 a ha
  · obtain ⟨q, hq, hconfigured⟩ := hs.configured
    have hother : ∀ b ∈ done, ∀ v, Function.update q n v b = q b :=
      fun b hb v => Function.update_of_ne (fun heq => hnew b hb (by rw [heq])) v q
    refine ⟨Function.update q n ⟨inputParams, outputParams,
      (r₀.heap n).operationType, (r₀.heap n).moduleLocation,
      (r₀.heap n).operationParameters.operationParameters⟩, ?_, ?_⟩
    · rw [List.map_append, List.map_singleton, Function.update_self, hq]
      exact congrArg (· ++ [_])
        (List.map_congr_left fun b hb => (hother b hb _).symm)
    · refine forall_mem_concat (fun b hb => ?_) ?_
      · rw [hother b hb]
        exact hconfigured b hb
      · rw [Function.update_self]
        exact ⟨rfl, rfl, rfl, fun m p hp => shapes_of_run hin hp,
          fun k p hp => shapes_of_run hout hp⟩
  · intro name params hparams p hp
    obtain ⟨params', rfl, hfiled⟩ := filedFor_of_run hresults
    rcases getElem?_insertIfNew_cases hparams with hold | ⟨rfl, rfl⟩
    · obtain ⟨b, hb, hrest⟩ := hs.filed name params hold p hp
      exact ⟨b, List.mem_append_left _ hb, hrest⟩
    · exact ⟨n, by simp, rfl, hfiled p hp⟩

theorem prepared_of_run (hm : FreeSound r₀.memory)
    (hnames : (nodes.map fun n => (r₀.heap n).nodeName).Nodup)
    (hrun : nodes.foldlM (DataPath.setupNode c inputIds outputIds)
      (⟨r₀, [], ∅⟩, s₀) = .ok state) : Prepared c r₀ s₀ nodes state := by
  refine foldlM_invariant (Prepared c r₀ s₀) nodes (Prepared.initial hm) ?_ hrun
  intro before n after t t' hsplit ht hbody
  refine ht.step ?_ hbody
  intro b hb heq
  rw [hsplit, List.map_append, List.nodup_append] at hnames
  exact hnames.2.2 _ (List.mem_map_of_mem hb) _ (by simp) heq

end Nodes

end Orkhestra.Ports.PreparedRun
