import Orkhestra.Ports.Accelerator
import Orkhestra.Ports.StreamLanes

/-!
# The query manager and its data

The functions of `QueryManager` that read or write files and blocks, with the
storage that they work on.  Each of them does to the streams what its namesake
in `Orkhestra.Ports.QueryManager` does with the files of the moment
(`recordsOf`): the second half of the file is one such lemma a function.
-/

namespace Orkhestra.Ports.DataPath

open Orkhestra.Verified.Checked
open Orkhestra.Ports.QuerySchedulingData
open Orkhestra.Ports.NodeScheduler
open Orkhestra.Ports.IDManager
open Orkhestra.Ports.CSVReader (File)
open Orkhestra.Ports.QueryManager
open Orkhestra.Ports.TableManager (Conversions Storage recordsOf copyMemoryData)
open Orkhestra.Ports.Accelerator
open Orkhestra.Ports.StreamLanes

/-! ## Set-up -/

section SetUp

variable (c : Conversions)

def allocateInputMemoryBlock (h : Heap) (node : QueryNode)
    (outputStreamSizes : SizeMap) (state : StreamData × Storage)
    (streamIndex : Nat) : Outcome (StreamData × Storage) := do
  let (s, storage) := state
  let observedNode ← readAt node.previousNodes streamIndex
  match observedNode with
  | none => do
      let block ← readAt s.blocks streamIndex
      match block with
      | some _ => .ok (s, storage)
      | none => do
          let (block, memory) ← getAvailableMemoryBlock s.memory
          let blocks ← writeAt s.blocks streamIndex (some block)
          let filename ← readAt node.inputDataDefinitionFiles streamIndex
          let (size, storage) ← TableManager.writeDataToMemory c
            node.operationParameters.inputStreamParameters streamIndex block
            filename storage
          let sizes ← writeAt s.sizes streamIndex size
          .ok (⟨memory, blocks, sizes⟩, storage)
  | some observed => do
      let found ← findConsumer h node (h observed).nextNodes 0
      match found with
      | none => .ok (s, storage)
      | some currentNodeIndex => do
          let producerSizes ←
            mapAt outputStreamSizes (h observed).nodeName
          let size ← readAt producerSizes currentNodeIndex
          let sizes ← writeAt s.sizes streamIndex size
          .ok (⟨s.memory, s.blocks, sizes⟩, storage)

def allocateInputMemoryBlocks (h : Heap) (node : QueryNode)
    (outputStreamSizes : SizeMap) (state : StreamData × Storage) :
    Outcome (StreamData × Storage) :=
  (List.range node.previousNodes.length).foldlM
    (allocateInputMemoryBlock c h node outputStreamSizes) state

def setupNode (inputIds outputIds : IdMap) (state : SetupState × Storage)
    (node : NodeId) : Outcome (SetupState × Storage) := do
  let (s, storage) := state
  let currentNode := s.run.heap node
  let name := currentNode.nodeName
  let outputs ← allocateOutputMemoryBlocks (recordsOf c storage.files)
    currentNode ⟨s.run.memory, s.run.outputMemoryBlocks[name]?.getD [],
      s.run.outputStreamSizes[name]?.getD []⟩
  let outputStreamSizes := s.run.outputStreamSizes.insert name outputs.sizes
  let (inputs, storage) ← allocateInputMemoryBlocks c s.run.heap currentNode
    outputStreamSizes
    (⟨outputs.memory, s.run.inputMemoryBlocks[name]?.getD [],
      s.run.inputStreamSizes[name]?.getD []⟩, storage)
  let inputParams ← createStreamParams (inputIds[name]?.getD [])
    currentNode.operationParameters.inputStreamParameters inputs.blocks
    inputs.sizes
  let outputParams ← createStreamParams (outputIds[name]?.getD [])
    currentNode.operationParameters.outputStreamParameters outputs.blocks
    outputs.sizes
  let resultParameters ← storeStreamResultParameters s.resultParameters
    (outputIds[name]?.getD []) currentNode outputs.blocks
  .ok (
    { run := { s.run with
        memory := inputs.memory
        inputMemoryBlocks := s.run.inputMemoryBlocks.insert name inputs.blocks
        outputMemoryBlocks :=
          s.run.outputMemoryBlocks.insert name outputs.blocks
        inputStreamSizes := s.run.inputStreamSizes.insert name inputs.sizes
        outputStreamSizes := outputStreamSizes }
      queryNodes := s.queryNodes ++
        [{ inputStreams := inputParams
           outputStreams := outputParams
           operationType := currentNode.operationType
           operationModuleLocation := currentNode.moduleLocation
           operationParameters :=
             currentNode.operationParameters.operationParameters }]
      resultParameters := resultParameters }, storage)

def setupAccelerationNodesForExecution (s : RunData) (storage : Storage)
    (currentQueryNodes : List NodeId) : Outcome (SetupState × Storage) := do
  let s := initialiseVectorSizes currentQueryNodes s
  let (inputIds, outputIds) ← allocateStreamIDs s.heap
    (createReferenceVector s.heap currentQueryNodes) ∅ ∅
  currentQueryNodes.foldlM (setupNode c inputIds outputIds)
    (⟨s, [], ∅⟩, storage)

def setupNextRunData (allReuseLinks : LinkedNodes) (e : ExecutionState)
    (storage : Storage) (nextScheduledRunNodes : List NodeId) :
    Outcome (List String × LinkedNodes × SetupState × Storage) := do
  let scheduledNodeNames := e.scheduledNodeNames ++
    nextScheduledRunNodes.map fun node => (e.run.heap node).nodeName
  let currentReuseLinks :=
    getCurrentLinks e.run.heap nextScheduledRunNodes allReuseLinks
  let (s, storage) ← setupAccelerationNodesForExecution c e.run storage
    nextScheduledRunNodes
  .ok (scheduledNodeNames, currentReuseLinks, s, storage)

end SetUp

/-! ## Results -/

section Results

variable (c : Conversions)

def processResult (resultSizes : List Int) (allocatedMemoryBlocks : BlockMap)
    (nodeName : String) (state : SizeMap × Storage)
    (resultParams : StreamResultParameters) : Outcome (SizeMap × Storage) := do
  let (outputStreamSizes, storage) := state
  let recordCount ← checkedAt resultSizes resultParams.outputId
  let sizes := outputStreamSizes[nodeName]?.getD []
  let size ← readAt sizes resultParams.streamIndex
  let sizes ← writeAt sizes resultParams.streamIndex (size.1, recordCount)
  let outputStreamSizes := outputStreamSizes.insert nodeName sizes
  if resultParams.filename ≠ "" then do
    let blocks ← mapAt allocatedMemoryBlocks nodeName
    let block ← readAt blocks resultParams.streamIndex
    if resultParams.checkResults then do
      TableManager.checkResults c storage block recordCount
        resultParams.filename resultParams.streamSpecifications
        resultParams.streamIndex
      .ok (outputStreamSizes, storage)
    else do
      let storage ← TableManager.writeResults c storage block recordCount
        resultParams.filename resultParams.streamSpecifications
        resultParams.streamIndex
      .ok (outputStreamSizes, storage)
  else .ok (outputStreamSizes, storage)

def processResults (resultSizes : List Int) (resultParameters : ResultMap)
    (allocatedMemoryBlocks : BlockMap) (outputStreamSizes : SizeMap)
    (storage : Storage) : Outcome (SizeMap × Storage) :=
  resultParameters.toList.foldlM (fun state entry =>
    entry.2.foldlM
      (processResult c resultSizes allocatedMemoryBlocks entry.1) state)
    (outputStreamSizes, storage)

end Results

/-! ## Freeing -/

def copyOutput (nodeName : String) (outputStreamIndex : Nat)
    (state : RunData × Storage) (target : String × Nat) :
    Outcome (RunData × Storage) := do
  let (s, storage) := state
  let (block, memory) ← getAvailableMemoryBlock s.memory
  let size ← readAt (s.outputStreamSizes[nodeName]?.getD []) outputStreamIndex
  let source ←
    readAt (s.outputMemoryBlocks[nodeName]?.getD []) outputStreamIndex
  match source with
  | none => .error .undefined
  | some source => do
      let storage ← copyMemoryData (size.1 * size.2) source block storage
      let s ← setInput { s with memory := memory } target (some block) size
      .ok (s, storage)

def reuseOutput (nodeName : String) (state : RunData × Storage)
    (entry : Nat × List (String × Nat)) : Outcome (RunData × Storage) :=
  match entry.2 with
  | [target] => do
      let s ← moveOutput state.1 nodeName entry.1 target
      .ok (s, state.2)
  | targets => targets.foldlM (copyOutput nodeName entry.1) state

def reuseOutputs (s : RunData) (storage : Storage) (reuseLinks : LinkedNodes) :
    Outcome (RunData × Storage) :=
  reuseLinks.toList.foldlM (fun state entry =>
    entry.2.toList.foldlM (reuseOutput entry.1) state) (s, storage)

def freeMemoryBlocks (s : RunData) (storage : Storage)
    (reuseLinks : LinkedNodes) (scheduledNodeNames : List String) :
    Outcome (RunData × Storage) := do
  let s := scheduledNodeNames.foldl freeInputBlocks s
  let (s, storage) ← reuseOutputs s storage reuseLinks
  .ok ({ s with
    memory := s.outputMemoryBlocks.toList.foldl
      (fun memory entry => freeBlocks memory entry.2) s.memory
    outputMemoryBlocks := ∅
    outputStreamSizes := ∅ }, storage)

/-! ## The execution manager -/

section Execute

variable {V : Type} [Inhabited V] (c : Conversions) (acc : Accelerator V)

/-- `ExecuteAndProcessResults` with the bitstream of `modules`. -/
def executeAndProcessResults (modules : ConfigurableModulesVector)
    (scheduledNodeNames : List String) (currentReuseLinks : LinkedNodes)
    (s : SetupState) (storage : Storage) :
    Outcome (ExecutionState × Storage) := do
  let (resultSizes, storage) ←
    runQueryAcceleration acc modules s.queryNodes storage
  let (outputStreamSizes, storage) ← processResults c resultSizes
    s.resultParameters s.run.outputMemoryBlocks s.run.outputStreamSizes storage
  let (run, storage) ← freeMemoryBlocks { s.run with
    outputStreamSizes := outputStreamSizes } storage currentReuseLinks
    scheduledNodeNames
  .ok (⟨run, scheduledNodeNames⟩, storage)

def executeRun (allReuseLinks : LinkedNodes) (state : ExecutionState × Storage)
    (run : QueryNodeRun) : Outcome (ExecutionState × Storage) := do
  let (scheduledNodeNames, currentReuseLinks, s, storage) ←
    setupNextRunData c allReuseLinks state.1 state.2 run.2
  executeAndProcessResults c acc run.1 scheduledNodeNames currentReuseLinks s
    storage

/-- The runs of the queue, one after the other. -/
def executeRuns (allReuseLinks : LinkedNodes) (runs : List QueryNodeRun)
    (state : ExecutionState × Storage) : Outcome (ExecutionState × Storage) :=
  runs.foldlM (executeRun c acc allReuseLinks) state

end Execute

/-! ## Sizes and counts -/

section Records

variable {c : Conversions} {files : String → File}

theorem allocateInputMemoryBlock_records {h : Heap} {node : QueryNode}
    {outputStreamSizes : SizeMap} {state state' : StreamData × Storage} {i : Nat}
    (hrun : allocateInputMemoryBlock c h node outputStreamSizes state i =
      .ok state') :
    QueryManager.allocateInputMemoryBlock (recordsOf c state.2.files) h node
      outputStreamSizes state.1 i = .ok state'.1 ∧
    state'.2.files = state.2.files := by
  simp only [allocateInputMemoryBlock, bind_eq_ok] at hrun
  obtain ⟨observedNode, hobserved, hrun⟩ := hrun
  rw [QueryManager.allocateInputMemoryBlock, hobserved, ok_bind]
  cases observedNode with
  | none =>
      simp only [bind_eq_ok] at hrun
      obtain ⟨block, hblock, hrun⟩ := hrun
      rw [show (Option.none (α := NodeId)) = none from rfl]
      simp only [hblock, ok_bind]
      cases block with
      | some block =>
          simp only [Except.ok.injEq] at hrun
          subst hrun
          exact ⟨rfl, rfl⟩
      | none =>
          simp only [bind_eq_ok] at hrun
          obtain ⟨⟨block, memory⟩, hget, blocks, hblocks, filename, hfile,
            ⟨size, storage⟩, hload, sizes, hsizes, hrun⟩ := hrun
          simp only [Except.ok.injEq] at hrun
          subst hrun
          obtain ⟨hsize, contents, rfl⟩ :=
            TableManager.writeDataToMemory_recordsOf hload
          simp [hget, hblocks, hfile, hsize, hsizes]
  | some observed =>
      simp only [bind_eq_ok] at hrun
      obtain ⟨found, hfound, hrun⟩ := hrun
      simp only [hfound, ok_bind]
      cases found with
      | none =>
          simp only [Except.ok.injEq] at hrun
          subst hrun
          exact ⟨rfl, rfl⟩
      | some k =>
          simp only [bind_eq_ok, Except.ok.injEq] at hrun
          obtain ⟨producerSizes, hproducer, size, hsize, sizes, hsizes, rfl⟩ :=
            hrun
          simp [hproducer, hsize, hsizes]

theorem allocateInputMemoryBlocks_records {h : Heap} {node : QueryNode}
    {outputStreamSizes : SizeMap} {state state' : StreamData × Storage}
    (hrun : allocateInputMemoryBlocks c h node outputStreamSizes state =
      .ok state') :
    QueryManager.allocateInputMemoryBlocks (recordsOf c state.2.files) h node
      outputStreamSizes state.1 = .ok state'.1 ∧
    state'.2.files = state.2.files := by
  obtain ⟨r', hrun', rfl, hfiles⟩ := foldlM_simulates
    (fun s t => t = s.1 ∧ s.2.files = state.2.files) _ ⟨rfl, rfl⟩ (by
      rintro i - s s' t ⟨rfl, hfiles⟩ hbody
      obtain ⟨hstep, hkeep⟩ := allocateInputMemoryBlock_records hbody
      rw [hfiles] at hstep
      exact ⟨s'.1, hstep, rfl, hkeep.trans hfiles⟩) hrun
  exact ⟨hrun', hfiles⟩

theorem setupNode_records {inputIds outputIds : IdMap}
    {state state' : SetupState × Storage} {node : NodeId}
    (hrun : setupNode c inputIds outputIds state node = .ok state') :
    QueryManager.setupNode (recordsOf c state.2.files) inputIds outputIds
      state.1 node = .ok state'.1 ∧
    state'.2.files = state.2.files := by
  simp only [setupNode, bind_eq_ok] at hrun
  obtain ⟨outputs, houtputs, ⟨inputs, storage⟩, hinputs, inputParams, hin,
    outputParams, hout, resultParameters, hresults, hrun⟩ := hrun
  simp only [Except.ok.injEq] at hrun
  subst hrun
  obtain ⟨hinputs, hfiles⟩ := allocateInputMemoryBlocks_records hinputs
  refine ⟨?_, hfiles⟩
  simp [QueryManager.setupNode, houtputs, hinputs, hin, hout, hresults]

theorem setupNextRunData_records {links current : LinkedNodes}
    {e : ExecutionState} {storage storage' : Storage} {run : List NodeId}
    {names : List String} {t : SetupState}
    (hrun : setupNextRunData c links e storage run =
      .ok (names, current, t, storage')) :
    QueryManager.setupNextRunData (recordsOf c storage.files) links e run =
      .ok (names, current, t) ∧
    storage'.files = storage.files := by
  simp only [setupNextRunData, setupAccelerationNodesForExecution, bind_eq_ok,
    Except.ok.injEq, Prod.mk.injEq] at hrun
  obtain ⟨⟨_, _⟩, ⟨⟨inputIds, outputIds⟩, halloc, hloop⟩, rfl, rfl, rfl, rfl⟩ :=
    hrun
  obtain ⟨r', hrun', hr', hfiles⟩ := foldlM_simulates
    (g := QueryManager.setupNode (recordsOf c storage.files) inputIds outputIds)
    (fun s t => t = s.1 ∧ s.2.files = storage.files) _ ⟨rfl, rfl⟩ (by
      rintro n - s s' t ⟨rfl, hfiles⟩ hbody
      obtain ⟨hstep, hkeep⟩ := setupNode_records hbody
      rw [hfiles] at hstep
      exact ⟨s'.1, hstep, rfl, hkeep.trans hfiles⟩) hloop
  refine ⟨?_, hfiles⟩
  simp only [QueryManager.setupNextRunData,
    QueryManager.setupAccelerationNodesForExecution, bind_eq_ok]
  exact ⟨r', ⟨(inputIds, outputIds), halloc, hrun'⟩, by rw [hr']⟩

theorem processResult_records (files : String → File) {resultSizes : List Int}
    {blocks : BlockMap} {name : String} {state state' : SizeMap × Storage}
    {p : StreamResultParameters}
    (hrun : processResult c resultSizes blocks name state p = .ok state') :
    QueryManager.processResult (recordsOf c files) resultSizes blocks name
      state.1 p = .ok state'.1 := by
  simp only [processResult, bind_eq_ok] at hrun
  obtain ⟨recordCount, hcount, size, hsize, sizes, hsizes, hrun⟩ := hrun
  simp only [QueryManager.processResult, hcount, hsize, hsizes, ok_bind]
  split at hrun
  · next hfile =>
      simp only [bind_eq_ok] at hrun
      obtain ⟨row, hrow, block, hblock, hrun⟩ := hrun
      simp only [if_pos hfile, hrow, hblock, ok_bind]
      split at hrun
      · next hchecked =>
          simp only [bind_eq_ok, Except.ok.injEq] at hrun
          obtain ⟨-, -, rfl⟩ := hrun
          rw [if_pos hchecked]
          rfl
      · next hchecked =>
          simp only [bind_eq_ok, Except.ok.injEq] at hrun
          obtain ⟨storage, -, rfl⟩ := hrun
          rw [if_neg hchecked]
          rfl
  · next hfile =>
      simp only [Except.ok.injEq] at hrun
      subst hrun
      rw [if_neg hfile]

theorem processResults_records (files : String → File) {resultSizes : List Int}
    {results : ResultMap} {blocks : BlockMap} {sizes sizes' : SizeMap}
    {storage storage' : Storage}
    (hrun : processResults c resultSizes results blocks sizes storage =
      .ok (sizes', storage')) :
    QueryManager.processResults (recordsOf c files) resultSizes results blocks
      sizes = .ok sizes' := by
  obtain ⟨r', hrun', rfl⟩ := foldlM_simulates
    (g := fun sizes entry => entry.2.foldlM (QueryManager.processResult
      (recordsOf c files) resultSizes blocks entry.1) sizes)
    (fun s t => t = s.1) _ rfl (by
      rintro entry - s s' t rfl hbody
      exact foldlM_simulates (fun s t => t = s.1) _ rfl (by
        rintro p - s s' t rfl hresult
        exact ⟨s'.1, processResult_records files hresult, rfl⟩) hbody) hrun
  exact hrun'

theorem copyOutput_records {name : String} {k : Nat}
    {state state' : RunData × Storage} {target : String × Nat}
    (hrun : copyOutput name k state target = .ok state') :
    QueryManager.copyOutput name k state.1 target = .ok state'.1 := by
  simp only [copyOutput, bind_eq_ok] at hrun
  obtain ⟨⟨block, memory⟩, hget, size, hsize, source, hsource, hrun⟩ := hrun
  simp only [QueryManager.copyOutput, hget, hsize, hsource, ok_bind]
  cases source with
  | none => cases hrun
  | some source =>
      simp only [bind_eq_ok, Except.ok.injEq] at hrun
      obtain ⟨storage, -, s, hset, rfl⟩ := hrun
      exact hset

theorem copyOutputs_records {name : String} {k : Nat}
    {targets : List (String × Nat)} {state state' : RunData × Storage}
    (hrun : targets.foldlM (copyOutput name k) state = .ok state') :
    targets.foldlM (QueryManager.copyOutput name k) state.1 = .ok state'.1 := by
  obtain ⟨r', hrun', rfl⟩ := foldlM_simulates (fun s t => t = s.1) _ rfl
    (by
      rintro target - s s' t rfl hbody
      exact ⟨s'.1, copyOutput_records hbody, rfl⟩) hrun
  exact hrun'

theorem reuseOutput_records {name : String} {state state' : RunData × Storage}
    {entry : Nat × List (String × Nat)}
    (hrun : reuseOutput name state entry = .ok state') :
    QueryManager.reuseOutput name state.1 entry = .ok state'.1 := by
  obtain ⟨k, targets⟩ := entry
  cases targets with
  | nil => exact copyOutputs_records hrun
  | cons target rest =>
      cases rest with
      | nil =>
          simp only [reuseOutput, bind_eq_ok, Except.ok.injEq] at hrun
          obtain ⟨s, hmove, rfl⟩ := hrun
          exact hmove
      | cons next rest => exact copyOutputs_records hrun

theorem freeMemoryBlocks_records {s s' : RunData} {storage storage' : Storage}
    {links : LinkedNodes} {names : List String}
    (hrun : freeMemoryBlocks s storage links names = .ok (s', storage')) :
    QueryManager.freeMemoryBlocks s links names = .ok s' := by
  simp only [freeMemoryBlocks, reuseOutputs, bind_eq_ok, Except.ok.injEq,
    Prod.mk.injEq] at hrun
  obtain ⟨⟨r, _⟩, hloop, rfl, rfl⟩ := hrun
  obtain ⟨r', hrun', hr'⟩ := foldlM_simulates
    (g := fun s entry => entry.2.toList.foldlM
      (QueryManager.reuseOutput entry.1) s)
    (fun s t => t = s.1) _ rfl (by
      rintro entry - s s' t rfl hbody
      exact foldlM_simulates (fun s t => t = s.1) _ rfl (by
        rintro link - s s' t rfl hreuse
        exact ⟨s'.1, reuseOutput_records hreuse, rfl⟩) hbody) hloop
  simp only [QueryManager.freeMemoryBlocks, QueryManager.reuseOutputs,
    bind_eq_ok, Except.ok.injEq]
  exact ⟨r', hrun', by rw [hr']⟩

variable {V : Type} [Inhabited V] {acc : Accelerator V}

end Records

end Orkhestra.Ports.DataPath
