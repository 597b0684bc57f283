import Orkhestra.Ports.IDManager
import Mathlib.Algebra.Ring.Int.Defs

/-!
# Setting up, processing and freeing a run

`QueryManager` and the part of `MemoryManager` it moves blocks with.  A memory
block is a number: the device that `AllocateMemoryBlock` has opened for it.  A
`unique_ptr` to a block is an `Option`, moved from when it is `none`.

What is written to a block or read from it is left to the data manager, which is
a parameter (`DataManager`): all that the functions here learn from it is the
sizes of columns and the count of records.  `checkResults` and `writeResults`
read a block and hand a table over; they only matter here in that they can
throw.
-/

namespace Orkhestra.Ports.QueryManager

open Orkhestra.Verified.Checked
open Orkhestra.Ports.QuerySchedulingData
open Orkhestra.Ports.NodeScheduler
open Orkhestra.Ports.IDManager

/-! ## The memory manager -/

abbrev Block := Nat

structure MemoryManager where
  /-- The stack of free blocks, the top first. -/
  availableMemoryBlocks : List Block
  memoryBlockCount : Nat
  deriving Repr

def kMaxPossibleAllocations : Nat := 6

def allocateMemoryBlock (m : MemoryManager) : Outcome (Block × MemoryManager) :=
  if m.memoryBlockCount ≥ kMaxPossibleAllocations then
    .error (.runtimeError "Can't allocate any more memory!")
  else .ok (m.memoryBlockCount,
    { m with memoryBlockCount := m.memoryBlockCount + 1 })

def getAvailableMemoryBlock (m : MemoryManager) :
    Outcome (Block × MemoryManager) :=
  match m.availableMemoryBlocks with
  | [] => allocateMemoryBlock m
  | block :: rest => .ok (block, { m with availableMemoryBlocks := rest })

def freeMemoryBlock (m : MemoryManager) (block : Block) : MemoryManager :=
  { m with availableMemoryBlocks := block :: m.availableMemoryBlocks }

/-! ## Data -/

abbrev RecordSizeAndCount := Int × Int

abbrev BlockMap := Std.TreeMap String (List (Option Block))

abbrev SizeMap := Std.TreeMap String (List RecordSizeAndCount)

/-- `m.at(name)`: throws `std::out_of_range` without an entry. -/
def mapAt {β : Type} (m : Std.TreeMap String β) (name : String) : Outcome β :=
  match m[name]? with
  | some value => .ok value
  | none => .error .outOfRange

theorem mapAt_eq_ok {β : Type} {m : Std.TreeMap String β} {name : String}
    {value : β} : mapAt m name = .ok value ↔ m[name]? = some value := by
  unfold mapAt
  cases m[name]? <;> simp

/-- A column: its type and its size. -/
abbrev ColumnDef := Int × Int

/-- What the data manager does with a block and a table. -/
structure DataManager where
  getHeaderColumnVector : List Int → List Int → Outcome (List ColumnDef)
  writeDataFromCSVToMemory : String → List ColumnDef → Block → Outcome Int
  checkResults : Option Block → Int → String → List (List Int) → Nat →
    Outcome Unit
  writeResults : Option Block → Int → String → List (List Int) → Nat →
    Outcome Unit

structure StreamDataParameters where
  streamId : Nat
  streamRecordSize : Int
  streamRecordCount : Int
  physicalAddress : Option Block
  streamSpecification : List Int
  inputChunksPerRecord : Int
  deriving DecidableEq, Repr

structure AcceleratedQueryNode where
  inputStreams : List StreamDataParameters
  outputStreams : List StreamDataParameters
  operationType : QueryOperationType
  operationModuleLocation : Int
  operationParameters : List (List Int)
  deriving DecidableEq, Repr

structure StreamResultParameters where
  streamIndex : Nat
  outputId : Nat
  filename : String
  checkResults : Bool
  streamSpecifications : List (List Int)
  deriving DecidableEq, Repr

abbrev ResultMap := Std.TreeMap String (List StreamResultParameters)

/-- The data of the execution manager that the query manager works on. -/
structure RunData where
  heap : Heap
  memory : MemoryManager
  inputMemoryBlocks : BlockMap
  outputMemoryBlocks : BlockMap
  inputStreamSizes : SizeMap
  outputStreamSizes : SizeMap

/-! ## Set-up -/

/-- Input vectors, unless they are defined from previous runs. -/
def initialiseInputs (s : RunData) (node : NodeId) : RunData :=
  if s.inputMemoryBlocks.contains (s.heap node).nodeName then s
  else { s with
    inputMemoryBlocks := s.inputMemoryBlocks.insertIfNew
      (s.heap node).nodeName
      (List.replicate (s.heap node).previousNodes.length none)
    inputStreamSizes := s.inputStreamSizes.insertIfNew
      (s.heap node).nodeName
      (List.replicate (s.heap node).previousNodes.length (0, 0)) }

def initialiseNextNode (s : RunData) (nextNode : Option NodeId) : RunData :=
  match nextNode with
  | none => s
  | some n => initialiseInputs s n

/-- Consumers in other runs are forgotten. -/
def clearNextNodes (scheduledNodes : List NodeId) (n : QueryNode) : QueryNode :=
  { n with nextNodes := n.nextNodes.map fun nextNode =>
      if isNodeMissingFromTheVector nextNode scheduledNodes then none
      else nextNode }

def initialiseOutputs (s : RunData) (node : NodeId) : RunData :=
  { s with
    outputMemoryBlocks := s.outputMemoryBlocks.insertIfNew
      (s.heap node).nodeName
      (List.replicate (s.heap node).nextNodes.length none)
    outputStreamSizes := s.outputStreamSizes.insertIfNew
      (s.heap node).nodeName
      (List.replicate (s.heap node).previousNodes.length (0, 0)) }

def initialiseNode (scheduledNodes : List NodeId) (s : RunData)
    (node : NodeId) : RunData :=
  let s := initialiseOutputs (initialiseInputs s node) node
  let s := (s.heap node).nextNodes.foldl initialiseNextNode s
  { s with heap := s.heap.modify node (clearNextNodes scheduledNodes) }

def initialiseVectorSizes (scheduledNodes : List NodeId) (s : RunData) :
    RunData :=
  scheduledNodes.foldl (initialiseNode scheduledNodes) s

def getColumnDefsVector (data : DataManager) (nodeParameters : List (List Int))
    (streamIndex : Nat) : Outcome (List ColumnDef) := do
  let types ← checkedAt nodeParameters
    (streamIndex * kStreamParamCount + kDataTypesOffset)
  let sizes ← checkedAt nodeParameters
    (streamIndex * kStreamParamCount + kDataSizesOffset)
  data.getHeaderColumnVector types sizes

def getRecordSizeFromParameters (data : DataManager)
    (nodeParameters : List (List Int)) (streamIndex : Nat) : Outcome Int := do
  let columns ← getColumnDefsVector data nodeParameters streamIndex
  .ok (columns.map (·.2)).sum

def writeDataToMemory (data : DataManager)
    (streamSpecification : List (List Int)) (streamIndex : Nat)
    (memoryDevice : Block) (filename : String) :
    Outcome RecordSizeAndCount := do
  let columns ← getColumnDefsVector data streamSpecification streamIndex
  let recordCount ←
    data.writeDataFromCSVToMemory filename columns memoryDevice
  .ok ((columns.map (·.2)).sum, recordCount)

/-- Blocks and sizes of the streams on one side of a node. -/
structure StreamData where
  memory : MemoryManager
  blocks : List (Option Block)
  sizes : List RecordSizeAndCount

def allocateOutputMemoryBlock (data : DataManager) (node : QueryNode)
    (s : StreamData) (streamIndex : Nat) : Outcome StreamData := do
  let nextNode ← readAt node.nextNodes streamIndex
  let s ← (match nextNode with
    | some _ => .ok s
    | none => do
        let (block, memory) ← getAvailableMemoryBlock s.memory
        let blocks ← writeAt s.blocks streamIndex (some block)
        .ok ⟨memory, blocks, s.sizes⟩ : Outcome StreamData)
  let recordSize ← getRecordSizeFromParameters data
    node.operationParameters.outputStreamParameters streamIndex
  let size ← readAt s.sizes streamIndex
  let sizes ← writeAt s.sizes streamIndex (recordSize, size.2)
  .ok ⟨s.memory, s.blocks, sizes⟩

def allocateOutputMemoryBlocks (data : DataManager) (node : QueryNode)
    (s : StreamData) : Outcome StreamData :=
  (List.range node.nextNodes.length).foldlM
    (allocateOutputMemoryBlock data node) s

/-- Index of the first of the pointers, from `i` on, to a node that is equal as
a value; null pointers before it are dereferenced. -/
def findConsumer (h : Heap) (node : QueryNode) :
    List (Option NodeId) → Nat → Outcome (Option Nat)
  | [], _ => .ok none
  | none :: _, _ => .error .undefined
  | some n :: rest, i =>
      if node == h n then .ok (some i) else findConsumer h node rest (i + 1)

def allocateInputMemoryBlock (data : DataManager) (h : Heap) (node : QueryNode)
    (outputStreamSizes : SizeMap) (s : StreamData) (streamIndex : Nat) :
    Outcome StreamData := do
  let observedNode ← readAt node.previousNodes streamIndex
  match observedNode with
  | none => do
      let block ← readAt s.blocks streamIndex
      match block with
      | some _ => .ok s
      | none => do
          let (block, memory) ← getAvailableMemoryBlock s.memory
          let blocks ← writeAt s.blocks streamIndex (some block)
          let filename ← readAt node.inputDataDefinitionFiles streamIndex
          let size ← writeDataToMemory data
            node.operationParameters.inputStreamParameters streamIndex block
            filename
          let sizes ← writeAt s.sizes streamIndex size
          .ok ⟨memory, blocks, sizes⟩
  | some observed => do
      let found ← findConsumer h node (h observed).nextNodes 0
      match found with
      | none => .ok s
      | some currentNodeIndex => do
          let producerSizes ←
            mapAt outputStreamSizes (h observed).nodeName
          let size ← readAt producerSizes currentNodeIndex
          let sizes ← writeAt s.sizes streamIndex size
          .ok ⟨s.memory, s.blocks, sizes⟩

def allocateInputMemoryBlocks (data : DataManager) (h : Heap) (node : QueryNode)
    (outputStreamSizes : SizeMap) (s : StreamData) : Outcome StreamData :=
  (List.range node.previousNodes.length).foldlM
    (allocateInputMemoryBlock data h node outputStreamSizes) s

def createStreamParam (streamIds : List Nat) (nodeParameters : List (List Int))
    (allocatedMemoryBlocks : List (Option Block))
    (streamSizes : List RecordSizeAndCount)
    (parametersForAcceleration : List StreamDataParameters)
    (streamIndex : Nat) : Outcome (List StreamDataParameters) := do
  let physicalAddress ← readAt allocatedMemoryBlocks streamIndex
  let chunkCountDef ← checkedAt nodeParameters
    (streamIndex * kStreamParamCount + kChunkCountOffset)
  let streamId ← readAt streamIds streamIndex
  let size ← readAt streamSizes streamIndex
  let projection ← checkedAt nodeParameters
    (streamIndex * kStreamParamCount + kProjectionOffset)
  .ok (parametersForAcceleration ++
    [{ streamId := streamId
       streamRecordSize := size.1
       streamRecordCount := size.2
       physicalAddress := physicalAddress
       streamSpecification := projection
       inputChunksPerRecord := chunkCountDef.headD (-1) }])

def createStreamParams (streamIds : List Nat) (nodeParameters : List (List Int))
    (allocatedMemoryBlocks : List (Option Block))
    (streamSizes : List RecordSizeAndCount) :
    Outcome (List StreamDataParameters) :=
  (List.range streamIds.length).foldlM (createStreamParam streamIds
    nodeParameters allocatedMemoryBlocks streamSizes) []

def storeStreamResultParameter (streamIds : List Nat) (node : QueryNode)
    (allocatedMemoryBlocks : List (Option Block))
    (resultParameters : List StreamResultParameters) (streamIndex : Nat) :
    Outcome (List StreamResultParameters) := do
  let block ← readAt allocatedMemoryBlocks streamIndex
  match block with
  | none => .ok resultParameters
  | some _ => do
      let outputId ← readAt streamIds streamIndex
      let filename ← readAt node.outputDataDefinitionFiles streamIndex
      let isChecked ← readAt node.isChecked streamIndex
      .ok (resultParameters ++
        [{ streamIndex := streamIndex
           outputId := outputId
           filename := filename
           checkResults := isChecked
           streamSpecifications :=
             node.operationParameters.outputStreamParameters }])

def storeStreamResultParameters (resultParameters : ResultMap)
    (streamIds : List Nat) (node : QueryNode)
    (allocatedMemoryBlocks : List (Option Block)) : Outcome ResultMap := do
  let resultParametersVector ← (List.range streamIds.length).foldlM
    (storeStreamResultParameter streamIds node allocatedMemoryBlocks) []
  .ok (resultParameters.insertIfNew node.nodeName resultParametersVector)

/-- What the loop over the nodes of a run updates. -/
structure SetupState where
  run : RunData
  queryNodes : List AcceleratedQueryNode
  resultParameters : ResultMap

def setupNode (data : DataManager) (inputIds outputIds : IdMap) (s : SetupState)
    (node : NodeId) : Outcome SetupState := do
  let currentNode := s.run.heap node
  let name := currentNode.nodeName
  let outputs ← allocateOutputMemoryBlocks data currentNode
    ⟨s.run.memory, s.run.outputMemoryBlocks[name]?.getD [],
      s.run.outputStreamSizes[name]?.getD []⟩
  let outputStreamSizes := s.run.outputStreamSizes.insert name outputs.sizes
  let inputs ← allocateInputMemoryBlocks data s.run.heap currentNode
    outputStreamSizes
    ⟨outputs.memory, s.run.inputMemoryBlocks[name]?.getD [],
      s.run.inputStreamSizes[name]?.getD []⟩
  let inputParams ← createStreamParams (inputIds[name]?.getD [])
    currentNode.operationParameters.inputStreamParameters inputs.blocks
    inputs.sizes
  let outputParams ← createStreamParams (outputIds[name]?.getD [])
    currentNode.operationParameters.outputStreamParameters outputs.blocks
    outputs.sizes
  let resultParameters ← storeStreamResultParameters s.resultParameters
    (outputIds[name]?.getD []) currentNode outputs.blocks
  .ok
    { run := { s.run with
        memory := inputs.memory
        inputMemoryBlocks := s.run.inputMemoryBlocks.insert name inputs.blocks
        outputMemoryBlocks :=
          s.run.outputMemoryBlocks.insert name outputs.blocks
        inputStreamSizes := s.run.inputStreamSizes.insert name inputs.sizes
        outputStreamSizes := outputStreamSizes }
      queryNodes := s.queryNodes ++
        [{ inputStreams := inputParams
           outputStreams := outputParams
           operationType := currentNode.operationType
           operationModuleLocation := currentNode.moduleLocation
           operationParameters :=
             currentNode.operationParameters.operationParameters }]
      resultParameters := resultParameters }

def setupAccelerationNodesForExecution (data : DataManager) (s : RunData)
    (currentQueryNodes : List NodeId) : Outcome SetupState := do
  let s := initialiseVectorSizes currentQueryNodes s
  let (inputIds, outputIds) ← allocateStreamIDs s.heap
    (createReferenceVector s.heap currentQueryNodes) ∅ ∅
  currentQueryNodes.foldlM (setupNode data inputIds outputIds) ⟨s, [], ∅⟩

/-! ## Results -/

def processResult (data : DataManager) (resultSizes : List Int)
    (allocatedMemoryBlocks : BlockMap) (nodeName : String)
    (outputStreamSizes : SizeMap) (resultParams : StreamResultParameters) :
    Outcome SizeMap := do
  let recordCount ← checkedAt resultSizes resultParams.outputId
  let sizes := outputStreamSizes[nodeName]?.getD []
  let size ← readAt sizes resultParams.streamIndex
  let sizes ← writeAt sizes resultParams.streamIndex (size.1, recordCount)
  let outputStreamSizes := outputStreamSizes.insert nodeName sizes
  if resultParams.filename ≠ "" then do
    let blocks ← mapAt allocatedMemoryBlocks nodeName
    let block ← readAt blocks resultParams.streamIndex
    if resultParams.checkResults then do
      data.checkResults block recordCount resultParams.filename
        resultParams.streamSpecifications resultParams.streamIndex
      .ok outputStreamSizes
    else do
      data.writeResults block recordCount resultParams.filename
        resultParams.streamSpecifications resultParams.streamIndex
      .ok outputStreamSizes
  else .ok outputStreamSizes

def processResults (data : DataManager) (resultSizes : List Int)
    (resultParameters : ResultMap) (allocatedMemoryBlocks : BlockMap)
    (outputStreamSizes : SizeMap) : Outcome SizeMap :=
  resultParameters.toList.foldlM (fun outputStreamSizes entry =>
    entry.2.foldlM
      (processResult data resultSizes allocatedMemoryBlocks entry.1)
      outputStreamSizes) outputStreamSizes

/-! ## Freeing -/

/-- The links whose source is in the run. -/
def getCurrentLinks (h : Heap) (currentQueryNodes : List NodeId)
    (allReuseLinks : LinkedNodes) : LinkedNodes :=
  allReuseLinks.toList.foldl (fun currentLinks entry =>
    if currentQueryNodes.any fun node => (h node).nodeName == entry.1 then
      currentLinks.insertIfNew entry.1 entry.2
    else currentLinks) ∅

def freeBlocks (memory : MemoryManager) (blocks : List (Option Block)) :
    MemoryManager :=
  blocks.foldl (fun memory block =>
    match block with
    | some block => freeMemoryBlock memory block
    | none => memory) memory

/-- The inputs of a node that has run are freed and forgotten. -/
def freeInputBlocks (s : RunData) (name : String) : RunData :=
  { s with
    memory := freeBlocks s.memory (s.inputMemoryBlocks[name]?.getD [])
    inputMemoryBlocks := s.inputMemoryBlocks.erase name
    inputStreamSizes := s.inputStreamSizes.erase name }

/-- `input_memory_blocks[name][i] = block` and the same for the size. -/
def setInput (s : RunData) (target : String × Nat) (block : Option Block)
    (size : RecordSizeAndCount) : Outcome RunData := do
  let blocks ←
    writeAt (s.inputMemoryBlocks[target.1]?.getD []) target.2 block
  let sizes ← writeAt (s.inputStreamSizes[target.1]?.getD []) target.2 size
  .ok { s with
    inputMemoryBlocks := s.inputMemoryBlocks.insert target.1 blocks
    inputStreamSizes := s.inputStreamSizes.insert target.1 sizes }

/-- The block of an output is handed to its only target. -/
def moveOutput (s : RunData) (nodeName : String) (outputStreamIndex : Nat)
    (target : String × Nat) : Outcome RunData := do
  let outputs := s.outputMemoryBlocks[nodeName]?.getD []
  let block ← readAt outputs outputStreamIndex
  let outputs ← writeAt outputs outputStreamIndex none
  let size ← readAt (s.outputStreamSizes[nodeName]?.getD []) outputStreamIndex
  setInput { s with
    outputMemoryBlocks := s.outputMemoryBlocks.insert nodeName outputs }
    target block size

/-- The block of an output is copied for one of several targets. -/
def copyOutput (nodeName : String) (outputStreamIndex : Nat) (s : RunData)
    (target : String × Nat) : Outcome RunData := do
  let (block, memory) ← getAvailableMemoryBlock s.memory
  let size ← readAt (s.outputStreamSizes[nodeName]?.getD []) outputStreamIndex
  let source ←
    readAt (s.outputMemoryBlocks[nodeName]?.getD []) outputStreamIndex
  match source with
  | none => .error .undefined
  | some _ => setInput { s with memory := memory } target (some block) size

def reuseOutput (nodeName : String) (s : RunData)
    (entry : Nat × List (String × Nat)) : Outcome RunData :=
  match entry.2 with
  | [target] => moveOutput s nodeName entry.1 target
  | targets => targets.foldlM (copyOutput nodeName entry.1) s

def reuseOutputs (s : RunData) (reuseLinks : LinkedNodes) : Outcome RunData :=
  reuseLinks.toList.foldlM (fun s entry =>
    entry.2.toList.foldlM (reuseOutput entry.1) s) s

def freeMemoryBlocks (s : RunData) (reuseLinks : LinkedNodes)
    (scheduledNodeNames : List String) : Outcome RunData := do
  let s := scheduledNodeNames.foldl freeInputBlocks s
  let s ← reuseOutputs s reuseLinks
  .ok { s with
    memory := s.outputMemoryBlocks.toList.foldl
      (fun memory entry => freeBlocks memory entry.2) s.memory
    outputMemoryBlocks := ∅
    outputStreamSizes := ∅ }

/-! ## The execution manager -/

/-- The data of the execution manager. -/
structure ExecutionState where
  run : RunData
  scheduledNodeNames : List String

/-- `SetupNextRunData`: the links of the run and the result of its set-up. -/
def setupNextRunData (data : DataManager) (allReuseLinks : LinkedNodes)
    (e : ExecutionState) (nextScheduledRunNodes : List NodeId) :
    Outcome (List String × LinkedNodes × SetupState) := do
  let scheduledNodeNames := e.scheduledNodeNames ++
    nextScheduledRunNodes.map fun node => (e.run.heap node).nodeName
  let currentReuseLinks :=
    getCurrentLinks e.run.heap nextScheduledRunNodes allReuseLinks
  let s ← setupAccelerationNodesForExecution data e.run nextScheduledRunNodes
  .ok (scheduledNodeNames, currentReuseLinks, s)

/-- `ExecuteAndProcessResults`, once the accelerator has returned the sizes. -/
def executeAndProcessResults (data : DataManager) (resultSizes : List Int)
    (scheduledNodeNames : List String) (currentReuseLinks : LinkedNodes)
    (s : SetupState) : Outcome ExecutionState := do
  let outputStreamSizes ← processResults data resultSizes s.resultParameters
    s.run.outputMemoryBlocks s.run.outputStreamSizes
  let run ← freeMemoryBlocks { s.run with
    outputStreamSizes := outputStreamSizes } currentReuseLinks
    scheduledNodeNames
  .ok ⟨run, scheduledNodeNames⟩

/-- The state before run `j`. -/
def executedRuns (data : DataManager) (allReuseLinks : LinkedNodes)
    (runs : List QueryNodeRun) (resultSizes : Nat → List Int)
    (e : ExecutionState) : Nat → Outcome ExecutionState
  | 0 => .ok e
  | j + 1 => do
      let e ← executedRuns data allReuseLinks runs resultSizes e j
      match runs[j]? with
      | none => .ok e
      | some run => do
          let (scheduledNodeNames, currentReuseLinks, s) ←
            setupNextRunData data allReuseLinks e run.2
          executeAndProcessResults data (resultSizes j) scheduledNodeNames
            currentReuseLinks s

/-- The state in which execution begins. -/
def ExecutionState.initial (h : Heap) : ExecutionState where
  run :=
    { heap := h
      memory := ⟨[], 0⟩
      inputMemoryBlocks := ∅
      outputMemoryBlocks := ∅
      inputStreamSizes := ∅
      outputStreamSizes := ∅ }
  scheduledNodeNames := []

end Orkhestra.Ports.QueryManager
