import Orkhestra.Ports.QuerySchedulingData
import Orkhestra.Verified.Loop
import Std.Data.TreeMap

/-!
# The node scheduler

`NodeScheduler`: a greedy partition of a query plan into runs.  A run grows
module by module for as long as the accelerator library has a bitstream for the
modules; then the edges that leave the run are replaced by memory links or
files.

`CheckNodeForModuleSet` ends in a call of itself, so one call is the loop body
`checkNodeForModuleSetBody`, and the same holds for the `while` loop over the
runs.
-/

namespace Orkhestra.Ports.NodeScheduler

open Orkhestra.Verified.Checked
open Orkhestra.Verified.Loop
open Orkhestra.Ports.QuerySchedulingData

/-! ## Searches -/

/-- Index of the first pointer to `n`. -/
def findLocation (pointers : List (Option NodeId)) (n : NodeId) : Outcome Nat :=
  match pointers.idxOf? (some n) with
  | some i => .ok i
  | none => .error (.runtimeError "No node found!")

def findNextNodeLocation (nextNodes : List (Option NodeId)) (nextNode : NodeId) :
    Outcome Nat :=
  findLocation nextNodes nextNode

def findPreviousNodeLocation (previousNodes : List (Option NodeId))
    (previousNode : NodeId) : Outcome Nat :=
  findLocation previousNodes previousNode

/-- Is the given node, compared by value, in the given vector? -/
def isNodeIncluded (nodeVector : List QueryNode) (searchedNode : QueryNode) :
    Bool :=
  nodeVector.any fun scheduledNode => scheduledNode == searchedNode

/-- Have all required nodes been scheduled already? -/
def isNodeAvailable (h : Heap) (scheduledNodes : List QueryNode)
    (currentNode : QueryNode) : Bool :=
  currentNode.previousNodes.all fun requiredNode =>
    match requiredNode with
    | some n => isNodeIncluded scheduledNodes (h n)
    | none => true

/-- A null pointer is not missing. -/
def isNodeMissingFromTheVector (linkedNode : Option NodeId)
    (currentQueryNodes : List NodeId) : Bool :=
  match linkedNode with
  | some n => !currentQueryNodes.contains n
  | none => false

/-! ## Module placement -/

/-- `supported_accelerator_bitstreams` and `existing_modules_library`. -/
structure AcceleratorLibrary where
  supportedAcceleratorBitstreams : List (ConfigurableModulesVector × String)
  existingModulesLibrary : List (QueryOperationType × List (List Int))
  deriving Repr

def isModuleSetSupported (moduleSet : ConfigurableModulesVector)
    (lib : AcceleratorLibrary) : Bool :=
  (lib.supportedAcceleratorBitstreams.lookup moduleSet).isSome

def isProjectionOperationDefined (currentNode previousNode : QueryNode)
    (previousNodeIndex currentNodeIndex : Nat) : Outcome Bool := do
  let outputProjection ←
    readAt previousNode.operationParameters.outputStreamParameters
      (currentNodeIndex * kStreamParamCount + kProjectionOffset)
  if outputProjection ≠ [] then .ok true
  else do
    let inputProjection ←
      readAt currentNode.operationParameters.inputStreamParameters
        (previousNodeIndex * kStreamParamCount + kProjectionOffset)
    .ok (inputProjection ≠ [])

/-- The loop of `FindMinPosition` from `previousNodeIndex` on; `none` is `-1`,
which says that the node cannot join the run. -/
def findMinPositionFrom (h : Heap) (currentNode : NodeId)
    (currentQueryNodes : List QueryNode)
    (currentModulesVector : ConfigurableModulesVector) :
    Nat → List (Option NodeId) → Nat → Outcome (Option Nat)
  | _, [], minPositionIndex => .ok (some minPositionIndex)
  | i, none :: rest, minPositionIndex =>
      findMinPositionFrom h currentNode currentQueryNodes currentModulesVector
        (i + 1) rest minPositionIndex
  | i, some observedNode :: rest, minPositionIndex =>
      if currentQueryNodes.contains (h observedNode) &&
          (h observedNode).operationType != .kPassThrough then do
        let currentNodeIndex ←
          findNextNodeLocation (h observedNode).nextNodes currentNode
        let isProjected ← isProjectionOperationDefined (h currentNode)
          (h observedNode) i currentNodeIndex
        if isProjected then .ok none
        else do
          let isChecked ← readAt (h observedNode).isChecked i
          if isChecked then .ok none
          else
            match currentModulesVector.findIdx? (fun operation =>
              operation.operationType == (h observedNode).operationType) with
            | none =>
                .error (.runtimeError "Something went wrong with scheduling!")
            | some m =>
                findMinPositionFrom h currentNode currentQueryNodes
                  currentModulesVector (i + 1) rest
                  (if m + 1 > minPositionIndex then m + 1
                   else minPositionIndex)
      else
        findMinPositionFrom h currentNode currentQueryNodes currentModulesVector
          (i + 1) rest minPositionIndex

/-- The minimum position for a node such that its producers in the run come
first. -/
def findMinPosition (h : Heap) (currentNode : NodeId)
    (currentQueryNodes : List QueryNode)
    (currentModulesVector : ConfigurableModulesVector) : Outcome (Option Nat) :=
  findMinPositionFrom h currentNode currentQueryNodes currentModulesVector 0
    (h currentNode).previousNodes 0

/-- Add the desired module to the specified location. -/
def createNewModulesVector (queryOperation : QueryOperationType)
    (currentPosition : Nat) (currentModulesVector : ConfigurableModulesVector)
    (moduleParameters : List Int) : ConfigurableModulesVector :=
  if queryOperation = .kPassThrough then currentModulesVector
  else if currentModulesVector = [] then [⟨queryOperation, moduleParameters⟩]
  else if currentPosition = currentModulesVector.length then
    currentModulesVector ++ [⟨queryOperation, moduleParameters⟩]
  else
    currentModulesVector.take currentPosition ++
      ⟨queryOperation, moduleParameters⟩ ::
        currentModulesVector.drop currentPosition

/-- The first result that is not empty. -/
def firstNonEmpty {α β : Type} (f : α → Outcome (List β)) :
    List α → Outcome (List β)
  | [] => .ok []
  | x :: xs => do
      let r ← f x
      if r ≠ [] then .ok r else firstNonEmpty f xs

/-- All combinations of the module parameters; the first list holds the options
from `parameterOptionIndex` on. -/
def checkModuleParameterSupport (lib : AcceleratorLibrary)
    (queryOperation : QueryOperationType) (modulePosition : Nat)
    (currentModulesVector : ConfigurableModulesVector) :
    List (List Int) → Nat → List Int → Outcome ConfigurableModulesVector
  | [], _, _ => .error .outOfRange
  | options :: rest, parameterOptionIndex, moduleParameters =>
      firstNonEmpty (fun parameterValue => do
        let moduleParameters ←
          writeAt moduleParameters parameterOptionIndex parameterValue
        if rest = [] then
          let newModulesVector := createNewModulesVector queryOperation
            modulePosition currentModulesVector moduleParameters
          .ok (if isModuleSetSupported newModulesVector lib then
            newModulesVector else [])
        else
          checkModuleParameterSupport lib queryOperation modulePosition
            currentModulesVector rest (parameterOptionIndex + 1)
            moduleParameters)
        options

/-- One candidate position; the result is empty when it is not supported. -/
def checkModulePosition (lib : AcceleratorLibrary)
    (queryOperation : QueryOperationType)
    (currentModulesVector : ConfigurableModulesVector)
    (parameterOptions : List (List Int)) (modulePosition : Nat) :
    Outcome ConfigurableModulesVector :=
  let moduleParameters := parameterOptions.filterMap (·.head?)
  if moduleParameters ≠ [] then
    checkModuleParameterSupport lib queryOperation modulePosition
      currentModulesVector parameterOptions 0 moduleParameters
  else
    let newModulesVector := createNewModulesVector queryOperation modulePosition
      currentModulesVector moduleParameters
    .ok (if isModuleSetSupported newModulesVector lib then newModulesVector
      else [])

/-- The loop over the positions, `count` of them from `modulePosition` on. -/
def findModulePosition (lib : AcceleratorLibrary)
    (queryOperation : QueryOperationType)
    (currentModulesVector : ConfigurableModulesVector)
    (parameterOptions : List (List Int)) :
    Nat → Nat → Outcome (Option (Nat × ConfigurableModulesVector))
  | 0, _ => .ok none
  | count + 1, modulePosition => do
      let newModulesVector ← checkModulePosition lib queryOperation
        currentModulesVector parameterOptions modulePosition
      if newModulesVector ≠ [] then
        .ok (some (modulePosition, newModulesVector))
      else
        findModulePosition lib queryOperation currentModulesVector
          parameterOptions count (modulePosition + 1)

/-- Check if the desired module can be added to the existing combination.  The
heap is returned because a node that is placed learns its location. -/
def findSuitableModuleCombination (h : Heap) (currentNode : NodeId)
    (currentQueryNodes : List QueryNode)
    (currentModulesVector : ConfigurableModulesVector)
    (lib : AcceleratorLibrary) : Outcome (Heap × ConfigurableModulesVector) :=
  if (h currentNode).operationType = .kPassThrough then
    .ok (h, currentModulesVector)
  else do
    match ← findMinPosition h currentNode currentQueryNodes
        currentModulesVector with
    | none => .ok (h, [])
    | some currentPosition =>
        match lib.existingModulesLibrary.lookup
            (h currentNode).operationType with
        | none => .error (.runtimeError "Operation parameters not found!")
        | some parameterOptions => do
            match ← findModulePosition lib (h currentNode).operationType
                currentModulesVector parameterOptions
                (currentModulesVector.length + 1 - currentPosition)
                currentPosition with
            | none => .ok (h, [])
            | some (modulePosition, newModulesVector) =>
                .ok (h.modify currentNode fun node =>
                  { node with moduleLocation := modulePosition + 1 },
                  newModulesVector)

/-! ## Growing a run -/

/-- Everything that `CheckNodeForModuleSet` hands to itself. -/
structure SchedulerState where
  heap : Heap
  previousNodeIndex : Nat
  currentModulesVector : ConfigurableModulesVector
  currentQueryNodes : List NodeId
  scheduledQueries : List NodeId
  startingNodes : List NodeId

/-- `starting_nodes` after one more of the next nodes has been looked at. -/
def addStartingNode (h : Heap) (scheduledQueries startingNodes : List NodeId)
    (nextNode : Option NodeId) : List NodeId :=
  match nextNode with
  | none => startingNodes
  | some n =>
      if !isNodeIncluded (createReferenceVector h startingNodes) (h n) &&
          isNodeAvailable h (createReferenceVector h scheduledQueries) (h n)
      then startingNodes ++ [n]
      else startingNodes

/-- The state after `currentNode` has joined the run. -/
def SchedulerState.place (s : SchedulerState) (heap : Heap)
    (currentNode : NodeId) (suitableCombination : ConfigurableModulesVector) :
    SchedulerState where
  heap := heap
  previousNodeIndex := 0
  currentModulesVector := suitableCombination
  currentQueryNodes := s.currentQueryNodes ++ [currentNode]
  scheduledQueries := s.scheduledQueries ++ [currentNode]
  startingNodes := ((heap currentNode).nextNodes.foldl
    (addStartingNode heap (s.scheduledQueries ++ [currentNode]))
      s.startingNodes).eraseIdx s.previousNodeIndex

/-- One call of `CheckNodeForModuleSet`, up to the call that it ends in. -/
def checkNodeForModuleSetBody (lib : AcceleratorLibrary) (s : SchedulerState) :
    Outcome (Next SchedulerState SchedulerState) := do
  let currentNode ← readAt s.startingNodes s.previousNodeIndex
  let (heap, suitableCombination) ← findSuitableModuleCombination s.heap
    currentNode (createReferenceVector s.heap s.currentQueryNodes)
    s.currentModulesVector lib
  if suitableCombination ≠ [] then
    let s' := s.place heap currentNode suitableCombination
    .ok (if s'.startingNodes ≠ [] then .again s' else .done s')
  else
    let s' := { s with heap := heap }
    .ok (if s.previousNodeIndex + 1 ≠ s.startingNodes.length then
      .again { s' with previousNodeIndex := s.previousNodeIndex + 1 }
    else .done s')

def checkNodeForModuleSet (lib : AcceleratorLibrary) (fuel : Nat)
    (s : SchedulerState) : Outcome SchedulerState :=
  iterate (checkNodeForModuleSetBody lib) fuel s

/-! ## The edges of a finished run -/

/-- Targets of the outputs of one node. -/
abbrev TargetMaps := Std.TreeMap Nat (List (String × Nat))

/-- Which output is reused as which input, by node name. -/
abbrev LinkedNodes := Std.TreeMap String TargetMaps

def reuseMemory (_sourceNode _targetNode : QueryNode) : Bool := true

/-- File name for an output that does not have one. -/
def outputFilename (node : QueryNode) (nextNodeIndex : Nat) : String :=
  node.nodeName ++ "_" ++ toString nextNodeIndex ++ ".csv"

def setOutputFile (h : Heap) (node : NodeId) (i : Nat) (filename : String) :
    Outcome Heap := do
  let files ← writeAt (h node).outputDataDefinitionFiles i filename
  .ok (h.modify node fun n => { n with outputDataDefinitionFiles := files })

def setInputFile (h : Heap) (node : NodeId) (i : Nat) (filename : String) :
    Outcome Heap := do
  let files ← writeAt (h node).inputDataDefinitionFiles i filename
  .ok (h.modify node fun n => { n with inputDataDefinitionFiles := files })

def clearNextNode (h : Heap) (node : NodeId) (i : Nat) : Outcome Heap := do
  let nextNodes ← writeAt (h node).nextNodes i none
  .ok (h.modify node fun n => { n with nextNodes := nextNodes })

/-- One output of a scheduled node. -/
def checkNextNode (currentQueryNodes : List NodeId) (node : NodeId)
    (s : Heap × TargetMaps) (nextNodeIndex : Nat) :
    Outcome (Heap × TargetMaps) := do
  let nextNode ← readAt (s.1 node).nextNodes nextNodeIndex
  match nextNode with
  | none => do
      let currentFilename ←
        readAt (s.1 node).outputDataDefinitionFiles nextNodeIndex
      if currentFilename = "" then do
        let h ← setOutputFile s.1 node nextNodeIndex
          (outputFilename (s.1 node) nextNodeIndex)
        .ok (h, s.2)
      else .ok s
  | some next =>
      if isNodeMissingFromTheVector (some next) currentQueryNodes then do
        let currentNodeLocation ←
          findPreviousNodeLocation (s.1 next).previousNodes node
        let currentFilename ←
          readAt (s.1 node).outputDataDefinitionFiles nextNodeIndex
        if currentFilename = "" && reuseMemory (s.1 node) (s.1 next) then
          .ok (s.1, s.2.insertIfNew nextNodeIndex
            [((s.1 next).nodeName, currentNodeLocation)])
        else if currentFilename = "" then do
          let filename := outputFilename (s.1 node) nextNodeIndex
          let h ← setOutputFile s.1 node nextNodeIndex filename
          let h ← setInputFile h next currentNodeLocation filename
          let h ← clearNextNode h node nextNodeIndex
          .ok (h, s.2)
        else do
          let h ← setInputFile s.1 next currentNodeLocation currentFilename
          let h ← clearNextNode h node nextNodeIndex
          .ok (h, s.2)
      else .ok s

/-- The previous nodes of other runs are forgotten. -/
def clearPreviousNodes (currentQueryNodes : List NodeId) (n : QueryNode) :
    QueryNode :=
  { n with previousNodes := n.previousNodes.map fun previousNode =>
      if isNodeMissingFromTheVector previousNode currentQueryNodes then none
      else previousNode }

/-- All edges of one scheduled node. -/
def checkExternalLinksOf (currentQueryNodes : List NodeId)
    (s : Heap × LinkedNodes) (node : NodeId) : Outcome (Heap × LinkedNodes) := do
  let (h, targetMaps) ← (List.range (s.1 node).nextNodes.length).foldlM
    (checkNextNode currentQueryNodes node) (s.1, (∅ : TargetMaps))
  let h := h.modify node (clearPreviousNodes currentQueryNodes)
  .ok (h, if targetMaps.isEmpty then s.2
    else s.2.insertIfNew (h node).nodeName targetMaps)

/-- Remove next or previous nodes from a node once it has been scheduled. -/
def checkExternalLinks (h : Heap) (currentQueryNodes : List NodeId)
    (linkedNodes : LinkedNodes) : Outcome (Heap × LinkedNodes) :=
  currentQueryNodes.foldlM (checkExternalLinksOf currentQueryNodes)
    (h, linkedNodes)

/-! ## All runs -/

/-- Modules and nodes of one run. -/
abbrev QueryNodeRun := ConfigurableModulesVector × List NodeId

/-- What the loop over the runs updates. -/
structure RunsState where
  heap : Heap
  startingNodes : List NodeId
  scheduledQueries : List NodeId
  linkedNodes : LinkedNodes
  queryNodeRunsQueue : List QueryNodeRun

/-- The arguments of the outermost call for the next run. -/
def RunsState.firstCall (o : RunsState) : SchedulerState where
  heap := o.heap
  previousNodeIndex := 0
  currentModulesVector := []
  currentQueryNodes := []
  scheduledQueries := o.scheduledQueries
  startingNodes := o.startingNodes

/-- One iteration of the loop over the runs. -/
def findNextRun (lib : AcceleratorLibrary) (fuel : Nat) (o : RunsState) :
    Outcome (Next RunsState RunsState) :=
  if o.startingNodes = [] then .ok (.done o)
  else do
    let s ← checkNodeForModuleSet lib fuel o.firstCall
    if s.currentQueryNodes = [] then
      .error (.runtimeError "Failed to schedule!")
    else do
      let (heap, linkedNodes) ←
        checkExternalLinks s.heap s.currentQueryNodes o.linkedNodes
      .ok (.again
        { heap := heap
          startingNodes := s.startingNodes
          scheduledQueries := s.scheduledQueries
          linkedNodes := linkedNodes
          queryNodeRunsQueue := o.queryNodeRunsQueue ++
            [(s.currentModulesVector, s.currentQueryNodes)] })

/-- The state before the first run. -/
def RunsState.initial (h : Heap) (startingNodes : List NodeId)
    (linkedNodes : LinkedNodes) : RunsState where
  heap := h
  startingNodes := startingNodes
  scheduledQueries := []
  linkedNodes := linkedNodes
  queryNodeRunsQueue := []

def findAcceleratedQueryNodeSets (lib : AcceleratorLibrary) (fuel : Nat)
    (h : Heap) (startingNodes : List NodeId) (linkedNodes : LinkedNodes) :
    Outcome RunsState :=
  iterate (findNextRun lib fuel) fuel
    (RunsState.initial h startingNodes linkedNodes)

/-! ## What one call can do -/

/-- Modules with one more at position `p`. -/
def insertModule (modules : ConfigurableModulesVector) (p : Nat)
    (operation : QueryOperation) : ConfigurableModulesVector :=
  modules.take p ++ operation :: modules.drop p

theorem insertModule_ne_nil (modules : ConfigurableModulesVector) (p : Nat)
    (operation : QueryOperation) : insertModule modules p operation ≠ [] := by
  simp [insertModule]

/-- The three ways to build the vector are one insertion. -/
theorem createNewModulesVector_eq {op : QueryOperationType}
    (hop : op ≠ .kPassThrough) {modules : ConfigurableModulesVector} {p : Nat}
    (hp : p ≤ modules.length) (params : List Int) :
    createNewModulesVector op p modules params =
      insertModule modules p ⟨op, params⟩ := by
  rw [createNewModulesVector, if_neg hop, insertModule]
  by_cases hnil : modules = []
  · subst hnil
    simp
  · rw [if_neg hnil]
    by_cases hend : p = modules.length
    · subst hend
      simp
    · rw [if_neg hend]

theorem firstNonEmpty_cases {α β : Type} {f : α → Outcome (List β)}
    {xs : List α} {r : List β} (h : firstNonEmpty f xs = .ok r) :
    r = [] ∨ ∃ x ∈ xs, f x = .ok r := by
  induction xs with
  | nil => exact .inl (Except.ok.inj h).symm
  | cons x xs ih =>
      rw [firstNonEmpty, bind_eq_ok] at h
      obtain ⟨r', hr', h⟩ := h
      split at h
      · rw [Except.ok.injEq] at h
        subst h
        exact .inr ⟨x, List.mem_cons_self, hr'⟩
      · rcases ih h with hnil | ⟨y, hy, hr⟩
        · exact .inl hnil
        · exact .inr ⟨y, List.mem_cons_of_mem x hy, hr⟩

section Placement

variable {lib : AcceleratorLibrary} {op : QueryOperationType}
  {modules r : ConfigurableModulesVector} {p : Nat}

/-- A result that is not empty is a supported insertion. -/
theorem checkModuleParameterSupport_cases (hop : op ≠ .kPassThrough)
    (hp : p ≤ modules.length) {options : List (List Int)} {i : Nat}
    {params : List Int}
    (h : checkModuleParameterSupport lib op p modules options i params = .ok r) :
    r = [] ∨ isModuleSetSupported r lib = true ∧
      ∃ params, r = insertModule modules p ⟨op, params⟩ := by
  induction options generalizing i params with
  | nil => cases h
  | cons values rest ih =>
      rw [checkModuleParameterSupport] at h
      rcases firstNonEmpty_cases h with hnil | ⟨value, -, hvalue⟩
      · exact .inl hnil
      · rw [bind_eq_ok] at hvalue
        obtain ⟨params', -, hvalue⟩ := hvalue
        split at hvalue
        · rw [Except.ok.injEq, createNewModulesVector_eq hop hp] at hvalue
          split at hvalue
          · next hsupported =>
              subst hvalue
              exact .inr ⟨hsupported, params', rfl⟩
          · exact .inl hvalue.symm
        · exact ih hvalue

theorem checkModulePosition_cases (hop : op ≠ .kPassThrough)
    (hp : p ≤ modules.length) {options : List (List Int)}
    (h : checkModulePosition lib op modules options p = .ok r) :
    r = [] ∨ isModuleSetSupported r lib = true ∧
      ∃ params, r = insertModule modules p ⟨op, params⟩ := by
  simp only [checkModulePosition] at h
  split at h
  · exact checkModuleParameterSupport_cases hop hp h
  · rw [Except.ok.injEq, createNewModulesVector_eq hop hp] at h
    split at h
    · next hsupported =>
        subst h
        exact .inr ⟨hsupported, _, rfl⟩
    · exact .inl h.symm

/-- The loop over the positions takes the first one that is supported. -/
theorem findModulePosition_some {options : List (List Int)} {count q : Nat}
    (h : findModulePosition lib op modules options count p =
      .ok (some (q, r))) :
    p ≤ q ∧ q < p + count ∧ r ≠ [] ∧
      checkModulePosition lib op modules options q = .ok r ∧
      ∀ k, p ≤ k → k < q →
        checkModulePosition lib op modules options k = .ok [] := by
  induction count generalizing p with
  | zero => cases h
  | succ count ih =>
      rw [findModulePosition, bind_eq_ok] at h
      obtain ⟨r', hr', h⟩ := h
      split at h
      · next hne =>
          rw [Except.ok.injEq, Option.some.injEq, Prod.mk.injEq] at h
          obtain ⟨rfl, rfl⟩ := h
          exact ⟨Nat.le_refl p, by omega, hne, hr', by omega⟩
      · next hnil =>
          obtain ⟨hle, hlt, hne, hcheck, hbefore⟩ := ih h
          refine ⟨by omega, by omega, hne, hcheck, ?_⟩
          intro k hk hkq
          rcases Nat.eq_or_lt_of_le hk with rfl | hk
          · rw [hr', not_not.mp hnil]
          · exact hbefore k hk hkq

theorem findModulePosition_none {options : List (List Int)} {count : Nat}
    (h : findModulePosition lib op modules options count p = .ok none) :
    ∀ k, p ≤ k → k < p + count →
      checkModulePosition lib op modules options k = .ok [] := by
  induction count generalizing p with
  | zero => omega
  | succ count ih =>
      rw [findModulePosition, bind_eq_ok] at h
      obtain ⟨r', hr', h⟩ := h
      split at h
      · cases h
      · next hnil =>
          intro k hk hlt
          rcases Nat.eq_or_lt_of_le hk with rfl | hk
          · rw [hr', not_not.mp hnil]
          · exact ih h k hk (by omega)

end Placement

theorem findLocation_eq_ok {pointers : List (Option NodeId)} {n : NodeId}
    {i : Nat} (h : findLocation pointers n = .ok i) :
    pointers[i]? = some (some n) := by
  unfold findLocation at h
  split at h
  · next k hk =>
      rw [Except.ok.injEq] at h
      subst h
      obtain ⟨hlt, heq, -⟩ := List.idxOf?_eq_some_iff.mp hk
      exact List.getElem?_eq_some_iff.mpr ⟨hlt, heq⟩
  · cases h

theorem exists_findLocation {pointers : List (Option NodeId)} {n : NodeId}
    (h : some n ∈ pointers) : ∃ i, findLocation pointers n = .ok i := by
  unfold findLocation
  split
  · next i _ => exact ⟨i, rfl⟩
  · next hnone => exact absurd h (List.idxOf?_eq_none_iff.mp hnone)

/-- Without a second pointer to the node the search finds its index. -/
theorem findLocation_of_distinct {pointers : List (Option NodeId)}
    (hdistinct : Distinct pointers) {n : NodeId} {i : Nat}
    (hi : pointers[i]? = some (some n)) : findLocation pointers n = .ok i := by
  unfold findLocation
  split
  · next k hk =>
      obtain ⟨hlt, heq, -⟩ := List.idxOf?_eq_some_iff.mp hk
      rw [hdistinct.index_unique hi
        (List.getElem?_eq_some_iff.mpr ⟨hlt, heq⟩)]
  · next hnone =>
      exact absurd (List.mem_of_getElem? hi)
        (List.idxOf?_eq_none_iff.mp hnone)

/-- The minimum position is within the modules. -/
theorem findMinPosition_le {h : Heap} {n : NodeId} {nodes : List QueryNode}
    {modules : ConfigurableModulesVector} {p : Nat}
    (hrun : findMinPosition h n nodes modules = .ok (some p)) :
    p ≤ modules.length := by
  suffices key : ∀ pointers i lowest, lowest ≤ modules.length →
      findMinPositionFrom h n nodes modules i pointers lowest = .ok (some p) →
      p ≤ modules.length from key _ 0 0 (Nat.zero_le _) hrun
  intro pointers
  induction pointers with
  | nil =>
      intro i lowest hle h
      rw [findMinPositionFrom, Except.ok.injEq, Option.some.injEq] at h
      omega
  | cons pointer rest ih =>
      intro i lowest hle h
      cases pointer with
      | none => exact ih _ _ hle h
      | some observed =>
          rw [findMinPositionFrom] at h
          split at h
          · simp only [bind_eq_ok] at h
            obtain ⟨k, -, isProjected, -, h⟩ := h
            split at h
            · cases h
            · obtain ⟨isChecked, -, h⟩ := bind_eq_ok.mp h
              split at h
              · cases h
              · split at h
                · cases h
                · next m hm =>
                    have hlt := (List.findIdx?_eq_some_iff_findIdx_eq.mp hm).1
                    refine ih _ _ ?_ h
                    split <;> omega
          · exact ih _ _ hle h

/-- A node is passed through, is not placed, or is placed at the first position
from its minimum position on that the library supports. -/
inductive Suitable (lib : AcceleratorLibrary) (h : Heap) (n : NodeId)
    (nodes : List QueryNode) (modules : ConfigurableModulesVector) :
    Heap → ConfigurableModulesVector → Prop where
  | passed : (h n).operationType = .kPassThrough →
      Suitable lib h n nodes modules h modules
  | notPlaced : (h n).operationType ≠ .kPassThrough →
      (findMinPosition h n nodes modules = .ok none ∨
        ∃ p options, findMinPosition h n nodes modules = .ok (some p) ∧
          lib.existingModulesLibrary.lookup (h n).operationType =
            some options ∧
          ∀ q, p ≤ q → q ≤ modules.length →
            checkModulePosition lib (h n).operationType modules options q =
              .ok []) →
      Suitable lib h n nodes modules h []
  | placed (p q : Nat) (options : List (List Int)) (params : List Int) :
      (h n).operationType ≠ .kPassThrough →
      findMinPosition h n nodes modules = .ok (some p) →
      lib.existingModulesLibrary.lookup (h n).operationType = some options →
      p ≤ q → q ≤ modules.length →
      (∀ k, p ≤ k → k < q →
        checkModulePosition lib (h n).operationType modules options k =
          .ok []) →
      checkModulePosition lib (h n).operationType modules options q =
        .ok (insertModule modules q ⟨(h n).operationType, params⟩) →
      isModuleSetSupported
        (insertModule modules q ⟨(h n).operationType, params⟩) lib = true →
      Suitable lib h n nodes modules
        (h.modify n fun node => { node with moduleLocation := q + 1 })
        (insertModule modules q ⟨(h n).operationType, params⟩)

theorem Suitable.heap_eq_of_nil {lib : AcceleratorLibrary} {h h' : Heap}
    {n : NodeId} {nodes : List QueryNode}
    {modules r : ConfigurableModulesVector}
    (hs : Suitable lib h n nodes modules h' r) (hr : r = []) : h' = h := by
  cases hs with
  | passed _ => rfl
  | notPlaced _ _ => rfl
  | placed p q options params => exact absurd hr (insertModule_ne_nil _ _ _)

/-- A node that needs a module and is not placed has no supported position. -/
theorem Suitable.not_supported {lib : AcceleratorLibrary} {h h' : Heap}
    {n : NodeId} {nodes : List QueryNode}
    {modules r : ConfigurableModulesVector}
    (hs : Suitable lib h n nodes modules h' r) (hr : r = [])
    (hop : (h n).operationType ≠ .kPassThrough) {p q : Nat}
    {options : List (List Int)}
    (hmin : findMinPosition h n nodes modules = .ok (some p))
    (hoptions :
      lib.existingModulesLibrary.lookup (h n).operationType = some options)
    (hpq : p ≤ q) (hq : q ≤ modules.length) :
    checkModulePosition lib (h n).operationType modules options q =
      .ok [] := by
  cases hs with
  | passed hpass => exact absurd hpass hop
  | notPlaced _ hnone =>
      rcases hnone with hnone | ⟨p', options', hmin', hoptions', hnone⟩
      · rw [hmin] at hnone
        cases hnone
      · rw [hmin, Except.ok.injEq, Option.some.injEq] at hmin'
        rw [hoptions, Option.some.injEq] at hoptions'
        subst hmin'
        subst hoptions'
        exact hnone q hpq hq
  | placed _ _ _ _ => exact absurd hr (insertModule_ne_nil _ _ _)

/-- Nothing but the location of the node changes. -/
theorem Suitable.eq_but_location {lib : AcceleratorLibrary} {h h' : Heap}
    {n : NodeId} {nodes : List QueryNode}
    {modules r : ConfigurableModulesVector}
    (hs : Suitable lib h n nodes modules h' r) (m : NodeId) :
    h' m = { h m with moduleLocation := (h' m).moduleLocation } := by
  cases hs with
  | passed _ => rfl
  | notPlaced _ _ => rfl
  | placed p q options params =>
      by_cases hm : m = n
      · subst hm
        simp
      · simp [hm]

theorem Suitable.eq_of_ne {lib : AcceleratorLibrary} {h h' : Heap}
    {n : NodeId} {nodes : List QueryNode}
    {modules r : ConfigurableModulesVector}
    (hs : Suitable lib h n nodes modules h' r) {m : NodeId} (hm : m ≠ n) :
    h' m = h m := by
  cases hs with
  | passed _ => rfl
  | notPlaced _ _ => rfl
  | placed p q options params => exact Heap.modify_of_ne h hm _

theorem findSuitableModuleCombination_cases {lib : AcceleratorLibrary}
    {h h' : Heap} {n : NodeId} {nodes : List QueryNode}
    {modules modules' : ConfigurableModulesVector}
    (hrun : findSuitableModuleCombination h n nodes modules lib =
      .ok (h', modules')) :
    Suitable lib h n nodes modules h' modules' := by
  rw [findSuitableModuleCombination] at hrun
  split at hrun
  · next hpass =>
      simp only [Except.ok.injEq, Prod.mk.injEq] at hrun
      obtain ⟨rfl, rfl⟩ := hrun
      exact .passed hpass
  · next hop =>
      rw [bind_eq_ok] at hrun
      obtain ⟨position, hmin, hrun⟩ := hrun
      cases position with
      | none =>
          simp only [Except.ok.injEq, Prod.mk.injEq] at hrun
          obtain ⟨rfl, rfl⟩ := hrun
          exact .notPlaced hop (.inl hmin)
      | some p =>
          dsimp only at hrun
          split at hrun
          · cases hrun
          · next options hoptions =>
              rw [bind_eq_ok] at hrun
              obtain ⟨found, hfound, hrun⟩ := hrun
              have hle := findMinPosition_le hmin
              cases found with
              | none =>
                  simp only [Except.ok.injEq, Prod.mk.injEq] at hrun
                  obtain ⟨rfl, rfl⟩ := hrun
                  refine .notPlaced hop (.inr ⟨p, options, hmin, hoptions, ?_⟩)
                  intro q hq hql
                  exact findModulePosition_none hfound q hq (by omega)
              | some found =>
                  obtain ⟨q, r⟩ := found
                  simp only [Except.ok.injEq, Prod.mk.injEq] at hrun
                  obtain ⟨rfl, rfl⟩ := hrun
                  obtain ⟨hpq, hlt, hne, hcheck, hbefore⟩ :=
                    findModulePosition_some hfound
                  rcases checkModulePosition_cases hop (by omega) hcheck with
                    hnil | ⟨hsupported, params, rfl⟩
                  · exact absurd hnil hne
                  · exact .placed p q options params hop hmin hoptions hpq
                      (by omega) hbefore hcheck hsupported

/-- What one call does to its state. -/
inductive NodeStep (lib : AcceleratorLibrary) (s : SchedulerState) :
    SchedulerState → Prop where
  | skip (n : NodeId) : s.startingNodes[s.previousNodeIndex]? = some n →
      Suitable lib s.heap n (createReferenceVector s.heap s.currentQueryNodes)
        s.currentModulesVector s.heap [] →
      NodeStep lib s { s with previousNodeIndex := s.previousNodeIndex + 1 }
  | place (n : NodeId) (h : Heap) (modules : ConfigurableModulesVector) :
      s.startingNodes[s.previousNodeIndex]? = some n → modules ≠ [] →
      Suitable lib s.heap n (createReferenceVector s.heap s.currentQueryNodes)
        s.currentModulesVector h modules →
      NodeStep lib s (s.place h n modules)

/-- The parts of a call. -/
theorem body_eq_ok {lib : AcceleratorLibrary} {s : SchedulerState}
    {next : Next SchedulerState SchedulerState}
    (h : checkNodeForModuleSetBody lib s = .ok next) :
    ∃ n heap modules, s.startingNodes[s.previousNodeIndex]? = some n ∧
      findSuitableModuleCombination s.heap n
        (createReferenceVector s.heap s.currentQueryNodes)
        s.currentModulesVector lib = .ok (heap, modules) ∧
      next = if modules ≠ [] then
          if (s.place heap n modules).startingNodes ≠ [] then
            .again (s.place heap n modules)
          else .done (s.place heap n modules)
        else if s.previousNodeIndex + 1 ≠ s.startingNodes.length then
          .again { s with
            heap := heap
            previousNodeIndex := s.previousNodeIndex + 1 }
        else .done { s with heap := heap } := by
  simp only [checkNodeForModuleSetBody, bind_eq_ok, readAt_eq_ok] at h
  obtain ⟨n, hn, ⟨heap, modules⟩, hfind, h⟩ := h
  refine ⟨n, heap, modules, hn, hfind, ?_⟩
  simp only at h
  split at h
  · next hne =>
      rw [if_pos hne]
      exact (Except.ok.inj h).symm
  · next hnil =>
      rw [if_neg hnil]
      exact (Except.ok.inj h).symm

/-- A call places the module that the search has found, or leaves the heap as it
is and goes on to the next starting node. -/
theorem body_cases {lib : AcceleratorLibrary} {s : SchedulerState}
    {next : Next SchedulerState SchedulerState}
    (h : checkNodeForModuleSetBody lib s = .ok next) :
    ∃ n, s.startingNodes[s.previousNodeIndex]? = some n ∧
      ((∃ heap modules, modules ≠ [] ∧
          Suitable lib s.heap n
            (createReferenceVector s.heap s.currentQueryNodes)
            s.currentModulesVector heap modules ∧
          next = if (s.place heap n modules).startingNodes ≠ [] then
              .again (s.place heap n modules)
            else .done (s.place heap n modules)) ∨
        Suitable lib s.heap n
            (createReferenceVector s.heap s.currentQueryNodes)
            s.currentModulesVector s.heap [] ∧
          next = if s.previousNodeIndex + 1 ≠ s.startingNodes.length then
              .again { s with previousNodeIndex := s.previousNodeIndex + 1 }
            else .done s) := by
  obtain ⟨n, heap, modules, hn, hfind, hnext⟩ := body_eq_ok h
  have hsuitable := findSuitableModuleCombination_cases hfind
  refine ⟨n, hn, ?_⟩
  split at hnext
  · next hne => exact .inl ⟨heap, modules, hne, hsuitable, hnext⟩
  · next hnil =>
      rw [not_not] at hnil
      subst hnil
      have hheap := hsuitable.heap_eq_of_nil rfl
      subst hheap
      exact .inr ⟨hsuitable, hnext⟩

/-- A call that goes on takes a step and stays within the starting nodes. -/
theorem body_again {lib : AcceleratorLibrary} {s s' : SchedulerState}
    (h : checkNodeForModuleSetBody lib s = .ok (.again s')) :
    NodeStep lib s s' ∧ s'.startingNodes ≠ [] ∧
      s'.previousNodeIndex ≠ s'.startingNodes.length := by
  obtain ⟨n, hn, ⟨heap, modules, hne, hsuitable, hnext⟩ | ⟨hsuitable, hnext⟩⟩ :=
    body_cases h
  · split at hnext
    · next hmore =>
        cases hnext
        refine ⟨.place n heap modules hn hne hsuitable, hmore, ?_⟩
        intro hzero
        exact hmore (List.length_eq_zero_iff.mp hzero.symm)
    · cases hnext
  · split at hnext
    · next hmore =>
        cases hnext
        refine ⟨.skip n hn hsuitable, ?_, hmore⟩
        intro hempty
        rw [hempty, List.getElem?_nil] at hn
        cases hn
    · cases hnext

/-- A call that returns has tried the last starting node or placed the last
one. -/
theorem body_done {lib : AcceleratorLibrary} {s s' : SchedulerState}
    (h : checkNodeForModuleSetBody lib s = .ok (.done s')) :
    (∃ n, s.startingNodes[s.previousNodeIndex]? = some n ∧
      Suitable lib s.heap n (createReferenceVector s.heap s.currentQueryNodes)
        s.currentModulesVector s.heap [] ∧ s' = s) ∨
      NodeStep lib s s' ∧ s'.startingNodes = [] := by
  obtain ⟨n, hn, ⟨heap, modules, hne, hsuitable, hnext⟩ | ⟨hsuitable, hnext⟩⟩ :=
    body_cases h
  · split at hnext
    · cases hnext
    · next hmore =>
        cases hnext
        exact .inr ⟨.place n heap modules hn hne hsuitable, not_not.mp hmore⟩
  · split at hnext
    · cases hnext
    · cases hnext
      exact .inl ⟨n, hn, hsuitable, rfl⟩

end Orkhestra.Ports.NodeScheduler
