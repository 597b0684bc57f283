import Orkhestra.Ports.ElasticModuleChecker
import Orkhestra.Ports.MemoryConservation

/-!
# The execution manager and its states

`ExecutionManager` and the three states of the graph processing: scheduling,
setting up the nodes of a run, and executing it.  The manager calls the current
state for as long as it is busy; the states call back into the manager.

A method that throws leaves what it has done; `Thrown` keeps the manager for its
log.  The log `calls` is not part of the program: it lists the methods that the
states have called on the manager, with the answers to their questions.

The bitstream is loaded and the accelerator is run by a `Platform`.  What the
accelerator returns may depend on everything that has been called before.
-/

namespace Orkhestra.Ports.ExecutionOrder

open Orkhestra.Verified.Checked
open Orkhestra.Ports.QuerySchedulingData
open Orkhestra.Ports.NodeScheduler
open Orkhestra.Ports.QueryManager
open Orkhestra.Ports.SchedulePartition
open Orkhestra.Ports.RunSetup
open Orkhestra.Ports.StreamLanes
open Orkhestra.Ports.MemoryConservation
open Orkhestra.Ports.ElasticModuleChecker

/-! ## The data -/

/-- A method that a state has called. -/
inductive Call where
  | isUnscheduledNodesGraphEmpty (answer : Bool)
  | scheduleUnscheduledNodes
  | isARunScheduled (answer : Bool)
  | setupNextRunData (run : QueryNodeRun)
  | isRunReadyForExecution (answer : Bool)
  | isRunValid (queryNodes : List AcceleratedQueryNode) (answer : Bool)
  | executeAndProcessResults (queryNodes : List AcceleratedQueryNode)
  | setFinishedFlag
  deriving DecidableEq, Repr

/-- `Config`, as far as the manager reads it; `schedulerFuel` bounds the loops
of the scheduler. -/
structure Config where
  library : AcceleratorLibrary
  requiredMemorySpace : List (String × Int)
  schedulerFuel : Nat

/-- The hardware and the data behind the manager. -/
structure Platform where
  data : DataManager
  loadBitstreamIfNew : String → Int → Outcome Unit
  accelerate : List Call → List AcceleratedQueryNode → Outcome (List Int)

structure ExecutionManager where
  /-- Roots of the execution graph. -/
  unscheduledGraph : List NodeId
  busyFlag : Bool
  allReuseLinks : LinkedNodes
  currentReuseLinks : LinkedNodes
  run : RunData
  queryNodeRunsQueue : List QueryNodeRun
  resultParameters : ResultMap
  queryNodes : List AcceleratedQueryNode
  scheduledNodeNames : List String
  calls : List Call

/-- An exception and the manager that it leaves. -/
structure Thrown where
  fault : Fault
  manager : ExecutionManager

/-- Result of a method of the manager. -/
abbrev Managed := Except Thrown

def orThrow {α : Type} (m : ExecutionManager) (x : Outcome α) : Managed α :=
  match x with
  | .ok a => .ok a
  | .error fault => .error ⟨fault, m⟩

section Managed

variable {α β : Type} (m : ExecutionManager)

@[simp] theorem orThrow_ok (a : α) : orThrow m (.ok a) = .ok a := rfl

@[simp] theorem orThrow_error (fault : Fault) :
    (orThrow m (.error fault) : Managed α) = .error ⟨fault, m⟩ := rfl

@[simp] theorem managed_ok_bind (a : α) (f : α → Managed β) :
    ((Except.ok a : Managed α) >>= f) = f a := rfl

@[simp] theorem managed_error_bind (thrown : Thrown) (f : α → Managed β) :
    ((Except.error thrown : Managed α) >>= f) = .error thrown := rfl

end Managed

def ExecutionManager.log (m : ExecutionManager) (call : Call) :
    ExecutionManager :=
  { m with calls := m.calls ++ [call] }

/-! ## The methods -/

def setFinishedFlag (m : ExecutionManager) : ExecutionManager :=
  { m.log .setFinishedFlag with busyFlag := false }

def isUnscheduledNodesGraphEmpty (m : ExecutionManager) :
    Bool × ExecutionManager :=
  let answer := m.unscheduledGraph.isEmpty
  (answer, m.log (.isUnscheduledNodesGraphEmpty answer))

def isARunScheduled (m : ExecutionManager) : Bool × ExecutionManager :=
  let answer := !m.queryNodeRunsQueue.isEmpty
  (answer, m.log (.isARunScheduled answer))

def isRunReadyForExecution (m : ExecutionManager) : Bool × ExecutionManager :=
  let answer := !m.queryNodes.isEmpty
  (answer, m.log (.isRunReadyForExecution answer))

/-- `ExecutionManager::IsRunValid`. -/
def isCurrentRunValid (m : ExecutionManager) :
    Managed (Bool × ExecutionManager) := do
  let answer ← orThrow m (isRunValid m.queryNodes)
  .ok (answer, m.log (.isRunValid m.queryNodes answer))

/-- `ExportRootNodes` moves the roots out of the graph. -/
def scheduleUnscheduledNodes (config : Config) (m : ExecutionManager) :
    Managed ExecutionManager := do
  let roots := m.unscheduledGraph
  let m := { m.log .scheduleUnscheduledNodes with unscheduledGraph := [] }
  let schedule ← orThrow m (findAcceleratedQueryNodeSets config.library
    config.schedulerFuel m.run.heap roots ∅)
  .ok { m with
    run := { m.run with heap := schedule.heap }
    allReuseLinks := schedule.linkedNodes
    queryNodeRunsQueue := schedule.queryNodeRunsQueue }

/-- `m.at(key)` of a map that is listed. -/
def lookupAt {α β : Type} [BEq α] (entries : List (α × β)) (key : α) :
    Outcome β :=
  match entries.lookup key with
  | some value => .ok value
  | none => .error .outOfRange

def loadNextBitstreamIfNew (platform : Platform) (config : Config)
    (modules : ConfigurableModulesVector) : Outcome Unit := do
  let bitstream ←
    lookupAt config.library.supportedAcceleratorBitstreams modules
  let memorySpace ← lookupAt config.requiredMemorySpace bitstream
  platform.loadBitstreamIfNew bitstream memorySpace

def setupNextRun (platform : Platform) (config : Config)
    (m : ExecutionManager) : Managed ExecutionManager := do
  let next ← orThrow m (readAt m.queryNodeRunsQueue 0)
  let m := m.log (.setupNextRunData next)
  orThrow m (loadNextBitstreamIfNew platform config next.1)
  let m := { m with queryNodeRunsQueue := m.queryNodeRunsQueue.tail }
  let (scheduledNodeNames, currentReuseLinks, s) ← orThrow m
    (setupNextRunData platform.data m.allReuseLinks
      ⟨m.run, m.scheduledNodeNames⟩ next.2)
  .ok { m with
    scheduledNodeNames := scheduledNodeNames
    currentReuseLinks := currentReuseLinks
    run := s.run
    queryNodes := s.queryNodes
    resultParameters := s.resultParameters }

def executeRun (platform : Platform) (m : ExecutionManager) :
    Managed ExecutionManager := do
  let m := m.log (.executeAndProcessResults m.queryNodes)
  let resultSizes ← orThrow m (platform.accelerate m.calls m.queryNodes)
  let e ← orThrow m (executeAndProcessResults platform.data resultSizes
    m.scheduledNodeNames m.currentReuseLinks
    ⟨m.run, m.queryNodes, m.resultParameters⟩)
  .ok { m with run := e.run }

/-! ## The states -/

inductive State where
  | scheduleState
  | setupNodesState
  | executeState
  deriving DecidableEq, Repr

def ScheduleState.execute (config : Config) (m : ExecutionManager) :
    Managed (State × ExecutionManager) := do
  let (empty, m) := isUnscheduledNodesGraphEmpty m
  if empty then .ok (.scheduleState, setFinishedFlag m)
  else do
    let m ← scheduleUnscheduledNodes config m
    .ok (.setupNodesState, m)

def SetupNodesState.execute (platform : Platform) (config : Config)
    (m : ExecutionManager) : Managed (State × ExecutionManager) := do
  let (scheduled, m) := isARunScheduled m
  if !scheduled then .ok (.scheduleState, m)
  else do
    let m ← setupNextRun platform config m
    .ok (.executeState, m)

def ExecuteState.execute (platform : Platform) (m : ExecutionManager) :
    Managed (State × ExecutionManager) := do
  let (ready, m) := isRunReadyForExecution m
  if ready then do
    let (valid, m) ← isCurrentRunValid m
    if !valid then .error ⟨.runtimeError "Not implemented", m⟩
    else do
      let m ← executeRun platform m
      .ok (.setupNodesState, m)
  else .error ⟨.runtimeError "No nodes ready to execute!", m⟩

def State.execute (platform : Platform) (config : Config) (state : State)
    (m : ExecutionManager) : Managed (State × ExecutionManager) :=
  match state with
  | .scheduleState => ScheduleState.execute config m
  | .setupNodesState => SetupNodesState.execute platform config m
  | .executeState => ExecuteState.execute platform m

/-- The loop of `ExecutionManager::Execute`, at most `fuel` times. -/
def executeWhileBusy (platform : Platform) (config : Config) :
    Nat → State → ExecutionManager → Managed (State × ExecutionManager)
  | 0, _, m => .error ⟨.outOfFuel, m⟩
  | fuel + 1, state, m =>
      if m.busyFlag then
        match state.execute platform config m with
        | .ok (state, m) => executeWhileBusy platform config fuel state m
        | .error thrown => .error thrown
      else .ok (state, m)

/-- `ExecutionManager::Execute`. -/
def execute (platform : Platform) (config : Config) (fuel : Nat)
    (executionGraph : List NodeId) (state : State) (m : ExecutionManager) :
    Managed (State × ExecutionManager) :=
  executeWhileBusy platform config fuel state
    { m with unscheduledGraph := executionGraph, busyFlag := true }

/-! ## The order of a whole execution -/

/-- The calls for a run that is executed, with the nodes of its set-up. -/
def runCalls (entry : QueryNodeRun × List AcceleratedQueryNode) : List Call :=
  [.isARunScheduled true, .setupNextRunData entry.1,
    .isRunReadyForExecution true, .isRunValid entry.2 true,
    .executeAndProcessResults entry.2]

/-- Runs that are set up, found valid and executed one after the other, each in
the state that the one before it has left. -/
inductive RunsExecuted (platform : Platform) (config : Config)
    (links : LinkedNodes) : ExecutionState →
    List (QueryNodeRun × List AcceleratedQueryNode) → ExecutionState → Prop where
  | nil (e : ExecutionState) : RunsExecuted platform config links e [] e
  | cons {e e' last : ExecutionState} {run : QueryNodeRun}
      {rest : List (QueryNodeRun × List AcceleratedQueryNode)}
      {names : List String} {current : LinkedNodes} {s : SetupState}
      {resultSizes : List Int}
      (loaded : loadNextBitstreamIfNew platform config run.1 = .ok ())
      (setup : setupNextRunData platform.data links e run.2 =
        .ok (names, current, s))
      (valid : isRunValid s.queryNodes = .ok true)
      (executed : executeAndProcessResults platform.data resultSizes names
        current s = .ok e')
      (tail : RunsExecuted platform config links e' rest last) :
      RunsExecuted platform config links e ((run, s.queryNodes) :: rest) last

/-- How an execution ends in state `e` with the given runs left: its last calls,
and the exception if there is one. -/
inductive Ending (platform : Platform) (config : Config) (links : LinkedNodes)
    (e : ExecutionState) : List QueryNodeRun → List Call → Option Fault → Prop
    where
  | finished : Ending platform config links e []
      [.isARunScheduled false, .isUnscheduledNodesGraphEmpty true,
        .setFinishedFlag] none
  | setupThrew {run : QueryNodeRun} {rest : List QueryNodeRun} {fault : Fault}
      (threw : loadNextBitstreamIfNew platform config run.1 = .error fault ∨
        setupNextRunData platform.data links e run.2 = .error fault) :
      Ending platform config links e (run :: rest)
        [.isARunScheduled true, .setupNextRunData run] (some fault)
  | notValid {run : QueryNodeRun} {rest : List QueryNodeRun}
      {names : List String} {current : LinkedNodes} {s : SetupState}
      (setup : setupNextRunData platform.data links e run.2 =
        .ok (names, current, s))
      (invalid : isRunValid s.queryNodes = .ok false) :
      Ending platform config links e (run :: rest)
        [.isARunScheduled true, .setupNextRunData run,
          .isRunReadyForExecution true, .isRunValid s.queryNodes false]
        (some (.runtimeError "Not implemented"))
  | executionThrew {run : QueryNodeRun} {rest : List QueryNodeRun}
      {names : List String} {current : LinkedNodes} {s : SetupState}
      {fault : Fault}
      (setup : setupNextRunData platform.data links e run.2 =
        .ok (names, current, s))
      (valid : isRunValid s.queryNodes = .ok true)
      (threw : (∃ calls, platform.accelerate calls s.queryNodes =
          .error fault) ∨
        ∃ resultSizes, executeAndProcessResults platform.data resultSizes names
          current s = .error fault) :
      Ending platform config links e (run :: rest)
        (runCalls (run, s.queryNodes)) (some fault)

/-- The exception that an execution has thrown. -/
def faultOf (r : Managed (State × ExecutionManager)) : Option Fault :=
  match r with
  | .ok _ => none
  | .error thrown => some thrown.fault

/-- The manager behind an execution. -/
def managerOf (r : Managed (State × ExecutionManager)) : ExecutionManager :=
  match r with
  | .ok (_, m) => m
  | .error thrown => thrown.manager

section Order

variable (platform : Platform) (config : Config) {m : ExecutionManager}
  {run : QueryNodeRun} {rest : List QueryNodeRun}

/-- A set-up returns one accelerated node for each node of the run. -/
theorem setup_queryNodes_length {data : DataManager} {links : LinkedNodes}
    {e : ExecutionState} {nodes : List NodeId} {names : List String}
    {current : LinkedNodes} {s : SetupState}
    (h : setupNextRunData data links e nodes = .ok (names, current, s)) :
    s.queryNodes.length = nodes.length := by
  simp only [setupNextRunData, setupAccelerationNodesForExecution, bind_eq_ok,
    Except.ok.injEq, Prod.mk.injEq] at h
  obtain ⟨s', ⟨ids, -, hrun⟩, -, -, rfl⟩ := h
  refine foldlM_invariant (fun done t => t.queryNodes.length = done.length)
    nodes rfl ?_ hrun
  intro before n after t t' _ ht hstep
  obtain ⟨_, _, _, _, _, -, -, -, -, -, -, ⟨q, hq, -, -⟩, -⟩ :=
    setupNode_cases hstep
  rw [hq, List.length_append, List.length_append, ht, List.length_singleton,
    List.length_singleton]

/-- The manager behind the set-up of a run. -/
def setUpFor (m : ExecutionManager) (run : QueryNodeRun)
    (rest : List QueryNodeRun) (names : List String) (current : LinkedNodes)
    (s : SetupState) : ExecutionManager :=
  { m with
    calls := m.calls ++ [.setupNextRunData run]
    queryNodeRunsQueue := rest
    scheduledNodeNames := names
    currentReuseLinks := current
    run := s.run
    queryNodes := s.queryNodes
    resultParameters := s.resultParameters }

/-- The set-up of the next run throws, or its nodes become the nodes of the
manager. -/
theorem setupNextRun_cases (hqueue : m.queryNodeRunsQueue = run :: rest) :
    (∃ fault m', setupNextRun platform config m = .error ⟨fault, m'⟩ ∧
      m'.calls = m.calls ++ [.setupNextRunData run] ∧
      (loadNextBitstreamIfNew platform config run.1 = .error fault ∨
        setupNextRunData platform.data m.allReuseLinks
          ⟨m.run, m.scheduledNodeNames⟩ run.2 = .error fault)) ∨
    ∃ names current s,
      loadNextBitstreamIfNew platform config run.1 = .ok () ∧
      setupNextRunData platform.data m.allReuseLinks
        ⟨m.run, m.scheduledNodeNames⟩ run.2 = .ok (names, current, s) ∧
      setupNextRun platform config m =
        .ok (setUpFor m run rest names current s) := by
  have hfront : readAt (run :: rest) 0 = .ok run := rfl
  cases hload : loadNextBitstreamIfNew platform config run.1 with
  | error fault =>
      refine .inl ⟨fault, m.log (.setupNextRunData run), ?_, rfl, .inl rfl⟩
      simp [setupNextRun, hqueue, hfront, hload]
  | ok u =>
      cases hsetup : setupNextRunData platform.data m.allReuseLinks
          ⟨m.run, m.scheduledNodeNames⟩ run.2 with
      | error fault =>
          refine .inl ⟨fault, { m.log (.setupNextRunData run) with
            queryNodeRunsQueue := rest }, ?_, rfl, .inr rfl⟩
          simp [setupNextRun, hfront, hload, ExecutionManager.log, hsetup,
            hqueue]
      | ok r =>
          obtain ⟨names, current, s⟩ := r
          refine .inr ⟨names, current, s, rfl, rfl, ?_⟩
          simp [setupNextRun, hfront, hload, ExecutionManager.log, hsetup,
            hqueue, setUpFor]

/-- An execution throws, or the manager goes on with the data that it leaves. -/
theorem executeRun_cases (m : ExecutionManager) :
    (∃ fault m', executeRun platform m = .error ⟨fault, m'⟩ ∧
      m'.calls = m.calls ++ [.executeAndProcessResults m.queryNodes] ∧
      ((∃ calls, platform.accelerate calls m.queryNodes = .error fault) ∨
        ∃ resultSizes, executeAndProcessResults platform.data resultSizes
          m.scheduledNodeNames m.currentReuseLinks
          ⟨m.run, m.queryNodes, m.resultParameters⟩ = .error fault)) ∨
    ∃ resultSizes e,
      executeAndProcessResults platform.data resultSizes m.scheduledNodeNames
        m.currentReuseLinks ⟨m.run, m.queryNodes, m.resultParameters⟩ =
          .ok e ∧
      e.scheduledNodeNames = m.scheduledNodeNames ∧
      executeRun platform m = .ok
        { m with
          calls := m.calls ++ [.executeAndProcessResults m.queryNodes]
          run := e.run } := by
  cases hrun : platform.accelerate
      (m.log (.executeAndProcessResults m.queryNodes)).calls m.queryNodes with
  | error fault =>
      refine .inl ⟨fault, m.log (.executeAndProcessResults m.queryNodes), ?_,
        rfl, .inl ⟨_, hrun⟩⟩
      simp only [executeRun, ExecutionManager.log] at hrun ⊢
      simp only [hrun, orThrow_error, managed_error_bind]
  | ok resultSizes =>
      cases hresults : executeAndProcessResults platform.data resultSizes
          m.scheduledNodeNames m.currentReuseLinks
          ⟨m.run, m.queryNodes, m.resultParameters⟩ with
      | error fault =>
          refine .inl ⟨fault, m.log (.executeAndProcessResults m.queryNodes),
            ?_, rfl, .inr ⟨resultSizes, hresults⟩⟩
          simp only [executeRun, ExecutionManager.log] at hrun ⊢
          simp only [hrun, hresults, orThrow_ok, orThrow_error,
            managed_ok_bind, managed_error_bind]
      | ok e =>
          refine .inr ⟨resultSizes, e, hresults, ?_, ?_⟩
          · simp only [executeAndProcessResults, bind_eq_ok,
              Except.ok.injEq] at hresults
            obtain ⟨_, -, _, -, rfl⟩ := hresults
            rfl
          · simp only [executeRun, ExecutionManager.log] at hrun ⊢
            simp only [hrun, hresults, orThrow_ok, managed_ok_bind]

/-- The checks between set-up and execution. -/
theorem executeState_of_valid {valid : Bool} (hnodes : m.queryNodes ≠ [])
    (hvalid : isRunValid m.queryNodes = .ok valid) :
    ExecuteState.execute platform m =
      if valid then
        executeRun platform ((m.log (.isRunReadyForExecution true)).log
          (.isRunValid m.queryNodes true)) >>= fun m =>
            .ok (.setupNodesState, m)
      else
        .error ⟨.runtimeError "Not implemented",
          (m.log (.isRunReadyForExecution true)).log
            (.isRunValid m.queryNodes false)⟩ := by
  have hready : m.queryNodes.isEmpty = false := by
    rwa [List.isEmpty_eq_false_iff]
  cases valid <;>
    simp [ExecuteState.execute, isRunReadyForExecution, isCurrentRunValid,
      ExecutionManager.log, hready, hvalid]

/-- A run that is set up is found invalid, or its execution throws, or the
manager goes on with the data that the execution leaves. -/
theorem executeState_cases (hnodes : m.queryNodes ≠ []) :
    (∃ m', isRunValid m.queryNodes = .ok false ∧
      ExecuteState.execute platform m =
        .error ⟨.runtimeError "Not implemented", m'⟩ ∧
      m'.calls = m.calls ++ [.isRunReadyForExecution true,
        .isRunValid m.queryNodes false]) ∨
    isRunValid m.queryNodes = .ok true ∧
      ((∃ fault m', ExecuteState.execute platform m = .error ⟨fault, m'⟩ ∧
        m'.calls = m.calls ++ [.isRunReadyForExecution true,
          .isRunValid m.queryNodes true,
          .executeAndProcessResults m.queryNodes] ∧
        ((∃ calls, platform.accelerate calls m.queryNodes = .error fault) ∨
          ∃ resultSizes, executeAndProcessResults platform.data resultSizes
            m.scheduledNodeNames m.currentReuseLinks
            ⟨m.run, m.queryNodes, m.resultParameters⟩ = .error fault)) ∨
      ∃ resultSizes e,
        executeAndProcessResults platform.data resultSizes
          m.scheduledNodeNames m.currentReuseLinks
          ⟨m.run, m.queryNodes, m.resultParameters⟩ = .ok e ∧
        e.scheduledNodeNames = m.scheduledNodeNames ∧
        ExecuteState.execute platform m = .ok (.setupNodesState,
          { m with
            calls := m.calls ++ [.isRunReadyForExecution true,
              .isRunValid m.queryNodes true,
              .executeAndProcessResults m.queryNodes]
            run := e.run })) := by
  obtain ⟨valid, hvalid, -⟩ := isRunValid_total m.queryNodes
  have hstate := executeState_of_valid platform hnodes hvalid
  cases valid with
  | false =>
      rw [if_neg Bool.false_ne_true] at hstate
      refine .inl ⟨_, hvalid, hstate, ?_⟩
      simp [ExecutionManager.log]
  | true =>
      rw [if_pos rfl] at hstate
      refine .inr ⟨hvalid, ?_⟩
      rcases executeRun_cases platform
        ((m.log (.isRunReadyForExecution true)).log
          (.isRunValid m.queryNodes true)) with
        ⟨fault, m', hthrew, hcalls, hreason⟩ |
          ⟨resultSizes, e, hresults, hnames, hrun⟩
      · rw [hthrew] at hstate
        refine .inl ⟨fault, m', hstate, ?_, hreason⟩
        simp [hcalls, ExecutionManager.log]
      · rw [hrun] at hstate
        refine .inr ⟨resultSizes, e, hresults, hnames, ?_⟩
        simp [hstate, ExecutionManager.log]

theorem executeWhileBusy_of_ok {state state' : State} {m' : ExecutionManager}
    (hbusy : m.busyFlag = true)
    (h : state.execute platform config m = .ok (state', m')) (fuel : Nat) :
    executeWhileBusy platform config (fuel + 1) state m =
      executeWhileBusy platform config fuel state' m' := by
  rw [executeWhileBusy, if_pos hbusy, h]

theorem executeWhileBusy_of_error {state : State} {thrown : Thrown}
    (hbusy : m.busyFlag = true)
    (h : state.execute platform config m = .error thrown) (fuel : Nat) :
    executeWhileBusy platform config (fuel + 1) state m = .error thrown := by
  rw [executeWhileBusy, if_pos hbusy, h]

/-- With an empty queue the manager finishes. -/
theorem executeWhileBusy_finished (hqueue : m.queryNodeRunsQueue = [])
    (hbusy : m.busyFlag = true) (hgraph : m.unscheduledGraph = [])
    (fuel : Nat) :
    executeWhileBusy platform config (fuel + 3) .setupNodesState m =
      .ok (.scheduleState, { m with
        calls := m.calls ++ [.isARunScheduled false,
          .isUnscheduledNodesGraphEmpty true, .setFinishedFlag]
        busyFlag := false }) := by
  have hsetup : State.setupNodesState.execute platform config m =
      .ok (.scheduleState, m.log (.isARunScheduled false)) := by
    simp [State.execute, SetupNodesState.execute, isARunScheduled, hqueue]
  rw [executeWhileBusy_of_ok platform config hbusy hsetup]
  have hschedule : State.scheduleState.execute platform config
      (m.log (.isARunScheduled false)) = .ok (.scheduleState, { m with
        calls := m.calls ++ [.isARunScheduled false,
          .isUnscheduledNodesGraphEmpty true, .setFinishedFlag]
        busyFlag := false }) := by
    simp [State.execute, ScheduleState.execute, isUnscheduledNodesGraphEmpty,
      setFinishedFlag, ExecutionManager.log, hgraph]
  rw [executeWhileBusy_of_ok platform config
    (m := m.log (.isARunScheduled false)) hbusy hschedule, executeWhileBusy]
  simp

/-- One run: something throws, or the run is set up, valid and executed. -/
theorem executeWhileBusy_round (hqueue : m.queryNodeRunsQueue = run :: rest)
    (hbusy : m.busyFlag = true) (hnonempty : run.2 ≠ []) (fuel : Nat) :
    (∃ thrown ending,
      executeWhileBusy platform config (fuel + 2) .setupNodesState m =
        .error thrown ∧
      Ending platform config m.allReuseLinks ⟨m.run, m.scheduledNodeNames⟩
        (run :: rest) ending (some thrown.fault) ∧
      thrown.manager.calls = m.calls ++ ending) ∨
    ∃ names current s resultSizes e m',
      loadNextBitstreamIfNew platform config run.1 = .ok () ∧
      setupNextRunData platform.data m.allReuseLinks
        ⟨m.run, m.scheduledNodeNames⟩ run.2 = .ok (names, current, s) ∧
      isRunValid s.queryNodes = .ok true ∧
      executeAndProcessResults platform.data resultSizes names current s =
        .ok e ∧
      executeWhileBusy platform config (fuel + 2) .setupNodesState m =
        executeWhileBusy platform config fuel .setupNodesState m' ∧
      m'.calls = m.calls ++ runCalls (run, s.queryNodes) ∧
      m'.queryNodeRunsQueue = rest ∧ m'.busyFlag = true ∧
      m'.unscheduledGraph = m.unscheduledGraph ∧
      m'.allReuseLinks = m.allReuseLinks ∧
      e = ⟨m'.run, m'.scheduledNodeNames⟩ := by
  have hsetup : State.setupNodesState.execute platform config m =
      setupNextRun platform config (m.log (.isARunScheduled true)) >>=
        fun m => .ok (.executeState, m) := by
    simp [State.execute, SetupNodesState.execute, isARunScheduled, hqueue]
  rcases setupNextRun_cases platform config
    (m := m.log (.isARunScheduled true)) hqueue with
    ⟨fault, m', hthrew, hcalls, hreason⟩ |
      ⟨names, current, s, hloaded, hdata, hok⟩
  · rw [hthrew] at hsetup
    rw [executeWhileBusy_of_error platform config hbusy hsetup]
    refine .inl ⟨_, _, rfl, .setupThrew hreason, ?_⟩
    simp [hcalls, ExecutionManager.log]
  · rw [hok, managed_ok_bind] at hsetup
    rw [executeWhileBusy_of_ok platform config hbusy hsetup]
    have hne : (setUpFor (m.log (.isARunScheduled true)) run rest names current
        s).queryNodes ≠ [] := by
      have hlength := setup_queryNodes_length hdata
      have hpos := List.length_pos_iff.mpr hnonempty
      exact List.ne_nil_of_length_pos
        (show 0 < s.queryNodes.length by omega)
    have hbusy' : (setUpFor (m.log (.isARunScheduled true)) run rest names
        current s).busyFlag = true := hbusy
    rcases executeState_cases platform hne with ⟨m', hvalid, hstate, hcalls⟩ |
        ⟨hvalid, ⟨fault, m', hstate, hcalls, hreason⟩ |
          ⟨resultSizes, e, hresults, hnames, hstate⟩⟩
    · rw [executeWhileBusy_of_error platform config hbusy'
        (show State.executeState.execute platform config _ = _ from hstate)]
      refine .inl ⟨_, _, rfl, .notValid hdata hvalid, ?_⟩
      simp [hcalls, setUpFor, ExecutionManager.log]
    · rw [executeWhileBusy_of_error platform config hbusy'
        (show State.executeState.execute platform config _ = _ from hstate)]
      refine .inl ⟨_, _, rfl, .executionThrew hdata hvalid hreason, ?_⟩
      simp [hcalls, setUpFor, ExecutionManager.log, runCalls]
    · rw [executeWhileBusy_of_ok platform config hbusy'
        (show State.executeState.execute platform config _ = _ from hstate)]
      refine .inr ⟨names, current, s, resultSizes, e, _, hloaded, hdata, hvalid,
        hresults, rfl, ?_, rfl, hbusy, rfl, rfl, ?_⟩
      · simp [setUpFor, ExecutionManager.log, runCalls]
      · cases e
        simp only [setUpFor] at hnames
        simp [setUpFor, hnames]

/-- From a state in which the next run is to be set up, an execution goes
through the queue. -/
theorem executeWhileBusy_runs (queue : List QueryNodeRun)
    (hqueue : m.queryNodeRunsQueue = queue) (hbusy : m.busyFlag = true)
    (hgraph : m.unscheduledGraph = []) (hnodes : ∀ run ∈ queue, run.2 ≠ [])
    {fuel : Nat} (hfuel : 2 * queue.length + 2 < fuel) :
    ∃ executed rest ending e,
      queue = executed.map (·.1) ++ rest ∧
      RunsExecuted platform config m.allReuseLinks
        ⟨m.run, m.scheduledNodeNames⟩ executed e ∧
      Ending platform config m.allReuseLinks e rest ending
        (faultOf (executeWhileBusy platform config fuel .setupNodesState m)) ∧
      (managerOf
        (executeWhileBusy platform config fuel .setupNodesState m)).calls =
          m.calls ++ executed.flatMap runCalls ++ ending ∧
      ∀ state m',
        executeWhileBusy platform config fuel .setupNodesState m =
          .ok (state, m') →
        state = .scheduleState ∧ m'.busyFlag = false ∧
          e = ⟨m'.run, m'.scheduledNodeNames⟩ := by
  induction queue generalizing m fuel with
  | nil =>
      obtain ⟨k, rfl⟩ : ∃ k, fuel = k + 3 := ⟨fuel - 3, by omega⟩
      rw [executeWhileBusy_finished platform config hqueue hbusy hgraph]
      refine ⟨[], [], _, _, rfl, .nil _, .finished, by simp [managerOf], ?_⟩
      intro state m' h
      simp only [Except.ok.injEq, Prod.mk.injEq] at h
      obtain ⟨rfl, rfl⟩ := h
      exact ⟨rfl, rfl, rfl⟩
  | cons run rest ih =>
      obtain ⟨k, rfl⟩ : ∃ k, fuel = k + 2 := ⟨fuel - 2, by omega⟩
      have hk : 2 * rest.length + 2 < k := by
        rw [List.length_cons] at hfuel
        omega
      rcases executeWhileBusy_round platform config hqueue hbusy
        (hnodes run List.mem_cons_self) k with
        ⟨thrown, ending, hrun, hending, hcalls⟩ |
          ⟨names, current, s, resultSizes, e, m', hloaded, hsetup, hvalid,
            hexecuted, hrun, hcalls, hqueue', hbusy', hgraph', hlinks', he⟩
      · rw [hrun]
        refine ⟨[], run :: rest, ending, _, rfl, .nil _, hending, ?_, ?_⟩
        · simpa [managerOf] using hcalls
        · intro state m' h
          cases h
      · rw [hrun]
        obtain ⟨executed, left, ending, last, hsplit, hruns, hending, hall,
          hok⟩ := ih hqueue' hbusy' (hgraph'.trans hgraph)
            (fun r hr => hnodes r (List.mem_cons_of_mem run hr)) hk
        rw [hlinks', ← he] at hruns
        rw [hlinks'] at hending
        refine ⟨(run, s.queryNodes) :: executed, left, ending, last, ?_,
          .cons hloaded hsetup hvalid hexecuted hruns, hending, ?_, hok⟩
        · rw [hsplit]
          rfl
        · rw [hall, hcalls]
          simp only [List.flatMap_cons, List.append_assoc]

end Order

/-- Whole-execution order.  From the schedule state a plan is scheduled once;
then, in the order of the queue, each run is set up, checked and executed, in
the state that the runs before it have left, until the queue is empty and the
manager is not busy any more.  Only a method that throws ends it earlier: the
set-up of the next run, the check that finds it invalid, or its execution. -/
theorem runs_executed_in_order (platform : Platform) (config : Config)
    (graph : List NodeId) (m : ExecutionManager) (schedule : RunsState)
    (fuel : Nat) (hgraph : graph ≠ [])
    (hschedule : findAcceleratedQueryNodeSets config.library
      config.schedulerFuel m.run.heap graph ∅ = .ok schedule)
    (hnodes : ∀ run ∈ schedule.queryNodeRunsQueue, run.2 ≠ [])
    (hfuel : 2 * schedule.queryNodeRunsQueue.length + 3 < fuel) :
    ∃ executed rest ending e,
      schedule.queryNodeRunsQueue = executed.map (·.1) ++ rest ∧
      RunsExecuted platform config schedule.linkedNodes
        ⟨{ m.run with heap := schedule.heap }, m.scheduledNodeNames⟩
        executed e ∧
      Ending platform config schedule.linkedNodes e rest ending
        (faultOf (execute platform config fuel graph .scheduleState m)) ∧
      (managerOf (execute platform config fuel graph .scheduleState m)).calls =
        m.calls ++ [.isUnscheduledNodesGraphEmpty false,
          .scheduleUnscheduledNodes] ++ executed.flatMap runCalls ++ ending ∧
      ∀ state m',
        execute platform config fuel graph .scheduleState m =
          .ok (state, m') →
        state = .scheduleState ∧ m'.busyFlag = false ∧
          e = ⟨m'.run, m'.scheduledNodeNames⟩ := by
  obtain ⟨k, rfl⟩ : ∃ k, fuel = k + 1 := ⟨fuel - 1, by omega⟩
  have hk : 2 * schedule.queryNodeRunsQueue.length + 2 < k := by omega
  have hempty : graph.isEmpty = false := by rwa [List.isEmpty_eq_false_iff]
  have hstate : State.scheduleState.execute platform config
      { m with unscheduledGraph := graph, busyFlag := true } =
        .ok (.setupNodesState,
          { m with
            unscheduledGraph := []
            busyFlag := true
            allReuseLinks := schedule.linkedNodes
            run := { m.run with heap := schedule.heap }
            queryNodeRunsQueue := schedule.queryNodeRunsQueue
            calls := m.calls ++ [.isUnscheduledNodesGraphEmpty false,
              .scheduleUnscheduledNodes] }) := by
    simp [State.execute, ScheduleState.execute, isUnscheduledNodesGraphEmpty,
      scheduleUnscheduledNodes, ExecutionManager.log, hempty, hschedule]
  rw [execute, executeWhileBusy_of_ok platform config
    (m := { m with unscheduledGraph := graph, busyFlag := true }) rfl hstate]
  exact executeWhileBusy_runs platform config
    (m := { m with
      unscheduledGraph := []
      busyFlag := true
      allReuseLinks := schedule.linkedNodes
      run := { m.run with heap := schedule.heap }
      queryNodeRunsQueue := schedule.queryNodeRunsQueue
      calls := m.calls ++ [.isUnscheduledNodesGraphEmpty false,
        .scheduleUnscheduledNodes] }) _ rfl rfl rfl hnodes hk

/-! ## The data behind an execution -/

section Data

variable {data : DataManager} {links : LinkedNodes}

/-- The runs behind the first one are executed in the state that it leaves. -/
theorem executedRuns_cons (run : QueryNodeRun) (runs : List QueryNodeRun)
    (resultSizes : Nat → List Int) (e : ExecutionState) (j : Nat) :
    executedRuns data links (run :: runs) resultSizes e (j + 1) =
      executedRuns data links [run] resultSizes e 1 >>= fun e' =>
        executedRuns data links runs (fun i => resultSizes (i + 1)) e' j := by
  induction j with
  | zero =>
      have hfirst : executedRuns data links (run :: runs) resultSizes e 1 =
          executedRuns data links [run] resultSizes e 1 := rfl
      rw [hfirst]
      cases executedRuns data links [run] resultSizes e 1 <;> rfl
  | succ j ih =>
      rw [executedRuns, ih]
      cases executedRuns data links [run] resultSizes e 1 <;> rfl

/-- What the states have executed is what `executedRuns` computes, for some
counts of records: all that is known of the data behind runs holds of it. -/
theorem RunsExecuted.executedRuns {platform : Platform} {config : Config}
    {e last : ExecutionState}
    {executed : List (QueryNodeRun × List AcceleratedQueryNode)}
    (h : RunsExecuted platform config links e executed last)
    (rest : List QueryNodeRun) :
    ∃ resultSizes, QueryManager.executedRuns platform.data links
      (executed.map (·.1) ++ rest) resultSizes e executed.length = .ok last := by
  induction h with
  | nil e => exact ⟨fun _ => [], rfl⟩
  | @cons e e' last run executed names current s sizes _ setup _ done _ ih =>
      obtain ⟨resultSizes, htail⟩ := ih
      refine ⟨fun j => j.casesOn sizes resultSizes, ?_⟩
      have hfirst : QueryManager.executedRuns platform.data links [run]
          (fun j => j.casesOn sizes resultSizes) e 1 = .ok e' := by
        simp [QueryManager.executedRuns, setup, done]
      rw [List.map_cons, List.cons_append, List.length_cons, executedRuns_cons,
        hfirst, ok_bind]
      exact htail

end Data

/-! ### A filter and a sort in two runs -/

/-- The accelerator returns four records on every stream. -/
def fourRecords : Platform where
  data := tenRows
  loadBitstreamIfNew := fun _ _ => .ok ()
  accelerate := fun _ _ => .ok (List.replicate 16 4)

def filterThenSortConfig : Config where
  library := libraryOf [[.kFilter], [.kLinearSort]]
  requiredMemorySpace := [("bitstream", 4096)]
  schedulerFuel := 16

def filterThenSortManager : ExecutionManager where
  unscheduledGraph := []
  busyFlag := false
  allReuseLinks := ∅
  currentReuseLinks := ∅
  run := (ExecutionState.initial filterThenSortPlan.heap).run
  queryNodeRunsQueue := []
  resultParameters := ∅
  queryNodes := []
  scheduledNodeNames := []
  calls := []

/-- Both runs are executed. -/
theorem runs_executed_in_order_filterThenSort :
    ∃ (schedule : RunsState)
      (executed : List (QueryNodeRun × List AcceleratedQueryNode)),
      findAcceleratedQueryNodeSets
        filterThenSortConfig.library 16 filterThenSortPlan.heap
        filterThenSortPlan.roots ∅ = .ok schedule ∧
      executed.length = 2 ∧
      executed.map (·.1) = schedule.queryNodeRunsQueue ∧
      (managerOf (execute fourRecords filterThenSortConfig 8
        filterThenSortPlan.roots .scheduleState filterThenSortManager)).calls =
        [.isUnscheduledNodesGraphEmpty false, .scheduleUnscheduledNodes] ++
          executed.flatMap runCalls ++
          [.isARunScheduled false, .isUnscheduledNodesGraphEmpty true,
            .setFinishedFlag] := by
  have hfault : faultOf (execute fourRecords filterThenSortConfig 8
      filterThenSortPlan.roots .scheduleState filterThenSortManager) = none := by
    decide +kernel
  have hchecks : ((findAcceleratedQueryNodeSets filterThenSortConfig.library 16
      filterThenSortPlan.heap filterThenSortPlan.roots ∅).toOption.any fun o =>
        decide (o.queryNodeRunsQueue.length = 2) &&
        o.queryNodeRunsQueue.all fun run => decide (run.2 ≠ [])) = true := by
    decide +kernel
  simp only [Option.any_eq_true, toOption_eq_some, Bool.and_eq_true,
    decide_eq_true_eq, List.all_eq_true] at hchecks
  obtain ⟨schedule, hrun, hlength, hnodes⟩ := hchecks
  obtain ⟨executed, rest, ending, e, hsplit, -, hending, hcalls, -⟩ :=
    runs_executed_in_order fourRecords filterThenSortConfig
      filterThenSortPlan.roots filterThenSortManager schedule 8 (by decide)
      hrun hnodes (by omega)
  rw [hfault] at hending
  cases hending with
  | finished =>
      rw [List.append_nil] at hsplit
      refine ⟨schedule, executed, hrun, ?_, hsplit.symm, hcalls⟩
      rw [← hlength, hsplit, List.length_map]

end Orkhestra.Ports.ExecutionOrder
