import Orkhestra.Ports.ExecutionOrder
import Orkhestra.Ports.PlanExecution

/-!
# The execution manager and its data

`ExecutionManager::Execute` over files and memory: the states are those of
`Orkhestra.Ports.ExecutionOrder`, the methods that touch data are those of
`Orkhestra.Ports.DataPath`, and the accelerator has the modules of the bitstream
that has been loaded last.

The loop over the states is compared with one fold over the runs of the queue
(`checkedRun`).
-/

namespace Orkhestra.Ports.StoredExecution

open Orkhestra.Verified.Checked
open Orkhestra.Ports.QuerySchedulingData
open Orkhestra.Ports.NodeScheduler
open Orkhestra.Ports.SchedulePartition
open Orkhestra.Ports.ModulePlacement
open Orkhestra.Ports.PortVectors
open Orkhestra.Ports.QueryManager (ExecutionState SetupState)
open Orkhestra.Ports.StreamLanes
open Orkhestra.Ports.ElasticModuleChecker
open Orkhestra.Ports.TableManager (Conversions Storage)
open Orkhestra.Ports.Accelerator
open Orkhestra.Ports.PlanMeaning
open Orkhestra.Ports.PlanExecution
open Orkhestra.Ports.ExecutionOrder (Call Config ExecutionManager Managed State
  lookupAt isARunScheduled isRunReadyForExecution isCurrentRunValid)

/-! ## The data -/

/-- `loaded_bitstream_` and `loaded_register_space_size_`. -/
structure LoadedBitstream where
  name : String
  registerSpaceSize : Int
  deriving DecidableEq, Repr

/-- What stands behind the manager.  A bitstream has the modules of `modulesOf`;
`load` is what the platform does when one is loaded. -/
structure Device (V : Type) where
  conversions : Conversions
  accelerator : Accelerator V
  modulesOf : String → ConfigurableModulesVector
  load : String → Int → Outcome Unit

structure StoredManager where
  manager : ExecutionManager
  storage : Storage
  loaded : LoadedBitstream

/-- An exception and the manager that it leaves. -/
structure Thrown where
  fault : Fault
  manager : StoredManager

/-- Result of a method of the manager. -/
abbrev Stored := Except Thrown

def orThrow {α : Type} (m : StoredManager) (x : Outcome α) : Stored α :=
  match x with
  | .ok a => .ok a
  | .error fault => .error ⟨fault, m⟩

/-- A method that does not touch the data. -/
def StoredManager.lift {α : Type} (m : StoredManager) (x : Managed α) :
    Stored α :=
  match x with
  | .ok a => .ok a
  | .error thrown => .error ⟨thrown.fault, { m with manager := thrown.manager }⟩

section Stored

variable {α β : Type} (m : StoredManager)

@[simp] theorem orThrow_ok (a : α) : orThrow m (.ok a) = .ok a := rfl

@[simp] theorem orThrow_error (fault : Fault) :
    (orThrow m (.error fault) : Stored α) = .error ⟨fault, m⟩ := rfl

@[simp] theorem lift_ok (a : α) : m.lift (.ok a) = .ok a := rfl

@[simp] theorem stored_ok_bind (a : α) (f : α → Stored β) :
    ((Except.ok a : Stored α) >>= f) = f a := rfl

@[simp] theorem stored_error_bind (thrown : Thrown) (f : α → Stored β) :
    ((Except.error thrown : Stored α) >>= f) = .error thrown := rfl

end Stored

def StoredManager.log (m : StoredManager) (call : Call) : StoredManager :=
  { m with manager := m.manager.log call }

/-! ## The methods -/

section Methods

variable {V : Type} [Inhabited V] (d : Device V) (config : Config)

/-- `MemoryManager::LoadBitstreamIfNew`. -/
def loadBitstreamIfNew (bitstreamName : String) (registerSpaceSize : Int)
    (loaded : LoadedBitstream) : Outcome LoadedBitstream :=
  if bitstreamName ≠ loaded.name ∨
      registerSpaceSize ≠ loaded.registerSpaceSize then do
    d.load bitstreamName registerSpaceSize
    .ok ⟨bitstreamName, registerSpaceSize⟩
  else .ok loaded

def loadNextBitstreamIfNew (modules : ConfigurableModulesVector)
    (loaded : LoadedBitstream) : Outcome LoadedBitstream := do
  let bitstream ←
    lookupAt config.library.supportedAcceleratorBitstreams modules
  let memorySpace ← lookupAt config.requiredMemorySpace bitstream
  loadBitstreamIfNew d bitstream memorySpace loaded

def setupNextRunData (m : StoredManager) : Stored StoredManager := do
  let next ← orThrow m (readAt m.manager.queryNodeRunsQueue 0)
  let m := m.log (.setupNextRunData next)
  let loaded ←
    orThrow m (loadNextBitstreamIfNew d config next.1 m.loaded)
  let m := { m with
    loaded := loaded
    manager := { m.manager with
      queryNodeRunsQueue := m.manager.queryNodeRunsQueue.tail } }
  let (scheduledNodeNames, currentReuseLinks, s, storage) ← orThrow m
    (DataPath.setupNextRunData d.conversions m.manager.allReuseLinks
      ⟨m.manager.run, m.manager.scheduledNodeNames⟩ m.storage next.2)
  .ok { m with
    storage := storage
    manager := { m.manager with
      scheduledNodeNames := scheduledNodeNames
      currentReuseLinks := currentReuseLinks
      run := s.run
      queryNodes := s.queryNodes
      resultParameters := s.resultParameters } }

/-- The registers are written first; without a bitstream there are none. -/
def accelerateAndProcessResults (loaded : LoadedBitstream)
    (scheduledNodeNames : List String) (currentReuseLinks : LinkedNodes)
    (s : SetupState) (storage : Storage) : Outcome (ExecutionState × Storage) :=
  if loaded.registerSpaceSize = 0 then
    .error (.runtimeError "No bitstream loaded!")
  else
    DataPath.executeAndProcessResults d.conversions d.accelerator
      (d.modulesOf loaded.name) scheduledNodeNames currentReuseLinks s storage

def executeAndProcessResults (m : StoredManager) : Stored StoredManager := do
  let m := m.log (.executeAndProcessResults m.manager.queryNodes)
  let (e, storage) ← orThrow m (accelerateAndProcessResults d m.loaded
    m.manager.scheduledNodeNames m.manager.currentReuseLinks
    ⟨m.manager.run, m.manager.queryNodes, m.manager.resultParameters⟩ m.storage)
  .ok { m with
    storage := storage
    manager := { m.manager with run := e.run } }

/-! ## The states -/

def ScheduleState.execute (m : StoredManager) :
    Stored (State × StoredManager) := do
  let (state, manager) ←
    m.lift (ExecutionOrder.ScheduleState.execute config m.manager)
  .ok (state, { m with manager := manager })

def SetupNodesState.execute (m : StoredManager) :
    Stored (State × StoredManager) := do
  let (scheduled, manager) := isARunScheduled m.manager
  let m := { m with manager := manager }
  if !scheduled then .ok (.scheduleState, m)
  else do
    let m ← setupNextRunData d config m
    .ok (.executeState, m)

def ExecuteState.execute (m : StoredManager) :
    Stored (State × StoredManager) := do
  let (ready, manager) := isRunReadyForExecution m.manager
  let m := { m with manager := manager }
  if ready then do
    let (valid, manager) ← m.lift (isCurrentRunValid m.manager)
    let m := { m with manager := manager }
    if !valid then .error ⟨.runtimeError "Not implemented", m⟩
    else do
      let m ← executeAndProcessResults d m
      .ok (.setupNodesState, m)
  else .error ⟨.runtimeError "No nodes ready to execute!", m⟩

def executeState (state : State) (m : StoredManager) :
    Stored (State × StoredManager) :=
  match state with
  | .scheduleState => ScheduleState.execute config m
  | .setupNodesState => SetupNodesState.execute d config m
  | .executeState => ExecuteState.execute d m

/-- The loop of `ExecutionManager::Execute`, at most `fuel` times. -/
def executeWhileBusy :
    Nat → State → StoredManager → Stored (State × StoredManager)
  | 0, _, m => .error ⟨.outOfFuel, m⟩
  | fuel + 1, state, m =>
      if m.manager.busyFlag then
        match executeState d config state m with
        | .ok (state, m) => executeWhileBusy fuel state m
        | .error thrown => .error thrown
      else .ok (state, m)

/-- `ExecutionManager::Execute`. -/
def execute (fuel : Nat) (executionGraph : List NodeId) (state : State)
    (m : StoredManager) : Stored (State × StoredManager) :=
  executeWhileBusy d config fuel state { m with
    manager := { m.manager with
      unscheduledGraph := executionGraph
      busyFlag := true } }

/-! ## The runs of a queue -/

/-- What is left of a manager between two runs. -/
structure Progress where
  state : ExecutionState
  storage : Storage
  loaded : LoadedBitstream

/-- A run that has been set up. -/
structure SetUpRun where
  loaded : LoadedBitstream
  scheduledNodeNames : List String
  currentReuseLinks : LinkedNodes
  setUp : SetupState
  storage : Storage

def setUpRun (links : LinkedNodes) (p : Progress) (run : QueryNodeRun) :
    Outcome SetUpRun := do
  let loaded ← loadNextBitstreamIfNew d config run.1 p.loaded
  let (names, current, s, storage) ← DataPath.setupNextRunData d.conversions
    links p.state p.storage run.2
  .ok ⟨loaded, names, current, s, storage⟩

def executeSetUp (r : SetUpRun) : Outcome Progress :=
  if r.setUp.queryNodes = [] then
    .error (.runtimeError "No nodes ready to execute!")
  else do
    let valid ← isRunValid r.setUp.queryNodes
    if valid then do
      let (e, storage) ← accelerateAndProcessResults d r.loaded
        r.scheduledNodeNames r.currentReuseLinks r.setUp r.storage
      .ok ⟨e, storage, r.loaded⟩
    else .error (.runtimeError "Not implemented")

/-- One run: its bitstream is loaded, its nodes are set up, checked and
executed. -/
def checkedRun (links : LinkedNodes) (p : Progress) (run : QueryNodeRun) :
    Outcome Progress := do
  let r ← setUpRun d config links p run
  executeSetUp d r

end Methods

def StoredManager.progress (m : StoredManager) : Progress :=
  ⟨⟨m.manager.run, m.manager.scheduledNodeNames⟩, m.storage, m.loaded⟩

/-- The data behind an execution. -/
def outcome (r : Stored (State × StoredManager)) : Outcome Progress :=
  match r with
  | .ok (_, m) => .ok m.progress
  | .error thrown => .error thrown.fault

/-! ## One run -/

section SetUp

variable {V : Type} (d : Device V) (config : Config) {m : StoredManager}
  {run : QueryNodeRun} {rest : List QueryNodeRun}

/-- The manager behind the set-up of a run. -/
def setUpFor (m : StoredManager) (run : QueryNodeRun)
    (rest : List QueryNodeRun) (r : SetUpRun) : StoredManager where
  storage := r.storage
  loaded := r.loaded
  manager :=
    { m.manager with
      calls := m.manager.calls ++ [.setupNextRunData run]
      queryNodeRunsQueue := rest
      scheduledNodeNames := r.scheduledNodeNames
      currentReuseLinks := r.currentReuseLinks
      run := r.setUp.run
      queryNodes := r.setUp.queryNodes
      resultParameters := r.setUp.resultParameters }

theorem setupNextRunData_of_ok
    (hqueue : m.manager.queryNodeRunsQueue = run :: rest) {r : SetUpRun}
    (hr : setUpRun d config m.manager.allReuseLinks m.progress run = .ok r) :
    setupNextRunData d config m = .ok (setUpFor m run rest r) := by
  simp only [setUpRun, bind_eq_ok, Except.ok.injEq] at hr
  obtain ⟨loaded, hloaded, ⟨names, current, s, storage⟩, hsetup, rfl⟩ := hr
  have hfirst : readAt m.manager.queryNodeRunsQueue 0 = .ok run := by
    rw [hqueue]
    rfl
  have hloaded' : loadNextBitstreamIfNew d config run.1
      (m.log (.setupNextRunData run)).loaded = .ok loaded := hloaded
  unfold setupNextRunData
  rw [hfirst, orThrow_ok, stored_ok_bind]
  dsimp only
  rw [hloaded', orThrow_ok, stored_ok_bind]
  dsimp only [StoredManager.progress] at hsetup
  dsimp only [StoredManager.log, ExecutionManager.log]
  rw [hsetup, orThrow_ok, stored_ok_bind, hqueue]
  rfl

theorem setupNextRunData_of_error
    (hqueue : m.manager.queryNodeRunsQueue = run :: rest) {fault : Fault}
    (hr : setUpRun d config m.manager.allReuseLinks m.progress run =
      .error fault) :
    ∃ m', setupNextRunData d config m = .error ⟨fault, m'⟩ := by
  have hfirst : readAt m.manager.queryNodeRunsQueue 0 = .ok run := by
    rw [hqueue]
    rfl
  unfold setupNextRunData
  rw [hfirst, orThrow_ok, stored_ok_bind]
  dsimp only
  rw [setUpRun, bind_eq_error] at hr
  rcases hr with hload | ⟨loaded, hloaded, hr⟩
  · have hload' : loadNextBitstreamIfNew d config run.1
        (m.log (.setupNextRunData run)).loaded = .error fault := hload
    exact ⟨_, by rw [hload', orThrow_error, stored_error_bind]⟩
  · have hloaded' : loadNextBitstreamIfNew d config run.1
        (m.log (.setupNextRunData run)).loaded = .ok loaded := hloaded
    rw [hloaded', orThrow_ok, stored_ok_bind]
    dsimp only [StoredManager.log, ExecutionManager.log]
    rw [bind_eq_error] at hr
    rcases hr with hsetup | ⟨setUp, -, hr⟩
    · dsimp only [StoredManager.progress] at hsetup
      exact ⟨_, by rw [hsetup, orThrow_error, stored_error_bind]⟩
    · cases hr

end SetUp

/-! ## The loop -/

section Loop

variable {V : Type} [Inhabited V] (d : Device V) (config : Config)
  {m : StoredManager} {run : QueryNodeRun} {rest : List QueryNodeRun}

theorem executeWhileBusy_of_ok {state state' : State} {m' : StoredManager}
    (hbusy : m.manager.busyFlag = true)
    (h : executeState d config state m = .ok (state', m')) (fuel : Nat) :
    executeWhileBusy d config (fuel + 1) state m =
      executeWhileBusy d config fuel state' m' := by
  rw [executeWhileBusy, if_pos hbusy, h]

theorem executeWhileBusy_of_error {state : State} {thrown : Thrown}
    (hbusy : m.manager.busyFlag = true)
    (h : executeState d config state m = .error thrown) (fuel : Nat) :
    executeWhileBusy d config (fuel + 1) state m = .error thrown := by
  rw [executeWhileBusy, if_pos hbusy, h]

/-- More rounds do not change an execution that has ended. -/
theorem executeWhileBusy_mono {fuel : Nat} {state state' : State}
    {m m' : StoredManager}
    (h : executeWhileBusy d config fuel state m = .ok (state', m'))
    (more : Nat) :
    executeWhileBusy d config (fuel + more) state m = .ok (state', m') := by
  induction fuel generalizing state m with
  | zero => cases h
  | succ fuel ih =>
      rw [Nat.succ_add, executeWhileBusy]
      rw [executeWhileBusy] at h
      by_cases hbusy : m.manager.busyFlag = true
      · rw [if_pos hbusy] at h ⊢
        cases hstate : executeState d config state m with
        | error thrown => simp [hstate] at h
        | ok next =>
            rw [hstate] at h
            exact ih h
      · rwa [if_neg hbusy] at h ⊢

/-- Without a graph and a queue the manager finishes. -/
theorem executeWhileBusy_nothing (hbusy : m.manager.busyFlag = true)
    (hgraph : m.manager.unscheduledGraph = []) (fuel : Nat) :
    outcome (executeWhileBusy d config (fuel + 2) .scheduleState m) =
      .ok m.progress := by
  have hschedule : executeState d config .scheduleState m =
      .ok (.scheduleState, { m with
        manager := { m.manager with
          calls := m.manager.calls ++ [.isUnscheduledNodesGraphEmpty true,
            .setFinishedFlag]
          busyFlag := false } }) := by
    simp [executeState, ScheduleState.execute,
      ExecutionOrder.ScheduleState.execute,
      ExecutionOrder.isUnscheduledNodesGraphEmpty,
      ExecutionOrder.setFinishedFlag, ExecutionManager.log, hgraph]
  rw [executeWhileBusy_of_ok d config hbusy hschedule, executeWhileBusy]
  simp [outcome, StoredManager.progress]

theorem executeWhileBusy_finished
    (hqueue : m.manager.queryNodeRunsQueue = [])
    (hbusy : m.manager.busyFlag = true)
    (hgraph : m.manager.unscheduledGraph = []) (fuel : Nat) :
    outcome (executeWhileBusy d config (fuel + 3) .setupNodesState m) =
      .ok m.progress := by
  have hsetup : executeState d config .setupNodesState m =
      .ok (.scheduleState, m.log (.isARunScheduled false)) := by
    simp [executeState, SetupNodesState.execute, isARunScheduled, hqueue,
      StoredManager.log]
  rw [executeWhileBusy_of_ok d config hbusy hsetup]
  exact executeWhileBusy_nothing d config
    (m := m.log (.isARunScheduled false)) hbusy hgraph fuel

/-- An execution of nodes that are set up, in a manager that keeps its queue. -/
def executedFrom (m : StoredManager) (p : Progress) : StoredManager where
  storage := p.storage
  loaded := p.loaded
  manager :=
    { m.manager with
      calls := m.manager.calls ++ [.isRunReadyForExecution true,
        .isRunValid m.manager.queryNodes true,
        .executeAndProcessResults m.manager.queryNodes]
      run := p.state.run }

theorem accelerated_names {loaded : LoadedBitstream} {names : List String}
    {links : LinkedNodes} {t : SetupState} {storage storage' : Storage}
    {e : ExecutionState}
    (h : accelerateAndProcessResults d loaded names links t storage =
      .ok (e, storage')) : e.scheduledNodeNames = names := by
  rw [accelerateAndProcessResults] at h
  split at h
  · cases h
  · simp only [DataPath.executeAndProcessResults, bind_eq_ok, Except.ok.injEq,
      Prod.mk.injEq] at h
    obtain ⟨-, -, -, -, -, -, rfl, -⟩ := h
    rfl

/-- The checks between set-up and execution. -/
theorem executeState_of_valid {valid : Bool} (hnodes : m.manager.queryNodes ≠ [])
    (hvalid : isRunValid m.manager.queryNodes = .ok valid) :
    executeState d config .executeState m =
      if valid then
        executeAndProcessResults d ((m.log (.isRunReadyForExecution true)).log
          (.isRunValid m.manager.queryNodes true)) >>= fun m =>
            .ok (.setupNodesState, m)
      else
        .error ⟨.runtimeError "Not implemented",
          (m.log (.isRunReadyForExecution true)).log
            (.isRunValid m.manager.queryNodes false)⟩ := by
  have hempty : m.manager.queryNodes.isEmpty = false := by
    rwa [List.isEmpty_eq_false_iff]
  cases valid <;>
    simp [executeState, ExecuteState.execute, isRunReadyForExecution,
      isCurrentRunValid, ExecutionManager.log, StoredManager.log, hempty, hvalid]

theorem executeState_of_ok {r : SetUpRun} {p : Progress}
    (hr : executeSetUp d r = .ok p) :
    executeState d config .executeState (setUpFor m run rest r) =
        .ok (.setupNodesState, executedFrom (setUpFor m run rest r) p) ∧
      p.state.scheduledNodeNames = r.scheduledNodeNames := by
  rw [executeSetUp] at hr
  split at hr
  · cases hr
  · next hne =>
      rw [bind_eq_ok] at hr
      obtain ⟨valid, hvalid, hr⟩ := hr
      cases valid with
      | false => cases hr
      | true =>
          simp only [if_true, bind_eq_ok, Except.ok.injEq] at hr
          obtain ⟨⟨e, storage⟩, hexecuted, rfl⟩ := hr
          refine ⟨?_, accelerated_names d hexecuted⟩
          rw [executeState_of_valid d config
            (m := setUpFor m run rest r) hne hvalid, if_pos rfl]
          simp [executeAndProcessResults, setUpFor, ExecutionManager.log,
            StoredManager.log, hexecuted, executedFrom]

theorem executeState_of_error {r : SetUpRun} {fault : Fault}
    (hr : executeSetUp d r = .error fault) :
    ∃ m', executeState d config .executeState (setUpFor m run rest r) =
      .error ⟨fault, m'⟩ := by
  rw [executeSetUp] at hr
  by_cases hnil : r.setUp.queryNodes = []
  · rw [if_pos hnil, Except.error.injEq] at hr
    subst hr
    refine ⟨(setUpFor m run rest r).log (.isRunReadyForExecution false), ?_⟩
    simp [executeState, ExecuteState.execute, isRunReadyForExecution, setUpFor,
      hnil, StoredManager.log]
  · obtain ⟨valid, hvalid, -⟩ := isRunValid_total r.setUp.queryNodes
    rw [if_neg hnil, hvalid, ok_bind] at hr
    rw [executeState_of_valid d config (m := setUpFor m run rest r) hnil hvalid]
    cases valid with
    | false =>
        rw [if_neg Bool.false_ne_true, Except.error.injEq] at hr
        subst hr
        exact ⟨_, rfl⟩
    | true =>
        rw [if_pos rfl, bind_eq_error] at hr
        rw [if_pos rfl]
        rcases hr with hthrew | ⟨p, -, hr⟩
        · unfold executeAndProcessResults
          dsimp only [setUpFor, StoredManager.log, ExecutionManager.log]
          rw [hthrew, orThrow_error, stored_error_bind, stored_error_bind]
          exact ⟨_, rfl⟩
        · cases hr

/-- One round through the set-up and the execution state is one run. -/
theorem executeWhileBusy_round
    (hqueue : m.manager.queryNodeRunsQueue = run :: rest)
    (hbusy : m.manager.busyFlag = true) (fuel : Nat) :
    (∃ fault m', checkedRun d config m.manager.allReuseLinks m.progress run =
        .error fault ∧
      executeWhileBusy d config (fuel + 2) .setupNodesState m =
        .error ⟨fault, m'⟩) ∨
    ∃ m', checkedRun d config m.manager.allReuseLinks m.progress run =
        .ok m'.progress ∧
      executeWhileBusy d config (fuel + 2) .setupNodesState m =
        executeWhileBusy d config fuel .setupNodesState m' ∧
      m'.manager.queryNodeRunsQueue = rest ∧ m'.manager.busyFlag = true ∧
      m'.manager.unscheduledGraph = m.manager.unscheduledGraph ∧
      m'.manager.allReuseLinks = m.manager.allReuseLinks := by
  have hstate : executeState d config .setupNodesState m =
      setupNextRunData d config (m.log (.isARunScheduled true)) >>=
        fun m => .ok (.executeState, m) := by
    simp [executeState, SetupNodesState.execute, isARunScheduled, hqueue,
      StoredManager.log]
  have hqueue' : (m.log (.isARunScheduled true)).manager.queryNodeRunsQueue =
      run :: rest := hqueue
  rw [checkedRun]
  cases hsetup : setUpRun d config m.manager.allReuseLinks m.progress run with
  | error fault =>
      obtain ⟨m', hthrew⟩ := setupNextRunData_of_error d config hqueue' hsetup
      rw [hthrew, stored_error_bind] at hstate
      exact .inl ⟨fault, m', rfl,
        executeWhileBusy_of_error d config hbusy hstate _⟩
  | ok r =>
      rw [setupNextRunData_of_ok d config hqueue' hsetup, stored_ok_bind]
        at hstate
      rw [executeWhileBusy_of_ok d config hbusy hstate, ok_bind]
      have hbusy' : (setUpFor (m.log (.isARunScheduled true)) run rest
          r).manager.busyFlag = true := hbusy
      cases hexecuted : executeSetUp d r with
      | error fault =>
          obtain ⟨m', hthrew⟩ := executeState_of_error d config hexecuted
          exact .inl ⟨fault, m', rfl,
            executeWhileBusy_of_error d config hbusy' hthrew _⟩
      | ok p =>
          obtain ⟨hok, hnames⟩ := executeState_of_ok d config hexecuted
          rw [executeWhileBusy_of_ok d config hbusy' hok]
          refine .inr ⟨_, ?_, rfl, rfl, hbusy, rfl, rfl⟩
          simp only [executedFrom, setUpFor, StoredManager.progress, ← hnames]

/-- An execution goes through the queue. -/
theorem executeWhileBusy_runs (queue : List QueryNodeRun)
    (hqueue : m.manager.queryNodeRunsQueue = queue)
    (hbusy : m.manager.busyFlag = true)
    (hgraph : m.manager.unscheduledGraph = []) {fuel : Nat}
    (hfuel : 2 * queue.length + 2 < fuel) :
    outcome (executeWhileBusy d config fuel .setupNodesState m) =
      queue.foldlM (checkedRun d config m.manager.allReuseLinks) m.progress := by
  induction queue generalizing m fuel with
  | nil =>
      obtain ⟨k, rfl⟩ : ∃ k, fuel = k + 3 := ⟨fuel - 3, by omega⟩
      exact executeWhileBusy_finished d config hqueue hbusy hgraph k
  | cons run rest ih =>
      obtain ⟨k, rfl⟩ : ∃ k, fuel = k + 2 := ⟨fuel - 2, by omega⟩
      have hk : 2 * rest.length + 2 < k := by
        rw [List.length_cons] at hfuel
        omega
      rw [List.foldlM_cons]
      rcases executeWhileBusy_round d config hqueue hbusy k with
        ⟨fault, m', hrun, hthrew⟩ |
          ⟨m', hrun, hround, hqueue', hbusy', hgraph', hlinks⟩
      · rw [hrun, hthrew]
        rfl
      · rw [hrun, hround, ok_bind, ← hlinks]
        exact ih hqueue' hbusy' (hgraph'.trans hgraph) hk

/-- The state that a schedule is executed from. -/
def Progress.scheduled (p : Progress) (o : RunsState) : Progress :=
  { p with state :=
    { p.state with run := { p.state.run with heap := o.heap } } }

/-- Behind the schedule. -/
theorem executeWhileBusy_scheduled {o : RunsState}
    (hbusy : m.manager.busyFlag = true)
    (hgraph : m.manager.unscheduledGraph ≠ [])
    (ho : findAcceleratedQueryNodeSets config.library config.schedulerFuel
      m.manager.run.heap m.manager.unscheduledGraph ∅ = .ok o) {fuel : Nat}
    (hfuel : 2 * o.queryNodeRunsQueue.length + 3 < fuel) :
    outcome (executeWhileBusy d config fuel .scheduleState m) =
      o.queryNodeRunsQueue.foldlM (checkedRun d config o.linkedNodes)
        (m.progress.scheduled o) := by
  obtain ⟨k, rfl⟩ : ∃ k, fuel = k + 1 := ⟨fuel - 1, by omega⟩
  have hempty : m.manager.unscheduledGraph.isEmpty = false := by
    rwa [List.isEmpty_eq_false_iff]
  obtain ⟨m', hm', hqueue, hbusy', hgraph', hlinks, hprogress⟩ :
      ∃ m', executeState d config .scheduleState m =
          .ok (.setupNodesState, m') ∧
        m'.manager.queryNodeRunsQueue = o.queryNodeRunsQueue ∧
        m'.manager.busyFlag = true ∧ m'.manager.unscheduledGraph = [] ∧
        m'.manager.allReuseLinks = o.linkedNodes ∧
        m'.progress = m.progress.scheduled o := by
    refine ⟨{ m with
      manager := { m.manager with
        unscheduledGraph := []
        run := { m.manager.run with heap := o.heap }
        allReuseLinks := o.linkedNodes
        queryNodeRunsQueue := o.queryNodeRunsQueue
        calls := m.manager.calls ++ [.isUnscheduledNodesGraphEmpty false,
          .scheduleUnscheduledNodes] } }, ?_, rfl, hbusy, rfl, rfl, rfl⟩
    simp [executeState, ScheduleState.execute,
      ExecutionOrder.ScheduleState.execute,
      ExecutionOrder.isUnscheduledNodesGraphEmpty,
      ExecutionOrder.scheduleUnscheduledNodes, ExecutionManager.log, hempty, ho]
  rw [executeWhileBusy_of_ok d config hbusy hm',
    executeWhileBusy_runs d config _ hqueue hbusy' hgraph' (by omega), hlinks,
    hprogress]

theorem executeWhileBusy_unscheduled {fault : Fault}
    (hbusy : m.manager.busyFlag = true)
    (hgraph : m.manager.unscheduledGraph ≠ [])
    (ho : findAcceleratedQueryNodeSets config.library config.schedulerFuel
      m.manager.run.heap m.manager.unscheduledGraph ∅ = .error fault)
    (fuel : Nat) :
    outcome (executeWhileBusy d config (fuel + 1) .scheduleState m) =
      .error fault := by
  have hempty : m.manager.unscheduledGraph.isEmpty = false := by
    rwa [List.isEmpty_eq_false_iff]
  have hthrew : ∃ m', executeState d config .scheduleState m =
      .error ⟨fault, m'⟩ := by
    simp [executeState, ScheduleState.execute,
      ExecutionOrder.ScheduleState.execute,
      ExecutionOrder.isUnscheduledNodesGraphEmpty,
      ExecutionOrder.scheduleUnscheduledNodes, ExecutionManager.log, hempty, ho,
      StoredManager.lift]
  obtain ⟨m', hthrew⟩ := hthrew
  rw [executeWhileBusy_of_error d config hbusy hthrew]
  rfl

/-- Nothing is scheduled for an empty graph. -/
theorem findAcceleratedQueryNodeSets_nil (lib : AcceleratorLibrary) (h : Heap)
    (links : LinkedNodes) {fuel : Nat} (hfuel : 0 < fuel) :
    findAcceleratedQueryNodeSets lib fuel h [] links =
      .ok (RunsState.initial h [] links) := by
  obtain ⟨k, rfl⟩ : ∃ k, fuel = k + 1 := ⟨fuel - 1, by omega⟩
  rfl

/-- An execution is one fold over the runs that are scheduled for its graph:
the states neither skip nor repeat a run, and an exception ends it with the same
fault. -/
theorem execute_runs_queue (graph : List NodeId) (m : StoredManager)
    {fuel : Nat} (hpos : 0 < fuel) (hscheduler : 0 < config.schedulerFuel)
    (hfuel : ∀ o, findAcceleratedQueryNodeSets config.library
      config.schedulerFuel m.manager.run.heap graph ∅ = .ok o →
      2 * o.queryNodeRunsQueue.length + 3 < fuel) :
    outcome (execute d config fuel graph .scheduleState m) = (do
      let o ← findAcceleratedQueryNodeSets config.library config.schedulerFuel
        m.manager.run.heap graph ∅
      o.queryNodeRunsQueue.foldlM (checkedRun d config o.linkedNodes)
        (m.progress.scheduled o)) := by
  rw [execute]
  by_cases hgraph : graph = []
  · subst hgraph
    have ho := findAcceleratedQueryNodeSets_nil config.library
      m.manager.run.heap ∅ hscheduler
    have hlt := hfuel _ ho
    obtain ⟨k, rfl⟩ : ∃ k, fuel = k + 2 := ⟨fuel - 2, by omega⟩
    rw [ho, executeWhileBusy_nothing d config rfl rfl]
    rfl
  · cases ho : findAcceleratedQueryNodeSets config.library
      config.schedulerFuel m.manager.run.heap graph ∅ with
    | error fault =>
        obtain ⟨k, rfl⟩ : ∃ k, fuel = k + 1 := ⟨fuel - 1, by omega⟩
        exact executeWhileBusy_unscheduled d config rfl hgraph ho k
    | ok o => exact executeWhileBusy_scheduled d config rfl hgraph ho (hfuel o ho)

end Loop

/-! ## What an execution computes -/

section Bitstream

variable {V : Type} {d : Device V} {config : Config}

theorem name_of_loadBitstreamIfNew {name : String} {size : Int}
    {loaded loaded' : LoadedBitstream}
    (h : loadBitstreamIfNew d name size loaded = .ok loaded') :
    loaded'.name = name := by
  rw [loadBitstreamIfNew] at h
  split at h
  · rw [bind_eq_ok] at h
    obtain ⟨-, -, h⟩ := h
    obtain rfl := Except.ok.inj h
    rfl
  · next hsame =>
      rw [Except.ok.injEq] at h
      subst h
      by_contra hne
      exact hsame (.inl fun heq => hne heq.symm)

theorem lookupAt_mem {α β : Type} [BEq α] [LawfulBEq α] {entries : List (α × β)}
    {key : α} {value : β} (h : lookupAt entries key = .ok value) :
    (key, value) ∈ entries := by
  rw [lookupAt] at h
  split at h
  · next found hfound =>
      rw [Except.ok.injEq] at h
      subst h
      obtain ⟨before, after, hsplit, -⟩ := List.lookup_eq_some_iff.mp hfound
      rw [hsplit]
      exact List.mem_append_right _ List.mem_cons_self
  · cases h

/-- The accelerator has the modules of the run. -/
theorem modules_of_loadNextBitstreamIfNew
    (hmodules : ∀ entry ∈ config.library.supportedAcceleratorBitstreams,
      d.modulesOf entry.2 = entry.1) {modules : ConfigurableModulesVector}
    {loaded loaded' : LoadedBitstream}
    (h : loadNextBitstreamIfNew d config modules loaded = .ok loaded') :
    d.modulesOf loaded'.name = modules := by
  simp only [loadNextBitstreamIfNew, bind_eq_ok] at h
  obtain ⟨bitstream, hbitstream, size, -, hload⟩ := h
  rw [name_of_loadBitstreamIfNew hload]
  exact hmodules _ (lookupAt_mem hbitstream)

end Bitstream

section Meaning

variable {V : Type} [Inhabited V] {d : Device V} {config : Config} {P : Plan}
  {p p' : Progress} {run : QueryNodeRun}

/-- A run that is executed is a run with the modules that it needs. -/
theorem executeRun_of_checkedRun {links : LinkedNodes}
    (hmodules : ∀ entry ∈ config.library.supportedAcceleratorBitstreams,
      d.modulesOf entry.2 = entry.1)
    (h : checkedRun d config links p run = .ok p') :
    DataPath.executeRun d.conversions d.accelerator links
      (p.state, p.storage) run = .ok (p'.state, p'.storage) := by
  simp only [checkedRun, setUpRun, bind_eq_ok, Except.ok.injEq] at h
  obtain ⟨-, ⟨loaded, hload, ⟨names, current, s, storage⟩, hsetup, rfl⟩, h⟩ := h
  rw [executeSetUp] at h
  split at h
  · cases h
  · rw [bind_eq_ok] at h
    obtain ⟨valid, -, h⟩ := h
    cases valid with
    | false => cases h
    | true =>
        simp only [if_true, bind_eq_ok, Except.ok.injEq] at h
        obtain ⟨⟨e, storage'⟩, hexecuted, rfl⟩ := h
        rw [accelerateAndProcessResults,
          modules_of_loadNextBitstreamIfNew hmodules hload] at hexecuted
        split at hexecuted
        · cases hexecuted
        · rw [DataPath.executeRun, hsetup]
          exact hexecuted

theorem executeRuns_of_checkedRuns {links : LinkedNodes}
    (hmodules : ∀ entry ∈ config.library.supportedAcceleratorBitstreams,
      d.modulesOf entry.2 = entry.1) {runs : List QueryNodeRun}
    (h : runs.foldlM (checkedRun d config links) p = .ok p') :
    DataPath.executeRuns d.conversions d.accelerator links runs
      (p.state, p.storage) = .ok (p'.state, p'.storage) := by
  obtain ⟨r, hr, rfl⟩ := foldlM_simulates
    (fun (p : Progress) q => q = (p.state, p.storage)) runs rfl
    (by
      rintro run - p p' q rfl hrun
      exact ⟨_, executeRun_of_checkedRun hmodules hrun, rfl⟩) h
  exact hr

/-- An execution that returns has gone through the queue of a schedule. -/
theorem runs_of_execute {m m' : StoredManager} {state : State} {fuel : Nat}
    {graph : List NodeId} (hscheduler : 0 < config.schedulerFuel)
    (h : execute d config fuel graph .scheduleState m = .ok (state, m')) :
    ∃ o, findAcceleratedQueryNodeSets config.library config.schedulerFuel
        m.manager.run.heap graph ∅ = .ok o ∧
      o.queryNodeRunsQueue.foldlM (checkedRun d config o.linkedNodes)
        (m.progress.scheduled o) = .ok m'.progress := by
  rw [execute] at h
  by_cases hgraph : graph = []
  · subst hgraph
    have hmore := executeWhileBusy_mono d config h 2
    refine ⟨_, findAcceleratedQueryNodeSets_nil config.library
      m.manager.run.heap ∅ hscheduler, ?_⟩
    have hnothing := executeWhileBusy_nothing d config
      (m := { m with manager := { m.manager with
        unscheduledGraph := [], busyFlag := true } }) rfl rfl fuel
    rw [hmore] at hnothing
    exact hnothing.symm
  · cases ho : findAcceleratedQueryNodeSets config.library
      config.schedulerFuel m.manager.run.heap graph ∅ with
    | error fault =>
        have hthrew := executeWhileBusy_unscheduled d config
          (m := { m with manager := { m.manager with
            unscheduledGraph := graph, busyFlag := true } }) rfl hgraph ho fuel
        rw [executeWhileBusy_mono d config h 1] at hthrew
        cases hthrew
    | ok o =>
        have hruns := executeWhileBusy_scheduled d config
          (m := { m with manager := { m.manager with
            unscheduledGraph := graph, busyFlag := true } }) rfl hgraph ho
          (show 2 * o.queryNodeRunsQueue.length + 3 <
            fuel + (2 * o.queryNodeRunsQueue.length + 4) by omega)
        rw [executeWhileBusy_mono d config h _] at hruns
        exact ⟨o, rfl, hruns.symm⟩

theorem meant_of_execute {m m' : StoredManager} {state : State}
    {fuel : Nat} (hsingle : P.SingleEdges)
    (hfiles : FilesMatchPorts P.heap P.nodes) (hapart : FilesApart P)
    (hmodules : ∀ entry ∈ config.library.supportedAcceleratorBitstreams,
      d.modulesOf entry.2 = entry.1)
    (hscheduler : 0 < config.schedulerFuel)
    (hstart : m.progress.state = ExecutionState.initial P.heap)
    (hschedule : ∀ o, findAcceleratedQueryNodeSets config.library
        config.schedulerFuel P.heap P.roots ∅ = .ok o →
      (∀ run ∈ o.queryNodeRunsQueue, LocationsConsistent P o.heap run ∧
        FollowsDataFlow P o.heap run) ∧
      Transparent d.conversions d.accelerator P o m.storage.files)
    (h : execute d config fuel P.roots .scheduleState m = .ok (state, m')) :
    ∃ o, findAcceleratedQueryNodeSets config.library config.schedulerFuel
        P.heap P.roots ∅ = .ok o ∧
      Meant d.conversions d.accelerator P o m.storage.files P.nodes
        m'.progress.state m'.storage := by
  obtain ⟨o, ho, hruns⟩ := runs_of_execute hscheduler h
  have hheap : m.manager.run.heap = P.heap :=
    congrArg (fun e : ExecutionState => e.run.heap) hstart
  rw [hheap] at ho
  have hinitial : (m.progress.scheduled o).state =
      ExecutionState.initial o.heap := by
    rw [Progress.scheduled, hstart]
    rfl
  have hexecuted := executeRuns_of_checkedRuns hmodules hruns
  rw [hinitial] at hexecuted
  obtain ⟨hruns, htransparent⟩ := hschedule o ho
  exact ⟨o, ho, Executes.meant ⟨ho, fun run hrun => (hruns run hrun).1,
    fun run hrun => (hruns run hrun).2, htransparent, hexecuted⟩ hsingle hfiles
    hapart⟩

/-- An execution that returns has written what the plan computes, and nothing
else. -/
theorem execute_computes_plan {m m' : StoredManager} {state : State}
    {fuel : Nat} (hsingle : P.SingleEdges)
    (hfiles : FilesMatchPorts P.heap P.nodes) (hapart : FilesApart P)
    (hmodules : ∀ entry ∈ config.library.supportedAcceleratorBitstreams,
      d.modulesOf entry.2 = entry.1)
    (hscheduler : 0 < config.schedulerFuel)
    (hstart : m.progress.state = ExecutionState.initial P.heap)
    (hschedule : ∀ o, findAcceleratedQueryNodeSets config.library
        config.schedulerFuel P.heap P.roots ∅ = .ok o →
      (∀ run ∈ o.queryNodeRunsQueue, LocationsConsistent P o.heap run ∧
        FollowsDataFlow P o.heap run) ∧
      Transparent d.conversions d.accelerator P o m.storage.files)
    (h : execute d config fuel P.roots .scheduleState m = .ok (state, m')) :
    ∃ o, findAcceleratedQueryNodeSets config.library config.schedulerFuel
        P.heap P.roots ∅ = .ok o ∧
      (∀ a ∈ P.nodes, ∀ k f, WritesTo P a k f → LeavesRun P o a k →
        ∃ v text, Carries d.conversions d.accelerator P m.storage.files
            (.output a k) v ∧
          TextOf d.conversions d.accelerator P a k v text ∧
          m'.storage.files f = some text) ∧
      ∀ f, (∀ a ∈ P.nodes, ∀ k, WritesTo P a k f → ¬LeavesRun P o a k) →
        m'.storage.files f = m.storage.files f := by
  obtain ⟨o, ho, hm⟩ := meant_of_execute hsingle hfiles hapart hmodules
    hscheduler hstart hschedule h
  exact ⟨o, ho, hm.written, hm.kept⟩

end Meaning

/-! ### A filter and a sort in two bitstreams -/

def sortToFileConfig : Config where
  library :=
    { supportedAcceleratorBitstreams :=
        [([⟨.kFilter, []⟩], "filter.bin"), ([⟨.kLinearSort, []⟩], "sort.bin")]
      existingModulesLibrary := [(.kFilter, []), (.kLinearSort, [])] }
  requiredMemorySpace := [("filter.bin", 4096), ("sort.bin", 4096)]
  schedulerFuel := 16

def sortToFileDevice : Device (List Nat) where
  conversions := wordConversions
  accelerator := wordSorter
  modulesOf name :=
    if name = "filter.bin" then [⟨.kFilter, []⟩] else [⟨.kLinearSort, []⟩]
  load _ _ := .ok ()

def sortToFileManager : StoredManager where
  manager :=
    { unscheduledGraph := []
      busyFlag := false
      allReuseLinks := ∅
      currentReuseLinks := ∅
      run := (ExecutionState.initial sortToFilePlan.heap).run
      queryNodeRunsQueue := []
      resultParameters := ∅
      queryNodes := []
      scheduledNodeNames := []
      calls := [] }
  storage := carsStorage
  loaded := ⟨"", 0⟩

theorem placements_sortToFile :
    placements 2 (findAcceleratedQueryNodeSets sortToFileConfig.library 16
      sortToFilePlan.heap sortToFilePlan.roots ∅) =
      some ([([⟨.kFilter, []⟩], [0]), ([⟨.kLinearSort, []⟩], [1])], [1, 1]) := by
  decide +kernel

/-- The fold over the two runs. -/
theorem execute_runs_queue_sortToFile :
    ∃ o, findAcceleratedQueryNodeSets sortToFileConfig.library 16
        sortToFilePlan.heap sortToFilePlan.roots ∅ = .ok o ∧
      outcome (execute sortToFileDevice sortToFileConfig 8 sortToFilePlan.roots
        .scheduleState sortToFileManager) =
      o.queryNodeRunsQueue.foldlM
        (checkedRun sortToFileDevice sortToFileConfig o.linkedNodes)
        (sortToFileManager.progress.scheduled o) := by
  obtain ⟨o, ho, hqueue, -⟩ := placements_eq_some placements_sortToFile
  have hruns := execute_runs_queue sortToFileDevice sortToFileConfig
    sortToFilePlan.roots sortToFileManager (show 0 < 8 by decide) (by decide)
    (by
      intro o' ho'
      obtain rfl : o = o' := Except.ok.inj (ho.symm.trans ho')
      rw [hqueue]
      decide)
  have ho' : findAcceleratedQueryNodeSets sortToFileConfig.library
      sortToFileConfig.schedulerFuel sortToFileManager.manager.run.heap
      sortToFilePlan.roots ∅ = .ok o := ho
  rw [ho', ok_bind] at hruns
  exact ⟨o, ho, hruns⟩

/-- The sorted file. -/
theorem execute_computes_plan_sortToFile :
    ∃ state m' v text,
      execute sortToFileDevice sortToFileConfig 8 sortToFilePlan.roots
        .scheduleState sortToFileManager = .ok (state, m') ∧
      Carries wordConversions wordSorter sortToFilePlan carsStorage.files
        (.output 1 0) v ∧
      TextOf wordConversions wordSorter sortToFilePlan 1 0 v text ∧
      m'.storage.files "sorted.csv" = some text := by
  have hok : (execute sortToFileDevice sortToFileConfig 8 sortToFilePlan.roots
      .scheduleState sortToFileManager).isOk = true := by decide +kernel
  cases hexecuted : execute sortToFileDevice sortToFileConfig 8
      sortToFilePlan.roots .scheduleState sortToFileManager with
  | error thrown =>
      rw [hexecuted] at hok
      cases hok
  | ok r =>
      obtain ⟨state, m'⟩ := r
      obtain ⟨o, -, hwritten, -⟩ := execute_computes_plan (by decide)
        filesMatchPorts_sortToFile filesApart_sortToFile (by decide) (by decide)
        rfl (fun o ho => ⟨fun run hmem => runs_sortToFile placements_sortToFile
          (by decide) ho hmem, transparent_sortToFile o _⟩) hexecuted
      obtain ⟨v, text, hv, htext, hfile⟩ := hwritten 1 (by decide) 0
        "sorted.csv" (by decide) ⟨by decide, fun n hn => by cases hn⟩
      exact ⟨state, m', v, text, rfl, hv, htext, hfile⟩

end Orkhestra.Ports.StoredExecution
