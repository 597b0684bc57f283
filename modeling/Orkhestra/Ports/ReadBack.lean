import Orkhestra.Ports.ActiveStreams
import Orkhestra.Verified.UniquePointer

/-!
# Modules that are read back

The results of a global sum are not streamed but left in registers of its
module, so `FPGAManager` keeps these modules from the set-up until the run has
ended.  It owns them by a vector of `std::unique_ptr`, next to a vector of the
positions that are to be read of each.

A module is moved into the function that reads one position, and destroyed when
that returns.  So the first position of a module is read from a live object and
a second one through a null pointer: all results are read exactly when no module
has two of them.

This is the build with an FPGA (`_FPGA_AVAILABLE`).  A sum is kept in hundredths
here; it is divided by 100 and printed in the source.
-/

namespace Orkhestra.Ports.ReadBack

open Orkhestra.Verified.Checked
open Orkhestra.Verified.UniquePointer
open Orkhestra.Ports.StreamParameterCalculator
open Orkhestra.Ports.QuerySchedulingData
open Orkhestra.Ports.QueryManager
open Orkhestra.Ports.DMA
open Orkhestra.Ports.DMASetup
open Orkhestra.Ports.DMADomain
open Orkhestra.Ports.ActiveStreams

/-! ## The module -/

/-- `AccelerationModule::CalculateMemoryMappedAddress`: the DMA engine is the
module at position 0. -/
def calculateMemoryMappedAddress (modulePosition moduleInternalAddress : Int) :
    Int :=
  1024 * 1024 * modulePosition + moduleInternalAddress

structure AggregationSum where
  modulePosition : Int
  deriving DecidableEq, Repr

namespace AggregationSum

def writeToModule (m : AggregationSum) (moduleInternalAddress writeData : Int) :
    RegisterWrite :=
  DMA.writeToModule
    (calculateMemoryMappedAddress m.modulePosition moduleInternalAddress)
    writeData

def readFromModule (accelerator : Accelerator) (writes : List RegisterWrite)
    (m : AggregationSum) (moduleInternalAddress : Int) : BitVec 32 :=
  BitVec.ofNat 32 (accelerator writes
    (calculateMemoryMappedAddress m.modulePosition moduleInternalAddress))

def startPrefetching (m : AggregationSum)
    (requestData destroyData countData : Bool) : RegisterWrite :=
  m.writeToModule 0
    (requestData.toNat * 2 ^ 2 + destroyData.toNat * 2 ^ 1 + countData.toNat)

def defineInput (m : AggregationSum) (streamId : Nat) (chunkId : Int) :
    RegisterWrite :=
  m.writeToModule 4 (chunkId * 2 ^ 8 + streamId)

def resetSumRegisters (m : AggregationSum) : RegisterWrite :=
  m.writeToModule 64 1

section Read

variable (accelerator : Accelerator) (writes : List RegisterWrite)

def readSum (m : AggregationSum) (dataPosition : Int) (isLow : Bool) :
    BitVec 32 :=
  readFromModule accelerator writes m
    (64 + dataPosition * 8 + (!isLow).toNat * 4)

def readResult (m : AggregationSum) (dataPosition : Int) : BitVec 32 :=
  readSum accelerator writes m (dataPosition.tdiv 2)
    (dataPosition.tmod 2 = 0)

end Read

end AggregationSum

/-- `AggregationSumSetup::SetupAggregationSum`. -/
def setupAggregationSum (aggregationModule : AggregationSum) (streamId : Nat)
    (operationParameters : List (List Int)) : Outcome (List RegisterWrite) := do
  let chunkParameters ← checkedAt operationParameters 0
  let chunkId ← checkedAt chunkParameters 0
  .ok [aggregationModule.resetSumRegisters,
    aggregationModule.defineInput streamId chunkId,
    aggregationModule.startPrefetching false false false]

/-! ## Set-up -/

/-- `FPGAManager` with the modules that are read back, and all module objects
made so far. -/
structure ReadBackManager extends FPGAManager where
  modules : Store AggregationSum
  readBackModules : List Pointer
  readBackParameters : List (List Int)

def initial : ReadBackManager where
  toFPGAManager := ActiveStreams.initial
  modules := []
  readBackModules := []
  readBackParameters := []

/-- The modules of the current nodes, and the registers written for them. -/
structure ModuleSetup where
  modules : Store AggregationSum
  readBackModules : List Pointer
  readBackParameters : List (List Int)
  writes : List RegisterWrite

/-- One round of the loop over the nodes; only sums are read back. -/
def setupNode (board : Board) (s : ModuleSetup)
    (queryNode : AcceleratedQueryNode) : Outcome ModuleSetup :=
  match queryNode.operationType with
  | .kAggregationSum => do
      let aggregationModule : AggregationSum :=
        ⟨queryNode.operationModuleLocation⟩
      let made := makeUnique s.modules aggregationModule
      let inputStream ← readAt queryNode.inputStreams 0
      let writes ← setupAggregationSum aggregationModule inputStream.streamId
        queryNode.operationParameters
      let positions ← checkedAt queryNode.operationParameters 1
      .ok
        { modules := made.1
          readBackModules := s.readBackModules ++ [made.2]
          readBackParameters := s.readBackParameters ++ [positions]
          writes := s.writes ++ writes }
  | _ => do
      let writes ← board.setupModule queryNode
      .ok { s with writes := s.writes ++ writes }

def setupQueryAcceleration (board : Board) (m : ReadBackManager)
    (queryNodes : List AcceleratedQueryNode) : Outcome ReadBackManager := do
  let modules ← clear m.modules m.readBackModules
  let (inputs, outputs) ← queryNodes.foldlM (findNodeStreams board)
    (([], m.inputStreamsActiveStatus), ([], m.outputStreamsActiveStatus))
  if inputs.1 = [] ∨ outputs.1 = [] then
    .error (.runtimeError "Input or output streams missing!")
  else do
    let inputSetup ← setupDMAModule inputs.1 true
    let outputSetup ← setupDMAModule outputs.1 false
    let s ← queryNodes.foldlM (setupNode board)
      { modules := modules
        readBackModules := []
        readBackParameters := []
        writes := [] }
    .ok
      { inputStreamsActiveStatus := inputs.2
        outputStreamsActiveStatus := outputs.2
        writes := m.writes ++ globalReset :: inputSetup.writes ++
          outputSetup.writes ++ startController true inputs.2 :: s.writes
        modules := s.modules
        readBackModules := s.readBackModules
        readBackParameters := s.readBackParameters }

/-! ## Run -/

/-- A line that is printed: the module, the position and the sum. -/
structure Reading where
  readBackModule : Pointer
  position : Int
  sum : Int
  deriving DecidableEq, Repr

section Read

variable (accelerator : Accelerator) (writes : List RegisterWrite)

/-- The two words of a sum. -/
def sumOf (readBackModule : AggregationSum) (position : Int) : Int :=
  -- Reversed reading because the data is reversed.
  let highBits := readBackModule.readResult accelerator writes
    ((kDatapathWidth - 1) - position * 2)
  let lowBits := readBackModule.readResult accelerator writes
    ((kDatapathWidth - 1) - (position * 2 + 1))
  (highBits.setWidth 64 <<< 32 + lowBits.setWidth 64).toInt

/-- The parameter is destroyed when the function returns. -/
def readModuleResultRegisters (modules : Store AggregationSum)
    (readBackModule : Pointer) (position : Int) :
    Outcome (Store AggregationSum × Int) := do
  let object ← dereference modules readBackModule
  let modules ← destroy modules readBackModule
  .ok (modules, sumOf accelerator writes object position)

structure ReadState where
  modules : Store AggregationSum
  readBackModules : List Pointer
  readings : List Reading

def readPosition (moduleIndex : Nat) (s : ReadState) (position : Int) :
    Outcome ReadState := do
  let readBackModule ← checkedAt s.readBackModules moduleIndex
  -- `std::move` leaves a null pointer in the vector.
  let (modules, sum) ← readModuleResultRegisters accelerator writes s.modules
    readBackModule position
  .ok
    { modules := modules
      readBackModules := s.readBackModules.set moduleIndex none
      readings := s.readings ++ [⟨readBackModule, position, sum⟩] }

def readModule (readBackParameters : List (List Int)) (s : ReadState)
    (moduleIndex : Nat) : Outcome ReadState := do
  let positions ← checkedAt readBackParameters moduleIndex
  positions.foldlM (readPosition accelerator writes moduleIndex) s

def readResultsFromRegisters (m : ReadBackManager) : Outcome ReadState :=
  (List.range m.readBackModules.length).foldlM
    (readModule accelerator writes m.readBackParameters)
    ⟨m.modules, m.readBackModules, []⟩

end Read

/-- The streams are waited for before the results are read, and their sizes are
read afterwards. -/
def runQueryAcceleration (board : Board) (m : ReadBackManager) :
    Outcome (ReadBackManager × List Reading × ResultSizes) := do
  let (manager, sizes) ←
    ActiveStreams.runQueryAcceleration board m.toFPGAManager
  let s ← readResultsFromRegisters board.accelerator manager.writes m
  .ok
    ({ toFPGAManager := manager
       modules := s.modules
       readBackModules := s.readBackModules
       readBackParameters := m.readBackParameters },
      s.readings, sizes)

/-! ## The registers of a sum -/

theorem setWidth_shiftLeft_add (highBits lowBits : BitVec 32) :
    highBits.setWidth 64 <<< 32 + lowBits.setWidth 64 =
      highBits ++ lowBits := by
  have hhigh := highBits.isLt
  have hlow := lowBits.isLt
  refine BitVec.eq_of_toNat_eq ?_
  rw [BitVec.toNat_append, ← Nat.shiftLeft_add_eq_or_of_lt hlow,
    BitVec.toNat_add, BitVec.toNat_shiftLeft, BitVec.toNat_setWidth,
    BitVec.toNat_setWidth, Nat.shiftLeft_eq, Nat.shiftLeft_eq]
  omega

/-- The words of a sum are next to each other, in reverse order of the
positions. -/
theorem sumOf_eq (accelerator : Accelerator) (writes : List RegisterWrite)
    (m : AggregationSum) {position : Int} (hlow : 0 ≤ position)
    (hhigh : position ≤ 7) :
    sumOf accelerator writes m position =
      2 ^ 32 * (m.readFromModule accelerator writes
        (64 + (7 - position) * 8 + 4)).toInt +
      (m.readFromModule accelerator writes
        (64 + (7 - position) * 8)).toNat := by
  have hwidth : (kDatapathWidth : Int) = 16 := rfl
  have hhighHalf : (16 - 1 - position * 2).tdiv 2 = 7 - position ∧
      (16 - 1 - position * 2).tmod 2 = 1 := by
    rw [Int.tdiv_eq_ediv_of_nonneg (by omega),
      Int.tmod_eq_emod_of_nonneg (by omega)]
    omega
  have hlowHalf : (16 - 1 - (position * 2 + 1)).tdiv 2 = 7 - position ∧
      (16 - 1 - (position * 2 + 1)).tmod 2 = 0 := by
    rw [Int.tdiv_eq_ediv_of_nonneg (by omega),
      Int.tmod_eq_emod_of_nonneg (by omega)]
    omega
  simp only [sumOf, AggregationSum.readResult, AggregationSum.readSum, hwidth,
    hhighHalf, hlowHalf, setWidth_shiftLeft_add, BitVec.toInt_append]
  simp

/-! ## What the set-up collects -/

/-- A module object for each vector of positions, each with one pointer. -/
structure Collected (modules : Store AggregationSum)
    (readBackModules : List Pointer) (readBackParameters : List (List Int)) :
    Prop where
  holds : Holds modules readBackModules
  present : none ∉ readBackModules
  length_eq : readBackParameters.length = readBackModules.length

section Setup

variable {board : Board} {queryNode : AcceleratedQueryNode}
  {queryNodes : List AcceleratedQueryNode}

/-- What a round of the loop does to the modules. -/
theorem setupNode_cases {s s' : ModuleSetup}
    (h : setupNode board s queryNode = .ok s') :
    (queryNode.operationType ≠ .kAggregationSum ∧
      s'.modules = s.modules ∧ s'.readBackModules = s.readBackModules ∧
      s'.readBackParameters = s.readBackParameters) ∨
    (queryNode.operationType = .kAggregationSum ∧ ∃ positions,
      queryNode.operationParameters[1]? = some positions ∧
      s'.modules =
        (makeUnique s.modules ⟨queryNode.operationModuleLocation⟩).1 ∧
      s'.readBackModules = s.readBackModules ++
        [(makeUnique s.modules
          (⟨queryNode.operationModuleLocation⟩ : AggregationSum)).2] ∧
      s'.readBackParameters = s.readBackParameters ++ [positions]) := by
  unfold setupNode at h
  split at h
  · next hsum =>
      simp only [bind_eq_ok, checkedAt_eq_ok, Except.ok.injEq] at h
      obtain ⟨_, -, _, -, positions, hpositions, rfl⟩ := h
      exact .inr ⟨hsum, positions, hpositions, rfl, rfl, rfl⟩
  · next hother =>
      simp only [bind_eq_ok, Except.ok.injEq] at h
      obtain ⟨_, -, rfl⟩ := h
      exact .inl ⟨hother, rfl, rfl, rfl⟩

theorem Collected.setupNode {s s' : ModuleSetup}
    (hs : Collected s.modules s.readBackModules s.readBackParameters)
    (h : setupNode board s queryNode = .ok s') :
    Collected s'.modules s'.readBackModules s'.readBackParameters := by
  rcases setupNode_cases h with
    ⟨-, hmodules, hpointers, hparameters⟩ |
      ⟨-, positions, -, hmodules, hpointers, hparameters⟩
  · rwa [hmodules, hpointers, hparameters]
  · rw [hmodules, hpointers, hparameters]
    refine ⟨hs.holds.makeUnique _, ?_, by simp [hs.length_eq]⟩
    rw [List.mem_append, not_or]
    exact ⟨hs.present, by simp [makeUnique]⟩

/-- The part of a set-up that the modules depend on. -/
theorem setupQueryAcceleration_modules {m m' : ReadBackManager}
    (h : setupQueryAcceleration board m queryNodes = .ok m') :
    ∃ modules s, clear m.modules m.readBackModules = .ok modules ∧
      queryNodes.foldlM (setupNode board) ⟨modules, [], [], []⟩ = .ok s ∧
      m'.modules = s.modules ∧ m'.readBackModules = s.readBackModules ∧
      m'.readBackParameters = s.readBackParameters := by
  simp only [setupQueryAcceleration, bind_eq_ok] at h
  obtain ⟨modules, hclear, ⟨inputs, outputs⟩, -, h⟩ := h
  split at h
  · cases h
  · simp only [bind_eq_ok, Except.ok.injEq] at h
    obtain ⟨_, -, _, -, s, hs, rfl⟩ := h
    exact ⟨modules, s, hclear, hs, rfl, rfl, rfl⟩

/-- Whatever was there before. -/
theorem collected_of_setup {m m' : ReadBackManager}
    (h : setupQueryAcceleration board m queryNodes = .ok m') :
    Collected m'.modules m'.readBackModules m'.readBackParameters := by
  obtain ⟨modules, s, -, hloop, hmodules, hpointers, hparameters⟩ :=
    setupQueryAcceleration_modules h
  rw [hmodules, hpointers, hparameters]
  refine foldlM_invariant (fun _ (s : ModuleSetup) =>
    Collected s.modules s.readBackModules s.readBackParameters) queryNodes
    ⟨holds_nil modules, List.not_mem_nil, rfl⟩ ?_ hloop
  intro _ _ _ s s' _ hs hstep
  exact hs.setupNode hstep

end Setup

/-! ## What the run reads -/

section Read

variable {accelerator : Accelerator} {writes : List RegisterWrite}
  {s : ReadState} {moduleIndex id : Nat} {object : AggregationSum}

/-- A position is read from a live object, which is destroyed. -/
theorem readPosition_eq_ok {s' : ReadState} {position : Int} :
    readPosition accelerator writes moduleIndex s position = .ok s' ↔
      ∃ id object, s.readBackModules[moduleIndex]? = some (some id) ∧
        Live s.modules id object ∧
        s' =
          { modules := s.modules.set id none
            readBackModules := s.readBackModules.set moduleIndex none
            readings := s.readings ++
              [⟨some id, position,
                sumOf accelerator writes object position⟩] } := by
  constructor
  · intro h
    simp only [readPosition, readModuleResultRegisters, bind_eq_ok,
      checkedAt_eq_ok, dereference_eq_ok, Except.ok.injEq] at h
    obtain ⟨_, hpointer, _, ⟨object, ⟨id, rfl, hobject⟩, modules, hdestroy, rfl⟩,
      rfl⟩ := h
    rw [destroy_live hobject, Except.ok.injEq] at hdestroy
    exact ⟨id, object, hpointer, hobject, by rw [hdestroy]⟩
  · rintro ⟨id, object, hpointer, hobject, rfl⟩
    rw [readPosition, checkedAt_eq_ok.mpr hpointer, ok_bind,
      readModuleResultRegisters, dereference_live hobject, ok_bind,
      destroy_live hobject]
    rfl

theorem readPosition_moved
    (hpointer : s.readBackModules[moduleIndex]? = some none)
    (position : Int) :
    readPosition accelerator writes moduleIndex s position =
      .error .undefined := by
  rw [readPosition, checkedAt_eq_ok.mpr hpointer, ok_bind,
    readModuleResultRegisters, dereference_null]
  rfl

/-- A module is moved out at its first position. -/
theorem readPositions_cases (accelerator : Accelerator)
    (writes : List RegisterWrite)
    (hpointer : s.readBackModules[moduleIndex]? = some (some id))
    (hobject : Live s.modules id object) (positions : List Int) :
    (positions = [] ∧
      positions.foldlM (readPosition accelerator writes moduleIndex) s =
        .ok s) ∨
    (∃ position, positions = [position] ∧
      positions.foldlM (readPosition accelerator writes moduleIndex) s =
        .ok
          { modules := s.modules.set id none
            readBackModules := s.readBackModules.set moduleIndex none
            readings := s.readings ++
              [⟨some id, position,
                sumOf accelerator writes object position⟩] }) ∨
    (1 < positions.length ∧
      positions.foldlM (readPosition accelerator writes moduleIndex) s =
        .error .undefined) := by
  cases positions with
  | nil => exact .inl ⟨rfl, rfl⟩
  | cons first rest =>
      rw [List.foldlM_cons,
        readPosition_eq_ok.mpr ⟨id, object, hpointer, hobject, rfl⟩, ok_bind]
      cases rest with
      | nil => exact .inr (.inl ⟨first, rfl, rfl⟩)
      | cons second rest =>
          refine .inr (.inr ⟨by simp, ?_⟩)
          rw [List.foldlM_cons, readPosition_moved ?_]
          · rfl
          · have hlt := (List.getElem?_eq_some_iff.mp hpointer).1
            exact List.getElem?_set_self hlt

end Read

/-- A module at each of its positions. -/
def moduleResults (module : Pointer × List Int) : List (Pointer × Int) :=
  module.2.map fun position => (module.1, position)

/-- Each module at each of its positions, in order. -/
def results (m : ReadBackManager) : List (Pointer × Int) :=
  (m.readBackModules.zip m.readBackParameters).flatMap moduleResults

/-- A line with the sum of a module object. -/
def IsSumOf (accelerator : Accelerator) (writes : List RegisterWrite)
    (modules : Store AggregationSum) (r : Reading) : Prop :=
  ∃ object, dereference modules r.readBackModule = .ok object ∧
    r.sum = sumOf accelerator writes object r.position

/-- The reading ends, and has read every result once, in order and from a live
module. -/
def AllResultsRead (accelerator : Accelerator) (writes : List RegisterWrite)
    (m : ReadBackManager) : Prop :=
  ∃ s, readResultsFromRegisters accelerator writes m = .ok s ∧
    s.readings.map (fun r => (r.readBackModule, r.position)) =
      results m ∧
    ∀ r ∈ s.readings, IsSumOf accelerator writes m.modules r

/-- The modules before `moduleIndex` are read, the others as they were. -/
structure Progress (accelerator : Accelerator) (writes : List RegisterWrite)
    (m : ReadBackManager) (moduleIndex : Nat) (s : ReadState) : Prop where
  pointers : ∀ j, moduleIndex ≤ j →
    s.readBackModules[j]? = m.readBackModules[j]?
  objects : ∀ j id object, moduleIndex ≤ j →
    m.readBackModules[j]? = some (some id) → Live m.modules id object →
    Live s.modules id object
  readings : s.readings.map (fun r => (r.readBackModule, r.position)) =
    ((m.readBackModules.zip m.readBackParameters).take moduleIndex).flatMap
      moduleResults
  sums : ∀ r ∈ s.readings, IsSumOf accelerator writes m.modules r

section Modules

variable {accelerator : Accelerator} {writes : List RegisterWrite}
  {m : ReadBackManager} {moduleIndex : Nat} {s s' : ReadState}

theorem progress_zero :
    Progress accelerator writes m 0 ⟨m.modules, m.readBackModules, []⟩ where
  pointers := fun _ _ => rfl
  objects := fun _ _ _ _ _ hobject => hobject
  readings := rfl
  sums := by simp

/-- The results up to the next module. -/
theorem results_take_succ {pointer : Pointer} {positions : List Int}
    (hpointer : m.readBackModules[moduleIndex]? = some pointer)
    (hpositions : m.readBackParameters[moduleIndex]? = some positions) :
    ((m.readBackModules.zip m.readBackParameters).take
        (moduleIndex + 1)).flatMap moduleResults =
      ((m.readBackModules.zip m.readBackParameters).take
          moduleIndex).flatMap moduleResults ++
        positions.map fun position => (pointer, position) := by
  have hzip : (m.readBackModules.zip m.readBackParameters)[moduleIndex]? =
      some (pointer, positions) :=
    List.getElem?_zip_eq_some.mpr ⟨hpointer, hpositions⟩
  rw [List.take_add_one, hzip, List.flatMap_append]
  simp [moduleResults]

/-- The module whose turn it is has an object and its positions. -/
theorem Collected.module
    (hm : Collected m.modules m.readBackModules m.readBackParameters)
    (hindex : moduleIndex < m.readBackModules.length) :
    ∃ id object positions,
      m.readBackModules[moduleIndex]? = some (some id) ∧
      Live m.modules id object ∧
      m.readBackParameters[moduleIndex]? = some positions := by
  have hpointer := List.getElem?_eq_getElem hindex
  have hmem := List.getElem_mem hindex
  cases hid : m.readBackModules[moduleIndex] with
  | none =>
      rw [hid] at hmem
      exact absurd hmem hm.present
  | some id =>
      rw [hid] at hpointer hmem
      obtain ⟨object, hobject⟩ := hm.holds.live id hmem
      have hparameters : moduleIndex < m.readBackParameters.length := by
        rwa [hm.length_eq]
      exact ⟨id, object, _, hpointer, hobject,
        List.getElem?_eq_getElem hparameters⟩

/-- A module can be read when it has at most one position. -/
theorem readModule_returns_iff
    (hm : Collected m.modules m.readBackModules m.readBackParameters)
    (hs : Progress accelerator writes m moduleIndex s)
    {positions : List Int}
    (hpositions : m.readBackParameters[moduleIndex]? = some positions) :
    (∃ s', readModule accelerator writes m.readBackParameters s moduleIndex =
      .ok s') ↔ positions.length ≤ 1 := by
  have hlt := (List.getElem?_eq_some_iff.mp hpositions).1
  rw [hm.length_eq] at hlt
  obtain ⟨id, object, _, hpointer, hobject, -⟩ := hm.module hlt
  rw [readModule, checkedAt_eq_ok.mpr hpositions, ok_bind]
  rcases readPositions_cases accelerator writes
      ((hs.pointers moduleIndex (Nat.le_refl _)).trans hpointer)
      (hs.objects moduleIndex id object (Nat.le_refl _) hpointer hobject)
      positions with
    ⟨rfl, hrun⟩ | ⟨position, rfl, hrun⟩ | ⟨hmore, hrun⟩
  · exact iff_of_true ⟨_, hrun⟩ (Nat.zero_le _)
  · exact iff_of_true ⟨_, hrun⟩ (Nat.le_refl _)
  · rw [hrun]
    exact iff_of_false (by simp) (Nat.not_le.mpr hmore)

/-- Reading one module leaves the modules behind it alone. -/
theorem Progress.readModule
    (hm : Collected m.modules m.readBackModules m.readBackParameters)
    (hs : Progress accelerator writes m moduleIndex s)
    (hindex : moduleIndex < m.readBackModules.length)
    (h : readModule accelerator writes m.readBackParameters s moduleIndex =
      .ok s') :
    Progress accelerator writes m (moduleIndex + 1) s' := by
  obtain ⟨id, object, positions, hpointer, hobject, hpositions⟩ :=
    hm.module hindex
  rw [ReadBack.readModule, checkedAt_eq_ok.mpr hpositions, ok_bind] at h
  rcases readPositions_cases accelerator writes
      ((hs.pointers moduleIndex (Nat.le_refl _)).trans hpointer)
      (hs.objects moduleIndex id object (Nat.le_refl _) hpointer hobject)
      positions with
    ⟨rfl, hrun⟩ | ⟨position, rfl, hrun⟩ | ⟨hmore, hrun⟩
  · rw [hrun, Except.ok.injEq] at h
    subst h
    refine ⟨fun j hj => hs.pointers j (by omega),
      fun j id object hj => hs.objects j id object (by omega), ?_, hs.sums⟩
    rw [hs.readings, results_take_succ hpointer hpositions]
    simp
  · rw [hrun, Except.ok.injEq] at h
    subst h
    refine ⟨fun j hj => ?_, fun j other x hj hother hx => ?_, ?_, ?_⟩
    · rw [List.getElem?_set_ne (by omega)]
      exact hs.pointers j (by omega)
    · refine live_set_none.mpr ⟨hs.objects j other x (by omega) hother hx, ?_⟩
      rintro rfl
      have hplace := hm.holds.unique moduleIndex j other hpointer hother
      omega
    · rw [List.map_append, hs.readings, results_take_succ hpointer hpositions]
      rfl
    · exact forall_mem_concat hs.sums
        ⟨object, dereference_live hobject, rfl⟩
  · rw [hrun] at h
    cases h

theorem readResultsFromRegisters_returns_iff (accelerator : Accelerator)
    (writes : List RegisterWrite)
    (hm : Collected m.modules m.readBackModules m.readBackParameters) :
    (∃ s, readResultsFromRegisters accelerator writes m = .ok s) ↔
      ∀ positions ∈ m.readBackParameters, positions.length ≤ 1 := by
  have hreturns : (∃ s, readResultsFromRegisters accelerator writes m = .ok s) ↔
      ∀ i ∈ List.range m.readBackModules.length, ∀ positions,
        m.readBackParameters[i]? = some positions → positions.length ≤ 1 := by
    refine foldlM_returns_iff
      (fun done s => Progress accelerator writes m done.length s) _ _
      progress_zero ?_ ?_
    · intro before i after s hsplit hs
      obtain ⟨rfl, hindex⟩ := eq_length_of_range_eq hsplit
      obtain ⟨_, _, positions, -, -, hpositions⟩ := hm.module hindex
      rw [readModule_returns_iff hm hs hpositions]
      simp [hpositions]
    · intro before i after s s' hsplit hs hstep
      obtain ⟨rfl, hindex⟩ := eq_length_of_range_eq hsplit
      simpa using hs.readModule hm hindex hstep
  rw [hreturns]
  constructor
  · intro h positions hpositions
    obtain ⟨i, hi⟩ := List.getElem?_of_mem hpositions
    have hlt := (List.getElem?_eq_some_iff.mp hi).1
    rw [hm.length_eq] at hlt
    exact h i (List.mem_range.mpr hlt) positions hi
  · intro h i _ positions hi
    exact h positions (List.mem_of_getElem? hi)

theorem readResultsFromRegisters_ok
    (hm : Collected m.modules m.readBackModules m.readBackParameters)
    (h : readResultsFromRegisters accelerator writes m = .ok s) :
    s.readings.map (fun r => (r.readBackModule, r.position)) = results m ∧
      ∀ r ∈ s.readings, IsSumOf accelerator writes m.modules r := by
  have hs : Progress accelerator writes m m.readBackModules.length s := by
    refine forRange_invariant (Progress accelerator writes m) _ progress_zero
      ?_ h
    intro i s s' hindex hs hstep
    exact hs.readModule hm hindex hstep
  refine ⟨?_, hs.sums⟩
  rw [hs.readings, List.take_of_length_le (by simp), results]

/-- All results of a set-up are read exactly when no module has two. -/
theorem allResultsRead_iff
    (hm : Collected m.modules m.readBackModules m.readBackParameters) :
    AllResultsRead accelerator writes m ↔
      ∀ positions ∈ m.readBackParameters, positions.length ≤ 1 := by
  rw [← readResultsFromRegisters_returns_iff accelerator writes hm]
  constructor
  · rintro ⟨s, hrun, -⟩
    exact ⟨s, hrun⟩
  · rintro ⟨s, hrun⟩
    exact ⟨s, hrun, readResultsFromRegisters_ok hm hrun⟩

end Modules

/-- A sum over chunk 0 of stream 3, which is read at the given positions. -/
def sumNode (positions : List Int) : AcceleratedQueryNode where
  inputStreams := [⟨3, 4, 10, some 0, [], 1⟩]
  outputStreams := [⟨5, 4, 0, some 1, [], 1⟩]
  operationType := .kAggregationSum
  operationModuleLocation := 1
  operationParameters := [[0], positions]

theorem sumNode_setup (positions : List Int) :
    ∃ m, setupQueryAcceleration sevens initial [sumNode positions] = .ok m ∧
      m.modules = [some ⟨1⟩] ∧ m.readBackModules = [some 0] ∧
      m.readBackParameters = [positions] := by
  have hfound : [sumNode positions].foldlM (findNodeStreams sevens)
      (([], noStreams), ([], noStreams)) =
      .ok (([filterInput], Function.update noStreams ⟨3, by decide⟩ true),
        ([filterOutput], Function.update noStreams ⟨5, by decide⟩ true)) := rfl
  obtain ⟨inputs, hinputs⟩ := setupDMAModule_total [filterInput] true
    (by decide) (by decide +kernel)
  obtain ⟨outputs, houtputs⟩ := setupDMAModule_total [filterOutput] false
    (by decide) (by decide +kernel)
  have hclear : clear initial.modules initial.readBackModules = .ok [] := rfl
  have hinactive : initial.inputStreamsActiveStatus = noStreams ∧
      initial.outputStreamsActiveStatus = noStreams := ⟨rfl, rfl⟩
  rw [setupQueryAcceleration, hclear, ok_bind, hinactive.1, hinactive.2, hfound,
    ok_bind]
  simp only [reduceCtorEq, or_self, if_false, hinputs, houtputs, ok_bind]
  exact ⟨_, rfl, rfl, rfl, rfl⟩

/-- After a set-up all results are read exactly when no module has more than one
position. -/
theorem results_all_read_iff {board : Board} {m m' : ReadBackManager}
    {queryNodes : List AcceleratedQueryNode} (accelerator : Accelerator)
    (writes : List RegisterWrite)
    (hsetup : setupQueryAcceleration board m queryNodes = .ok m') :
    AllResultsRead accelerator writes m' ↔
      ∀ positions ∈ m'.readBackParameters, positions.length ≤ 1 :=
  allResultsRead_iff (collected_of_setup hsetup)

theorem results_all_read_iff_at_one_position :
    ∃ m, setupQueryAcceleration sevens initial [sumNode [2]] = .ok m ∧
      AllResultsRead sevens.accelerator m.writes m := by
  obtain ⟨m, hsetup, -, -, hpositions⟩ := sumNode_setup [2]
  refine ⟨m, hsetup, (results_all_read_iff _ _ hsetup).mpr ?_⟩
  rw [hpositions]
  decide

/-- The second of two positions is read through the pointer that the first one
was moved from. -/
theorem results_not_always_read :
    ∃ m, setupQueryAcceleration sevens initial [sumNode [0, 1]] = .ok m ∧
      readResultsFromRegisters sevens.accelerator m.writes m =
        .error .undefined ∧
      ¬AllResultsRead sevens.accelerator m.writes m := by
  obtain ⟨m, hsetup, hmodules, hpointers, hpositions⟩ := sumNode_setup [0, 1]
  have hrun : readResultsFromRegisters sevens.accelerator m.writes m =
      .error .undefined := by
    rw [readResultsFromRegisters, hmodules, hpointers, hpositions]
    rfl
  refine ⟨m, hsetup, hrun, ?_⟩
  rintro ⟨s, hs, -, -⟩
  rw [hrun] at hs
  cases hs

/-! ## Sequences of runs -/

/-- What the set-up of a node writes. -/
def moduleWrites (board : Board) (queryNode : AcceleratedQueryNode) :
    Outcome (List RegisterWrite) :=
  match queryNode.operationType with
  | .kAggregationSum => do
      let inputStream ← readAt queryNode.inputStreams 0
      let writes ← setupAggregationSum ⟨queryNode.operationModuleLocation⟩
        inputStream.streamId queryNode.operationParameters
      let _ ← checkedAt queryNode.operationParameters 1
      .ok writes
  | _ => board.setupModule queryNode

/-- The board whose modules are set up as the sums are here. -/
def withSums (board : Board) : Board :=
  { board with setupModule := moduleWrites board }

theorem setupNode_writes {board : Board} {queryNode : AcceleratedQueryNode}
    {s s' : ModuleSetup} (h : setupNode board s queryNode = .ok s') :
    ∃ writes, moduleWrites board queryNode = .ok writes ∧
      s'.writes = s.writes ++ writes := by
  unfold setupNode at h
  unfold moduleWrites
  split at h
  · simp only [bind_eq_ok, Except.ok.injEq] at h
    obtain ⟨stream, hstream, writes, hwrites, positions, hpositions, rfl⟩ := h
    exact ⟨writes, by simp [hstream, hwrites, hpositions], rfl⟩
  · simp only [bind_eq_ok, Except.ok.injEq] at h
    obtain ⟨writes, hwrites, rfl⟩ := h
    exact ⟨writes, hwrites, rfl⟩

section Runs

variable {board : Board} {m m' : ReadBackManager}
  {queryNodes : List AcceleratedQueryNode}

/-- Without the read-back it is the set-up of the streams. -/
theorem setupQueryAcceleration_refines
    (h : setupQueryAcceleration board m queryNodes = .ok m') :
    ActiveStreams.setupQueryAcceleration (withSums board) m.toFPGAManager
      queryNodes = .ok m'.toFPGAManager := by
  simp only [setupQueryAcceleration, bind_eq_ok] at h
  obtain ⟨modules, -, ⟨inputs, outputs⟩, hfound, h⟩ := h
  split at h
  · cases h
  · next hstreams =>
      simp only [bind_eq_ok, Except.ok.injEq] at h
      obtain ⟨inputSetup, hinputs, outputSetup, houtputs, s, hs, rfl⟩ := h
      have hwrites : ∃ writes,
          queryNodes.mapM (moduleWrites board) = .ok writes ∧
            s.writes = writes.flatten := by
        refine foldlM_invariant (fun done (s : ModuleSetup) => ∃ writes,
          done.mapM (moduleWrites board) = .ok writes ∧
            s.writes = writes.flatten) queryNodes ⟨[], rfl, rfl⟩ ?_ hs
        rintro before queryNode after s s' - ⟨done, hdone, hs⟩ hstep
        obtain ⟨writes, hnode, hs'⟩ := setupNode_writes hstep
        refine ⟨done ++ [writes], ?_, by simp [hs', hs]⟩
        rw [List.mapM_append, hdone, ok_bind]
        simp [hnode]
      obtain ⟨writes, hmodules, hs⟩ := hwrites
      have hfound' : queryNodes.foldlM (findNodeStreams (withSums board))
          (([], m.inputStreamsActiveStatus), ([], m.outputStreamsActiveStatus))
          = .ok (inputs, outputs) := hfound
      rw [ActiveStreams.setupQueryAcceleration, hfound', ok_bind]
      simp only [if_neg hstreams, hinputs, houtputs, ok_bind]
      rw [withSums, hmodules, ok_bind, hs]

theorem runQueryAcceleration_refines {readings : List Reading}
    {sizes : ResultSizes}
    (h : runQueryAcceleration board m = .ok (m', readings, sizes)) :
    ActiveStreams.runQueryAcceleration (withSums board) m.toFPGAManager =
      .ok (m'.toFPGAManager, sizes) := by
  simp only [runQueryAcceleration, bind_eq_ok, Except.ok.injEq,
    Prod.mk.injEq] at h
  obtain ⟨⟨manager, sizes'⟩, hrun, s, -, rfl, -, rfl⟩ := h
  exact hrun

theorem owned_setupNode {queryNode : AcceleratedQueryNode} {s s' : ModuleSetup}
    (hs : Owned s.modules s.readBackModules)
    (h : setupNode board s queryNode = .ok s') :
    Owned s'.modules s'.readBackModules := by
  rcases setupNode_cases h with
    ⟨-, hmodules, hpointers, -⟩ | ⟨-, positions, -, hmodules, hpointers, -⟩
  · rwa [hmodules, hpointers]
  · rw [hmodules, hpointers]
    exact hs.makeUnique _

/-- The modules of the runs before are destroyed by the set-up. -/
theorem owned_setup (hm : Owned m.modules m.readBackModules)
    (h : setupQueryAcceleration board m queryNodes = .ok m') :
    Owned m'.modules m'.readBackModules := by
  obtain ⟨modules, s, hclear, hloop, hmodules, hpointers, -⟩ :=
    setupQueryAcceleration_modules h
  obtain ⟨_, hclear', hempty⟩ := hm.clear
  obtain rfl := Except.ok.inj (hclear'.symm.trans hclear)
  rw [hmodules, hpointers]
  refine foldlM_invariant (fun _ (s : ModuleSetup) =>
    Owned s.modules s.readBackModules) queryNodes hempty ?_ hloop
  intro _ _ _ s s' _ hs hstep
  exact owned_setupNode hs hstep

theorem owned_readResults {accelerator : Accelerator}
    {writes : List RegisterWrite} {s : ReadState}
    (hm : Owned m.modules m.readBackModules)
    (h : readResultsFromRegisters accelerator writes m = .ok s) :
    Owned s.modules s.readBackModules := by
  refine foldlM_invariant (fun _ (s : ReadState) =>
    Owned s.modules s.readBackModules) _ hm ?_ h
  intro _ moduleIndex _ s s' _ hs hstep
  simp only [readModule, bind_eq_ok] at hstep
  obtain ⟨positions, -, hstep⟩ := hstep
  refine foldlM_invariant (fun _ (s : ReadState) =>
    Owned s.modules s.readBackModules) positions hs ?_ hstep
  intro _ position _ t t' _ ht hread
  obtain ⟨id, object, hpointer, -, rfl⟩ := readPosition_eq_ok.mp hread
  exact ht.release hpointer

/-- The manager behind some sequence of pairs that have completed. -/
inductive Completed (board : Board) : ReadBackManager → Prop where
  | initial : Completed board initial
  | pair {m m' m'' : ReadBackManager} {nodes : List AcceleratedQueryNode}
      {readings : List Reading} {sizes : ResultSizes}
      (before : Completed board m)
      (setup : setupQueryAcceleration board m nodes = .ok m')
      (run : runQueryAcceleration board m' = .ok (m'', readings, sizes)) :
      Completed board m''

theorem Completed.refines (h : Completed board m) :
    ActiveStreams.Completed (withSums board) m.toFPGAManager := by
  induction h with
  | initial => exact .initial
  | pair before setup run ih =>
      exact .pair ih (setupQueryAcceleration_refines setup)
        (runQueryAcceleration_refines run)

/-- Over any sequence no module is lost, and none is destroyed twice. -/
theorem Completed.owned (h : Completed board m) :
    Owned m.modules m.readBackModules := by
  induction h with
  | initial => exact owned_empty
  | pair before setup run ih =>
      simp only [runQueryAcceleration, bind_eq_ok, Except.ok.injEq,
        Prod.mk.injEq] at run
      obtain ⟨_, -, s, hread, rfl, -, -⟩ := run
      exact owned_readResults (owned_setup ih setup) hread

end Runs

/-! ## The results of a run -/

/-- The module of a sum and the positions that are read of it. -/
def sumOfNode (queryNode : AcceleratedQueryNode) :
    Option (AggregationSum × List Int) :=
  if queryNode.operationType = .kAggregationSum then
    queryNode.operationParameters[1]?.map fun positions =>
      (⟨queryNode.operationModuleLocation⟩, positions)
  else none

def sumsOf (queryNodes : List AcceleratedQueryNode) :
    List (AggregationSum × List Int) :=
  queryNodes.filterMap sumOfNode

/-- What is to be printed for a sum. -/
def linesOf (accelerator : Accelerator) (writes : List RegisterWrite)
    (sum : AggregationSum × List Int) : List (Int × Int) :=
  sum.2.map fun position =>
    (position, sumOf accelerator writes sum.1 position)

/-- A pointer to the module of a sum, with its positions. -/
def PointsTo (modules : Store AggregationSum) (module : Pointer × List Int)
    (sum : AggregationSum × List Int) : Prop :=
  dereference modules module.1 = .ok sum.1 ∧ module.2 = sum.2

section Results

variable {board : Board} {m m' : ReadBackManager}
  {queryNodes : List AcceleratedQueryNode}

theorem PointsTo.makeUnique {modules : Store AggregationSum}
    {module : Pointer × List Int} {sum : AggregationSum × List Int}
    (h : PointsTo modules module sum) (other : AggregationSum) :
    PointsTo (makeUnique modules other).1 module sum := by
  obtain ⟨id, hid, hlive⟩ := dereference_eq_ok.mp h.1
  exact ⟨dereference_eq_ok.mpr ⟨id, hid, live_makeUnique.mpr (.inl hlive)⟩, h.2⟩

/-- The modules of a set-up are those of its sums. -/
theorem pointsTo_of_setup
    (h : setupQueryAcceleration board m queryNodes = .ok m') :
    List.Forall₂ (PointsTo m'.modules)
      (m'.readBackModules.zip m'.readBackParameters) (sumsOf queryNodes) := by
  obtain ⟨modules, s, -, hloop, hmodules, hpointers, hparameters⟩ :=
    setupQueryAcceleration_modules h
  rw [hmodules, hpointers, hparameters]
  have key := foldlM_invariant (fun done (s : ModuleSetup) =>
    Collected s.modules s.readBackModules s.readBackParameters ∧
      List.Forall₂ (PointsTo s.modules)
        (s.readBackModules.zip s.readBackParameters) (sumsOf done))
    queryNodes ⟨⟨holds_nil modules, List.not_mem_nil, rfl⟩, .nil⟩ ?_ hloop
  · exact key.2
  · rintro before queryNode after s s' - ⟨hs, hpoints⟩ hstep
    refine ⟨hs.setupNode hstep, ?_⟩
    have hsums : sumsOf (before ++ [queryNode]) =
        sumsOf before ++ (sumOfNode queryNode).toList := by
      rw [sumsOf, List.filterMap_append]
      cases hnode : sumOfNode queryNode <;> simp [hnode, sumsOf]
    rw [hsums]
    rcases setupNode_cases hstep with
      ⟨hother, hmodules, hpointers, hparameters⟩ |
        ⟨hsum, positions, hpositions, hmodules, hpointers, hparameters⟩
    · rw [hmodules, hpointers, hparameters]
      simpa [sumOfNode, hother] using hpoints
    · rw [hmodules, hpointers, hparameters,
        List.zip_append hs.length_eq.symm]
      refine List.rel_append (hpoints.imp fun _ _ h => h.makeUnique _) ?_
      rw [sumOfNode, if_pos hsum, hpositions]
      refine .cons ⟨dereference_live ?_, rfl⟩ .nil
      exact live_makeUnique.mpr (.inr ⟨rfl, rfl⟩)

/-- The lines are in the order of the modules and their positions. -/
theorem lines_of_readings {accelerator : Accelerator}
    {writes : List RegisterWrite} {modules : Store AggregationSum}
    {pointers : List (Pointer × List Int)}
    {sums : List (AggregationSum × List Int)} {readings : List Reading}
    (hpoints : List.Forall₂ (PointsTo modules) pointers sums)
    (hreadings : readings.map (fun r => (r.readBackModule, r.position)) =
      pointers.flatMap moduleResults)
    (hsums : ∀ r ∈ readings, IsSumOf accelerator writes modules r) :
    readings.map (fun r => (r.position, r.sum)) =
      sums.flatMap (linesOf accelerator writes) := by
  induction hpoints generalizing readings with
  | nil =>
      rw [List.flatMap_nil, List.map_eq_nil_iff] at hreadings
      rw [hreadings]
      rfl
  | @cons module sum _ _ hmodule _ ih =>
      rw [List.flatMap_cons, List.map_eq_append_iff] at hreadings
      obtain ⟨first, rest, rfl, hfirst, hrest⟩ := hreadings
      rw [List.map_append, List.flatMap_cons,
        ih hrest fun r hr => hsums r (List.mem_append_right _ hr)]
      congr 1
      have hpositions : first.map Reading.position = sum.2 := by
        have h := congrArg (List.map Prod.snd) hfirst
        rw [moduleResults, List.map_map, List.map_map] at h
        rw [← hmodule.2]
        simpa [Function.comp_def] using h
      rw [linesOf, ← hpositions, List.map_map]
      refine List.map_congr_left fun r hr => ?_
      obtain ⟨object, hobject, hsum⟩ := hsums r (List.mem_append_left _ hr)
      have hpointer : r.readBackModule = module.1 := by
        have hmem := List.mem_map_of_mem
          (f := fun r : Reading => (r.readBackModule, r.position)) hr
        rw [hfirst, moduleResults, List.mem_map] at hmem
        obtain ⟨position, -, heq⟩ := hmem
        exact (congrArg Prod.fst heq).symm
      rw [hpointer, hmodule.1, Except.ok.injEq] at hobject
      rw [hsum, ← hobject]
      rfl

theorem readBackParameters_of_setup
    (h : setupQueryAcceleration board m queryNodes = .ok m') :
    m'.readBackParameters = (sumsOf queryNodes).map Prod.snd := by
  have hlength := (collected_of_setup h).length_eq
  have hsame : List.Forall₂ (· = ·)
      ((m'.readBackModules.zip m'.readBackParameters).map Prod.snd)
      ((sumsOf queryNodes).map Prod.snd) := by
    rw [List.forall₂_map_left_iff, List.forall₂_map_right_iff]
    exact (pointsTo_of_setup h).imp fun _ _ h => h.2
  rwa [List.forall₂_eq_eq_eq, List.map_snd_zip hlength.le] at hsame

/-- What has been set up can be run, unless a sum is read twice. -/
theorem runQueryAcceleration_returns_iff
    (h : setupQueryAcceleration board m queryNodes = .ok m') :
    (∃ r, runQueryAcceleration board m' = .ok r) ↔
      ∀ sum ∈ sumsOf queryNodes, sum.2.length ≤ 1 := by
  have hpositions : (∀ sum ∈ sumsOf queryNodes, sum.2.length ≤ 1) ↔
      ∀ positions ∈ m'.readBackParameters, positions.length ≤ 1 := by
    rw [readBackParameters_of_setup h, List.forall_mem_map]
  rw [hpositions]
  constructor
  · rintro ⟨r, hrun⟩
    simp only [runQueryAcceleration, bind_eq_ok] at hrun
    obtain ⟨streams, -, s, hread, -⟩ := hrun
    exact (readResultsFromRegisters_returns_iff _ _ (collected_of_setup h)).mp
      ⟨s, hread⟩
  · intro hmodules
    have hrefines := setupQueryAcceleration_refines h
    obtain ⟨⟨manager, sizes⟩, hstreams⟩ :=
      ActiveStreams.runQueryAcceleration_of_setup hrefines
    have hstreams' : ActiveStreams.runQueryAcceleration board m'.toFPGAManager =
        .ok (manager, sizes) := hstreams
    obtain ⟨s, hread⟩ := (readResultsFromRegisters_returns_iff
      board.accelerator manager.writes (collected_of_setup h)).mpr hmodules
    rw [runQueryAcceleration, hstreams', ok_bind]
    simp only [hread, ok_bind]
    exact ⟨_, rfl⟩

/-- The lines of a run are those of its sums. -/
theorem runQueryAcceleration_lines {m'' : ReadBackManager}
    {readings : List Reading} {sizes : ResultSizes}
    (hsetup : setupQueryAcceleration board m queryNodes = .ok m')
    (hrun : runQueryAcceleration board m' = .ok (m'', readings, sizes)) :
    readings.map (fun r => (r.position, r.sum)) =
      (sumsOf queryNodes).flatMap (linesOf board.accelerator m''.writes) := by
  simp only [runQueryAcceleration, bind_eq_ok, Except.ok.injEq,
    Prod.mk.injEq] at hrun
  obtain ⟨streams, -, s, hread, rfl, rfl, -⟩ := hrun
  obtain ⟨hreadings, hsums⟩ :=
    readResultsFromRegisters_ok (collected_of_setup hsetup) hread
  exact lines_of_readings (pointsTo_of_setup hsetup) hreadings hsums

end Results

/-- Whatever has been run before, the streams of a set-up and its run are those
without the read-back and every live module has one owner.  The run ends unless
a sum is read twice, and prints the two words of each sum in the order of the
nodes and their positions. -/
theorem sums_of_runs (board : Board) (m m' : ReadBackManager)
    (queryNodes : List AcceleratedQueryNode) (hbefore : Completed board m)
    (hsetup : setupQueryAcceleration board m queryNodes = .ok m') :
    ActiveStreams.Completed (withSums board) m.toFPGAManager ∧
    ActiveStreams.setupQueryAcceleration (withSums board) m.toFPGAManager
      queryNodes = .ok m'.toFPGAManager ∧
    Owned m'.modules m'.readBackModules ∧
    ((∃ r, runQueryAcceleration board m' = .ok r) ↔
      ∀ sum ∈ sumsOf queryNodes, sum.2.length ≤ 1) ∧
    ∀ m'' readings sizes,
      runQueryAcceleration board m' = .ok (m'', readings, sizes) →
      ActiveStreams.runQueryAcceleration (withSums board) m'.toFPGAManager =
        .ok (m''.toFPGAManager, sizes) ∧
      Owned m''.modules m''.readBackModules ∧
      readings.map (fun r => (r.position, r.sum)) =
        (sumsOf queryNodes).flatMap (linesOf board.accelerator m''.writes) ∧
      ∀ sum ∈ sumsOf queryNodes, ∀ position ∈ sum.2, 0 ≤ position →
        position ≤ 7 → sumOf board.accelerator m''.writes sum.1 position =
          2 ^ 32 * (sum.1.readFromModule board.accelerator m''.writes
            (64 + (7 - position) * 8 + 4)).toInt +
          (sum.1.readFromModule board.accelerator m''.writes
            (64 + (7 - position) * 8)).toNat := by
  refine ⟨hbefore.refines, setupQueryAcceleration_refines hsetup,
    owned_setup hbefore.owned hsetup, runQueryAcceleration_returns_iff hsetup,
    ?_⟩
  intro m'' readings sizes hrun
  exact ⟨runQueryAcceleration_refines hrun,
    (hbefore.pair hsetup hrun).owned, runQueryAcceleration_lines hsetup hrun,
    fun sum _ position _ hlow hhigh => sumOf_eq _ _ _ hlow hhigh⟩

/-- Both words of a sum are seven. -/
theorem sums_of_runs_sevens :
    ∃ m m' m'' sizes, Completed sevens m ∧
      setupQueryAcceleration sevens m [sumNode [2]] = .ok m' ∧
      (∃ readings, runQueryAcceleration sevens m' =
          .ok (m'', readings, sizes) ∧
        readings.map (fun r => (r.position, r.sum)) = [(2, 7 * 2 ^ 32 + 7)]) ∧
      Owned m''.modules m''.readBackModules := by
  obtain ⟨m, hsetup, -, -, -⟩ := sumNode_setup [2]
  obtain ⟨-, -, -, hreturns, hlines⟩ :=
    sums_of_runs sevens initial m [sumNode [2]] .initial hsetup
  obtain ⟨⟨m', readings, sizes⟩, hrun⟩ := hreturns.mpr (by decide)
  obtain ⟨-, howned, hreadings, hwords⟩ := hlines m' readings sizes hrun
  have hseven : ∀ address, AggregationSum.readFromModule sevens.accelerator
      m'.writes ⟨1⟩ address = 7 := fun _ => rfl
  have hsum := hwords (⟨1⟩, [2]) (List.mem_singleton_self _) 2
    (List.mem_singleton_self _) (by decide) (by decide)
  rw [hseven, hseven] at hsum
  have hline : readings.map (fun r => (r.position, r.sum)) =
      [(2, sumOf sevens.accelerator m'.writes ⟨1⟩ 2)] := hreadings
  rw [hsum] at hline
  exact ⟨initial, m, m', sizes, .initial, hsetup, ⟨readings, hrun, hline⟩,
    howned⟩

end Orkhestra.Ports.ReadBack
