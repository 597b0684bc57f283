import Orkhestra.Ports.DMARegisters
import Orkhestra.Ports.ModuleSwitch

/-!
# The windows of the modules

Each module on the FPGA has a window of 1 MiB of registers behind the window of
the DMA engine.  A set-up of a run does not reset the registers; it writes those
of the DMA engine and of the modules of its own nodes.

When the modules stand at different positions and their parameters keep them in
their windows, no module changes a register of another one.  What a register
holds is then the word that the last run with a write to it has written for its
own module, whatever the other modules of the runs are (`registers_of_runs`).
-/

namespace Orkhestra.Ports.ModuleWindows

open Orkhestra.Verified.Checked
open Orkhestra.Verified.Log
open Orkhestra.Verified.RegisterMap
open Orkhestra.Ports.QuerySchedulingData
open Orkhestra.Ports.QueryManager
open Orkhestra.Ports.DMA
open Orkhestra.Ports.DMASetup
open Orkhestra.Ports.DMADomain
open Orkhestra.Ports.DMARegisters
open Orkhestra.Ports.ActiveStreams
open Orkhestra.Ports.ModuleSwitch
open Orkhestra.Ports.ReadBack (calculateMemoryMappedAddress)

/-! ## Contents of the registers -/

/-- What a register holds behind the writes: the last word that was written to
it, or its word from before. -/
def contents (before : Int → Nat) (writes : List RegisterWrite)
    (address : Int) : Nat :=
  ((lastWith RegisterWrite.address writes address).map (·.data)).getD
    (before address)

section Contents

variable {before : Int → Nat}

theorem contents_append (writes writes' : List RegisterWrite) :
    contents before (writes ++ writes') =
      contents (contents before writes) writes' := by
  funext address
  simp only [contents, lastWith_append]
  cases lastWith RegisterWrite.address writes' address <;> rfl

/-- All writes to a register agree. -/
theorem contents_of_agree {writes : List RegisterWrite} {address : Int}
    {data : Nat} (hwritten : ∃ w ∈ writes, w.address = address)
    (hagree : ∀ w ∈ writes, w.address = address → w.data = data) :
    contents before writes address = data := by
  obtain ⟨w, hw, haddress⟩ := hwritten
  rw [contents]
  cases hlast : lastWith RegisterWrite.address writes address with
  | none => exact absurd haddress (lastWith_eq_none.mp hlast w hw)
  | some w' =>
      obtain ⟨hw', haddress'⟩ := lastWith_eq_some hlast
      exact hagree w' hw' haddress'

/-- The registers of the module at a position. -/
def window (registers : Int → Nat) (modulePosition : Int) : Int → Nat :=
  fun address => registers (calculateMemoryMappedAddress modulePosition address)

theorem lastWith_placed (p : Int) (writes : List RegisterWrite) (a : Int) :
    lastWith RegisterWrite.address (placed p writes)
        (calculateMemoryMappedAddress p a) =
      (lastWith RegisterWrite.address writes a).map fun w =>
        ⟨calculateMemoryMappedAddress p w.address, w.data⟩ :=
  lastWith_map RegisterWrite.address _ (mappedAddress_injective p)
    (fun _ => rfl) writes a

theorem lastWith_placed_of_ne {p p' a : Int} {writes : List RegisterWrite}
    (hinside : Inside writes) (ha : InWindow a) (hne : p' ≠ p) :
    lastWith RegisterWrite.address (placed p' writes)
      (calculateMemoryMappedAddress p a) = none := by
  rw [lastWith_eq_none]
  intro w hw heq
  obtain ⟨w', hw', rfl⟩ := List.mem_map.mp hw
  exact hne ((mappedAddress_inj (hinside w' hw') ha).mp heq).1

end Contents

/-! ## The registers of the DMA engine -/

section Found

variable {board : Board}

/-- The stream is one of those with memory. -/
def FoundFor (board : Board) (operationParameters : List (List Int))
    (isMultichannelStream : Bool) (streams : List StreamDataParameters)
    (s : StreamInitData) : Prop :=
  ∃ stream ∈ streams, streamAddress board stream ≠ 0 ∧
    stream.streamId < kMaxIOStreamCount ∧
    streamInitData board operationParameters isMultichannelStream stream =
      .ok s

theorem streamInitData_streamId {params : List (List Int)} {multichannel : Bool}
    {stream : StreamDataParameters} {s : StreamInitData}
    (h : streamInitData board params multichannel stream = .ok s) :
    s.streamId = stream.streamId := by
  unfold streamInitData at h
  split at h
  · simp only [bind_eq_ok, Except.ok.injEq] at h
    obtain ⟨_, -, _, -, _, -, rfl⟩ := h
    rfl
  · obtain rfl := Except.ok.inj h
    rfl

theorem foundFor_concat {params : List (List Int)} {multichannel : Bool}
    {streams : List StreamDataParameters} {stream : StreamDataParameters}
    {s : StreamInitData} :
    FoundFor board params multichannel (streams ++ [stream]) s ↔
      FoundFor board params multichannel streams s ∨
        FoundFor board params multichannel [stream] s := by
  simp only [FoundFor, List.mem_append, or_and_right, exists_or]

theorem mem_findIOStream {params : List (List Int)} {multichannel : Bool}
    {stream : StreamDataParameters} {t t' : FoundStreams}
    (h : findIOStream board params multichannel t stream = .ok t')
    {s : StreamInitData} :
    s ∈ t'.1 ↔ s ∈ t.1 ∨ FoundFor board params multichannel [stream] s := by
  simp only [FoundFor, List.mem_singleton, exists_eq_left]
  unfold findIOStream at h
  split at h
  · next haddress =>
      simp only [bind_eq_ok, Except.ok.injEq] at h
      obtain ⟨found, hfound, status, hstatus, rfl⟩ := h
      have hid : stream.streamId < kMaxIOStreamCount := by
        unfold setActive at hstatus
        split at hstatus
        · assumption
        · cases hstatus
      simp only [List.mem_append, List.mem_singleton, hfound, haddress, hid,
        ne_eq, not_false_eq_true, true_and, Except.ok.injEq, eq_comm]
  · next haddress =>
      obtain rfl := Except.ok.inj h
      simp [haddress]

theorem mem_findIOStreams_iff {params : List (List Int)} {multichannel : Bool}
    {streams : List StreamDataParameters} {t t' : FoundStreams}
    (h : findIOStreams board streams params multichannel t = .ok t')
    {s : StreamInitData} :
    s ∈ t'.1 ↔ s ∈ t.1 ∨ FoundFor board params multichannel streams s := by
  refine foldlM_invariant (fun done (u : FoundStreams) =>
    s ∈ u.1 ↔ s ∈ t.1 ∨ FoundFor board params multichannel done s) streams
    (by simp [FoundFor]) ?_ h
  intro before stream after u u' _ hu hstep
  rw [mem_findIOStream hstep, hu, foundFor_concat, or_assoc]

/-- The streams with memory of the nodes, as the DMA engine takes them. -/
def FoundInput (board : Board) (nodes : List AcceleratedQueryNode)
    (s : StreamInitData) : Prop :=
  ∃ node ∈ nodes, FoundFor board node.operationParameters
    (node.operationType = .kMergeSort) node.inputStreams s

def FoundOutput (board : Board) (nodes : List AcceleratedQueryNode)
    (s : StreamInitData) : Prop :=
  ∃ node ∈ nodes, FoundFor board node.operationParameters false
    node.outputStreams s

theorem mem_findNodeStreams_iff {nodes : List AcceleratedQueryNode}
    {t t' : FoundStreams × FoundStreams}
    (h : nodes.foldlM (findNodeStreams board) t = .ok t')
    {s : StreamInitData} :
    (s ∈ t'.1.1 ↔ s ∈ t.1.1 ∨ FoundInput board nodes s) ∧
      (s ∈ t'.2.1 ↔ s ∈ t.2.1 ∨ FoundOutput board nodes s) := by
  refine foldlM_invariant (fun done (u : FoundStreams × FoundStreams) =>
    (s ∈ u.1.1 ↔ s ∈ t.1.1 ∨ FoundInput board done s) ∧
      (s ∈ u.2.1 ↔ s ∈ t.2.1 ∨ FoundOutput board done s)) nodes
    (by simp [FoundInput, FoundOutput]) ?_ h
  intro before node after u u' _ ⟨hinputs, houtputs⟩ hstep
  simp only [findNodeStreams, bind_eq_ok, Except.ok.injEq] at hstep
  obtain ⟨inputs, hfound, outputs, hfound', rfl⟩ := hstep
  rw [mem_findIOStreams_iff hfound, mem_findIOStreams_iff hfound', hinputs,
    houtputs]
  simp only [FoundInput, FoundOutput, List.mem_append, List.mem_singleton,
    or_and_right, exists_or, exists_eq_left, or_assoc, and_self]

end Found

/-- The channels of a merge sort fit the hardware. -/
def ChannelsFit (s : StreamInitData) : Prop :=
  s.maxChannelCount ≠ -1 → 0 < s.maxChannelCount ∧ channelCount s ≤ 1024

/-- All banks of the DMA engine are in its window. -/
theorem bank_inWindow (kind : RegisterKind) :
    0 ≤ kind.bank.start ∧ kind.bank.stop kMaxIOStreamCount ≤ 1024 * 1024 := by
  rcases kind with ⟨_ | _⟩ | ⟨_ | _⟩ | ⟨_ | _⟩ | _ | _ | ⟨_ | _ | _ | _⟩ | _ | _ |
    _ | _ | _ <;> decide

theorem setupDMAModule_inside {streams : List StreamInitData}
    {isInputStream : Bool} {setup : DMAModuleSetup}
    (hcapacity : ∀ s ∈ streams, WithinCapacity isInputStream s)
    (h : setupDMAModule streams isInputStream = .ok setup) :
    Inside setup.writes := by
  intro w hw
  obtain ⟨number, hnumber, haddresses⟩ := setupDMAModule_addresses h
  have hmem : w.address ∈ setup.writes.map (·.address) :=
    List.mem_map_of_mem hw
  rw [haddresses, List.mem_append, List.mem_flatMap] at hmem
  rcases hmem with ⟨stream, hstream, hmem⟩ | hmem
  · obtain ⟨r, hr, haddress⟩ := List.mem_map.mp hmem
    obtain ⟨s, hs, hregisters⟩ :=
      exists_of_mem_right (setupDMAModule_registersOf h) hstream
    obtain ⟨hunit, hindex⟩ := inRange_of_mem hregisters (hcapacity s hs) hr
    obtain ⟨hstart, hstop⟩ := bank_inWindow r.kind
    have hlow := Bank.start_le_address hindex r.streamId
    have hhigh := Bank.address_lt_stop hindex hunit
    rw [← haddress, Register.address]
    exact ⟨by omega, by omega⟩
  · rcases hnumber with rfl | ⟨-, rfl⟩
    · cases hmem
    · rw [List.mem_singleton.mp hmem]
      decide

/-! ## A set-up -/

/-- A node that is passed through has no module. -/
def HasModule (queryNode : AcceleratedQueryNode) : Prop :=
  queryNode.operationType ≠ .kPassThrough

instance (queryNode : AcceleratedQueryNode) : Decidable (HasModule queryNode) :=
  inferInstanceAs (Decidable (_ ≠ _))

/-- The modules of a run stand at different positions behind the DMA engine,
their parameters do not lead out of the windows, and the channels of each stream
have registers. -/
structure InWindows (board : Board) (nodes : List AcceleratedQueryNode) :
    Prop where
  positions : ((nodes.filter HasModule).map (·.operationModuleLocation)).Nodup
  behind : ∀ q ∈ nodes, HasModule q → 0 < q.operationModuleLocation
  fits : ∀ q ∈ nodes, FitsWindow q
  channels : ∀ s, FoundInput board nodes s → ChannelsFit s

theorem InWindows.eq_of_position {board : Board}
    {nodes : List AcceleratedQueryNode} (h : InWindows board nodes)
    {q q' : AcceleratedQueryNode} (hq : q ∈ nodes) (hq' : q' ∈ nodes)
    (hmodule : HasModule q) (hmodule' : HasModule q')
    (heq : q.operationModuleLocation = q'.operationModuleLocation) : q = q' :=
  List.inj_on_of_nodup_map h.positions
    (List.mem_filter.mpr ⟨hq, decide_eq_true hmodule⟩)
    (List.mem_filter.mpr ⟨hq', decide_eq_true hmodule'⟩) heq

/-- What the set-up writes to the module of a node. -/
def ownWrites (queryNode : AcceleratedQueryNode) : List RegisterWrite :=
  (configureModule queryNode).toOption.getD []

theorem ownWrites_of_ok {queryNode : AcceleratedQueryNode}
    {writes : List RegisterWrite}
    (h : configureModule queryNode = .ok writes) :
    ownWrites queryNode = writes := by
  rw [ownWrites, h]
  rfl

theorem ownWrites_inside {queryNode : AcceleratedQueryNode}
    (hfits : FitsWindow queryNode) : Inside (ownWrites queryNode) := by
  cases h : configureModule queryNode with
  | error fault =>
      rw [ownWrites, h]
      exact List.forall_mem_nil _
  | ok writes =>
      rw [ownWrites_of_ok h]
      exact configureModule_inside hfits h

/-- The writes of a node without a module. -/
theorem ownWrites_of_passThrough {queryNode : AcceleratedQueryNode}
    (h : ¬HasModule queryNode) : ownWrites queryNode = [] := by
  have htype : queryNode.operationType = .kPassThrough := not_not.mp h
  rw [ownWrites, configureModule, htype]
  rfl

/-- What the set-up writes to the DMA engine. -/
def dmaWrites (inputSetup outputSetup : DMAModuleSetup)
    (inputStreamsActiveStatus : StreamStatus) : List RegisterWrite :=
  globalReset :: inputSetup.writes ++ outputSetup.writes ++
    [startController true inputStreamsActiveStatus]

/-- What a set-up that returns has done. -/
structure SetUp (board : Board) (nodes : List AcceleratedQueryNode)
    (m m' : FPGAManager) (inputs outputs : List StreamInitData)
    (inputSetup outputSetup : DMAModuleSetup) : Prop where
  inputs_iff : ∀ s, s ∈ inputs ↔ FoundInput board nodes s
  outputs_iff : ∀ s, s ∈ outputs ↔ FoundOutput board nodes s
  inputSetup_eq : setupDMAModule inputs true = .ok inputSetup
  outputSetup_eq : setupDMAModule outputs false = .ok outputSetup
  configured : ∀ q ∈ nodes, configureModule q = .ok (ownWrites q)
  writes_eq : m'.writes = m.writes ++
    dmaWrites inputSetup outputSetup m'.inputStreamsActiveStatus ++
    nodes.flatMap fun q => placed q.operationModuleLocation (ownWrites q)

section SetUp

variable {physicalAddress : Block → Nat} {accelerator : Accelerator}
  {nodes : List AcceleratedQueryNode} {m m' : FPGAManager}

theorem exists_setUp
    (h : setupQueryAcceleration (moduleBoard physicalAddress accelerator) m
      nodes = .ok m') :
    ∃ inputs outputs inputSetup outputSetup,
      SetUp (moduleBoard physicalAddress accelerator) nodes m m' inputs outputs
        inputSetup outputSetup := by
  simp only [setupQueryAcceleration, bind_eq_ok] at h
  obtain ⟨⟨inputs, outputs⟩, hfound, h⟩ := h
  split at h
  · cases h
  · simp only [bind_eq_ok, Except.ok.injEq] at h
    obtain ⟨inputSetup, hinputs, outputSetup, houtputs, moduleWrites, hmodules,
      rfl⟩ := h
    have hmem := fun s => mem_findNodeStreams_iff (s := s) hfound
    have hconfigured : ∀ q ∈ nodes, configureModule q = .ok (ownWrites q) := by
      intro q hq
      obtain ⟨writes, hwrites⟩ :=
        mapM_returns_iff.mp ⟨moduleWrites, hmodules⟩ q hq
      obtain ⟨own, hown, -⟩ := bind_eq_ok.mp hwrites
      rw [ownWrites_of_ok hown, hown]
    have hwrites : nodes.mapM setupModule = .ok (nodes.map fun q =>
        placed q.operationModuleLocation (ownWrites q)) := by
      refine mapM_total nodes fun q hq => ?_
      rw [setupModule, hconfigured q hq, ok_bind]
    obtain rfl := Except.ok.inj (hmodules.symm.trans hwrites)
    refine ⟨inputs.1, outputs.1, inputSetup, outputSetup,
      fun s => ?_, fun s => ?_, hinputs, houtputs, hconfigured, ?_⟩
    · rw [(hmem s).1]
      simp
    · rw [(hmem s).2]
      simp
    · simp only [dmaWrites, List.flatMap_def, List.append_assoc,
        List.cons_append, List.nil_append]

variable {board : Board} {inputs outputs : List StreamInitData}
  {inputSetup outputSetup : DMAModuleSetup} {before : Int → Nat}

theorem SetUp.inputs_withinCapacity
    (h : SetUp board nodes m m' inputs outputs inputSetup outputSetup)
    (hnodes : InWindows board nodes) : ∀ s ∈ inputs, WithinCapacity true s := by
  intro s hs
  have hfound := (h.inputs_iff s).mp hs
  obtain ⟨node, -, stream, -, -, hid, hdata⟩ := id hfound
  exact ⟨by rwa [streamInitData_streamId hdata],
    fun _ => hnodes.channels s hfound⟩

theorem SetUp.outputs_withinCapacity
    (h : SetUp board nodes m m' inputs outputs inputSetup outputSetup) :
    ∀ s ∈ outputs, WithinCapacity false s := by
  intro s hs
  obtain ⟨node, -, stream, -, -, hid, hdata⟩ := (h.outputs_iff s).mp hs
  exact ⟨by rwa [streamInitData_streamId hdata], fun hinput => by cases hinput⟩

theorem SetUp.dma_inside
    (h : SetUp board nodes m m' inputs outputs inputSetup outputSetup)
    (hnodes : InWindows board nodes) (status : StreamStatus) :
    Inside (dmaWrites inputSetup outputSetup status) := by
  refine inside_append.mpr ⟨inside_append.mpr ⟨inside_cons.mpr
    ⟨show InWindow 8 by decide, ?_⟩, ?_⟩,
    inside_singleton (show InWindow 0 by decide)⟩
  · exact setupDMAModule_inside (h.inputs_withinCapacity hnodes)
      h.inputSetup_eq
  · exact setupDMAModule_inside h.outputs_withinCapacity h.outputSetup_eq

/-- A node writes to the module at another position or to none. -/
theorem lastWith_of_other_node (hnodes : InWindows board nodes)
    {q : AcceleratedQueryNode} (hq : q ∈ nodes) {p : Int}
    (hp : HasModule q → q.operationModuleLocation ≠ p) {a : Int}
    (ha : InWindow a) :
    lastWith RegisterWrite.address
        (placed q.operationModuleLocation (ownWrites q))
        (calculateMemoryMappedAddress p a) = none := by
  by_cases hmodule : HasModule q
  · exact lastWith_placed_of_ne (ownWrites_inside (hnodes.fits q hq)) ha
      (hp hmodule)
  · rw [ownWrites_of_passThrough hmodule]
    rfl

theorem lastWith_modules_of_node (hnodes : InWindows board nodes)
    {q : AcceleratedQueryNode} (hq : q ∈ nodes) (hmodule : HasModule q) {a : Int}
    (ha : InWindow a) :
    lastWith RegisterWrite.address
        (nodes.flatMap fun q => placed q.operationModuleLocation (ownWrites q))
        (calculateMemoryMappedAddress q.operationModuleLocation a) =
      lastWith RegisterWrite.address
        (placed q.operationModuleLocation (ownWrites q))
        (calculateMemoryMappedAddress q.operationModuleLocation a) := by
  refine lastWith_flatMap_of_unique hq fun other hother hne => ?_
  exact lastWith_of_other_node hnodes hother (fun hmodule' heq =>
    hne (hnodes.eq_of_position hother hq hmodule' hmodule heq)) ha

theorem lastWith_modules_of_other (hnodes : InWindows board nodes) {p : Int}
    (hp : ∀ q ∈ nodes, HasModule q → q.operationModuleLocation ≠ p) {a : Int}
    (ha : InWindow a) :
    lastWith RegisterWrite.address
        (nodes.flatMap fun q => placed q.operationModuleLocation (ownWrites q))
        (calculateMemoryMappedAddress p a) = none :=
  lastWith_flatMap_eq_none fun q hq =>
    lastWith_of_other_node hnodes hq (hp q hq) ha

/-- The writes of the DMA engine are those of a module at position 0. -/
theorem placed_zero (writes : List RegisterWrite) : placed 0 writes = writes := by
  simp [placed, calculateMemoryMappedAddress]

theorem lastWith_dma_of_pos {writes : List RegisterWrite}
    (hinside : Inside writes) {p a : Int} (hp : 0 < p) (ha : InWindow a) :
    lastWith RegisterWrite.address writes (calculateMemoryMappedAddress p a) =
      none := by
  rw [← placed_zero writes]
  exact lastWith_placed_of_ne hinside ha (by omega)

/-- The module of a node holds its own writes over what was there before. -/
theorem SetUp.window_of_node
    (h : SetUp board nodes m m' inputs outputs inputSetup outputSetup)
    (hnodes : InWindows board nodes) {q : AcceleratedQueryNode} (hq : q ∈ nodes)
    (hmodule : HasModule q) {a : Int} (ha : InWindow a) :
    window (contents before m'.writes) q.operationModuleLocation a =
      contents (window (contents before m.writes) q.operationModuleLocation)
        (ownWrites q) a := by
  have hdma := lastWith_dma_of_pos
    (h.dma_inside hnodes m'.inputStreamsActiveStatus)
    (hnodes.behind q hq hmodule) ha
  simp only [window, contents, h.writes_eq, lastWith_append, hdma,
    lastWith_modules_of_node hnodes hq hmodule ha, lastWith_placed,
    Option.none_or]
  cases lastWith RegisterWrite.address (ownWrites q) a <;> rfl

/-- A position without a module of the run keeps its registers. -/
theorem SetUp.window_of_other
    (h : SetUp board nodes m m' inputs outputs inputSetup outputSetup)
    (hnodes : InWindows board nodes) {p : Int} (hpos : 0 < p)
    (hp : ∀ q ∈ nodes, HasModule q → q.operationModuleLocation ≠ p) {a : Int}
    (ha : InWindow a) :
    window (contents before m'.writes) p a =
      window (contents before m.writes) p a := by
  have hdma := lastWith_dma_of_pos
    (h.dma_inside hnodes m'.inputStreamsActiveStatus) hpos ha
  simp only [window, contents, h.writes_eq, lastWith_append, hdma,
    lastWith_modules_of_other hnodes hp ha, Option.none_or]

/-- The modules do not write to the DMA engine. -/
theorem SetUp.contents_of_dma
    (h : SetUp board nodes m m' inputs outputs inputSetup outputSetup)
    (hnodes : InWindows board nodes) {a : Int} (ha : InWindow a) :
    contents before m'.writes a =
      contents (contents before m.writes)
        (dmaWrites inputSetup outputSetup m'.inputStreamsActiveStatus) a := by
  have hmodules := lastWith_modules_of_other hnodes
    (fun q hq hmodule => (hnodes.behind q hq hmodule).ne') ha
  have hzero : calculateMemoryMappedAddress 0 a = a := by
    simp [calculateMemoryMappedAddress]
  rw [hzero] at hmodules
  rw [← contents_append]
  simp only [contents, h.writes_eq, lastWith_append, hmodules, Option.none_or]

end SetUp

/-! ## Sequences of runs -/

/-- The manager behind the runs, each of which has completed. -/
inductive Completed (board : Board) :
    List (List AcceleratedQueryNode) → FPGAManager → Prop where
  | initial : Completed board [] initial
  | pair {runs : List (List AcceleratedQueryNode)} {m m' m'' : FPGAManager}
      {nodes : List AcceleratedQueryNode} {sizes : ResultSizes}
      (previous : Completed board runs m)
      (setup : setupQueryAcceleration board m nodes = .ok m')
      (run : runQueryAcceleration board m' = .ok (m'', sizes)) :
      Completed board (runs ++ [nodes]) m''

/-- The node of a run whose module is at a position. -/
def nodeOf (nodes : List AcceleratedQueryNode) (modulePosition : Int) :
    Option AcceleratedQueryNode :=
  nodes.find? fun q =>
    HasModule q ∧ q.operationModuleLocation = modulePosition

/-- A module on its own: a run in which it has a node changes its registers by
the writes of this node. -/
def configured (modulePosition : Int) (registers : Int → Nat)
    (nodes : List AcceleratedQueryNode) : Int → Nat :=
  match nodeOf nodes modulePosition with
  | some q => contents registers (ownWrites q)
  | none => registers

theorem configured_congr {p a : Int} {registers registers' : Int → Nat}
    (nodes : List AcceleratedQueryNode) (h : registers a = registers' a) :
    configured p registers nodes a = configured p registers' nodes a := by
  unfold configured
  cases nodeOf nodes p with
  | none => exact h
  | some q => simp only [contents, h]

theorem window_of_setup {physicalAddress : Block → Nat}
    {accelerator : Accelerator} {nodes : List AcceleratedQueryNode}
    {m m' : FPGAManager} {before : Int → Nat}
    (h : setupQueryAcceleration (moduleBoard physicalAddress accelerator) m
      nodes = .ok m')
    (hnodes : InWindows (moduleBoard physicalAddress accelerator) nodes)
    {p : Int} (hp : 0 < p) {a : Int} (ha : InWindow a) :
    window (contents before m'.writes) p a =
      configured p (window (contents before m.writes) p) nodes a := by
  obtain ⟨inputs, outputs, inputSetup, outputSetup, hsetup⟩ := exists_setUp h
  unfold configured
  cases hfind : nodeOf nodes p with
  | some q =>
      have hq := List.mem_of_find?_eq_some hfind
      obtain ⟨hmodule, hlocation⟩ : HasModule q ∧
          q.operationModuleLocation = p := by
        simpa using List.find?_some hfind
      subst hlocation
      exact hsetup.window_of_node hnodes hq hmodule ha
  | none =>
      refine hsetup.window_of_other hnodes hp (fun q hq => ?_) ha
      simpa using List.find?_eq_none.mp hfind q hq

/-- The run itself only starts the controllers. -/
theorem window_of_run {board : Board} {m m' : FPGAManager}
    {sizes : ResultSizes} {before : Int → Nat}
    (h : runQueryAcceleration board m = .ok (m', sizes)) {p : Int}
    (hp : 0 < p) {a : Int} (ha : InWindow a) :
    window (contents before m'.writes) p a =
      window (contents before m.writes) p a := by
  obtain ⟨-, -, hwrites, -⟩ := runQueryAcceleration_spec h
  have hcontroller : Inside [startController false m.outputStreamsActiveStatus] :=
    inside_singleton (show InWindow (2 ^ 16 + 3 * 2 ^ 6) by decide)
  simp only [window, contents, hwrites, lastWith_append,
    lastWith_dma_of_pos hcontroller hp ha, Option.none_or]

/-- Over any sequence of runs a module has the registers that it has on its own:
neither the other modules nor the streams of any run show in them, and what a
run does not write is left from the runs before. -/
theorem registers_of_runs (physicalAddress : Block → Nat)
    (accelerator : Accelerator) (before : Int → Nat)
    (runs : List (List AcceleratedQueryNode)) (m : FPGAManager)
    (hruns : Completed (moduleBoard physicalAddress accelerator) runs m)
    (hnodes : ∀ nodes ∈ runs,
      InWindows (moduleBoard physicalAddress accelerator) nodes)
    (p : Int) (hp : 0 < p) (a : Int) (ha : InWindow a) :
    window (contents before m.writes) p a =
      runs.foldl (configured p) (window before p) a := by
  induction hruns with
  | initial => rfl
  | @pair runs m m' m'' nodes sizes previous setup run ih =>
      have ih := ih fun nodes hmem => hnodes nodes (List.mem_append_left _ hmem)
      have hlast := hnodes nodes (by simp)
      rw [window_of_run run hp ha, window_of_setup setup hlast hp ha,
        List.foldl_append, List.foldl_cons, List.foldl_nil]
      exact configured_congr nodes ih

/-! ## Two runs -/

/-- The board with registers of 7 and the modules of the switch. -/
def sevensModules : Board :=
  moduleBoard sevens.physicalAddress sevens.accelerator

/-- A node from stream 3 to stream 5, both in memory. -/
def nodeAt (operationType : QueryOperationType) (modulePosition : Int)
    (operationParameters : List (List Int)) : AcceleratedQueryNode where
  inputStreams := [⟨3, 4, 10, some 0, [], 1⟩]
  outputStreams := [⟨5, 4, 0, some 1, [], 1⟩]
  operationType := operationType
  operationModuleLocation := modulePosition
  operationParameters := operationParameters

section NodeAt

variable {operationType : QueryOperationType} {modulePosition : Int}
  {operationParameters : List (List Int)} {m m' : FPGAManager}

theorem nodeAt_setup (m : FPGAManager) (hsort : operationType ≠ .kMergeSort)
    (hmodule : ∃ writes, configureModule
      (nodeAt operationType modulePosition operationParameters) = .ok writes) :
    ∃ m', setupQueryAcceleration sevensModules m
      [nodeAt operationType modulePosition operationParameters] = .ok m' := by
  obtain ⟨writes, hwrites⟩ := hmodule
  have hchannels : decide ((nodeAt operationType modulePosition
      operationParameters).operationType = .kMergeSort) = false :=
    decide_eq_false hsort
  have hfound : [nodeAt operationType modulePosition
        operationParameters].foldlM (findNodeStreams sevensModules)
      (([], m.inputStreamsActiveStatus), ([], m.outputStreamsActiveStatus)) =
      .ok (([filterInput], Function.update m.inputStreamsActiveStatus
          ⟨3, by decide⟩ true),
        ([filterOutput], Function.update m.outputStreamsActiveStatus
          ⟨5, by decide⟩ true)) := by
    rw [List.foldlM_cons, findNodeStreams, hchannels]
    rfl
  obtain ⟨inputs, hinputs⟩ := setupDMAModule_total [filterInput] true
    (by decide) (by decide +kernel)
  obtain ⟨outputs, houtputs⟩ := setupDMAModule_total [filterOutput] false
    (by decide) (by decide +kernel)
  have hmodules : [nodeAt operationType modulePosition
      operationParameters].mapM sevensModules.setupModule =
        .ok [placed modulePosition writes] := by
    rw [List.mapM_cons, show sevensModules.setupModule = setupModule from rfl,
      setupModule, hwrites]
    rfl
  rw [setupQueryAcceleration, hfound, ok_bind]
  simp only [reduceCtorEq, or_self, if_false, hinputs, houtputs, hmodules,
    ok_bind]
  exact ⟨_, rfl⟩

theorem nodeAt_run
    (h : setupQueryAcceleration sevensModules m
      [nodeAt operationType modulePosition operationParameters] = .ok m') :
    ∃ r, runQueryAcceleration sevensModules m' = .ok r := by
  obtain ⟨hinputs, houtputs, -⟩ := setupQueryAcceleration_spec h
  have hin := (hinputs ⟨3, by decide⟩).mpr (.inr
    ⟨⟨3, 4, 10, some 0, [], 1⟩, List.mem_singleton_self _, by decide, rfl⟩)
  have hout := (houtputs ⟨5, by decide⟩).mpr (.inr
    ⟨⟨5, 4, 0, some 1, [], 1⟩, List.mem_singleton_self _, by decide, rfl⟩)
  have hne : ¬(findActiveStreams m'.inputStreamsActiveStatus = [] ∨
      findActiveStreams m'.outputStreamsActiveStatus = []) := by
    rw [not_or]
    exact ⟨List.ne_nil_of_mem (mem_findActiveStreams.mpr hin),
      List.ne_nil_of_mem (mem_findActiveStreams.mpr hout)⟩
  exact ⟨_, if_neg hne⟩

/-- The only stream that is read from memory. -/
theorem foundInput_nodeAt (hsort : operationType ≠ .kMergeSort)
    {s : StreamInitData} : FoundInput sevensModules
      [nodeAt operationType modulePosition operationParameters] s ↔
        s = filterInput := by
  have hchannels : decide ((nodeAt operationType modulePosition
      operationParameters).operationType = .kMergeSort) = false :=
    decide_eq_false hsort
  constructor
  · rintro ⟨node, hnode, stream, hstream, -, -, hs⟩
    obtain rfl := List.mem_singleton.mp hnode
    obtain rfl := List.mem_singleton.mp hstream
    rw [hchannels] at hs
    exact (Except.ok.inj hs).symm
  · rintro rfl
    refine ⟨_, List.mem_singleton_self _, _, List.mem_singleton_self _,
      by decide, by decide, ?_⟩
    rw [hchannels]
    rfl

theorem nodeAt_inWindows (hsort : operationType ≠ .kMergeSort)
    (hbehind : 0 < modulePosition)
    (hfits : FitsWindow
      (nodeAt operationType modulePosition operationParameters)) :
    InWindows sevensModules
      [nodeAt operationType modulePosition operationParameters] := by
  refine ⟨?_, List.forall_mem_singleton.mpr fun _ => hbehind,
    List.forall_mem_singleton.mpr hfits, fun s hs hchannels => ?_⟩
  · exact (List.nodup_singleton _).sublist (List.filter_sublist.map _)
  obtain rfl := (foundInput_nodeAt hsort).mp hs
  exact absurd rfl hchannels

end NodeAt

/-- A sort at position 1 and a later sum at position 2: the stream of the sort
is still set, and its register 64 has not been written. -/
theorem registers_of_runs_sort_and_sum :
    ∃ m, Completed sevensModules
        [[nodeAt .kLinearSort 1 []],
          [nodeAt .kAggregationSum 2 [[0], [2]]]] m ∧
      ∀ before : Int → Nat, window (contents before m.writes) 1 4 = 3 ∧
        window (contents before m.writes) 1 64 = window before 1 64 := by
  have hsort : ∃ writes, configureModule (nodeAt .kLinearSort 1 []) =
      .ok writes := ⟨_, rfl⟩
  have hsum : ∃ writes, configureModule (nodeAt .kAggregationSum 2 [[0], [2]]) =
      .ok writes := ⟨_, rfl⟩
  obtain ⟨m₁, hsetup₁⟩ := nodeAt_setup initial (by decide) hsort
  obtain ⟨⟨m₂, sizes₁⟩, hrun₁⟩ := nodeAt_run hsetup₁
  obtain ⟨m₃, hsetup₂⟩ := nodeAt_setup m₂ (by decide) hsum
  obtain ⟨⟨m, sizes₂⟩, hrun₂⟩ := nodeAt_run hsetup₂
  have hruns : Completed sevensModules
      [[nodeAt .kLinearSort 1 []], [nodeAt .kAggregationSum 2 [[0], [2]]]] m :=
    .pair (.pair .initial hsetup₁ hrun₁) hsetup₂ hrun₂
  have hnodes : ∀ nodes ∈ [[nodeAt .kLinearSort 1 []],
      [nodeAt .kAggregationSum 2 [[0], [2]]]], InWindows sevensModules nodes := by
    intro nodes hmem
    rcases List.mem_pair.mp hmem with rfl | rfl
    · exact nodeAt_inWindows (by decide) (by decide)
        (fitsWindow_of_other (by decide) (by decide))
    · exact nodeAt_inWindows (by decide) (by decide)
        (fitsWindow_of_other (by decide) (by decide))
  have hregisters := fun (before : Int → Nat) =>
    registers_of_runs sevens.physicalAddress sevens.accelerator before _ m hruns
      hnodes 1 (by decide)
  refine ⟨m, hruns, fun before => ⟨?_, ?_⟩⟩
  · rw [hregisters before 4 (by decide)]
    rfl
  · rw [hregisters before 64 (by decide)]
    rfl

end Orkhestra.Ports.ModuleWindows
