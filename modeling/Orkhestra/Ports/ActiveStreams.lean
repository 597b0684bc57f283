import Orkhestra.Ports.DMADomain
import Orkhestra.Ports.QueryManager

/-!
# The FPGA manager

`FPGAManager`: the streams with memory of a run are handed to the DMA engine,
their controllers are started, and the sizes of the output streams are read
back.  Which streams are active is kept in two bitsets between the calls; the
set-up sets bits, the run reads and clears them.

The set-up of the modules only writes registers of the modules, so it is a part
of `Board`, with the physical addresses of the memory blocks and the answers of
the hardware.  Waiting for the controllers and printing change nothing.
-/

namespace Orkhestra.Ports.ActiveStreams

open Orkhestra.Verified.Checked
open Orkhestra.Ports.QuerySchedulingData
open Orkhestra.Ports.QueryManager
open Orkhestra.Ports.DMA
open Orkhestra.Ports.DMASetup
open Orkhestra.Ports.DMADomain

/-! ## The data -/

structure Board where
  /-- The address of a block in bytes; a null pointer is `0`. -/
  physicalAddress : Block → Nat
  accelerator : Accelerator
  setupModule : AcceleratedQueryNode → Outcome (List RegisterWrite)

/-- The bitsets, and the registers that have been written. -/
structure FPGAManager where
  inputStreamsActiveStatus : StreamStatus
  outputStreamsActiveStatus : StreamStatus
  writes : List RegisterWrite

def noStreams : StreamStatus := fun _ => false

def initial : FPGAManager := ⟨noStreams, noStreams, []⟩

/-! ## Set-up -/

def streamAddress (board : Board) (stream : StreamDataParameters) : Nat :=
  match stream.physicalAddress with
  | some block => board.physicalAddress block
  | none => 0

/-- `stream_status_array[stream_id] = true`. -/
def setActive (status : StreamStatus) (streamId : Nat) : Outcome StreamStatus :=
  if h : streamId < kMaxIOStreamCount then
    .ok (Function.update status ⟨streamId, h⟩ true)
  else .error .undefined

/-- The stream as the DMA engine takes it, with the channels of a merge sort. -/
def streamInitData (board : Board) (operationParameters : List (List Int))
    (isMultichannelStream : Bool) (stream : StreamDataParameters) :
    Outcome StreamInitData := do
  let found : StreamInitData :=
    { streamId := stream.streamId
      streamRecordSize := stream.streamRecordSize
      streamRecordCount := stream.streamRecordCount
      physicalAddress := streamAddress board stream
      streamSpecification := stream.streamSpecification
      inputChunksPerRecord := stream.inputChunksPerRecord }
  if isMultichannelStream then do
    let moduleParameters ← readAt operationParameters 0
    let maxChannelCount ← readAt moduleParameters 0
    let recordsPerChannel ← readAt moduleParameters 1
    .ok { found with
      maxChannelCount := maxChannelCount
      recordsPerChannel := recordsPerChannel }
  else .ok found

/-- The streams that have been found and the bits that are set. -/
abbrev FoundStreams := List StreamInitData × StreamStatus

def findIOStream (board : Board) (operationParameters : List (List Int))
    (isMultichannelStream : Bool) (s : FoundStreams)
    (stream : StreamDataParameters) : Outcome FoundStreams :=
  if streamAddress board stream ≠ 0 then do
    let found ←
      streamInitData board operationParameters isMultichannelStream stream
    let status ← setActive s.2 stream.streamId
    .ok (s.1 ++ [found], status)
  else .ok s

def findIOStreams (board : Board) (allStreams : List StreamDataParameters)
    (operationParameters : List (List Int)) (isMultichannelStream : Bool)
    (s : FoundStreams) : Outcome FoundStreams :=
  allStreams.foldlM
    (findIOStream board operationParameters isMultichannelStream) s

def findNodeStreams (board : Board) (s : FoundStreams × FoundStreams)
    (queryNode : AcceleratedQueryNode) :
    Outcome (FoundStreams × FoundStreams) := do
  let inputs ← findIOStreams board queryNode.inputStreams
    queryNode.operationParameters (queryNode.operationType = .kMergeSort) s.1
  let outputs ← findIOStreams board queryNode.outputStreams
    queryNode.operationParameters false s.2
  .ok (inputs, outputs)

def setupQueryAcceleration (board : Board) (m : FPGAManager)
    (queryNodes : List AcceleratedQueryNode) : Outcome FPGAManager := do
  let (inputs, outputs) ← queryNodes.foldlM (findNodeStreams board)
    (([], m.inputStreamsActiveStatus), ([], m.outputStreamsActiveStatus))
  if inputs.1 = [] ∨ outputs.1 = [] then
    .error (.runtimeError "Input or output streams missing!")
  else do
    let inputSetup ← setupDMAModule inputs.1 true
    let outputSetup ← setupDMAModule outputs.1 false
    let moduleWrites ← queryNodes.mapM board.setupModule
    .ok
      { inputStreamsActiveStatus := inputs.2
        outputStreamsActiveStatus := outputs.2
        writes := m.writes ++ globalReset :: inputSetup.writes ++
          outputSetup.writes ++ startController true inputs.2 ::
          moduleWrites.flatten }

/-! ## Run -/

/-- One side of `FindActiveStreams`. -/
def findActiveStreams (status : StreamStatus) : List (Fin kMaxIOStreamCount) :=
  (List.finRange kMaxIOStreamCount).filter fun streamId => status streamId

def clearActive (status : StreamStatus)
    (activeStreamIds : List (Fin kMaxIOStreamCount)) : StreamStatus :=
  activeStreamIds.foldl (fun status streamId =>
    Function.update status streamId false) status

/-- The sizes of the active output streams, 0 for the others. -/
abbrev ResultSizes := Fin kMaxIOStreamCount → Int

def getResultingStreamSizes (board : Board) (m : FPGAManager)
    (activeInputStreamIds activeOutputStreamIds :
      List (Fin kMaxIOStreamCount)) : FPGAManager × ResultSizes :=
  ({ m with
      inputStreamsActiveStatus :=
        clearActive m.inputStreamsActiveStatus activeInputStreamIds
      outputStreamsActiveStatus :=
        clearActive m.outputStreamsActiveStatus activeOutputStreamIds },
    activeOutputStreamIds.foldl (fun resultSizes streamId =>
      Function.update resultSizes streamId
        (getControllerStreamSize board.accelerator m.writes false streamId))
      fun _ => 0)

def runQueryAcceleration (board : Board) (m : FPGAManager) :
    Outcome (FPGAManager × ResultSizes) :=
  let activeInputStreamIds := findActiveStreams m.inputStreamsActiveStatus
  let activeOutputStreamIds := findActiveStreams m.outputStreamsActiveStatus
  if activeInputStreamIds = [] ∨ activeOutputStreamIds = [] then
    .error (.runtimeError "FPGA does not have active streams!")
  else
    .ok (getResultingStreamSizes board
      { m with writes := m.writes ++
          [startController false m.outputStreamsActiveStatus] }
      activeInputStreamIds activeOutputStreamIds)

/-! ## What the set-up finds -/

/-- The streams with a physical address and the given id. -/
def MemoryBacked (board : Board) (streams : List StreamDataParameters)
    (i : Fin kMaxIOStreamCount) : Prop :=
  ∃ stream ∈ streams, streamAddress board stream ≠ 0 ∧
    stream.streamId = i.val

section Streams

variable {board : Board}

theorem setActive_eq_ok {status status' : StreamStatus} {streamId : Nat}
    (h : setActive status streamId = .ok status') (i : Fin kMaxIOStreamCount) :
    status' i = true ↔ status i = true ∨ streamId = i.val := by
  unfold setActive at h
  split at h
  · next hlt =>
      rw [← Except.ok.inj h, Function.update_apply]
      split
      · next heq => simp [heq]
      · next hne =>
          have hid : streamId ≠ i.val := fun heq => hne (Fin.ext heq.symm)
          simp [hid]
  · cases h

theorem findIOStreams_status {streams : List StreamDataParameters}
    {params : List (List Int)} {multichannel : Bool} {s s' : FoundStreams}
    (h : findIOStreams board streams params multichannel s = .ok s')
    (i : Fin kMaxIOStreamCount) :
    s'.2 i = true ↔ s.2 i = true ∨ MemoryBacked board streams i := by
  refine foldlM_invariant
    (fun done t => t.2 i = true ↔ s.2 i = true ∨ MemoryBacked board done i)
    streams (by simp [MemoryBacked]) ?_ h
  intro before stream after t t' _ ht hstep
  unfold findIOStream at hstep
  split at hstep
  · next haddress =>
      simp only [bind_eq_ok, Except.ok.injEq] at hstep
      obtain ⟨found, -, status, hstatus, rfl⟩ := hstep
      show status i = true ↔ _
      rw [setActive_eq_ok hstatus, ht]
      simp [MemoryBacked, haddress, or_and_right, exists_or, or_assoc]
  · next haddress =>
      rw [← Except.ok.inj hstep, ht]
      rw [ne_eq, not_not] at haddress
      simp [MemoryBacked, haddress, or_and_right, exists_or]

/-- Both bitsets behind the loop over the nodes. -/
theorem findNodeStreams_status {nodes : List AcceleratedQueryNode}
    {s s' : FoundStreams × FoundStreams}
    (h : nodes.foldlM (findNodeStreams board) s = .ok s')
    (i : Fin kMaxIOStreamCount) :
    (s'.1.2 i = true ↔ s.1.2 i = true ∨
      MemoryBacked board (nodes.flatMap (·.inputStreams)) i) ∧
    (s'.2.2 i = true ↔ s.2.2 i = true ∨
      MemoryBacked board (nodes.flatMap (·.outputStreams)) i) := by
  refine foldlM_invariant (fun done t =>
    (t.1.2 i = true ↔ s.1.2 i = true ∨
      MemoryBacked board (done.flatMap (·.inputStreams)) i) ∧
    (t.2.2 i = true ↔ s.2.2 i = true ∨
      MemoryBacked board (done.flatMap (·.outputStreams)) i))
    nodes (by simp [MemoryBacked]) ?_ h
  intro before node after t t' _ ht hstep
  simp only [findNodeStreams, bind_eq_ok, Except.ok.injEq] at hstep
  obtain ⟨inputs, hinputs, outputs, houtputs, rfl⟩ := hstep
  constructor
  · show inputs.2 i = true ↔ _
    rw [findIOStreams_status hinputs, ht.1]
    simp [MemoryBacked, or_and_right, exists_or, or_assoc]
  · show outputs.2 i = true ↔ _
    rw [findIOStreams_status houtputs, ht.2]
    simp [MemoryBacked, or_and_right, exists_or, or_assoc]

/-- Streams that are found are active. -/
def FoundActive (s : FoundStreams) : Prop := s.1 ≠ [] → ∃ i, s.2 i = true

theorem findIOStreams_foundActive {streams : List StreamDataParameters}
    {params : List (List Int)} {multichannel : Bool} {s s' : FoundStreams}
    (hs : FoundActive s)
    (h : findIOStreams board streams params multichannel s = .ok s') :
    FoundActive s' := by
  refine foldlM_invariant (fun _ => FoundActive) streams hs ?_ h
  intro before stream after t t' _ ht hstep
  unfold findIOStream at hstep
  split at hstep
  · simp only [bind_eq_ok, Except.ok.injEq] at hstep
    obtain ⟨found, -, status, hstatus, rfl⟩ := hstep
    have hactive := setActive_eq_ok hstatus
    unfold setActive at hstatus
    split at hstatus
    · next hlt =>
        exact fun _ => ⟨⟨stream.streamId, hlt⟩, (hactive _).mpr (.inr rfl)⟩
    · cases hstatus
  · exact Except.ok.inj hstep ▸ ht

theorem findNodeStreams_foundActive {nodes : List AcceleratedQueryNode}
    {s s' : FoundStreams × FoundStreams}
    (hs : FoundActive s.1 ∧ FoundActive s.2)
    (h : nodes.foldlM (findNodeStreams board) s = .ok s') :
    FoundActive s'.1 ∧ FoundActive s'.2 := by
  refine foldlM_invariant
    (fun _ (t : FoundStreams × FoundStreams) =>
      FoundActive t.1 ∧ FoundActive t.2) nodes hs ?_ h
  intro before node after t t' _ ht hstep
  simp only [findNodeStreams, bind_eq_ok, Except.ok.injEq] at hstep
  obtain ⟨inputs, hinputs, outputs, houtputs, rfl⟩ := hstep
  exact ⟨findIOStreams_foundActive ht.1 hinputs,
    findIOStreams_foundActive ht.2 houtputs⟩

/-- What a set-up that completes leaves. -/
theorem setupQueryAcceleration_spec {m m' : FPGAManager}
    {nodes : List AcceleratedQueryNode}
    (h : setupQueryAcceleration board m nodes = .ok m') :
    (∀ i, m'.inputStreamsActiveStatus i = true ↔
      m.inputStreamsActiveStatus i = true ∨
        MemoryBacked board (nodes.flatMap (·.inputStreams)) i) ∧
    (∀ i, m'.outputStreamsActiveStatus i = true ↔
      m.outputStreamsActiveStatus i = true ∨
        MemoryBacked board (nodes.flatMap (·.outputStreams)) i) ∧
    ∃ dmaWrites moduleWrites, m'.writes = m.writes ++ dmaWrites ++
      startController true m'.inputStreamsActiveStatus :: moduleWrites := by
  simp only [setupQueryAcceleration, bind_eq_ok] at h
  obtain ⟨⟨inputs, outputs⟩, hfound, h⟩ := h
  split at h
  · cases h
  · simp only [bind_eq_ok, Except.ok.injEq] at h
    obtain ⟨inputSetup, -, outputSetup, -, moduleWrites, -, rfl⟩ := h
    refine ⟨fun i => (findNodeStreams_status hfound i).1,
      fun i => (findNodeStreams_status hfound i).2,
      globalReset :: inputSetup.writes ++ outputSetup.writes,
      moduleWrites.flatten, ?_⟩
    simp only [List.append_assoc, List.cons_append]

end Streams

/-! ## What the run reads and clears -/

theorem mem_findActiveStreams {status : StreamStatus}
    {i : Fin kMaxIOStreamCount} :
    i ∈ findActiveStreams status ↔ status i = true := by
  simp [findActiveStreams]

theorem clearActive_apply (status : StreamStatus)
    (ids : List (Fin kMaxIOStreamCount)) (i : Fin kMaxIOStreamCount) :
    clearActive status ids i = (status i && !ids.contains i) := by
  induction ids generalizing status with
  | nil => simp [clearActive]
  | cons id ids ih =>
      rw [clearActive, List.foldl_cons]
      show clearActive (Function.update status id false) ids i = _
      rw [ih, Function.update_apply]
      by_cases hid : i = id
      · simp [hid]
      · simp [hid]

/-- Exactly the active streams are cleared. -/
theorem clearActive_findActiveStreams (status : StreamStatus) :
    clearActive status (findActiveStreams status) = noStreams := by
  funext i
  rw [clearActive_apply]
  cases hstatus : status i with
  | false => rfl
  | true =>
      have hmem := mem_findActiveStreams.mpr hstatus
      simp [hmem, noStreams]

/-- The sizes that are read, one stream after the other. -/
theorem foldl_update_apply (read : Fin kMaxIOStreamCount → Int)
    (ids : List (Fin kMaxIOStreamCount)) (sizes : ResultSizes)
    (i : Fin kMaxIOStreamCount) :
    ids.foldl (fun resultSizes streamId =>
      Function.update resultSizes streamId (read streamId)) sizes i =
      if i ∈ ids then read i else sizes i := by
  induction ids generalizing sizes with
  | nil => simp
  | cons id ids ih =>
      rw [List.foldl_cons, ih]
      by_cases hid : i = id
      · simp [hid]
      · simp [hid]

/-- What has been set up can be run. -/
theorem runQueryAcceleration_of_setup {board : Board} {m m' : FPGAManager}
    {nodes : List AcceleratedQueryNode}
    (h : setupQueryAcceleration board m nodes = .ok m') :
    ∃ r, runQueryAcceleration board m' = .ok r := by
  simp only [setupQueryAcceleration, bind_eq_ok] at h
  obtain ⟨⟨inputs, outputs⟩, hfound, h⟩ := h
  obtain ⟨hin, hout⟩ := findNodeStreams_foundActive
    ⟨fun hne => absurd rfl hne, fun hne => absurd rfl hne⟩ hfound
  split at h
  · cases h
  · next hstreams =>
      rw [not_or] at hstreams
      obtain ⟨i, hi⟩ := hin hstreams.1
      obtain ⟨j, hj⟩ := hout hstreams.2
      simp only [bind_eq_ok, Except.ok.injEq] at h
      obtain ⟨inputSetup, -, outputSetup, -, moduleWrites, -, rfl⟩ := h
      have hactive : ¬(findActiveStreams inputs.2 = [] ∨
          findActiveStreams outputs.2 = []) := by
        rintro (hnil | hnil)
        · exact List.ne_nil_of_mem (mem_findActiveStreams.mpr hi) hnil
        · exact List.ne_nil_of_mem (mem_findActiveStreams.mpr hj) hnil
      unfold runQueryAcceleration
      simp only
      rw [if_neg hactive]
      exact ⟨_, rfl⟩

/-- What a run that completes returns and leaves. -/
theorem runQueryAcceleration_spec {board : Board} {m m' : FPGAManager}
    {sizes : ResultSizes} (h : runQueryAcceleration board m = .ok (m', sizes)) :
    m'.inputStreamsActiveStatus = noStreams ∧
    m'.outputStreamsActiveStatus = noStreams ∧
    m'.writes = m.writes ++
      [startController false m.outputStreamsActiveStatus] ∧
    ∀ i, sizes i = if m.outputStreamsActiveStatus i then
      getControllerStreamSize board.accelerator m'.writes false i else 0 := by
  unfold runQueryAcceleration at h
  simp only at h
  split at h
  · cases h
  · simp only [getResultingStreamSizes, Except.ok.injEq, Prod.mk.injEq] at h
    obtain ⟨rfl, rfl⟩ := h
    refine ⟨clearActive_findActiveStreams _, clearActive_findActiveStreams _,
      rfl, fun i => ?_⟩
    simp only [foldl_update_apply, mem_findActiveStreams]

/-! ## Sequences of runs -/

/-- The manager behind some sequence of pairs that have completed. -/
inductive Completed (board : Board) : FPGAManager → Prop where
  | initial : Completed board initial
  | pair {m m' m'' : FPGAManager} {nodes : List AcceleratedQueryNode}
      {sizes : ResultSizes} (before : Completed board m)
      (setup : setupQueryAcceleration board m nodes = .ok m')
      (run : runQueryAcceleration board m' = .ok (m'', sizes)) :
      Completed board m''

/-- No bit is left by the runs before. -/
theorem Completed.noStreams {board : Board} {m : FPGAManager}
    (h : Completed board m) :
    m.inputStreamsActiveStatus = ActiveStreams.noStreams ∧
      m.outputStreamsActiveStatus = ActiveStreams.noStreams := by
  cases h with
  | initial => exact ⟨rfl, rfl⟩
  | pair _ _ run =>
      obtain ⟨hinputs, houtputs, -, -⟩ := runQueryAcceleration_spec run
      exact ⟨hinputs, houtputs⟩

/-- In each pair of a sequence that completes, the masks that start the
controllers are the ids of the streams of the current nodes that have memory,
the sizes are those of the current outputs, and both bitsets are empty
afterwards. -/
theorem active_masks_exact (board : Board) (m m' m'' : FPGAManager)
    (nodes : List AcceleratedQueryNode) (sizes : ResultSizes)
    (hbefore : Completed board m)
    (hsetup : setupQueryAcceleration board m nodes = .ok m')
    (hrun : runQueryAcceleration board m' = .ok (m'', sizes)) :
    ∃ inputs outputs : RegisterWrite,
      inputs.address = controllerAddress true ∧
      outputs.address = controllerAddress false ∧
      (∃ dmaWrites moduleWrites, m''.writes = m.writes ++ dmaWrites ++
        inputs :: moduleWrites ++ [outputs]) ∧
      (∀ i : Fin kMaxIOStreamCount, inputs.data.testBit i = true ↔
        MemoryBacked board (nodes.flatMap (·.inputStreams)) i) ∧
      (∀ i : Fin kMaxIOStreamCount, outputs.data.testBit i = true ↔
        MemoryBacked board (nodes.flatMap (·.outputStreams)) i) ∧
      (∀ i : Fin kMaxIOStreamCount,
        (MemoryBacked board (nodes.flatMap (·.outputStreams)) i →
          sizes i = getControllerStreamSize board.accelerator m''.writes false
            i) ∧
        (¬MemoryBacked board (nodes.flatMap (·.outputStreams)) i →
          sizes i = 0)) ∧
      m''.inputStreamsActiveStatus = noStreams ∧
      m''.outputStreamsActiveStatus = noStreams := by
  obtain ⟨hnoInputs, hnoOutputs⟩ := hbefore.noStreams
  obtain ⟨hinputs, houtputs, dmaWrites, moduleWrites, hwrites⟩ :=
    setupQueryAcceleration_spec hsetup
  obtain ⟨hclearInputs, hclearOutputs, hwrites', hsizes⟩ :=
    runQueryAcceleration_spec hrun
  simp only [hnoInputs, noStreams, Bool.false_eq_true, false_or] at hinputs
  simp only [hnoOutputs, noStreams, Bool.false_eq_true, false_or] at houtputs
  refine ⟨startController true m'.inputStreamsActiveStatus,
    startController false m'.outputStreamsActiveStatus, rfl, rfl,
    ⟨dmaWrites, moduleWrites, by rw [hwrites', hwrites]⟩, ?_, ?_, ?_,
    hclearInputs, hclearOutputs⟩
  · intro i
    rw [startController_data, testBit_activeStreams, hinputs]
  · intro i
    rw [startController_data, testBit_activeStreams, houtputs]
  · intro i
    rw [hsizes i, ← houtputs i]
    constructor
    · intro hactive
      rw [if_pos hactive]
    · intro hinactive
      rw [if_neg hinactive]

/-- Blocks of 4 KiB; every register of the hardware reads 7. -/
def sevens : Board where
  physicalAddress := fun block => 4096 * (block + 1)
  accelerator := fun _ _ => 7
  setupModule := fun _ => .ok []

/-- A filter from stream 3 to stream 5, both in memory. -/
def filterNode : AcceleratedQueryNode where
  inputStreams := [⟨3, 4, 10, some 0, [], 1⟩]
  outputStreams := [⟨5, 4, 0, some 1, [], 1⟩]
  operationType := .kFilter
  operationModuleLocation := 1
  operationParameters := []

/-- The two streams of the filter, as they are found. -/
def filterInput : StreamInitData where
  streamId := 3
  streamRecordSize := 4
  streamRecordCount := 10
  physicalAddress := 4096
  streamSpecification := []
  inputChunksPerRecord := 1

def filterOutput : StreamInitData where
  streamId := 5
  streamRecordSize := 4
  streamRecordCount := 0
  physicalAddress := 8192
  streamSpecification := []
  inputChunksPerRecord := 1

theorem filterNode_setup (m : FPGAManager) :
    ∃ m', setupQueryAcceleration sevens m [filterNode] = .ok m' := by
  have hfound : [filterNode].foldlM (findNodeStreams sevens)
      (([], m.inputStreamsActiveStatus), ([], m.outputStreamsActiveStatus)) =
      .ok (([filterInput], Function.update m.inputStreamsActiveStatus
          ⟨3, by decide⟩ true),
        ([filterOutput], Function.update m.outputStreamsActiveStatus
          ⟨5, by decide⟩ true)) := rfl
  obtain ⟨inputs, hinputs⟩ := setupDMAModule_total [filterInput] true
    (by decide) (by decide +kernel)
  obtain ⟨outputs, houtputs⟩ := setupDMAModule_total [filterOutput] false
    (by decide) (by decide +kernel)
  rw [setupQueryAcceleration, hfound, ok_bind]
  simp only [reduceCtorEq, or_self, if_false, hinputs, houtputs, ok_bind]
  exact ⟨_, rfl⟩

theorem filterNode_run {m m' : FPGAManager}
    (h : setupQueryAcceleration sevens m [filterNode] = .ok m') :
    ∃ r, runQueryAcceleration sevens m' = .ok r := by
  obtain ⟨hinputs, houtputs, -⟩ := setupQueryAcceleration_spec h
  have hin := (hinputs ⟨3, by decide⟩).mpr (.inr
    ⟨⟨3, 4, 10, some 0, [], 1⟩, by decide, by decide, rfl⟩)
  have hout := (houtputs ⟨5, by decide⟩).mpr (.inr
    ⟨⟨5, 4, 0, some 1, [], 1⟩, by decide, by decide, rfl⟩)
  have hne : ¬(findActiveStreams m'.inputStreamsActiveStatus = [] ∨
      findActiveStreams m'.outputStreamsActiveStatus = []) := by
    rw [not_or]
    exact ⟨List.ne_nil_of_mem (mem_findActiveStreams.mpr hin),
      List.ne_nil_of_mem (mem_findActiveStreams.mpr hout)⟩
  exact ⟨_, if_neg hne⟩

/-- The second of two runs of the filter. -/
theorem active_masks_exact_filter_twice :
    ∃ m m' m'' sizes, Completed sevens m ∧
      setupQueryAcceleration sevens m [filterNode] = .ok m' ∧
      runQueryAcceleration sevens m' = .ok (m'', sizes) ∧
      sizes ⟨5, by decide⟩ = 7 ∧ sizes ⟨3, by decide⟩ = 0 ∧
      m''.inputStreamsActiveStatus = noStreams := by
  obtain ⟨m₁, hsetup₁⟩ := filterNode_setup initial
  obtain ⟨⟨m, sizes₁⟩, hrun₁⟩ := filterNode_run hsetup₁
  have hbefore : Completed sevens m := .pair .initial hsetup₁ hrun₁
  obtain ⟨m', hsetup⟩ := filterNode_setup m
  obtain ⟨⟨m'', sizes⟩, hrun⟩ := filterNode_run hsetup
  obtain ⟨_, _, -, -, -, -, -, hsizes, hclear, -⟩ :=
    active_masks_exact sevens m m' m'' [filterNode] sizes hbefore hsetup hrun
  refine ⟨m, m', m'', sizes, hbefore, hsetup, hrun, ?_, ?_, hclear⟩
  · exact (hsizes _).1 ⟨⟨5, 4, 0, some 1, [], 1⟩, by decide, by decide, rfl⟩
  · refine (hsizes _).2 ?_
    rintro ⟨stream, hstream, -, hid⟩
    simp only [filterNode, List.flatMap_cons, List.flatMap_nil, List.append_nil,
      List.mem_singleton] at hstream
    subst hstream
    cases hid

end Orkhestra.Ports.ActiveStreams
