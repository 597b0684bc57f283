import Orkhestra.Ports.ModuleWindows

/-!
# What a join puts together

The multiplexer of a join has a register for every integer of the output: the
stream and the chunk that the integer is taken from.  The position in the chunk
is that of the output.

After a set-up the first record comes out first, whatever has been written
before; the rest is the second record behind its shifted elements exactly when
the lanes of both fit (`join_concatenates_iff`).
-/

namespace Orkhestra.Ports.JoinedRecord

open Orkhestra.Verified.Checked
open Orkhestra.Verified.Log
open Orkhestra.Ports.StreamParameterCalculator
open Orkhestra.Ports.QuerySchedulingData
open Orkhestra.Ports.QueryManager
open Orkhestra.Ports.DMA
open Orkhestra.Ports.DMASetup
open Orkhestra.Ports.DMADomain
open Orkhestra.Ports.ActiveStreams
open Orkhestra.Ports.FetchAgreement
open Orkhestra.Ports.JoinSetup
open Orkhestra.Ports.ModuleSwitch
open Orkhestra.Ports.ModuleWindows

/-! ## The multiplexer -/

variable {α : Type}

/-- Register of an integer of the output. -/
def selectionAddress (output : Nat) : Int :=
  2 ^ 13 + (output / 16 : Nat) * 2 ^ 7 + (15 - (output % 16 : Nat)) * 2 ^ 2

/-- The integer of the output that the registers select: the stream is in bit 16
of the register and the chunk below, the position is that of the output. -/
def selected (registers : Int → Nat) (first second : Nat → α) (output : Nat) :
    α :=
  let word := registers (selectionAddress output)
  let element := 16 * (word % 2 ^ 16) + output % 16
  if word.testBit 16 then second element else first element

/-- The record that a join puts out. -/
def joined (registers : Int → Nat) (first second : Nat → α) (count : Nat) :
    List α :=
  (List.range count).map (selected registers first second)

/-! ## The selections of a set-up -/

section Selections

variable {first second shift : Nat}

/-- The selection for each integer of the output. -/
def selectionFor (first shift output : Nat) : ElementSelection :=
  if output < first then selectionAt output output false
  else selectionAt output (shift + (output - first)) true

theorem mem_setupTimeMultiplexer {selection : ElementSelection} :
    selection ∈ setupTimeMultiplexer first second shift ↔
      ∃ output < first + (second - shift),
        selection = selectionFor first shift output := by
  rw [setupTimeMultiplexer_eq, List.mem_append]
  simp only [List.mem_map, List.mem_range]
  constructor
  · rintro (⟨e, he, rfl⟩ | ⟨i, hi, rfl⟩)
    · exact ⟨e, by omega, by rw [selectionFor, if_pos he]⟩
    · refine ⟨first + i, by omega, ?_⟩
      rw [selectionFor, if_neg (by omega), Nat.add_sub_cancel_left]
  · rintro ⟨output, houtput, rfl⟩
    by_cases hfirst : output < first
    · exact .inl ⟨output, hfirst, by rw [selectionFor, if_pos hfirst]⟩
    · refine .inr ⟨output - first, by omega, ?_⟩
      rw [selectionFor, if_neg hfirst, Nat.add_sub_cancel' (by omega)]

theorem selectionFor_address (output : Nat) :
    (selectOutputDataElement (selectionFor first shift output)).address =
      selectionAddress output := by
  unfold selectionFor
  split <;> rfl

theorem selectionAddress_inj {output output' : Nat} :
    selectionAddress output = selectionAddress output' ↔ output = output' := by
  unfold selectionAddress
  omega

variable {firstId firstSize secondId secondSize outputId outputChunks
  shiftSize : Int} {before : Int → Nat} {writes : List RegisterWrite}

/-- The calls of a join besides the selections write the first registers. -/
theorem mem_joinWrites
    (h : (setupJoinModule firstId firstSize secondId secondSize outputId
      outputChunks shiftSize).mapM joinWrite = .ok writes) {w : RegisterWrite} (hw : w ∈ writes) :
    w.address ≤ 16 ∨ ∃ output < outputCount firstSize secondSize shiftSize,
      w = selectOutputDataElement (selectionFor firstSize.toNat shiftSize.toNat output) := by
  obtain ⟨call, hmem, hwrite⟩ := (mem_iff_of_mapM_eq_ok h).mp hw
  cases call with
  | reset =>
      obtain rfl := Except.ok.inj hwrite
      exact .inl (show (16 : Int) ≤ 16 by decide)
  | defineOutputStream chunkCount first second output =>
      obtain rfl := Except.ok.inj hwrite
      exact .inl (show (4 : Int) ≤ 16 by decide)
  | setFirstInputStreamChunkCount chunkCount =>
      simp only [joinWrite, setFirstInputStreamChunkCount, bind_eq_ok,
        Except.ok.injEq] at hwrite
      obtain ⟨exponent, -, rfl⟩ := hwrite
      exact .inl (show (8 : Int) ≤ 16 by decide)
  | setSecondInputStreamChunkCount chunkCount =>
      simp only [joinWrite, setSecondInputStreamChunkCount, bind_eq_ok,
        Except.ok.injEq] at hwrite
      obtain ⟨exponent, -, rfl⟩ := hwrite
      exact .inl (show (12 : Int) ≤ 16 by decide)
  | selectOutputDataElement selection =>
      obtain rfl := Except.ok.inj hwrite
      have hselection : selection ∈
          setupTimeMultiplexer firstSize secondSize shiftSize := by
        simpa [setupJoinModule] using hmem
      rw [setupTimeMultiplexer_toNat] at hselection
      obtain ⟨output, houtput, rfl⟩ := mem_setupTimeMultiplexer.mp hselection
      exact .inr ⟨output, houtput, rfl⟩
  | startPrefetchingData =>
      obtain rfl := Except.ok.inj hwrite
      exact .inl (show (0 : Int) ≤ 16 by decide)

theorem selection_mem_joinWrites
    (h : (setupJoinModule firstId firstSize secondId secondSize outputId
      outputChunks shiftSize).mapM joinWrite = .ok writes) {output : Nat}
    (houtput : output < outputCount firstSize secondSize shiftSize) :
    selectOutputDataElement (selectionFor firstSize.toNat shiftSize.toNat output) ∈ writes := by
  refine (mem_iff_of_mapM_eq_ok h).mpr
    ⟨.selectOutputDataElement (selectionFor firstSize.toNat shiftSize.toNat output), ?_, rfl⟩
  have hmem := mem_setupTimeMultiplexer.mpr ⟨output, houtput, rfl⟩
  rw [← setupTimeMultiplexer_toNat] at hmem
  simpa [setupJoinModule] using hmem

/-- Every register of the output is written, so none is left from an earlier
run. -/
theorem contents_selection
    (h : (setupJoinModule firstId firstSize secondId secondSize outputId
      outputChunks shiftSize).mapM joinWrite = .ok writes) {output : Nat}
    (houtput : output < outputCount firstSize secondSize shiftSize) :
    contents before writes (selectionAddress output) =
      (selectOutputDataElement (selectionFor firstSize.toNat shiftSize.toNat output)).data := by
  refine contents_of_agree
    ⟨_, selection_mem_joinWrites h houtput, selectionFor_address output⟩
    fun w hw haddress => ?_
  rcases mem_joinWrites h hw with hlow | ⟨output', -, rfl⟩
  · unfold selectionAddress at haddress
    omega
  · rw [selectionFor_address, selectionAddress_inj] at haddress
    rw [haddress]

/-- The registers of the output hold the selections of the multiplexer. -/
def Multiplexes (registers : Int → Nat) (first second shift : Nat) : Prop :=
  ∀ output < first + (second - shift),
    registers (selectionAddress output) =
      (selectOutputDataElement (selectionFor first shift output)).data

end Selections

/-! ## The joined record -/

section Joined

variable {registers : Int → Nat} {first second shift : Nat}

theorem selected_first (h : Multiplexes registers first second shift)
    (hfirst : first ≤ 2 ^ 20) (a b : Nat → α) {e : Nat} (he : e < first) :
    selected registers a b e = a e := by
  have hword : registers (selectionAddress e) = e / 16 := by
    rw [h e (by omega), selectionFor, if_pos he]
    simp only [selectOutputDataElement, selectionAt, writeToModule, toWord,
      Bool.false_eq_true, if_false]
    omega
  have hchunk : e / 16 < 2 ^ 16 := by omega
  rw [selected, hword, Nat.testBit_lt_two_pow hchunk, Nat.mod_eq_of_lt hchunk,
    Nat.div_add_mod]
  rfl

/-- An element of the second record comes from its chunk, but from the position
of the output. -/
theorem selected_second (h : Multiplexes registers first second shift)
    (hsecond : second ≤ 2 ^ 20) (a b : Nat → α) {i : Nat}
    (hi : i < second - shift) :
    selected registers a b (first + i) =
      b (16 * ((shift + i) / 16) + (first + i) % 16) := by
  have hchunk : (shift + i) / 16 < 2 ^ 16 := by omega
  have hword : registers (selectionAddress (first + i)) =
      2 ^ 16 + (shift + i) / 16 := by
    rw [h (first + i) (by omega), selectionFor, if_neg (by omega),
      Nat.add_sub_cancel_left]
    simp only [selectOutputDataElement, selectionAt, writeToModule, toWord,
      if_true]
    omega
  rw [selected, hword, Nat.testBit_two_pow_add_eq,
    Nat.testBit_lt_two_pow hchunk, Nat.add_mod_left, Nat.mod_eq_of_lt hchunk]
  rfl

theorem joined_eq (h : Multiplexes registers first second shift)
    (hfirst : first ≤ 2 ^ 20) (hsecond : second ≤ 2 ^ 20) (a b : Nat → α) :
    joined registers a b (first + (second - shift)) =
      (List.range first).map a ++ (List.range (second - shift)).map fun i =>
        b (16 * ((shift + i) / 16) + (first + i) % 16) := by
  rw [joined, List.range_add, List.map_append, List.map_map]
  congr 1
  · exact List.map_congr_left fun e he =>
      selected_first h hfirst a b (List.mem_range.mp he)
  · exact List.map_congr_left fun i hi =>
      selected_second h hsecond a b (List.mem_range.mp hi)

/-- The second record is whole when its lanes are those of the output. -/
theorem concatenates_iff (h : Multiplexes registers first second shift)
    (hfirst : first ≤ 2 ^ 20) (hsecond : second ≤ 2 ^ 20) :
    (∀ a b : Nat → Nat, joined registers a b (first + (second - shift)) =
        (List.range first).map a ++
          (List.range (second - shift)).map fun i => b (shift + i)) ↔
      first % 16 = shift % 16 ∨ second ≤ shift := by
  constructor
  · intro hall
    by_contra hlanes
    rw [not_or] at hlanes
    have hjoined := hall id id
    rw [joined_eq h hfirst hsecond, List.append_cancel_left_eq] at hjoined
    have hhead := List.map_inj_left.mp hjoined 0 (List.mem_range.mpr (by omega))
    simp only [id, Nat.add_zero] at hhead
    omega
  · intro hlanes a b
    rw [joined_eq h hfirst hsecond, List.append_cancel_left_eq]
    refine List.map_congr_left fun i hi => congrArg b ?_
    have hi := List.mem_range.mp hi
    omega

end Joined

theorem configureModule_join {q : AcceleratedQueryNode}
    {first second output : StreamDataParameters} {joinParameters : List Int}
    {shiftSize : Int} (hjoin : q.operationType = .kJoin)
    (hfirst : q.inputStreams[0]? = some first)
    (hsecond : q.inputStreams[1]? = some second)
    (houtput : q.outputStreams[0]? = some output)
    (hparameters : q.operationParameters[0]? = some joinParameters)
    (hshift : joinParameters[0]? = some shiftSize) :
    configureModule q =
      (setupJoinModule first.streamId (getStreamRecordSize first)
        second.streamId (getStreamRecordSize second) output.streamId
        output.inputChunksPerRecord shiftSize).mapM joinWrite := by
  simp only [configureModule, hjoin, readAt_eq_ok.mpr hfirst,
    readAt_eq_ok.mpr hsecond, readAt_eq_ok.mpr houtput,
    checkedAt_eq_ok.mpr hparameters, checkedAt_eq_ok.mpr hshift, ok_bind]

/-- Whatever has been written before, and whichever modules are set up with it,
a join puts out the first record and then the second one behind its shifted
elements exactly when the second one starts in the lane it is put to. -/
theorem join_concatenates_iff (physicalAddress : Block → Nat)
    (accelerator : Accelerator) (before : Int → Nat) (m m' : FPGAManager)
    (nodes : List AcceleratedQueryNode) (q : AcceleratedQueryNode)
    (first second : StreamDataParameters) (joinParameters : List Int)
    (shiftSize : Int)
    (hsetup : setupQueryAcceleration (moduleBoard physicalAddress accelerator) m
      nodes = .ok m')
    (hnodes : InWindows (moduleBoard physicalAddress accelerator) nodes)
    (hq : q ∈ nodes) (hjoin : q.operationType = .kJoin)
    (hfirst : q.inputStreams[0]? = some first)
    (hsecond : q.inputStreams[1]? = some second)
    (hparameters : q.operationParameters[0]? = some joinParameters)
    (hshift : joinParameters[0]? = some shiftSize)
    -- A chunk of the second record is below the bit for the stream.
    (hchunks : getStreamRecordSize second ≤ 2 ^ 20) :
    (∀ a b : Nat → Nat,
      joined (window (contents before m'.writes) q.operationModuleLocation) a b
          (outputCount (getStreamRecordSize first) (getStreamRecordSize second)
            shiftSize) =
        (List.range (getStreamRecordSize first).toNat).map a ++
          (List.range ((getStreamRecordSize second).toNat -
            shiftSize.toNat)).map fun i => b (shiftSize.toNat + i)) ↔
      (getStreamRecordSize first).toNat % 16 = shiftSize.toNat % 16 ∨
        (getStreamRecordSize second).toNat ≤ shiftSize.toNat := by
  obtain ⟨inputs, outputs, inputSetup, outputSetup, hset⟩ := exists_setUp hsetup
  have hconfigured := hset.configured q hq
  simp only [configureModule, hjoin, bind_eq_ok, readAt_eq_ok, checkedAt_eq_ok,
    hfirst, hsecond, hparameters, hshift, Option.some.injEq,
    exists_eq_left'] at hconfigured
  obtain ⟨output, -, hcalls⟩ := hconfigured
  have hfits := (hnodes.fits q hq).1 hjoin first second joinParameters shiftSize
    hfirst hsecond hparameters hshift
  unfold outputCount at hfits ⊢
  refine concatenates_iff (fun output houtput => ?_) (by omega) (by omega)
  rw [← contents_selection hcalls houtput]
  refine hset.window_of_node hnodes hq (by simp [HasModule, hjoin]) ?_
  unfold InWindow selectionAddress
  omega

/-- A join of two records of 20 integers, the second without its key of 4. -/
def joinNode : AcceleratedQueryNode where
  inputStreams := [⟨3, 20, 10, some 0, [], 2⟩, ⟨4, 20, 10, some 1, [], 2⟩]
  outputStreams := [⟨5, 36, 0, some 2, [], 3⟩]
  operationType := .kJoin
  operationModuleLocation := 1
  operationParameters := [[4]]

/-- The streams of the join, as they are found. -/
def joinInput (streamId physicalAddress : Nat) : StreamInitData where
  streamId := streamId
  streamRecordSize := 20
  streamRecordCount := 10
  physicalAddress := physicalAddress
  streamSpecification := []
  inputChunksPerRecord := 2

def joinOutput : StreamInitData where
  streamId := 5
  streamRecordSize := 36
  streamRecordCount := 0
  physicalAddress := 12288
  streamSpecification := []
  inputChunksPerRecord := 3

theorem joinNode_configured :
    ∃ writes, configureModule joinNode = .ok writes := by
  rw [configureModule_join rfl rfl rfl rfl rfl rfl]
  exact (setupJoinModule_returns_iff 3 4 5 3 4 (by decide) (by decide)).mpr
    ⟨by decide, by decide⟩

theorem joinNode_setup (m : FPGAManager) :
    ∃ m', setupQueryAcceleration sevensModules m [joinNode] = .ok m' := by
  have hfound : [joinNode].foldlM (findNodeStreams sevensModules)
      (([], m.inputStreamsActiveStatus), ([], m.outputStreamsActiveStatus)) =
      .ok (([joinInput 3 4096, joinInput 4 8192], Function.update (Function.update
          m.inputStreamsActiveStatus ⟨3, by decide⟩ true) ⟨4, by decide⟩ true),
        ([joinOutput], Function.update m.outputStreamsActiveStatus
          ⟨5, by decide⟩ true)) := rfl
  obtain ⟨inputs, hinputs⟩ := setupDMAModule_total
    [joinInput 3 4096, joinInput 4 8192] true (by decide) (by decide +kernel)
  obtain ⟨outputs, houtputs⟩ := setupDMAModule_total [joinOutput] false
    (by decide) (by decide +kernel)
  obtain ⟨writes, hwrites⟩ := joinNode_configured
  have hmodules : [joinNode].mapM sevensModules.setupModule =
      .ok [placed 1 writes] := by
    rw [List.mapM_cons, show sevensModules.setupModule = setupModule from rfl,
      setupModule, hwrites]
    rfl
  rw [setupQueryAcceleration, hfound, ok_bind]
  simp only [reduceCtorEq, or_self, if_false, hinputs, houtputs, hmodules,
    ok_bind]
  exact ⟨_, rfl⟩

theorem joinNode_inWindows : InWindows sevensModules [joinNode] := by
  refine ⟨by decide, by decide, ?_, ?_⟩
  · refine List.forall_mem_singleton.mpr ⟨?_, fun hmultiplication => ?_⟩
    · rintro - first second parameters shiftSize hfirst hsecond hparameters
        hshift
      obtain rfl := Option.some.inj hfirst
      obtain rfl := Option.some.inj hsecond
      obtain rfl := Option.some.inj hparameters
      obtain rfl := Option.some.inj hshift
      decide
    · cases hmultiplication
  · rintro s ⟨node, hnode, stream, hstream, -, -, hs⟩ hchannels
    obtain rfl := List.mem_singleton.mp hnode
    rcases List.mem_pair.mp hstream with rfl | rfl
    · obtain rfl := Except.ok.inj hs
      exact absurd rfl hchannels
    · obtain rfl := Except.ok.inj hs
      exact absurd rfl hchannels

/-- The key of 4 integers takes the lanes that the first record leaves. -/
theorem join_concatenates_iff_joinNode :
    ∃ m', setupQueryAcceleration sevensModules initial [joinNode] = .ok m' ∧
      ∀ (before : Int → Nat) (a b : Nat → Nat),
        joined (window (contents before m'.writes) 1) a b 36 =
          (List.range 20).map a ++ (List.range 16).map fun i => b (4 + i) := by
  obtain ⟨m', hsetup⟩ := joinNode_setup initial
  refine ⟨m', hsetup, fun before a b => ?_⟩
  exact (join_concatenates_iff sevens.physicalAddress sevens.accelerator before
    initial m' [joinNode] joinNode _ _ [4] 4 hsetup joinNode_inWindows
    (List.mem_singleton_self _) rfl rfl rfl rfl rfl (by decide)).mpr
    (.inl (by decide)) a b

end Orkhestra.Ports.JoinedRecord
