import Orkhestra.Ports.DMA
import Orkhestra.Ports.StreamParameterCalculator

/-!
# The join set-up

`JoinSetup` and `Join`: the record lengths of the two inputs and the
multiplexer that puts the elements of both records into one.  Element `e` of a
record is in chunk `e / 16` at position `15 - e % 16`; the integers of the
output are numbered in the same way.
-/

namespace Orkhestra.Ports.JoinSetup

open Orkhestra.Verified.Checked
open Orkhestra.Ports.StreamParameterCalculator
open Orkhestra.Ports.DMA

/-! ## The module -/

/-- The arguments of `SelectOutputDataElement`. -/
structure ElementSelection where
  outputChunkId : Int
  inputChunkId : Int
  dataPosition : Int
  isElementFromSecondStream : Bool
  deriving DecidableEq, Repr

/-- Methods of `JoinInterface`. -/
inductive JoinCall where
  | reset
  | defineOutputStream (outputStreamChunkCount firstInputStreamId
      secondInputStreamId outputStreamId : Int)
  | setFirstInputStreamChunkCount (chunkCount : Int)
  | setSecondInputStreamChunkCount (chunkCount : Int)
  | selectOutputDataElement (selection : ElementSelection)
  | startPrefetchingData
  deriving DecidableEq, Repr

def startPrefetchingData : RegisterWrite := writeToModule 0 1

def defineOutputStream (outputStreamChunkCount firstInputStreamId
    secondInputStreamId outputStreamId : Int) : RegisterWrite :=
  writeToModule 4 ((outputStreamChunkCount - 1) * 2 ^ 24 +
    secondInputStreamId * 2 ^ 16 + firstInputStreamId * 2 ^ 8 + outputStreamId)

def setFirstInputStreamChunkCount (chunkCount : Int) :
    Outcome RegisterWrite := do
  let exponent ← log2 (2 * (chunkCount - 1))
  .ok (writeToModule 8 exponent)

def setSecondInputStreamChunkCount (chunkCount : Int) :
    Outcome RegisterWrite := do
  let exponent ← log2 (2 * (chunkCount - 1))
  .ok (writeToModule 12 exponent)

def selectOutputDataElement (selection : ElementSelection) : RegisterWrite :=
  writeToModule
    (2 ^ 13 + selection.outputChunkId * 2 ^ 7 + selection.dataPosition * 2 ^ 2)
    ((if selection.isElementFromSecondStream then 2 ^ 16 else 0) +
      selection.inputChunkId)

def reset : RegisterWrite := writeToModule 16 1

/-- What `Join` does for a call. -/
def joinWrite : JoinCall → Outcome RegisterWrite
  | .reset => .ok reset
  | .defineOutputStream outputStreamChunkCount firstInputStreamId
      secondInputStreamId outputStreamId =>
      .ok (defineOutputStream outputStreamChunkCount firstInputStreamId
        secondInputStreamId outputStreamId)
  | .setFirstInputStreamChunkCount chunkCount =>
      setFirstInputStreamChunkCount chunkCount
  | .setSecondInputStreamChunkCount chunkCount =>
      setSecondInputStreamChunkCount chunkCount
  | .selectOutputDataElement selection =>
      .ok (selectOutputDataElement selection)
  | .startPrefetchingData => .ok startPrefetchingData

/-! ## The multiplexer -/

/-- The variables of the two loops and the calls made so far. -/
structure MultiplexerState where
  selections : List ElementSelection
  outputChunkId : Int
  dataPosition : Int

/-- The body that both loops have: an element is selected and the position moves
on. -/
def selectElement (isElementFromSecondStream : Bool) (state : MultiplexerState)
    (elementCount : Nat) : MultiplexerState :=
  let selections := state.selections ++
    [⟨state.outputChunkId, (elementCount / kDatapathWidth : Nat),
      state.dataPosition, isElementFromSecondStream⟩]
  let dataPosition := state.dataPosition - 1
  if dataPosition = -1 then
    ⟨selections, state.outputChunkId + 1, kDatapathWidth - 1⟩
  else ⟨selections, state.outputChunkId, dataPosition⟩

def setupTimeMultiplexer (firstStreamSize secondStreamSize shiftSize : Int) :
    List ElementSelection :=
  let state := (List.range firstStreamSize.toNat).foldl (selectElement false)
    ⟨[], 0, kDatapathWidth - 1⟩
  let state := (List.range secondStreamSize.toNat).foldl
    (fun (state : MultiplexerState) (elementCount : Nat) =>
      if (elementCount : Int) ≥ shiftSize then
        selectElement true state elementCount
      else state) state
  state.selections

def setupJoinModule (firstInputStreamId firstInputRecordSize
    secondInputStreamId secondInputRecordSize outputStreamId
    outputChunksPerRecord shiftSize : Int) : List JoinCall :=
  [.reset,
    .defineOutputStream outputChunksPerRecord firstInputStreamId
      secondInputStreamId outputStreamId,
    .setFirstInputStreamChunkCount
      (calculateChunksPerRecord firstInputRecordSize),
    .setSecondInputStreamChunkCount
      (calculateChunksPerRecord secondInputRecordSize)] ++
  (setupTimeMultiplexer firstInputRecordSize secondInputRecordSize
    shiftSize).map .selectOutputDataElement ++
  [.startPrefetchingData]

/-! ## Running counters -/

/-- The selection of an element for an integer of the output. -/
def selectionAt (outputInteger elementCount : Nat)
    (isElementFromSecondStream : Bool) : ElementSelection :=
  ⟨(outputInteger / 16 : Nat), (elementCount / 16 : Nat),
    15 - (outputInteger % 16 : Nat), isElementFromSecondStream⟩

/-- The counters stand at the integer behind the last one that was selected. -/
def CountersAt (state : MultiplexerState) : Prop :=
  state.outputChunkId = (state.selections.length / 16 : Nat) ∧
    state.dataPosition = 15 - (state.selections.length % 16 : Nat)

/-- The position wraps around behind every sixteenth integer. -/
theorem selectElement_eq {state : MultiplexerState} (h : CountersAt state)
    (isElementFromSecondStream : Bool) (elementCount : Nat) :
    (selectElement isElementFromSecondStream state elementCount).selections =
      state.selections ++ [selectionAt state.selections.length elementCount
        isElementFromSecondStream] ∧
    CountersAt (selectElement isElementFromSecondStream state elementCount) := by
  obtain ⟨hchunk, hposition⟩ := h
  unfold selectElement
  rw [hchunk, hposition]
  simp only [kDatapathWidth_eq]
  split
  · refine ⟨rfl, ?_⟩
    simp only [CountersAt, List.length_append, List.length_singleton]
    omega
  · refine ⟨rfl, ?_⟩
    simp only [CountersAt, List.length_append, List.length_singleton]
    omega

/-- A loop that selects consecutive elements. -/
theorem foldl_selectElement {state : MultiplexerState} (h : CountersAt state)
    (isElementFromSecondStream : Bool) (start count : Nat) :
    let state' := (List.range' start count).foldl
      (selectElement isElementFromSecondStream) state
    state'.selections = state.selections ++ (List.range count).map (fun i =>
      selectionAt (state.selections.length + i) (start + i)
        isElementFromSecondStream) ∧ CountersAt state' := by
  induction count generalizing state start with
  | zero => exact ⟨(List.append_nil _).symm, h⟩
  | succ count ih =>
      obtain ⟨hselections, hcounters⟩ :=
        selectElement_eq h isElementFromSecondStream start
      obtain ⟨hrest, hrest'⟩ := ih hcounters (start + 1)
      refine ⟨?_, hrest'⟩
      have htail : (List.range count).map (fun i =>
            selectionAt (state.selections.length + 1 + i) (start + 1 + i)
              isElementFromSecondStream) =
          (List.range count).map ((fun i =>
            selectionAt (state.selections.length + i) (start + i)
              isElementFromSecondStream) ∘ Nat.succ) := by
        refine List.map_congr_left fun i _ => ?_
        rw [Function.comp_apply, Nat.succ_eq_add_one, Nat.add_assoc,
          Nat.add_assoc, Nat.add_comm 1 i]
      rw [List.range'_succ, List.foldl_cons, hrest, hselections,
        List.append_assoc, List.range_succ_eq_map, List.map_cons, List.map_map,
        List.length_append, List.length_singleton, htail]
      rfl

theorem filter_range_le (start stop : Nat) :
    (List.range stop).filter (fun e => start ≤ e) =
      List.range' start (stop - start) := by
  induction stop with
  | zero => rw [Nat.zero_sub]; rfl
  | succ stop ih =>
      rw [List.range_succ, List.filter_append, ih]
      by_cases h : start ≤ stop
      · rw [List.filter_singleton, decide_eq_true h, cond_true, Nat.succ_sub h,
          List.range'_concat, Nat.one_mul, Nat.add_sub_cancel' h]
      · rw [List.filter_singleton, decide_eq_false h, cond_false,
          List.append_nil, Nat.sub_eq_zero_of_le (by omega),
          Nat.sub_eq_zero_of_le (by omega)]

/-- All selections: the first record, then the second one without its shifted
elements. -/
theorem setupTimeMultiplexer_eq (first second shift : Nat) :
    setupTimeMultiplexer first second shift =
      (List.range first).map (fun e => selectionAt e e false) ++
        (List.range (second - shift)).map (fun i =>
          selectionAt (first + i) (shift + i) true) := by
  have hinit : CountersAt ⟨[], 0, kDatapathWidth - 1⟩ := ⟨rfl, rfl⟩
  obtain ⟨hfirst, hcounters⟩ := foldl_selectElement hinit false 0 first
  obtain ⟨hsecond, -⟩ := foldl_selectElement hcounters true shift (second - shift)
  simp only [List.nil_append, List.length_nil, Nat.zero_add] at hfirst
  rw [hfirst, List.length_map, List.length_range] at hsecond
  have hfilter : (fun (state : MultiplexerState) (elementCount : Nat) =>
        if (elementCount : Int) ≥ (shift : Int) then
          selectElement true state elementCount
        else state) =
      fun state elementCount => if decide (shift ≤ elementCount) = true then
        selectElement true state elementCount else state := by
    funext state elementCount
    simp only [ge_iff_le, Int.ofNat_le, decide_eq_true_eq]
  rw [setupTimeMultiplexer, Int.toNat_natCast, Int.toNat_natCast, hfilter,
    ← List.foldl_filter, filter_range_le]
  rw [← List.range_eq_range'] at hsecond
  exact hsecond

/-! ## The joined record -/

/-- Number of the output integer that is selected. -/
def outputInteger (selection : ElementSelection) : Int :=
  16 * selection.outputChunkId + (15 - selection.dataPosition)

/-- The integer is an element of one of the records, from the chunk it is in. -/
def Selects (selections : List ElementSelection) (output element : Nat)
    (isElementFromSecondStream : Bool) : Prop :=
  ∃ selection, selections[output]? = some selection ∧
    outputInteger selection = output ∧
    selection.inputChunkId = (element / 16 : Nat) ∧
    selection.isElementFromSecondStream = isElementFromSecondStream

/-- The element is put to the position it is taken from. -/
def KeepsLane (selections : List ElementSelection) (output element : Nat) :
    Prop :=
  ∀ selection, selections[output]? = some selection →
    selection.dataPosition = 15 - (element % 16 : Nat)

theorem outputInteger_selectionAt (output element : Nat)
    (isElementFromSecondStream : Bool) :
    outputInteger (selectionAt output element isElementFromSecondStream) =
      output := by
  have hdiv := Nat.div_add_mod output 16
  simp only [outputInteger, selectionAt]
  omega

section JoinedRecord

variable (first second shift : Nat)

theorem outputIntegers_eq :
    (setupTimeMultiplexer first second shift).map outputInteger =
      (List.range (first + (second - shift))).map Int.ofNat := by
  have hfirst : (List.range first).map
        (fun e => outputInteger (selectionAt e e false)) =
      (List.range first).map Int.ofNat :=
    List.map_congr_left fun e _ => outputInteger_selectionAt e e false
  have hsecond : (List.range (second - shift)).map
        (fun i => outputInteger (selectionAt (first + i) (shift + i) true)) =
      (List.range (second - shift)).map (fun i => Int.ofNat (first + i)) :=
    List.map_congr_left fun i _ => outputInteger_selectionAt _ _ true
  rw [setupTimeMultiplexer_eq, List.map_append, List.map_map, List.map_map,
    List.range_add, List.map_append, List.map_map]
  exact congrArg₂ (· ++ ·) hfirst hsecond

variable {first second shift}

theorem getElem?_first {e : Nat} (he : e < first) :
    (setupTimeMultiplexer first second shift)[e]? =
      some (selectionAt e e false) := by
  rw [setupTimeMultiplexer_eq, List.getElem?_append_left (by simpa using he),
    List.getElem?_map, List.getElem?_range he, Option.map_some]

theorem getElem?_second {e : Nat} (hlow : shift ≤ e) (hhigh : e < second) :
    (setupTimeMultiplexer first second shift)[first + e - shift]? =
      some (selectionAt (first + e - shift) e true) := by
  have hlength : ((List.range first).map
      fun e => selectionAt e e false).length = first := by
    rw [List.length_map, List.length_range]
  have hindex : first + e - shift - first = e - shift := by omega
  have hoffset : first + (e - shift) = first + e - shift := by omega
  rw [setupTimeMultiplexer_eq,
    List.getElem?_append_right (by rw [hlength]; omega), hlength, hindex,
    List.getElem?_map, List.getElem?_range (by omega), Option.map_some, hoffset,
    Nat.add_sub_cancel' hlow]

theorem selects_selectionAt {selections : List ElementSelection}
    {output element : Nat} {isElementFromSecondStream : Bool}
    (h : selections[output]? =
      some (selectionAt output element isElementFromSecondStream)) :
    Selects selections output element isElementFromSecondStream :=
  ⟨_, h, outputInteger_selectionAt _ _ _, rfl, rfl⟩

theorem keepsLane_selectionAt {selections : List ElementSelection}
    {output element : Nat} {isElementFromSecondStream : Bool}
    (h : selections[output]? =
      some (selectionAt output element isElementFromSecondStream)) :
    KeepsLane selections output element ↔ output % 16 = element % 16 := by
  have hposition : (selectionAt output element
      isElementFromSecondStream).dataPosition = 15 - (output % 16 : Nat) := rfl
  constructor
  · intro hkeeps
    have hlane := hkeeps _ h
    rw [hposition] at hlane
    omega
  · intro hlane selection hselection
    rw [h, Option.some.injEq] at hselection
    rw [← hselection, hposition, hlane]

/-- The lanes of the first record always fit; those of the second one do when
both records are shifted by the same lanes. -/
theorem lanes_kept_iff :
    ((∀ e < first, KeepsLane (setupTimeMultiplexer first second shift) e e) ∧
      ∀ e, shift ≤ e → e < second →
        KeepsLane (setupTimeMultiplexer first second shift)
          (first + e - shift) e) ↔
      first % 16 = shift % 16 ∨ second ≤ shift := by
  constructor
  · rintro ⟨-, hsecond⟩
    by_cases hle : second ≤ shift
    · exact .inr hle
    · have hkeeps := hsecond shift (Nat.le_refl shift) (Nat.not_le.mp hle)
      rw [keepsLane_selectionAt
        (getElem?_second (Nat.le_refl shift) (Nat.not_le.mp hle)),
        Nat.add_sub_cancel] at hkeeps
      exact .inl hkeeps
  · intro h
    refine ⟨fun e he => (keepsLane_selectionAt (getElem?_first he)).mpr rfl,
      fun e hlow hhigh => (keepsLane_selectionAt
        (getElem?_second hlow hhigh)).mpr ?_⟩
    omega

end JoinedRecord

/-- The output is the first record followed by the elements of the second one
that are not shifted out, and every integer of it is selected once.  The
elements are in their own lanes when the lengths fit. -/
theorem setupTimeMultiplexer_concatenates (first second shift : Nat) :
    (setupTimeMultiplexer first second shift).map outputInteger =
      (List.range (first + (second - shift))).map Int.ofNat ∧
    (∀ e < first,
      Selects (setupTimeMultiplexer first second shift) e e false) ∧
    (∀ e, shift ≤ e → e < second →
      Selects (setupTimeMultiplexer first second shift) (first + e - shift) e
        true) ∧
    (((∀ e < first, KeepsLane (setupTimeMultiplexer first second shift) e e) ∧
      ∀ e, shift ≤ e → e < second →
        KeepsLane (setupTimeMultiplexer first second shift)
          (first + e - shift) e) ↔
      first % 16 = shift % 16 ∨ second ≤ shift) :=
  ⟨outputIntegers_eq first second shift,
    fun _ he => selects_selectionAt (getElem?_first he),
    fun _ hlow hhigh => selects_selectionAt (getElem?_second hlow hhigh),
    lanes_kept_iff⟩

/-! ## Record lengths -/

/-- Both exponents are those of the chunk period of the DMA. -/
def PeriodsAgree (recordSize : Int) : Prop :=
  ∃ exponent : Nat,
    setFirstInputStreamChunkCount (calculateChunksPerRecord recordSize) =
      .ok ⟨8, exponent⟩ ∧
    setSecondInputStreamChunkCount (calculateChunksPerRecord recordSize) =
      .ok ⟨12, exponent⟩ ∧
    findNextPowerOfTwo (calculateChunksPerRecord recordSize) =
      .ok (2 ^ exponent)

/-- The logarithm rounded up, of a number above one. -/
theorem log_double_pred {c : Nat} (hc : 2 ≤ c) :
    Nat.log 2 (2 * (c - 1)) = Nat.clog 2 c := by
  have hlow : 2 ^ Nat.log 2 (c - 1) ≤ c - 1 :=
    Nat.pow_log_le_self 2 (by omega)
  have hhigh : c - 1 < 2 ^ (Nat.log 2 (c - 1) + 1) :=
    Nat.lt_pow_succ_log_self (by decide) (c - 1)
  rw [Nat.log_of_one_lt_of_le (by decide) (by omega),
    Nat.mul_div_cancel_left _ (by decide)]
  apply Nat.le_antisymm
  · rw [Nat.succ_le_iff, Nat.lt_clog_iff_pow_lt (by decide)]
    omega
  · apply Nat.clog_le_of_le_pow
    omega

theorem log2_chunks {c : Nat} (hc : 2 ≤ c) :
    log2 (2 * ((c : Int) - 1)) = .ok (Nat.clog 2 c) := by
  have hcast : 2 * ((c : Int) - 1) = ((2 * (c - 1) : Nat) : Int) := by omega
  rw [hcast, log2, if_pos (by omega), Int.toNat_natCast, log_double_pred hc]

/-- The exponent is defined for records of more than one chunk; for a single one
the logarithm of zero is taken. -/
theorem setChunkCount_returns_iff {recordSize : Int} (hpos : 1 ≤ recordSize)
    (address : Int) :
    (∃ write, (do
        let exponent ← log2 (2 * (calculateChunksPerRecord recordSize - 1))
        .ok (writeToModule address exponent)) = .ok write) ↔ 16 < recordSize := by
  obtain ⟨n, rfl⟩ := Int.eq_ofNat_of_zero_le (by omega : 0 ≤ recordSize)
  rw [calculateChunksPerRecord_natCast]
  constructor
  · rintro ⟨write, hwrite⟩
    by_contra hsmall
    have hchunk : (n + 15) / 16 = 1 := by omega
    rw [hchunk] at hwrite
    cases hwrite
  · intro hlarge
    have hchunks : 2 ≤ (n + 15) / 16 := by omega
    rw [log2_chunks hchunks]
    exact ⟨_, rfl⟩

theorem periodsAgree_of_lt {recordSize : Int} (hlarge : 16 < recordSize)
    (hsize : recordSize < 2 ^ 31) : PeriodsAgree recordSize := by
  obtain ⟨n, rfl⟩ := Int.eq_ofNat_of_zero_le (by omega : 0 ≤ recordSize)
  have hchunks : 2 ≤ (n + 15) / 16 := by omega
  have hexponent : Nat.clog 2 ((n + 15) / 16) < 2 ^ 32 := by
    have hle : Nat.clog 2 ((n + 15) / 16) ≤ 31 :=
      Nat.clog_le_of_le_pow (by omega)
    omega
  rw [PeriodsAgree, calculateChunksPerRecord_natCast]
  refine ⟨Nat.clog 2 ((n + 15) / 16), ?_, ?_, ?_⟩
  · rw [setFirstInputStreamChunkCount, log2_chunks hchunks, ok_bind,
      writeToModule, toWord_of_lt hexponent]
  · rw [setSecondInputStreamChunkCount, log2_chunks hchunks, ok_bind,
      writeToModule, toWord_of_lt hexponent]
  · rw [findNextPowerOfTwo_natCast (by omega), Nat.cast_pow]
    rfl

/-- The join and the DMA agree on the records of more than one chunk. -/
theorem periodsAgree_iff {recordSize : Int} (hpos : 1 ≤ recordSize)
    (hsize : recordSize < 2 ^ 31) : PeriodsAgree recordSize ↔ 16 < recordSize := by
  constructor
  · rintro ⟨exponent, hfirst, -, -⟩
    exact (setChunkCount_returns_iff hpos 8).mp ⟨_, hfirst⟩
  · intro hlarge
    exact periodsAgree_of_lt hlarge hsize

/-- Records of three chunks have a period of four. -/
theorem periodsAgree_iff_at_three_chunks :
    PeriodsAgree 40 ↔ (16 : Int) < 40 :=
  periodsAgree_iff (by decide) (by decide)

/-- A record of one chunk. -/
theorem periods_do_not_agree : ¬PeriodsAgree 16 := by
  rintro ⟨exponent, hfirst, -⟩
  cases hfirst

/-- The whole set-up is defined for records of more than one chunk. -/
theorem setupJoinModule_returns_iff {firstInputRecordSize
    secondInputRecordSize : Int} (firstInputStreamId secondInputStreamId
    outputStreamId outputChunksPerRecord shiftSize : Int)
    (hfirst : 1 ≤ firstInputRecordSize) (hsecond : 1 ≤ secondInputRecordSize) :
    (∃ writes, (setupJoinModule firstInputStreamId firstInputRecordSize
        secondInputStreamId secondInputRecordSize outputStreamId
        outputChunksPerRecord shiftSize).mapM joinWrite = .ok writes) ↔
      16 < firstInputRecordSize ∧ 16 < secondInputRecordSize := by
  rw [mapM_returns_iff, ← setChunkCount_returns_iff hfirst 8,
    ← setChunkCount_returns_iff hsecond 12]
  simp only [setupJoinModule, List.forall_mem_append, List.forall_mem_cons,
    List.forall_mem_map, joinWrite, setFirstInputStreamChunkCount,
    setSecondInputStreamChunkCount]
  simp

end Orkhestra.Ports.JoinSetup
