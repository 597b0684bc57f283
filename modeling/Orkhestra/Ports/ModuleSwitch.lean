import Orkhestra.Ports.CompareTypes
import Orkhestra.Ports.FetchAgreement
import Orkhestra.Ports.JoinSetup
import Orkhestra.Ports.ModuleDrivers
import Orkhestra.Ports.ReadBack

/-!
# The modules of a run

The switch over the operations in `SetupQueryAcceleration`: each case sets up
the module of a node by the addresses within the module.  A module has a window
of 1 MiB of registers; the parameters of a join and of a multiplication can lead
out of it, those of the other operations cannot (`configureModule_inside`).
-/

namespace Orkhestra.Ports.ModuleSwitch

open Orkhestra.Verified.Checked
open Orkhestra.Verified.Loop
open Orkhestra.Ports.StreamParameterCalculator
open Orkhestra.Ports.QuerySchedulingData
open Orkhestra.Ports.QueryManager
open Orkhestra.Ports.DMA
open Orkhestra.Ports.ActiveStreams
open Orkhestra.Ports.FetchAgreement
open Orkhestra.Ports.FilterModule
open Orkhestra.Ports.FilterSetup
open Orkhestra.Ports.FilterClauses (unconfigured)
open Orkhestra.Ports.JoinSetup
open Orkhestra.Ports.MergeSortSetup
open Orkhestra.Ports.ModuleDrivers
open Orkhestra.Ports.ReadBack
  (calculateMemoryMappedAddress setupAggregationSum withSums)

/-! ## The switch over the operations -/

/-- A case of the switch in `SetupQueryAcceleration`: what is written to the
module of a node, by the addresses within the module. -/
def configureModule (queryNode : AcceleratedQueryNode) :
    Outcome (List RegisterWrite) :=
  match queryNode.operationType with
  | .kFilter => do
      let input ← readAt queryNode.inputStreams 0
      let output ← readAt queryNode.outputStreams 0
      let filterModule ← setupFilterModule unconfigured input.streamId
        output.streamId queryNode.operationParameters
      .ok filterModule.writes
  | .kJoin => do
      let first ← readAt queryNode.inputStreams 0
      let second ← readAt queryNode.inputStreams 1
      let output ← readAt queryNode.outputStreams 0
      let joinParameters ← checkedAt queryNode.operationParameters 0
      let shiftSize ← checkedAt joinParameters 0
      (setupJoinModule first.streamId (getStreamRecordSize first)
        second.streamId (getStreamRecordSize second) output.streamId
        output.inputChunksPerRecord shiftSize).mapM joinWrite
  | .kMergeSort => do
      let calls ← setupMergeSortNode queryNode
      .ok (calls.map mergeSortWrite)
  | .kPassThrough => .ok []
  | .kLinearSort => do
      let input ← readAt queryNode.inputStreams 0
      .ok (setupLinearSortModule input.streamId (getStreamRecordSize input))
  | .kAddition => do
      let input ← readAt queryNode.inputStreams 0
      setupAdditionModule input.streamId queryNode.operationParameters
  | .kMultiplication => do
      let input ← readAt queryNode.inputStreams 0
      setupMultiplicationModule [input.streamId] queryNode.operationParameters
  | .kAggregationSum => do
      let input ← readAt queryNode.inputStreams 0
      let writes ← setupAggregationSum ⟨0⟩ input.streamId
        queryNode.operationParameters
      -- The positions that are read back.
      let _ ← checkedAt queryNode.operationParameters 1
      .ok writes

/-- The writes of a module at a position. -/
def placed (modulePosition : Int) (writes : List RegisterWrite) :
    List RegisterWrite :=
  writes.map fun w =>
    ⟨calculateMemoryMappedAddress modulePosition w.address, w.data⟩

def setupModule (queryNode : AcceleratedQueryNode) :
    Outcome (List RegisterWrite) := do
  let writes ← configureModule queryNode
  .ok (placed queryNode.operationModuleLocation writes)

/-- The board with the modules of the switch. -/
def moduleBoard (physicalAddress : Block → Nat) (accelerator : Accelerator) :
    Board :=
  ⟨physicalAddress, accelerator, setupModule⟩

/-! ## Windows -/

/-- The addresses within a module. -/
def InWindow (address : Int) : Prop := 0 ≤ address ∧ address < 1024 * 1024

instance (address : Int) : Decidable (InWindow address) :=
  inferInstanceAs (Decidable (_ ∧ _))

def Inside (writes : List RegisterWrite) : Prop :=
  ∀ w ∈ writes, InWindow w.address

theorem inside_append {writes writes' : List RegisterWrite} :
    Inside (writes ++ writes') ↔ Inside writes ∧ Inside writes' :=
  List.forall_mem_append

theorem inside_cons {w : RegisterWrite} {writes : List RegisterWrite} :
    Inside (w :: writes) ↔ InWindow w.address ∧ Inside writes :=
  List.forall_mem_cons

theorem inside_singleton {w : RegisterWrite} (hw : InWindow w.address) :
    Inside [w] :=
  List.forall_mem_singleton.mpr hw

theorem mappedAddress_inj {p p' a a' : Int} (ha : InWindow a)
    (ha' : InWindow a') :
    calculateMemoryMappedAddress p a = calculateMemoryMappedAddress p' a' ↔
      p = p' ∧ a = a' := by
  unfold InWindow at ha ha'
  unfold calculateMemoryMappedAddress
  omega

theorem mappedAddress_injective (p : Int) :
    Function.Injective (calculateMemoryMappedAddress p) := by
  intro a a' heq
  unfold calculateMemoryMappedAddress at heq
  omega

/-! ### The filter -/

/-- A cell of the table of literals. -/
def InTable (chunkId dataPosition : Int) : Prop :=
  (0 ≤ chunkId ∧ chunkId < 32) ∧ 0 ≤ dataPosition ∧ dataPosition < 32

theorem arrayIndex_eq_ok {n : Nat} {i : Int} {k : Fin n}
    (h : arrayIndex n i = .ok k) : 0 ≤ i ∧ i < n := by
  unfold arrayIndex at h
  split at h
  · next hrange => exact hrange
  · cases h

theorem inTable_of_literal {filter filter' : Filter}
    {dnfClauseId compareNumber chunkId dataPosition : Int}
    {literalType : LiteralTypes}
    (h : filterSetDNFClauseLiteral filter dnfClauseId compareNumber chunkId
      dataPosition literalType = .ok filter') :
    compareNumber < 4 ∧ InTable chunkId dataPosition := by
  simp only [filterSetDNFClauseLiteral, bind_eq_ok] at h
  obtain ⟨clause, -, lane, hlane, chunk, hchunk, position, hposition, -⟩ := h
  exact ⟨(arrayIndex_eq_ok hlane).2, arrayIndex_eq_ok hchunk,
    arrayIndex_eq_ok hposition⟩

/-- A comparison has a literal, which is set before the next register is
written. -/
theorem inTable_of_clauseLiterals {filterModule filterModule' : Filter}
    {comparison : FilterComparison} {lane : Nat} {chunkId dataPosition : Int}
    (hclauses : comparison.dnfClauseIds ≠ [])
    (h : setClauseLiterals filterModule comparison lane chunkId dataPosition =
      .ok filterModule') :
    lane < 4 ∧ InTable chunkId dataPosition := by
  have hlength := comparison.sameLength
  unfold setClauseLiterals at h
  cases hids : comparison.dnfClauseIds with
  | nil => exact absurd hids hclauses
  | cons clause clauses =>
      cases htypes : comparison.literalTypes with
      | nil => simp [hids, htypes] at hlength
      | cons literal literals =>
          rw [hids, htypes, List.zip_cons_cons, List.foldlM_cons,
            bind_eq_ok] at h
          obtain ⟨_, hliteral, -⟩ := h
          obtain ⟨hlane, htable⟩ := inTable_of_literal hliteral
          exact ⟨by omega, htable⟩

theorem inWindow_referenceValue {chunkId dataPosition : Int} {lane : Nat}
    (hlane : lane < 4) (htable : InTable chunkId dataPosition) :
    InWindow (2 ^ 15 + dataPosition * 2 ^ 2 + chunkId * 2 ^ 7 +
      (lane + 1) * 2 ^ 12) := by
  unfold InTable at htable
  unfold InWindow
  omega

theorem inWindow_compareTypes {chunkId dataPosition : Int}
    (htable : InTable chunkId dataPosition) :
    InWindow (2 ^ 15 + dataPosition * 2 ^ 2 + chunkId * 2 ^ 7) := by
  unfold InTable at htable
  unfold InWindow
  omega

/-- The words of a comparison have their cells. -/
def WordsInTable (chunkId dataPosition : Int) (count : Nat) : Prop :=
  ∀ k < count, InTable (currentChunkId chunkId dataPosition k)
    (currentDataPosition dataPosition k)

theorem setComparison_inside {filterModule filterModule' : Filter}
    {chunkId dataPosition : Int} {lane : FilterComparison × Nat}
    (hclauses : lane.1.dnfClauseIds ≠ [])
    (hinside : Inside filterModule.writes)
    (h : setComparison chunkId dataPosition filterModule lane =
      .ok filterModule') :
    Inside filterModule'.writes ∧ WordsInTable chunkId dataPosition
      lane.1.compareReferenceValues.length := by
  have key := foldlM_invariant (fun (done : List (Int × Nat)) (f : Filter) =>
    Inside f.writes ∧ ∀ value ∈ done,
      InTable (currentChunkId chunkId dataPosition value.2)
        (currentDataPosition dataPosition value.2))
    lane.1.compareReferenceValues.zipIdx ⟨hinside, by simp⟩ ?_ h
  · refine ⟨key.1, fun k hk => ?_⟩
    exact key.2 (lane.1.compareReferenceValues[k], k)
      (List.mk_mem_zipIdx_iff_getElem?.mpr (List.getElem?_eq_getElem hk))
  · rintro before value after f f' - ⟨hf, hdone⟩ hstep
    obtain ⟨hlane, htable⟩ := inTable_of_clauseLiterals hclauses hstep
    have hwrites := CompareTypes.emits_clauseLiterals _ _ _ _ _ _ hstep
    refine ⟨?_, forall_mem_concat hdone htable⟩
    rw [hwrites, List.append_nil]
    exact inside_append.mpr
      ⟨hf, inside_singleton (inWindow_referenceValue hlane htable)⟩

theorem setCompareTypes_inside {filterModule filterModule' : Filter}
    {chunkId dataPosition : Int} {functions : List FilterCompareFunctions}
    {valueCount : Nat} (hinside : Inside filterModule.writes)
    (hwords : WordsInTable chunkId dataPosition valueCount)
    (h : setCompareTypes filterModule chunkId dataPosition functions valueCount =
      .ok filterModule') :
    Inside filterModule'.writes := by
  refine foldlM_invariant (fun (_ : List Nat) (f : Filter) => Inside f.writes)
    (List.range valueCount) hinside ?_ h
  intro before k after f f' hsplit hf hstep
  have hk : k < valueCount := List.mem_range.mp (by simp [hsplit])
  simp only [bind_eq_ok, Except.ok.injEq] at hstep
  obtain ⟨_, -, _, -, _, -, _, -, rfl⟩ := hstep
  exact inside_append.mpr
    ⟨hf, inside_singleton (inWindow_compareTypes (hwords k hk))⟩

theorem setComparisons_inside {filterModule filterModule' : Filter}
    {comparisons : List FilterComparison} {chunkId dataPosition : Int}
    (hclauses : ∀ c ∈ comparisons, c.dnfClauseIds ≠ [])
    (hinside : Inside filterModule.writes)
    (h : setComparisons filterModule comparisons chunkId dataPosition =
      .ok filterModule') :
    Inside filterModule'.writes := by
  simp only [setComparisons, bind_eq_ok, readAt_eq_ok] at h
  obtain ⟨f, hf, first, hfirst, htypes⟩ := h
  have key := foldlM_invariant
    (fun (done : List (FilterComparison × Nat)) (f : Filter) =>
      Inside f.writes ∧ ∀ lane ∈ done, WordsInTable chunkId dataPosition
        lane.1.compareReferenceValues.length)
    comparisons.zipIdx ⟨hinside, by simp⟩ ?_ hf
  · refine setCompareTypes_inside key.1 ?_ htypes
    exact key.2 (first, 0) (List.mk_mem_zipIdx_iff_getElem?.mpr hfirst)
  · rintro before lane after f f' hsplit ⟨hf, hdone⟩ hstep
    have hlane : lane.1 ∈ comparisons := by
      have hmem : lane ∈ comparisons.zipIdx := by simp [hsplit]
      exact List.mem_of_getElem? (List.mem_zipIdx_iff_getElem?.mp hmem)
    obtain ⟨hf', hwords⟩ :=
      setComparison_inside (hclauses lane.1 hlane) hf hstep
    exact ⟨hf', forall_mem_concat hdone hwords⟩

theorem clauses_of_filterComparison {function : FilterCompareFunctions}
    {values : List Int} {types : List LiteralTypes} {clauseIds : List Int}
    {c : FilterComparison}
    (h : filterComparison function values types clauseIds = .ok c) :
    c.dnfClauseIds ≠ [] := by
  unfold filterComparison at h
  split at h
  · split at h
    · cases h
    · next hids =>
        obtain rfl := Except.ok.inj h
        exact hids
  · next htypes =>
      split at h
      · next hlength =>
          obtain rfl := Except.ok.inj h
          rintro rfl
          exact htypes (List.eq_nil_of_length_eq_zero hlength)
      · cases h

theorem clauses_of_readComparisons {operationParameters : List (List Int)}
    {count id reached : Nat} {comparisons : List FilterComparison}
    (h : readComparisons operationParameters count id =
      .ok (comparisons, reached)) :
    ∀ c ∈ comparisons, c.dnfClauseIds ≠ [] := by
  induction count generalizing id comparisons reached with
  | zero =>
      obtain ⟨rfl, -⟩ := Prod.mk.inj (Except.ok.inj h)
      simp
  | succ count ih =>
      simp only [readComparisons, bind_eq_ok, Except.ok.injEq,
        Prod.mk.injEq] at h
      obtain ⟨_, -, _, -, _, -, _, -, _, -, comparison, hcomparison,
        ⟨rest, reached'⟩, hrest, rfl, -⟩ := h
      rw [List.forall_mem_cons]
      exact ⟨clauses_of_filterComparison hcomparison, ih hrest⟩

theorem setHeader_inside {operationParameters : List (List Int)}
    {s s' : Filter × Nat} (hinside : Inside s.1.writes)
    (h : setHeader operationParameters s = .ok (.again s')) :
    Inside s'.1.writes := by
  simp only [setHeader] at h
  split at h
  · cases h
  · simp only [bind_eq_ok, Except.ok.injEq, Next.again.injEq] at h
    obtain ⟨_, -, _, -, _, -, _, -, ⟨comparisons, _⟩, hread, f, hf, rfl⟩ := h
    exact setComparisons_inside (clauses_of_readComparisons hread) hinside hf

theorem setAllComparisons_inside {operationParameters : List (List Int)}
    {filterModule filterModule' : Filter}
    (hinside : Inside filterModule.writes)
    (h : setAllComparisons filterModule operationParameters =
      .ok filterModule') :
    Inside filterModule'.writes := by
  refine iterate_invariant (fun s => Inside s.1.writes)
    (fun f => Inside f.writes) (fun _ _ hs => setHeader_inside hs) ?_ hinside h
  intro s r hs hdone
  simp only [setHeader] at hdone
  split at hdone
  · obtain rfl := Next.done.inj (Except.ok.inj hdone)
    exact hs
  · simp [bind_eq_ok] at hdone

theorem inside_masks (dnfStates : DNFClauseStates) (size : ModuleSize) :
    Inside ((List.finRange size.moduleComparesPerField).flatMap fun lane =>
      (List.finRange size.datapathWidth).flatMap fun position =>
        (List.finRange 32).flatMap fun chunk =>
          maskWrites dnfStates size lane chunk position) := by
  intro w hw
  simp only [List.mem_flatMap, List.mem_finRange, true_and] at hw
  obtain ⟨lane, position, chunk, hw⟩ := hw
  have hlane := lane.isLt.trans_le size.compares_le
  have hposition := position.isLt.trans_le size.width_le
  have hchunk := chunk.isLt
  rw [maskWrites_eq] at hw
  simp only [List.mem_cons, List.not_mem_nil, or_false] at hw
  rcases hw with rfl | rfl
  all_goals
    simp only [maskWrite, maskAddress, InWindow]
    simp only [if_true, Bool.false_eq_true, if_false]
    omega

/-- A filter that is set up stays in its window. -/
theorem setupFilterModule_inside {filterModule filterModule' : Filter}
    {inputStreamId outputStreamId : Int} {operationParameters : List (List Int)}
    (hinside : Inside filterModule.writes)
    (h : setupFilterModule filterModule inputStreamId outputStreamId
      operationParameters = .ok filterModule') :
    Inside filterModule'.writes := by
  unfold setupFilterModule at h
  split at h
  · cases h
  · cases h
  · simp only [bind_eq_ok, Except.ok.injEq] at h
    obtain ⟨configured, hconfigured, rfl⟩ := h
    refine inside_append.mpr ⟨setAllComparisons_inside ?_ hconfigured,
      inside_masks _ _⟩
    refine inside_append.mpr ⟨inside_append.mpr ⟨hinside, ?_⟩, ?_⟩
    · exact inside_singleton (show InWindow 0 by decide)
    · exact inside_singleton (show InWindow 4 by decide)

/-! ### The other modules -/

/-- The integers of a joined record. -/
def outputCount (firstRecordSize secondRecordSize shiftSize : Int) : Nat :=
  firstRecordSize.toNat + (secondRecordSize.toNat - shiftSize.toNat)

theorem setupTimeMultiplexer_toNat (first second shift : Int) :
    setupTimeMultiplexer first second shift =
      setupTimeMultiplexer first.toNat second.toNat shift.toNat := by
  have hshift : ∀ e : Nat, ((e : Int) ≥ shift) = ((e : Int) ≥ shift.toNat) := by
    intro e
    apply propext
    omega
  simp only [setupTimeMultiplexer, Int.toNat_natCast, hshift]

/-- Selections for the first integers of the output have their registers in the
window. -/
theorem selectionAt_inWindow {output element : Nat}
    {isElementFromSecondStream : Bool} (houtput : output < 16 * 8128) :
    InWindow (selectOutputDataElement
      (selectionAt output element isElementFromSecondStream)).address := by
  simp only [selectOutputDataElement, selectionAt, writeToModule, InWindow]
  omega

theorem setupTimeMultiplexer_inWindow {first second shift : Int}
    (hfits : outputCount first second shift ≤ 16 * 8128) :
    ∀ selection ∈ setupTimeMultiplexer first second shift,
      InWindow (selectOutputDataElement selection).address := by
  intro selection hselection
  unfold outputCount at hfits
  rw [setupTimeMultiplexer_toNat, setupTimeMultiplexer_eq] at hselection
  rcases List.mem_append.mp hselection with hfirst | hsecond
  · obtain ⟨e, he, rfl⟩ := List.mem_map.mp hfirst
    have he := List.mem_range.mp he
    exact selectionAt_inWindow (by omega)
  · obtain ⟨i, hi, rfl⟩ := List.mem_map.mp hsecond
    have hi := List.mem_range.mp hi
    exact selectionAt_inWindow (by omega)

theorem setupJoinModule_inside {firstId firstSize secondId secondSize outputId
    outputChunks shiftSize : Int} {writes : List RegisterWrite}
    (hfits : outputCount firstSize secondSize shiftSize ≤ 16 * 8128)
    (h : (setupJoinModule firstId firstSize secondId secondSize outputId
      outputChunks shiftSize).mapM joinWrite = .ok writes) :
    Inside writes := by
  intro w hw
  obtain ⟨call, hmem, hwrite⟩ := (mem_iff_of_mapM_eq_ok h).mp hw
  cases call with
  | reset =>
      obtain rfl := Except.ok.inj hwrite
      exact show InWindow 16 by decide
  | defineOutputStream chunkCount first second output =>
      obtain rfl := Except.ok.inj hwrite
      exact show InWindow 4 by decide
  | setFirstInputStreamChunkCount chunkCount =>
      simp only [joinWrite, setFirstInputStreamChunkCount, bind_eq_ok,
        Except.ok.injEq] at hwrite
      obtain ⟨exponent, -, rfl⟩ := hwrite
      exact show InWindow 8 by decide
  | setSecondInputStreamChunkCount chunkCount =>
      simp only [joinWrite, setSecondInputStreamChunkCount, bind_eq_ok,
        Except.ok.injEq] at hwrite
      obtain ⟨exponent, -, rfl⟩ := hwrite
      exact show InWindow 12 by decide
  | selectOutputDataElement selection =>
      obtain rfl := Except.ok.inj hwrite
      refine setupTimeMultiplexer_inWindow hfits selection ?_
      simpa [setupJoinModule] using hmem
  | startPrefetchingData =>
      obtain rfl := Except.ok.inj hwrite
      exact show InWindow 0 by decide

theorem mergeSortWrite_inWindow (call : MergeSortCall) :
    InWindow (mergeSortWrite call).address := by
  cases call with
  | setStreamParams streamId chunksPerRecord => exact show InWindow 4 by decide
  | setBufferSize recordCount => exact show InWindow 8 by decide
  | setRecordCountPerFetch recordCount => exact show InWindow 12 by decide
  | setFetchCount fetchCount => exact show InWindow 16 by decide
  | setFetchOffset recordCount => exact show InWindow 20 by decide
  | startPrefetchingData channelId isNotFirst => exact show InWindow 0 by decide

theorem setupAdditionModule_inside {streamId : Nat}
    {operationParameters : List (List Int)} {writes : List RegisterWrite}
    (h : setupAdditionModule streamId operationParameters = .ok writes) :
    Inside writes := by
  simp only [setupAdditionModule, bind_eq_ok, Except.ok.injEq] at h
  obtain ⟨_, -, chunkId, -, _, -, signs, -, _, -, literals, -, rfl⟩ := h
  refine inside_cons.mpr ⟨show InWindow 0 by decide,
    inside_cons.mpr ⟨show InWindow 4 by decide, ?_⟩⟩
  intro w hw
  obtain ⟨i, -, hw⟩ := List.mem_flatMap.mp hw
  have hi := i.isLt
  simp only [List.mem_cons, List.not_mem_nil, or_false] at hw
  rcases hw with rfl | rfl
  all_goals
    simp only [writeToModule, InWindow]
    omega

/-- The register of the selections of a chunk is in the window. -/
def ResultsFit (multiplicationSelections : List Int) : Prop :=
  ∀ chunkId, multiplicationSelections[0]? = some chunkId →
    InWindow (128 + chunkId * 4)

theorem setupMultiplicationModule_inside {activeStreamIds : List Nat}
    {operationParameters : List (List Int)} {writes : List RegisterWrite}
    (hfits : ∀ selections ∈ operationParameters, ResultsFit selections)
    (h : setupMultiplicationModule activeStreamIds operationParameters =
      .ok writes) :
    Inside writes := by
  simp only [setupMultiplicationModule, bind_eq_ok, Except.ok.injEq] at h
  obtain ⟨activeStreams, -, results, hresults, rfl⟩ := h
  refine inside_cons.mpr ⟨show InWindow 0 by decide, ?_⟩
  intro w hw
  obtain ⟨selections, hselections, hresult⟩ :=
    (mem_iff_of_mapM_eq_ok hresults).mp hw
  simp only [multiplicationResults, bind_eq_ok, checkedAt_eq_ok,
    Except.ok.injEq] at hresult
  obtain ⟨positions, -, chunkId, hchunk, rfl⟩ := hresult
  exact hfits selections hselections chunkId hchunk

/-- The parameters of a node keep its module in the window: the records of a
join and the chunks of a multiplication have no bound in the set-up. -/
def FitsWindow (queryNode : AcceleratedQueryNode) : Prop :=
  (queryNode.operationType = .kJoin → ∀ first second joinParameters shiftSize,
    queryNode.inputStreams[0]? = some first →
    queryNode.inputStreams[1]? = some second →
    queryNode.operationParameters[0]? = some joinParameters →
    joinParameters[0]? = some shiftSize →
    outputCount (getStreamRecordSize first) (getStreamRecordSize second)
      shiftSize ≤ 16 * 8128) ∧
  (queryNode.operationType = .kMultiplication →
    ∀ selections ∈ queryNode.operationParameters, ResultsFit selections)

theorem fitsWindow_of_other {queryNode : AcceleratedQueryNode}
    (hjoin : queryNode.operationType ≠ .kJoin)
    (hmultiplication : queryNode.operationType ≠ .kMultiplication) :
    FitsWindow queryNode :=
  ⟨fun h => absurd h hjoin, fun h => absurd h hmultiplication⟩

/-- A module that is set up stays in its window. -/
theorem configureModule_inside {queryNode : AcceleratedQueryNode}
    {writes : List RegisterWrite} (hfits : FitsWindow queryNode)
    (h : configureModule queryNode = .ok writes) : Inside writes := by
  cases htype : queryNode.operationType with
  | kFilter =>
      simp only [configureModule, htype, bind_eq_ok, Except.ok.injEq] at h
      obtain ⟨input, -, output, -, filterModule, hfilter, rfl⟩ := h
      have hempty : Inside unconfigured.writes := List.forall_mem_nil _
      exact setupFilterModule_inside hempty hfilter
  | kJoin =>
      simp only [configureModule, htype, bind_eq_ok, readAt_eq_ok,
        checkedAt_eq_ok] at h
      obtain ⟨first, hfirst, second, hsecond, output, -, parameters,
        hparameters, shiftSize, hshift, h⟩ := h
      exact setupJoinModule_inside (hfits.1 htype first second parameters
        shiftSize hfirst hsecond hparameters hshift) h
  | kMergeSort =>
      simp only [configureModule, htype, bind_eq_ok, Except.ok.injEq] at h
      obtain ⟨calls, -, rfl⟩ := h
      exact List.forall_mem_map.mpr fun call _ => mergeSortWrite_inWindow call
  | kPassThrough =>
      simp only [configureModule, htype, Except.ok.injEq] at h
      subst h
      exact List.forall_mem_nil _
  | kLinearSort =>
      simp only [configureModule, htype, bind_eq_ok, Except.ok.injEq] at h
      obtain ⟨input, -, rfl⟩ := h
      exact inside_cons.mpr ⟨show InWindow 4 by decide,
        inside_singleton (show InWindow 0 by decide)⟩
  | kAddition =>
      simp only [configureModule, htype, bind_eq_ok] at h
      obtain ⟨input, -, h⟩ := h
      exact setupAdditionModule_inside h
  | kMultiplication =>
      simp only [configureModule, htype, bind_eq_ok] at h
      obtain ⟨input, -, h⟩ := h
      exact setupMultiplicationModule_inside (hfits.2 htype) h
  | kAggregationSum =>
      simp only [configureModule, htype, bind_eq_ok, setupAggregationSum,
        Except.ok.injEq] at h
      obtain ⟨input, -, _, ⟨chunkParameters, -, chunkId, -, rfl⟩, _, -, rfl⟩ := h
      exact inside_cons.mpr ⟨show InWindow 64 by decide,
        inside_cons.mpr ⟨show InWindow 4 by decide,
          inside_singleton (show InWindow 0 by decide)⟩⟩

end Orkhestra.Ports.ModuleSwitch
