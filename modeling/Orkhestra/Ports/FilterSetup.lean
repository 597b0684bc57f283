import Orkhestra.Ports.FilterModule
import Orkhestra.Ports.StreamParameterCalculator
import Orkhestra.Verified.Loop

/-!
# The filter set-up

`FilterSetup`: a flat list of operation parameters is cut into headers and
comparisons.  A comparison has a compare lane of its own; its reference words
follow each other through the datapath, from a position down to zero and on to
the last position of the next chunk.
-/

namespace Orkhestra.Ports.FilterSetup

open Orkhestra.Verified.Checked
open Orkhestra.Verified.Loop
open Orkhestra.Verified.LiteralTable
open Orkhestra.Ports.StreamParameterCalculator
open Orkhestra.Ports.FilterModule

/-! ## Comparisons -/

structure FilterComparison where
  compareFunction : FilterCompareFunctions
  compareReferenceValues : List Int
  literalTypes : List LiteralTypes
  dnfClauseIds : List Int
  /-- Each clause has its literal. -/
  sameLength : literalTypes.length = dnfClauseIds.length

/-- The constructor of `FilterComparison`. -/
def filterComparison (compareFunction : FilterCompareFunctions)
    (compareReferenceValues : List Int) (literalTypes : List LiteralTypes)
    (dnfClauseIds : List Int) : Outcome FilterComparison :=
  if literalTypes = [] then
    if dnfClauseIds = [] then .error (.runtimeError "No DNF IDs given!")
    else .ok
      { compareFunction, compareReferenceValues, dnfClauseIds
        literalTypes := dnfClauseIds.map fun _ => .kLiteralPositive
        sameLength := List.length_map _ }
  else if h : literalTypes.length = dnfClauseIds.length then .ok
    { compareFunction, compareReferenceValues, dnfClauseIds, literalTypes
      sameLength := h }
  else .error (.runtimeError "Incorrect comparison data given!")

def currentChunkId (chunkId dataPosition : Int) (compareValueIndex : Nat) :
    Int :=
  chunkId + (15 - dataPosition + compareValueIndex).tdiv 16

def currentDataPosition (dataPosition : Int) (compareValueIndex : Nat) : Int :=
  15 - (15 - dataPosition + compareValueIndex).tmod 16

/-- The literals of the clauses at one reference value. -/
def setClauseLiterals (filterModule : Filter) (comparison : FilterComparison)
    (compareLaneIndex : Nat) (chunkId dataPosition : Int) : Outcome Filter :=
  (comparison.dnfClauseIds.zip comparison.literalTypes).foldlM
    (fun filterModule dnf => filterSetDNFClauseLiteral filterModule dnf.1
      compareLaneIndex chunkId dataPosition dnf.2) filterModule

def setReferenceValue (chunkId dataPosition : Int) (filterModule : Filter)
    (comparison : FilterComparison) (compareLaneIndex : Nat)
    (value : Int × Nat) : Outcome Filter :=
  let chunk := currentChunkId chunkId dataPosition value.2
  let position := currentDataPosition dataPosition value.2
  setClauseLiterals
    (filterSetCompareReferenceValue filterModule chunk position
      compareLaneIndex value.1)
    comparison compareLaneIndex chunk position

/-- The loop over the reference values of a lane. -/
def setComparison (chunkId dataPosition : Int) (filterModule : Filter)
    (lane : FilterComparison × Nat) : Outcome Filter :=
  lane.1.compareReferenceValues.zipIdx.foldlM
    (fun filterModule value => setReferenceValue chunkId dataPosition
      filterModule lane.1 lane.2 value) filterModule

/-- The loop that writes the compare types. -/
def setCompareTypes (filterModule : Filter) (chunkId dataPosition : Int)
    (compareFunctions : List FilterCompareFunctions) (valueCount : Nat) :
    Outcome Filter :=
  (List.range valueCount).foldlM (fun filterModule compareValueIndex => do
    let compare1Type ← readAt compareFunctions 0
    let compare2Type ← readAt compareFunctions 1
    let compare3Type ← readAt compareFunctions 2
    let compare4Type ← readAt compareFunctions 3
    .ok (filterSetCompareTypes filterModule
      (currentChunkId chunkId dataPosition compareValueIndex)
      (currentDataPosition dataPosition compareValueIndex)
      compare1Type compare2Type compare3Type compare4Type)) filterModule

def setComparisons (filterModule : Filter)
    (comparisons : List FilterComparison) (chunkId dataPosition : Int) :
    Outcome Filter := do
  let filterModule ← comparisons.zipIdx.foldlM
    (setComparison chunkId dataPosition) filterModule
  -- Set random comparisons for unused lanes.
  let compareFunctions := comparisons.map (·.compareFunction) ++
    List.replicate (4 - comparisons.length) .kEqual32Bit
  let first ← readAt comparisons 0
  setCompareTypes filterModule chunkId dataPosition compareFunctions
    first.compareReferenceValues.length

/-! ## The operation parameters -/

/-- The loop over the comparisons of a header: the comparisons, and the vector
that was reached. -/
def readComparisons (operationParameters : List (List Int)) :
    Nat → Nat → Outcome (List FilterComparison × Nat)
  | 0, currentVectorId => .ok ([], currentVectorId)
  | comparisonCount + 1, currentVectorId => do
      let functions ← checkedAt operationParameters (currentVectorId + 1)
      let compareFunction ← checkedAt functions 0
      let compareReferenceValues ←
        checkedAt operationParameters (currentVectorId + 2)
      let literalTypes ← checkedAt operationParameters (currentVectorId + 3)
      let dnfClauseIds ← checkedAt operationParameters (currentVectorId + 4)
      let comparison ← filterComparison (.ofInt compareFunction)
        compareReferenceValues (literalTypes.map .ofInt) dnfClauseIds
      let (comparisons, currentVectorId) ←
        readComparisons operationParameters comparisonCount (currentVectorId + 4)
      .ok (comparison :: comparisons, currentVectorId)

/-- The body of the `while` loop of `SetAllComparisons`. -/
def setHeader (operationParameters : List (List Int)) (state : Filter × Nat) :
    Outcome (Next (Filter × Nat) Filter) :=
  let (filterModule, currentVectorId) := state
  if currentVectorId = operationParameters.length then .ok (.done filterModule)
  else do
    let header ← checkedAt operationParameters currentVectorId
    let currentChunkId ← checkedAt header 0
    let currentDataPosition ← checkedAt header 1
    let comparisonCount ← checkedAt header 2
    let (comparisons, currentVectorId) ← readComparisons operationParameters
      comparisonCount.toNat currentVectorId
    let filterModule ← setComparisons filterModule comparisons currentChunkId
      currentDataPosition
    .ok (.again (filterModule, currentVectorId + 1))

/-- Each iteration reads a header, so the vectors are fuel enough. -/
def setAllComparisons (filterModule : Filter)
    (operationParameters : List (List Int)) : Outcome Filter :=
  iterate (setHeader operationParameters) (operationParameters.length + 2)
    (filterModule, 0)

def setOneOutputSingleModuleMode (filterModule : Filter) : Filter :=
  filterSetMode filterModule true false false true true

def setupFilterModule (filterModule : Filter)
    (inputStreamId outputStreamId : Int)
    (operationParameters : List (List Int)) : Outcome Filter :=
  match operationParameters with
  | [] => .error (.runtimeError "No parameters given!")
  | [] :: _ => .error (.runtimeError "No parameters given!")
  | _ => do
      let filterModule := filterSetStreamIDs (resetDNFStates filterModule)
        inputStreamId outputStreamId outputStreamId
      let filterModule ← setAllComparisons
        (setOneOutputSingleModuleMode filterModule) operationParameters
      .ok (writeDNFClauseLiteralsToFilter4CMP32DNF filterModule
        ⟨kDatapathWidth, by decide⟩)

/-! ## Termination -/

theorem stops_filterComparison (compareFunction : FilterCompareFunctions)
    (compareReferenceValues : List Int) (literalTypes : List LiteralTypes)
    (dnfClauseIds : List Int) :
    Stops (filterComparison compareFunction compareReferenceValues literalTypes
      dnfClauseIds) := by
  unfold filterComparison
  split
  · split
    · exact stops_error (by decide)
    · exact stops_ok _
  · split
    · exact stops_ok _
    · exact stops_error (by decide)

theorem stops_arrayIndex (n : Nat) (i : Int) : Stops (arrayIndex n i) := by
  unfold arrayIndex
  split
  · exact stops_ok _
  · exact stops_error (by decide)

theorem stops_filterSetDNFClauseLiteral (filterModule : Filter)
    (dnfClauseId compareNumber chunkId dataPosition : Int)
    (literalType : LiteralTypes) :
    Stops (filterSetDNFClauseLiteral filterModule dnfClauseId compareNumber
      chunkId dataPosition literalType) :=
  (stops_arrayIndex 32 dnfClauseId).bind fun _ _ =>
    (stops_arrayIndex 4 compareNumber).bind fun _ _ =>
      (stops_arrayIndex 32 chunkId).bind fun _ _ =>
        (stops_arrayIndex 32 dataPosition).bind fun _ _ => stops_ok _

theorem stops_setComparisons (filterModule : Filter)
    (comparisons : List FilterComparison) (chunkId dataPosition : Int) :
    Stops (setComparisons filterModule comparisons chunkId dataPosition) := by
  refine Stops.bind (stops_foldlM ?_ _ _) fun filterModule _ => ?_
  · intro filterModule lane
    refine stops_foldlM (fun filterModule value => ?_) _ _
    refine stops_foldlM (fun filterModule dnf => ?_) _ _
    exact stops_filterSetDNFClauseLiteral filterModule dnf.1 lane.2 _ _ dnf.2
  · refine (stops_readAt _ _).bind fun first _ => ?_
    refine stops_foldlM (fun filterModule compareValueIndex => ?_) _ _
    exact (stops_readAt _ _).bind fun _ _ => (stops_readAt _ _).bind fun _ _ =>
      (stops_readAt _ _).bind fun _ _ => (stops_readAt _ _).bind fun _ _ =>
        stops_ok _

/-- The comparisons of a header stop, behind where they start. -/
theorem readComparisons_stops (operationParameters : List (List Int))
    (comparisonCount currentVectorId : Nat) :
    Stops (readComparisons operationParameters comparisonCount
      currentVectorId) ∧
    ∀ comparisons reached, readComparisons operationParameters comparisonCount
      currentVectorId = .ok (comparisons, reached) →
      currentVectorId ≤ reached := by
  induction comparisonCount generalizing currentVectorId with
  | zero =>
      refine ⟨stops_ok _, ?_⟩
      intro comparisons reached h
      rw [readComparisons, Except.ok.injEq, Prod.mk.injEq] at h
      exact Nat.le_of_eq h.2
  | succ comparisonCount ih =>
      rw [readComparisons]
      refine ⟨?_, ?_⟩
      · refine (stops_checkedAt _ _).bind fun _ _ => ?_
        refine (stops_checkedAt _ _).bind fun _ _ => ?_
        refine (stops_checkedAt _ _).bind fun _ _ => ?_
        refine (stops_checkedAt _ _).bind fun _ _ => ?_
        refine (stops_checkedAt _ _).bind fun _ _ => ?_
        refine (stops_filterComparison _ _ _ _).bind fun _ _ => ?_
        exact (ih (currentVectorId + 4)).1.bind fun _ _ => stops_ok _
      · intro comparisons reached h
        simp only [bind_eq_ok] at h
        obtain ⟨_, _, _, _, _, _, _, _, _, _, _, _, ⟨_, reached'⟩, hrest, h⟩ := h
        have hle := (ih (currentVectorId + 4)).2 _ _ hrest
        rw [Except.ok.injEq, Prod.mk.injEq] at h
        omega

/-- The parameters are read to their end, or to an exception. -/
theorem stops_setAllComparisons (filterModule : Filter)
    (operationParameters : List (List Int)) :
    Stops (setAllComparisons filterModule operationParameters) := by
  refine iterate_stops (fun _ => True)
    (fun state => operationParameters.length + 1 - state.2) ?_ ?_ trivial ?_
  · rintro ⟨filterModule, currentVectorId⟩ -
    rw [setHeader]
    split
    · exact stops_ok _
    · refine (stops_checkedAt _ _).bind fun header _ => ?_
      refine (stops_checkedAt _ _).bind fun _ _ => ?_
      refine (stops_checkedAt _ _).bind fun _ _ => ?_
      refine (stops_checkedAt _ _).bind fun _ _ => ?_
      refine (readComparisons_stops _ _ _).1.bind fun _ _ => ?_
      exact (stops_setComparisons _ _ _ _).bind fun _ _ => stops_ok _
  · rintro ⟨filterModule, currentVectorId⟩ ⟨filterModule', nextVectorId⟩ - h
    rw [setHeader] at h
    split at h
    · cases h
    · simp only [bind_eq_ok] at h
      obtain ⟨header, hheader, _, _, _, _, _, _, ⟨_, reached⟩, hread, _, _, h⟩ := h
      rw [checkedAt_eq_ok] at hheader
      have hlt := (List.getElem?_eq_some_iff.mp hheader).1
      have hle := (readComparisons_stops _ _ _).2 _ _ hread
      simp only [Except.ok.injEq, Next.again.injEq, Prod.mk.injEq] at h
      refine ⟨trivial, ?_⟩
      show operationParameters.length + 1 - nextVectorId <
        operationParameters.length + 1 - currentVectorId
      omega
  · show operationParameters.length + 1 - 0 < operationParameters.length + 2
    omega

end Orkhestra.Ports.FilterSetup
