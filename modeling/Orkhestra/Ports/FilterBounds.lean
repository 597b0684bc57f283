import Mathlib.Logic.Relation
import Orkhestra.Ports.FilterSetup
import Orkhestra.Verified.OwnException

/-!
# Which filter parameters are safe

The filter set-up checks that the vectors and their entries are there and that
the literals of a comparison can be completed.  The numbers themselves, the
clauses, the chunk and position of a header and how many comparisons it has, are
handed to the driver as they are, which indexes its table with them.

`SetupStep` is what `SetComparisons` does for a word: it computes the offset of
the word, an `int`, and calls the driver.
-/

namespace Orkhestra.Ports.FilterBounds

open Orkhestra.Verified.Checked
open Orkhestra.Verified.Loop
open Orkhestra.Verified.OwnException
open Orkhestra.Ports.StreamParameterCalculator
open Orkhestra.Ports.FilterModule
open Orkhestra.Ports.FilterSetup

/-! ## The steps of `SetComparisons` -/

inductive SetupStep where
  /-- `15 - data_position + compare_value_index`. -/
  | wordOffset (offset : Int)
  | setCompareReferenceValue (chunkId dataPosition : Int)
      (compareLaneIndex : Nat) (compareReferenceValue : Int)
  | setDNFClauseLiteral (dnfClauseId : Int) (compareNumber : Nat)
      (chunkId dataPosition : Int) (literalType : LiteralTypes)
  /-- The four compare types are read from a vector. -/
  | setCompareTypes (chunkId dataPosition : Int)
      (compareFunctions : List FilterCompareFunctions)

def perform (filterModule : Filter) : SetupStep → Outcome Filter
  | .wordOffset _ => .ok filterModule
  | .setCompareReferenceValue chunkId dataPosition compareLaneIndex
      compareReferenceValue =>
      .ok (filterSetCompareReferenceValue filterModule chunkId dataPosition
        compareLaneIndex compareReferenceValue)
  | .setDNFClauseLiteral dnfClauseId compareNumber chunkId dataPosition
      literalType =>
      filterSetDNFClauseLiteral filterModule dnfClauseId compareNumber chunkId
        dataPosition literalType
  | .setCompareTypes chunkId dataPosition compareFunctions => do
      let compare1Type ← readAt compareFunctions 0
      let compare2Type ← readAt compareFunctions 1
      let compare3Type ← readAt compareFunctions 2
      let compare4Type ← readAt compareFunctions 3
      .ok (filterSetCompareTypes filterModule chunkId dataPosition compare1Type
        compare2Type compare3Type compare4Type)

/-- A word in chunk 0 to 31 at position 0 to 15. -/
def WordInBounds (chunkId dataPosition : Int) : Prop :=
  (0 ≤ chunkId ∧ chunkId < 32) ∧ 0 ≤ dataPosition ∧ dataPosition < 16

/-- The offset is an `int`, and the arguments are within the tables. -/
def SetupStep.InBounds : SetupStep → Prop
  | .wordOffset offset => -2 ^ 31 ≤ offset ∧ offset < 2 ^ 31
  | .setCompareReferenceValue chunkId dataPosition compareLaneIndex _ =>
      WordInBounds chunkId dataPosition ∧ compareLaneIndex < 4
  | .setDNFClauseLiteral dnfClauseId compareNumber chunkId dataPosition _ =>
      (0 ≤ dnfClauseId ∧ dnfClauseId < 32) ∧ compareNumber < 4 ∧
        WordInBounds chunkId dataPosition
  | .setCompareTypes chunkId dataPosition compareFunctions =>
      WordInBounds chunkId dataPosition ∧ 4 ≤ compareFunctions.length

section Steps

variable (chunkId dataPosition : Int)

def wordSteps (comparison : FilterComparison) (compareLaneIndex : Nat)
    (value : Int × Nat) : List SetupStep :=
  let chunk := currentChunkId chunkId dataPosition value.2
  let position := currentDataPosition dataPosition value.2
  [.wordOffset (15 - dataPosition + value.2),
    .setCompareReferenceValue chunk position compareLaneIndex value.1] ++
  (comparison.dnfClauseIds.zip comparison.literalTypes).map fun dnf =>
    .setDNFClauseLiteral dnf.1 compareLaneIndex chunk position dnf.2

def laneSteps (lane : FilterComparison × Nat) : List SetupStep :=
  lane.1.compareReferenceValues.zipIdx.flatMap
    (wordSteps chunkId dataPosition lane.1 lane.2)

def typeSteps (compareFunctions : List FilterCompareFunctions)
    (valueCount : Nat) : List SetupStep :=
  (List.range valueCount).flatMap fun (compareValueIndex : Nat) =>
    [.wordOffset (15 - dataPosition + compareValueIndex),
      .setCompareTypes (currentChunkId chunkId dataPosition compareValueIndex)
        (currentDataPosition dataPosition compareValueIndex) compareFunctions]

/-- The compare types, with random ones for unused lanes. -/
def compareFunctionsOf (comparisons : List FilterComparison) :
    List FilterCompareFunctions :=
  comparisons.map (·.compareFunction) ++
    List.replicate (4 - comparisons.length) .kEqual32Bit

def comparisonSteps (comparisons : List FilterComparison) : List SetupStep :=
  comparisons.zipIdx.flatMap (laneSteps chunkId dataPosition) ++
    match comparisons with
    | [] => []
    | first :: _ => typeSteps chunkId dataPosition
        (compareFunctionsOf comparisons) first.compareReferenceValues.length

variable {chunkId dataPosition}

theorem setComparison_eq (filterModule : Filter) (lane : FilterComparison × Nat) :
    setComparison chunkId dataPosition filterModule lane =
      (laneSteps chunkId dataPosition lane).foldlM perform filterModule := by
  rw [laneSteps, foldlM_flatMap, setComparison]
  congr 1
  funext filterModule value
  have hword : [SetupStep.wordOffset (15 - dataPosition + value.2),
      .setCompareReferenceValue (currentChunkId chunkId dataPosition value.2)
        (currentDataPosition dataPosition value.2) lane.2 value.1].foldlM perform
        filterModule =
      .ok (filterSetCompareReferenceValue filterModule
        (currentChunkId chunkId dataPosition value.2)
        (currentDataPosition dataPosition value.2) lane.2 value.1) := rfl
  rw [setReferenceValue, setClauseLiterals, wordSteps, List.foldlM_append, hword,
    ok_bind, List.foldlM_map]
  rfl

theorem setCompareTypes_eq (filterModule : Filter)
    (compareFunctions : List FilterCompareFunctions) (valueCount : Nat) :
    setCompareTypes filterModule chunkId dataPosition compareFunctions
        valueCount =
      (typeSteps chunkId dataPosition compareFunctions valueCount).foldlM perform
        filterModule := by
  rw [typeSteps, foldlM_flatMap, setCompareTypes]
  congr 1
  funext filterModule compareValueIndex
  exact (bind_pure _).symm

/-- `SetComparisons` performs its steps; without a comparison it reads the first
one all the same. -/
theorem setComparisons_eq (filterModule : Filter)
    {comparisons : List FilterComparison} (hne : comparisons ≠ []) :
    setComparisons filterModule comparisons chunkId dataPosition =
      (comparisonSteps chunkId dataPosition comparisons).foldlM perform
        filterModule := by
  obtain ⟨first, rest, rfl⟩ := List.exists_cons_of_ne_nil hne
  have hlane : setComparison chunkId dataPosition =
      fun filterModule lane =>
        (laneSteps chunkId dataPosition lane).foldlM perform filterModule := by
    funext filterModule lane
    exact setComparison_eq filterModule lane
  have htypes : ∀ filterModule, (do
      let first' ← readAt (first :: rest) 0
      setCompareTypes filterModule chunkId dataPosition
        (compareFunctionsOf (first :: rest))
        first'.compareReferenceValues.length) =
      (typeSteps chunkId dataPosition (compareFunctionsOf (first :: rest))
        first.compareReferenceValues.length).foldlM perform filterModule :=
    fun filterModule => setCompareTypes_eq filterModule _ _
  rw [comparisonSteps, List.foldlM_append, foldlM_flatMap, setComparisons, hlane]
  exact congrArg _ (funext htypes)

theorem setComparisons_nil (filterModule : Filter) :
    setComparisons filterModule [] chunkId dataPosition = .error .undefined :=
  rfl

end Steps

/-! ## Words within the tables -/

/-- The word is one of the 512 of a record.  A position above 15 makes the
offset negative; its remainder is rounded towards zero, so that only an offset
which is a multiple of 16 has a position. -/
structure WordFits (chunkId dataPosition : Int) (k : Nat) : Prop where
  word : 0 ≤ 16 * chunkId + (15 - dataPosition + k) ∧
    16 * chunkId + (15 - dataPosition + k) < 512
  position : dataPosition ≤ 15 + k ∨ (15 - dataPosition + k) % 16 = 0
  offset : -2 ^ 31 ≤ 15 - dataPosition + k ∧ 15 - dataPosition + k < 2 ^ 31

theorem wordInBounds_iff (chunkId dataPosition : Int) (k : Nat) :
    WordInBounds (currentChunkId chunkId dataPosition k)
        (currentDataPosition dataPosition k) ↔
      (0 ≤ 16 * chunkId + (15 - dataPosition + k) ∧
        16 * chunkId + (15 - dataPosition + k) < 512) ∧
      (dataPosition ≤ 15 + k ∨ (15 - dataPosition + k) % 16 = 0) := by
  unfold WordInBounds currentChunkId currentDataPosition
  rcases Int.le_total 0 (15 - dataPosition + k) with hpos | hneg
  · rw [Int.tdiv_eq_ediv_of_nonneg hpos, Int.tmod_eq_emod_of_nonneg hpos]
    omega
  · obtain ⟨offset, hoffset⟩ :
        ∃ offset, 15 - dataPosition + (k : Int) = -offset :=
      ⟨-(15 - dataPosition + k), (Int.neg_neg _).symm⟩
    have hnonneg : 0 ≤ offset := by omega
    rw [hoffset, Int.neg_tdiv, Int.neg_tmod, Int.tdiv_eq_ediv_of_nonneg hnonneg,
      Int.tmod_eq_emod_of_nonneg hnonneg]
    omega

/-- A header of at least one comparison.  Each reference word of a comparison
has a compare lane, clauses and a place in the tables. -/
structure HeaderFits (chunkId dataPosition : Int)
    (comparisons : List FilterComparison) : Prop where
  nonempty : comparisons ≠ []
  words : ∀ lane comparison, comparisons[lane]? = some comparison →
    ∀ k < comparison.compareReferenceValues.length,
      lane < 4 ∧
      (∀ dnfClauseId ∈ comparison.dnfClauseIds,
        0 ≤ dnfClauseId ∧ dnfClauseId < 32) ∧
      WordFits chunkId dataPosition k

section Words

variable {chunkId dataPosition : Int}

theorem forall_laneSteps_iff {property : SetupStep → Prop}
    {comparisons : List FilterComparison} :
    (∀ step ∈ comparisons.zipIdx.flatMap (laneSteps chunkId dataPosition),
      property step) ↔
    ∀ lane comparison, comparisons[lane]? = some comparison →
      ∀ k value, comparison.compareReferenceValues[k]? = some value →
        ∀ step ∈ wordSteps chunkId dataPosition comparison lane (value, k),
          property step := by
  simp only [List.forall_mem_flatMap, laneSteps, Prod.forall,
    List.mem_zipIdx_iff_getElem?]
  constructor
  · intro h lane comparison hlane k value hk
    exact h comparison lane hlane value k hk
  · intro h comparison lane hlane value k hk
    exact h lane comparison hlane k value hk

theorem wordSteps_inBounds_iff (comparison : FilterComparison) (lane : Nat)
    (value : Int) (k : Nat) :
    (∀ step ∈ wordSteps chunkId dataPosition comparison lane (value, k),
      step.InBounds) ↔
    lane < 4 ∧
      (∀ dnfClauseId ∈ comparison.dnfClauseIds,
        0 ≤ dnfClauseId ∧ dnfClauseId < 32) ∧
      WordFits chunkId dataPosition k := by
  have hids : (comparison.dnfClauseIds.zip comparison.literalTypes).map
      Prod.fst = comparison.dnfClauseIds :=
    List.map_fst_zip (Nat.le_of_eq comparison.sameLength.symm)
  have hclauses : (∀ dnf ∈ comparison.dnfClauseIds.zip comparison.literalTypes,
        0 ≤ dnf.1 ∧ dnf.1 < 32) ↔
      ∀ dnfClauseId ∈ comparison.dnfClauseIds,
        0 ≤ dnfClauseId ∧ dnfClauseId < 32 := by
    rw [← hids, List.forall_mem_map, hids]
  simp only [wordSteps, List.forall_mem_append, List.forall_mem_cons,
    List.forall_mem_map, SetupStep.InBounds, wordInBounds_iff]
  constructor
  · rintro ⟨⟨hoffset, ⟨⟨hword, hposition⟩, hlane⟩, -⟩, hdnf⟩
    exact ⟨hlane, hclauses.mp fun dnf h => (hdnf dnf h).1,
      hword, hposition, hoffset⟩
  · rintro ⟨hlane, hdnf, hword, hposition, hoffset⟩
    exact ⟨⟨hoffset, ⟨⟨hword, hposition⟩, hlane⟩, by simp⟩, fun dnf h =>
      ⟨hclauses.mpr hdnf dnf h, hlane, hword, hposition⟩⟩

theorem typeSteps_inBounds {compareFunctions : List FilterCompareFunctions}
    {valueCount : Nat} (hlength : 4 ≤ compareFunctions.length)
    (hwords : ∀ k < valueCount, WordFits chunkId dataPosition k) :
    ∀ step ∈ typeSteps chunkId dataPosition compareFunctions valueCount,
      step.InBounds := by
  simp only [typeSteps, List.forall_mem_flatMap, List.mem_range,
    List.forall_mem_cons]
  intro k hk
  have hword := hwords k hk
  have hbounds := (wordInBounds_iff _ _ _).mpr ⟨hword.word, hword.position⟩
  exact ⟨hword.offset, ⟨hbounds, hlength⟩, by simp⟩

theorem length_compareFunctionsOf (comparisons : List FilterComparison) :
    4 ≤ (compareFunctionsOf comparisons).length := by
  rw [compareFunctionsOf, List.length_append, List.length_map,
    List.length_replicate]
  omega

/-- The steps of a header stay within the tables exactly when its words do. -/
theorem headerFits_iff {comparisons : List FilterComparison} :
    HeaderFits chunkId dataPosition comparisons ↔
      comparisons ≠ [] ∧
        ∀ step ∈ comparisonSteps chunkId dataPosition comparisons,
          step.InBounds := by
  have hlanes : (∀ step ∈ comparisons.zipIdx.flatMap
        (laneSteps chunkId dataPosition), step.InBounds) ↔
      ∀ lane comparison, comparisons[lane]? = some comparison →
        ∀ k < comparison.compareReferenceValues.length,
          lane < 4 ∧
          (∀ dnfClauseId ∈ comparison.dnfClauseIds,
            0 ≤ dnfClauseId ∧ dnfClauseId < 32) ∧
          WordFits chunkId dataPosition k := by
    simp only [forall_laneSteps_iff, wordSteps_inBounds_iff]
    constructor
    · intro h lane comparison hlane k hk
      exact h lane comparison hlane k _ (List.getElem?_eq_getElem hk)
    · intro h lane comparison hlane k value hvalue
      exact h lane comparison hlane k (List.getElem?_eq_some_iff.mp hvalue).1
  constructor
  · rintro ⟨hne, hwords⟩
    refine ⟨hne, ?_⟩
    obtain ⟨first, rest, rfl⟩ := List.exists_cons_of_ne_nil hne
    rw [comparisonSteps, List.forall_mem_append]
    exact ⟨hlanes.mpr hwords, typeSteps_inBounds (length_compareFunctionsOf _)
      fun k hk => (hwords 0 first rfl k hk).2.2⟩
  · rintro ⟨hne, hsteps⟩
    refine ⟨hne, hlanes.mp fun step hstep => hsteps step ?_⟩
    exact List.mem_append_left _ hstep

end Words

/-- A step within the tables is defined. -/
theorem perform_of_inBounds {step : SetupStep} (h : step.InBounds)
    (filterModule : Filter) :
    ∃ filterModule', perform filterModule step = .ok filterModule' := by
  cases step with
  | wordOffset offset => exact ⟨_, rfl⟩
  | setCompareReferenceValue chunkId dataPosition lane value => exact ⟨_, rfl⟩
  | setDNFClauseLiteral dnfClauseId lane chunkId dataPosition literalType =>
      obtain ⟨hclause, hlane, hchunk, hlow, hhigh⟩ := h
      have hnumber := arrayIndex_of_lt (show 0 ≤ (lane : Int) by omega)
        (show (lane : Int) < (4 : Nat) by omega) (Nat.mod_lt _ (by decide))
      have hposition := arrayIndex_of_lt hlow
        (show dataPosition < (32 : Nat) by omega) (Nat.mod_lt _ (by decide))
      rw [perform, filterSetDNFClauseLiteral,
        arrayIndex_of_lt hclause.1 hclause.2 (Nat.mod_lt _ (by decide)), ok_bind,
        hnumber, ok_bind,
        arrayIndex_of_lt hchunk.1 hchunk.2 (Nat.mod_lt _ (by decide)), ok_bind,
        hposition, ok_bind]
      exact ⟨_, rfl⟩
  | setCompareTypes chunkId dataPosition compareFunctions =>
      obtain ⟨-, hlength⟩ := h
      have hread : ∀ i < 4, ∃ f, readAt compareFunctions i = .ok f :=
        fun i hi => ⟨_, readAt_of_lt (Nat.lt_of_lt_of_le hi hlength)⟩
      obtain ⟨f₀, h₀⟩ := hread 0 (by decide)
      obtain ⟨f₁, h₁⟩ := hread 1 (by decide)
      obtain ⟨f₂, h₂⟩ := hread 2 (by decide)
      obtain ⟨f₃, h₃⟩ := hread 3 (by decide)
      simp only [perform, h₀, h₁, h₂, h₃, ok_bind]
      exact ⟨_, rfl⟩

theorem setComparisons_of_fits {chunkId dataPosition : Int}
    {comparisons : List FilterComparison}
    (h : HeaderFits chunkId dataPosition comparisons) (filterModule : Filter) :
    ∃ filterModule', setComparisons filterModule comparisons chunkId
      dataPosition = .ok filterModule' := by
  obtain ⟨hne, hsteps⟩ := headerFits_iff.mp h
  rw [setComparisons_eq filterModule hne]
  exact foldlM_returns fun step hstep => perform_of_inBounds (hsteps step hstep)

/-! ## The headers of a list of parameters -/

structure ParsedHeader where
  chunkId : Int
  dataPosition : Int
  comparisons : List FilterComparison
  /-- The vector behind the header and its comparisons. -/
  next : Nat

def ParsedHeader.Fits (header : ParsedHeader) : Prop :=
  HeaderFits header.chunkId header.dataPosition header.comparisons

def ParsedHeader.steps (header : ParsedHeader) : List SetupStep :=
  comparisonSteps header.chunkId header.dataPosition header.comparisons

section Parameters

variable (operationParameters : List (List Int))

/-- The reading half of an iteration of `SetAllComparisons`. -/
def readHeader (currentVectorId : Nat) : Outcome ParsedHeader := do
  let header ← checkedAt operationParameters currentVectorId
  let chunkId ← checkedAt header 0
  let dataPosition ← checkedAt header 1
  let comparisonCount ← checkedAt header 2
  let (comparisons, reached) ← readComparisons operationParameters
    comparisonCount.toNat currentVectorId
  .ok { chunkId, dataPosition, comparisons, next := reached + 1 }

theorem setHeader_eq (filterModule : Filter) (currentVectorId : Nat) :
    setHeader operationParameters (filterModule, currentVectorId) =
      if currentVectorId = operationParameters.length then
        .ok (.done filterModule)
      else (do
        let header ← readHeader operationParameters currentVectorId
        let filterModule ← setComparisons filterModule header.comparisons
          header.chunkId header.dataPosition
        .ok (.again (filterModule, header.next))) := by
  simp only [setHeader, readHeader, bind_assoc, ok_bind]

variable {operationParameters}

theorem readHeader_lt {currentVectorId : Nat} {header : ParsedHeader}
    (h : readHeader operationParameters currentVectorId = .ok header) :
    currentVectorId < operationParameters.length ∧
      currentVectorId < header.next := by
  simp only [readHeader, bind_eq_ok, Except.ok.injEq] at h
  obtain ⟨_, hheader, _, _, _, _, _, _, ⟨_, reached⟩, hread, rfl⟩ := h
  rw [checkedAt_eq_ok] at hheader
  exact ⟨(List.getElem?_eq_some_iff.mp hheader).1,
    Nat.lt_succ_of_le ((readComparisons_stops _ _ _).2 _ _ hread)⟩

/-! ### Rejected parameters -/

theorem rejects_filterComparison (compareFunction : FilterCompareFunctions)
    (compareReferenceValues : List Int) (literalTypes : List LiteralTypes)
    (dnfClauseIds : List Int) :
    Rejects (filterComparison compareFunction compareReferenceValues literalTypes
      dnfClauseIds) := by
  unfold filterComparison
  split
  · split
    · exact rejects_error (.runtimeError _)
    · exact rejects_ok _
  · split
    · exact rejects_ok _
    · exact rejects_error (.runtimeError _)

theorem rejects_readComparisons (comparisonCount currentVectorId : Nat) :
    Rejects (readComparisons operationParameters comparisonCount
      currentVectorId) := by
  induction comparisonCount generalizing currentVectorId with
  | zero => exact rejects_ok _
  | succ comparisonCount ih =>
      rw [readComparisons]
      apply (rejects_checkedAt _ _).bind; intro functions _
      apply (rejects_checkedAt _ _).bind; intro compareFunction _
      apply (rejects_checkedAt _ _).bind; intro compareReferenceValues _
      apply (rejects_checkedAt _ _).bind; intro literalTypes _
      apply (rejects_checkedAt _ _).bind; intro dnfClauseIds _
      apply (rejects_filterComparison _ _ _ _).bind; intro comparison _
      exact (ih _).bind fun _ _ => rejects_ok _

theorem rejects_readHeader (currentVectorId : Nat) :
    Rejects (readHeader operationParameters currentVectorId) := by
  unfold readHeader
  apply (rejects_checkedAt _ _).bind; intro header _
  apply (rejects_checkedAt _ _).bind; intro chunkId _
  apply (rejects_checkedAt _ _).bind; intro dataPosition _
  apply (rejects_checkedAt _ _).bind; intro comparisonCount _
  exact (rejects_readComparisons _ _).bind fun _ _ => rejects_ok _

/-! ### The headers that are reached -/

variable (operationParameters) in
/-- One header follows the other. -/
def NextHeader (currentVectorId nextVectorId : Nat) : Prop :=
  ∃ header, readHeader operationParameters currentVectorId = .ok header ∧
    header.next = nextVectorId

variable (operationParameters) in
/-- From a vector on, each header that is read fits. -/
def FitsFrom (currentVectorId : Nat) : Prop :=
  ∀ vectorId header,
    Relation.ReflTransGen (NextHeader operationParameters) currentVectorId
      vectorId →
    readHeader operationParameters vectorId = .ok header → header.Fits

theorem fitsFrom_iff {currentVectorId : Nat} :
    FitsFrom operationParameters currentVectorId ↔
      ∀ header, readHeader operationParameters currentVectorId = .ok header →
        header.Fits ∧ FitsFrom operationParameters header.next := by
  constructor
  · intro h header hread
    refine ⟨h _ header .refl hread, ?_⟩
    intro vectorId header' hreach hread'
    exact h vectorId header' (.head ⟨header, hread, rfl⟩ hreach) hread'
  · intro h vectorId header hreach hread
    rcases hreach.cases_head with rfl | ⟨_, ⟨first, hfirst, rfl⟩, hrest⟩
    · exact (h header hread).1
    · exact (h first hfirst).2 vectorId header hrest hread

variable (operationParameters) in
/-- The accesses of an iteration are within the tables. -/
def StaysInBounds (state : Filter × Nat) : Prop :=
  ∀ header, readHeader operationParameters state.2 = .ok header →
    ∀ step ∈ header.steps, step.InBounds

/-- A run from a vector on is safe exactly when the headers from there on fit:
a header that does not has no comparison to read or a step outside the tables,
and one that does hands over to the next. -/
theorem run_safe_iff {fuel : Nat} {filterModule : Filter} {currentVectorId : Nat}
    (hfuel : operationParameters.length + 1 - currentVectorId < fuel) :
    (Rejects (iterate (setHeader operationParameters) fuel
        (filterModule, currentVectorId)) ∧
      ∀ state ∈ visited (setHeader operationParameters) fuel
        (filterModule, currentVectorId),
        StaysInBounds operationParameters state) ↔
    FitsFrom operationParameters currentVectorId := by
  induction fuel generalizing filterModule currentVectorId with
  | zero => omega
  | succ fuel ih =>
      have hhead : StaysInBounds operationParameters
          (filterModule, currentVectorId) ↔
          ∀ header, readHeader operationParameters currentVectorId = .ok header →
            ∀ step ∈ header.steps, step.InBounds := Iff.rfl
      rw [iterate, visited, List.forall_mem_cons, hhead, fitsFrom_iff,
        setHeader_eq]
      cases hread : readHeader operationParameters currentVectorId with
      | error e =>
          have hrejected := rejects_readHeader currentVectorId e hread
          rw [error_bind]
          by_cases hend : currentVectorId = operationParameters.length
          · rw [if_pos hend]
            simp [rejects_ok]
          · rw [if_neg hend]
            simp [rejects_error hrejected]
      | ok header =>
          obtain ⟨hlt, hnext⟩ := readHeader_lt hread
          rw [if_neg (Nat.ne_of_lt hlt), ok_bind]
          by_cases hfits : header.Fits
          · obtain ⟨filterModule', hset⟩ :=
              setComparisons_of_fits hfits filterModule
            have hsteps := (headerFits_iff.mp hfits).2
            have hrest := @ih filterModule' header.next (by omega)
            simp only [hset, ok_bind, Except.ok.injEq, forall_eq', hfits,
              true_and]
            rw [← hrest]
            exact and_congr_right fun _ => and_iff_right hsteps
          · refine iff_of_false ?_ fun h => hfits (h header rfl).1
            rintro ⟨hrun, hsteps, -⟩
            apply hfits
            refine headerFits_iff.mpr ⟨?_, hsteps header rfl⟩
            intro hnil
            rw [hnil, setComparisons_nil, error_bind] at hrun
            cases hrun _ rfl

/-- A run that completes has stood behind the last vector. -/
theorem mem_visited_of_iterate {fuel : Nat} {state : Filter × Nat}
    {filterModule' : Filter}
    (h : iterate (setHeader operationParameters) fuel state = .ok filterModule') :
    (filterModule', operationParameters.length) ∈
      visited (setHeader operationParameters) fuel state := by
  induction fuel generalizing state with
  | zero => cases h
  | succ fuel ih =>
      obtain ⟨filterModule, currentVectorId⟩ := state
      rw [iterate] at h
      rw [visited]
      split at h
      · exact List.mem_cons_of_mem _ (ih h)
      · next result hbody =>
          obtain rfl := Except.ok.inj h
          rw [setHeader_eq] at hbody
          split at hbody
          · next hend =>
              obtain rfl := Next.done.inj (Except.ok.inj hbody)
              rw [← hend]
              exact List.mem_cons_self
          · simp only [bind_eq_ok, Except.ok.injEq, reduceCtorEq, and_false,
              exists_false] at hbody
      · cases h

end Parameters

/-! ## The set-up -/

section Setup

variable (filterModule : Filter) (inputStreamId outputStreamId : Int)
  (operationParameters : List (List Int))

/-- The filter when the first header is read. -/
def parsingStart : Filter :=
  setOneOutputSingleModuleMode (filterSetStreamIDs (resetDNFStates filterModule)
    inputStreamId outputStreamId outputStreamId)

/-- The iterations of `SetAllComparisons`. -/
def iterations : List (Filter × Nat) :=
  visited (setHeader operationParameters) (operationParameters.length + 2)
    (parsingStart filterModule inputStreamId outputStreamId, 0)

/-- Malformed parameters are rejected, not written. -/
structure Handled : Prop where
  terminates : Stops (setupFilterModule filterModule inputStreamId outputStreamId
    operationParameters)
  rejects : Rejects (setupFilterModule filterModule inputStreamId outputStreamId
    operationParameters)
  inBounds : ∀ state ∈ iterations filterModule inputStreamId outputStreamId
    operationParameters, StaysInBounds operationParameters state
  /-- A set-up that completes has consumed the list exactly. -/
  consumed : ∀ filterModule', setupFilterModule filterModule inputStreamId
      outputStreamId operationParameters = .ok filterModule' →
    ∃ parsed, (parsed, operationParameters.length) ∈
      iterations filterModule inputStreamId outputStreamId operationParameters

/-- Parameters whose first vector is there and has an entry are parsed. -/
theorem setupFilterModule_eq {operationParameters : List (List Int)}
    (h : operationParameters.headD [] ≠ []) :
    setupFilterModule filterModule inputStreamId outputStreamId
        operationParameters = (do
      let parsed ← setAllComparisons
        (parsingStart filterModule inputStreamId outputStreamId)
        operationParameters
      .ok (writeDNFClauseLiteralsToFilter4CMP32DNF parsed
        ⟨kDatapathWidth, by decide⟩)) := by
  match operationParameters with
  | [] => exact absurd rfl h
  | [] :: _ => exact absurd rfl h
  | (_ :: _) :: _ => rfl

theorem setupFilterModule_empty {operationParameters : List (List Int)}
    (h : operationParameters.headD [] = []) :
    setupFilterModule filterModule inputStreamId outputStreamId
        operationParameters = .error (.runtimeError "No parameters given!") := by
  match operationParameters with
  | [] => rfl
  | [] :: _ => rfl
  | (_ :: _) :: _ => cases h

/-- Without a first entry there is no header. -/
theorem fitsFrom_empty {operationParameters : List (List Int)}
    (h : operationParameters.headD [] = []) : FitsFrom operationParameters 0 := by
  rw [fitsFrom_iff]
  intro header hread
  match operationParameters with
  | [] => cases hread
  | [] :: _ => cases hread
  | (_ :: _) :: _ => cases h

/-- The rule of the run for the loop of `SetAllComparisons`. -/
theorem iterations_safe_iff :
    (Rejects (setAllComparisons
        (parsingStart filterModule inputStreamId outputStreamId)
        operationParameters) ∧
      ∀ state ∈ iterations filterModule inputStreamId outputStreamId
        operationParameters, StaysInBounds operationParameters state) ↔
    FitsFrom operationParameters 0 :=
  run_safe_iff (Nat.lt_succ_self (operationParameters.length + 1))

theorem rejects_setupFilterModule_iff :
    Rejects (setupFilterModule filterModule inputStreamId outputStreamId
        operationParameters) ↔
      Rejects (setAllComparisons
        (parsingStart filterModule inputStreamId outputStreamId)
        operationParameters) := by
  by_cases h : operationParameters.headD [] = []
  · rw [setupFilterModule_empty _ _ _ h]
    apply iff_of_true (rejects_error (.runtimeError _))
    exact ((iterations_safe_iff _ _ _ _).mpr (fitsFrom_empty h)).1
  · rw [setupFilterModule_eq _ _ _ h]
    constructor
    · intro hsetup e he
      apply hsetup e
      rw [he, error_bind]
    · intro hparse
      exact hparse.bind fun _ _ => rejects_ok _

theorem stops_setupFilterModule :
    Stops (setupFilterModule filterModule inputStreamId outputStreamId
      operationParameters) := by
  by_cases h : operationParameters.headD [] = []
  · rw [setupFilterModule_empty _ _ _ h]
    exact stops_error (by decide)
  · rw [setupFilterModule_eq _ _ _ h]
    exact (stops_setAllComparisons _ _).bind fun _ _ => stops_ok _

theorem setupFilterModule_consumed {filterModule' : Filter}
    (hsetup : setupFilterModule filterModule inputStreamId outputStreamId
      operationParameters = .ok filterModule') :
    ∃ parsed, (parsed, operationParameters.length) ∈
      iterations filterModule inputStreamId outputStreamId
        operationParameters := by
  by_cases h : operationParameters.headD [] = []
  · rw [setupFilterModule_empty _ _ _ h] at hsetup
    cases hsetup
  · rw [setupFilterModule_eq _ _ _ h] at hsetup
    obtain ⟨parsed, hparsed, -⟩ := bind_eq_ok.mp hsetup
    exact ⟨parsed, mem_visited_of_iterate hparsed⟩

theorem handled_of_fitsFrom {operationParameters : List (List Int)}
    (h : FitsFrom operationParameters 0) :
    Handled filterModule inputStreamId outputStreamId operationParameters := by
  obtain ⟨hrejects, hbounds⟩ := (iterations_safe_iff filterModule inputStreamId
    outputStreamId operationParameters).mpr h
  exact
    { terminates := stops_setupFilterModule _ _ _ _
      rejects := (rejects_setupFilterModule_iff _ _ _ _).mpr hrejects
      inBounds := hbounds
      consumed := fun _ => setupFilterModule_consumed _ _ _ _ }

/-- Parameters are handled exactly when each header that is reached has a
comparison and its reference words are within the tables. -/
theorem handled_iff_fits :
    Handled filterModule inputStreamId outputStreamId operationParameters ↔
      ∀ vectorId header,
        Relation.ReflTransGen (NextHeader operationParameters) 0 vectorId →
        readHeader operationParameters vectorId = .ok header →
        HeaderFits header.chunkId header.dataPosition header.comparisons := by
  constructor
  · intro h
    apply (iterations_safe_iff filterModule inputStreamId outputStreamId
      operationParameters).mp
    exact ⟨(rejects_setupFilterModule_iff _ _ _ _).mp h.rejects, h.inBounds⟩
  · intro h
    exact handled_of_fitsFrom filterModule inputStreamId outputStreamId h

/-- Clause 32 is behind the 32 clauses, and a header without comparisons has no
first one: both are handed on. -/
theorem parameters_not_always_handled :
    ¬Handled ⟨fun _ => ⟨false, fun _ _ _ => .kLiteralDontCare⟩, []⟩ 0 0
        [[0, 15, 1], [2], [5], [1], [32]] ∧
      ¬Handled ⟨fun _ => ⟨false, fun _ _ _ => .kLiteralDontCare⟩, []⟩ 0 0
        [[0, 15, 0]] := by
  constructor
  · intro h
    cases h.rejects .undefined rfl
  · intro h
    cases h.rejects .undefined rfl

end Setup

end Orkhestra.Ports.FilterBounds
