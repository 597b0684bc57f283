import Orkhestra.Ports.DMACrossbarSpecifier
import Mathlib.Data.Vector.Basic
import Mathlib.Data.List.Nodup

/-!
# The crossbar configuration

`DMACrossbarSetup`: the words written to the crossbar registers for one stream.
A configuration is a list of entries, one for each clock cycle of a burst, and
an entry selects a chunk and a position for each of the sixteen lanes.

The first part translates the source.  The second part reads a configuration
lane by lane: `chunkAt` and `positionAt` are the view in which the two
configuration loops are pointwise updates.
-/

namespace Orkhestra.Ports.DMACrossbarSetup

open Orkhestra.Verified.Checked
open Orkhestra.Ports.StreamParameterCalculator
open Orkhestra.Ports.DMACrossbarSpecifier

/-! ## The configuration loops -/

/-- Crossbar configuration for one clock cycle, one word for each lane. -/
structure DMACrossbarSetupData where
  chunkSelection : Vector Int kDatapathWidth
  positionSelection : Vector Int kDatapathWidth
  deriving DecidableEq

/-- The default constructor: every lane points at the last chunk. -/
def defaultSetupData : DMACrossbarSetupData where
  chunkSelection := Vector.replicate kDatapathWidth (kDatapathLength - 1 : Nat)
  positionSelection := Vector.replicate kDatapathWidth 0

/-- The part of `DMASetupData` that the crossbar configuration reads and
writes.  An `activeChannelCount` of `-1` is a single channel stream. -/
structure DMASetupData where
  recordsPerDdrBurst : Int
  chunksPerRecord : Int
  crossbarSetupData : List DMACrossbarSetupData
  isInputStream : Bool
  activeChannelCount : Int

/-- `v[position] = value` on a vector with one word for each lane. -/
def setLane (v : Vector Int kDatapathWidth) (position value : Int) :
    Outcome (Vector Int kDatapathWidth) := do
  let p ← indexOf position
  if h : p < kDatapathWidth then .ok (v.set p value) else .error .undefined

/-- Which of the two words of a lane is meant. -/
inductive SelectionKind where
  | chunk
  | position
  deriving DecidableEq, Repr

def DMACrossbarSetupData.selection (entry : DMACrossbarSetupData) :
    SelectionKind → Vector Int kDatapathWidth
  | .chunk => entry.chunkSelection
  | .position => entry.positionSelection

def DMACrossbarSetupData.withSelection (entry : DMACrossbarSetupData)
    (kind : SelectionKind) (v : Vector Int kDatapathWidth) :
    DMACrossbarSetupData :=
  match kind with
  | .chunk => { entry with chunkSelection := v }
  | .position => { entry with positionSelection := v }

/-- `crossbar_setup_data[chunk].chunk_selection[position] = value`, or the same
with `position_selection`. -/
def setSelection (xs : List DMACrossbarSetupData) (kind : SelectionKind)
    (chunk position value : Int) : Outcome (List DMACrossbarSetupData) := do
  let c ← indexOf chunk
  let entry ← readAt xs c
  let v ← setLane (entry.selection kind) position value
  writeAt xs c (entry.withSelection kind v)

def getReverseIndex (index rowSize : Int) : Int :=
  let currentChunk := index.tdiv rowSize
  let currentPos := rowSize - 1 - index.tmod rowSize
  currentChunk * rowSize + currentPos

def setUpEmptyCrossbarSetupData (xs : List DMACrossbarSetupData)
    (requiredChunkCount : Int) : List DMACrossbarSetupData :=
  xs ++ List.replicate (requiredChunkCount - xs.length).toNat defaultSetupData

def fillSetupDataWithNegativePositions (xs : List DMACrossbarSetupData) :
    List DMACrossbarSetupData :=
  xs.map fun entry =>
    { entry with chunkSelection := Vector.replicate kDatapathWidth (-1) }

/-- First a vertical pull of the chunk, then a horizontal pull of the position.
`currentLocation` is the place that is configured, `targetLocation` the data
that is to be placed there. -/
def setNextInputConfiguration (xs : List DMACrossbarSetupData)
    (currentLocation targetLocation : Int) :
    Outcome (List DMACrossbarSetupData) := do
  let xs ← setSelection xs .chunk (currentLocation.tdiv kDatapathWidth)
    (targetLocation.tmod kDatapathWidth) (targetLocation.tdiv kDatapathWidth)
  setSelection xs .position (currentLocation.tdiv kDatapathWidth)
    (currentLocation.tmod kDatapathWidth) (targetLocation.tmod kDatapathWidth)

/-- First a horizontal pull of the position, then a vertical push to the
chunk. -/
def setNextOutputConfiguration (xs : List DMACrossbarSetupData)
    (currentLocation targetLocation : Int) :
    Outcome (List DMACrossbarSetupData) := do
  let xs ← setSelection xs .position (targetLocation.tdiv kDatapathWidth)
    (currentLocation.tmod kDatapathWidth) (targetLocation.tmod kDatapathWidth)
  setSelection xs .chunk (targetLocation.tdiv kDatapathWidth)
    (currentLocation.tmod kDatapathWidth) (currentLocation.tdiv kDatapathWidth)

def createFreeChunksVector : List Int :=
  ((List.range kDatapathLength).map fun c => (c : Int)).reverse

def markChunksAsUsed (xs : List DMACrossbarSetupData)
    (columnId : Fin kDatapathWidth) (freeChunks : List Int) : List Int :=
  xs.foldl (fun freeChunks entry =>
    if entry.chunkSelection[columnId] ≠ -1 then
      freeChunks.erase entry.chunkSelection[columnId]
    else freeChunks) freeChunks

def allocateAvailableChunks (xs : List DMACrossbarSetupData)
    (columnId : Fin kDatapathWidth) (freeChunks : List Int) :
    Outcome (List DMACrossbarSetupData) :=
  xs.mapM fun entry =>
    if entry.chunkSelection[columnId] = -1 then do
      let chunk ← checkedAt freeChunks 0
      .ok { entry with
        chunkSelection := entry.chunkSelection.set columnId chunk }
    else .ok entry

/-- Empty entries are inserted behind every `chunksPerRecord` entries, from the
back to the front.  The fuel only matters when `chunksPerRecord` is not
positive, where the source does not stop. -/
def insertMissingEmptySetupChunks (missingChunkCountPerRecord : Nat)
    (chunksPerRecord : Int) : Nat → Int → List DMACrossbarSetupData →
    Outcome (List DMACrossbarSetupData)
  | 0, missingChunkIndex, xs =>
      if missingChunkIndex > 0 then .error .outOfFuel else .ok xs
  | fuel + 1, missingChunkIndex, xs =>
      if missingChunkIndex > 0 then
        insertMissingEmptySetupChunks missingChunkCountPerRecord chunksPerRecord
          fuel (missingChunkIndex - chunksPerRecord)
          (xs.take missingChunkIndex.toNat ++
            List.replicate missingChunkCountPerRecord defaultSetupData ++
            xs.drop missingChunkIndex.toNat)
      else .ok xs

/-- Body of the loop over the extended input selection. -/
def configureInputStep (ext : List Int) (xs : List DMACrossbarSetupData)
    (currentSelectionId : Nat) : Outcome (List DMACrossbarSetupData) := do
  let selection ← readAt ext currentSelectionId
  if selection ≠ -1 then
    setNextInputConfiguration xs currentSelectionId selection
  else .ok xs

def configureInputCrossbarSetupData (selectedColumns : List Int)
    (d : DMASetupData) (recordSize : Int) : Outcome DMASetupData := do
  if isInputClashing selectedColumns then throw .assertionFailed
  let ext ←
    (if d.activeChannelCount = -1 then
      extendSpecificationSingleChannel recordSize selectedColumns
        d.recordsPerDdrBurst
    else
      extendSpecificationMultiChannel recordSize selectedColumns
        d.recordsPerDdrBurst d.chunksPerRecord)
  let xs := setUpEmptyCrossbarSetupData d.crossbarSetupData
    (ext.length / kDatapathWidth : Nat)
  let xs ← (List.range ext.length).foldlM (configureInputStep ext) xs
  .ok { d with crossbarSetupData := xs }

/-- Body of the loop over the extended output selection; the second component
is `post_record_junk_data_count`. -/
def configureOutputStep (ext : List Int)
    (s : List DMACrossbarSetupData × Nat) (selectionId : Nat) :
    Outcome (List DMACrossbarSetupData × Nat) := do
  let reversedId ← indexOf (getReverseIndex selectionId kDatapathWidth)
  let selection ← readAt ext reversedId
  if selection = -1 then .ok s
  else if selection = -2 then .ok (s.1, s.2 + 1)
  else do
    let xs ← setNextOutputConfiguration s.1
      (getReverseIndex (selectionId - s.2) kDatapathWidth) selection
    .ok (xs, s.2)

/-- Can the default chunk not be used for the lanes without data? -/
def needsOverwriteCheck (ext : List Int) : Bool :=
  kDdrBurstSize - kDatapathWidth < ext.length - ext.count (-2)

def allocateFreeChunks (xs : List DMACrossbarSetupData) :
    Outcome (List DMACrossbarSetupData) :=
  (List.finRange kDatapathWidth).foldlM (fun xs columnId =>
    allocateAvailableChunks xs columnId
      (markChunksAsUsed xs columnId createFreeChunksVector)) xs

def configureOutputCrossbarSetupData (selectedColumns : List Int)
    (d : DMASetupData) : Outcome DMASetupData := do
  if isOutputClashing selectedColumns then throw .assertionFailed
  let ext ← extendOutputSpecification selectedColumns d.recordsPerDdrBurst
    d.chunksPerRecord
  let xs := setUpEmptyCrossbarSetupData d.crossbarSetupData
    (d.chunksPerRecord * d.recordsPerDdrBurst)
  let xs := if needsOverwriteCheck ext then
    fillSetupDataWithNegativePositions xs else xs
  let (xs, _) ← (List.range ext.length).foldlM (configureOutputStep ext) (xs, 0)
  if needsOverwriteCheck ext then do
    let xs ← allocateFreeChunks xs
    .ok { d with crossbarSetupData := xs }
  else do
    let nextPowerOfTwo ← findNextPowerOfTwo d.chunksPerRecord
    let missing := nextPowerOfTwo - d.chunksPerRecord
    if missing ≠ 0 then do
      let xs ← insertMissingEmptySetupChunks missing.toNat d.chunksPerRecord
        xs.length xs.length xs
      .ok { d with crossbarSetupData := xs }
    else .ok { d with crossbarSetupData := xs }

def calculateCrossbarSetupData (d : DMASetupData) (recordSize : Int)
    (selectedColumns : List Int) : Outcome DMASetupData :=
  if d.isInputStream then
    configureInputCrossbarSetupData selectedColumns d recordSize
  else
    configureOutputCrossbarSetupData selectedColumns d

/-! ## Reading a configuration lane by lane -/

/-- Chunk or position word of lane `p` in cycle `c`. -/
def wordAt (xs : List DMACrossbarSetupData) (kind : SelectionKind) (c p : Nat) :
    Option Int :=
  xs[c]?.bind fun entry => (entry.selection kind)[p]?

@[simp] theorem DMACrossbarSetupData.selection_withSelection
    (entry : DMACrossbarSetupData) (kind kind' : SelectionKind)
    (v : Vector Int kDatapathWidth) :
    (entry.withSelection kind v).selection kind' =
      if kind' = kind then v else entry.selection kind' := by
  cases kind <;> cases kind' <;> rfl

/-- A write within the configuration succeeds and changes one word. -/
theorem setSelection_total {xs : List DMACrossbarSetupData} {c p : Nat}
    (kind : SelectionKind) (hc : c < xs.length) (hp : p < 16) (value : Int) :
    ∃ ys, setSelection xs kind c p value = .ok ys ∧ ys.length = xs.length ∧
      ∀ kind' c' p', wordAt ys kind' c' p' =
        if kind' = kind ∧ c' = c ∧ p' = p then some value
        else wordAt xs kind' c' p' := by
  refine ⟨xs.set c (xs[c].withSelection kind
    ((xs[c].selection kind).set p value hp)), ?_, ?_, ?_⟩
  · simp [setSelection, readAt, setLane, hc, hp, writeAt]
  · simp
  · intro kind' c' p'
    by_cases hcc : c' = c
    · subst hcc
      by_cases hkk : kind' = kind
      · by_cases hpp : p' = p
        · subst hpp
          simp [wordAt, hc, hkk, hp]
        · simp [wordAt, hc, hkk, hpp, Ne.symm hpp]
      · simp [wordAt, hc, hkk]
    · simp [wordAt, hcc, Ne.symm hcc]

/-- Values the register of a word has room for. -/
def SelectionKind.bound : SelectionKind → Int
  | .chunk => kDatapathLength
  | .position => kDatapathWidth

/-- Every word of the configuration fits its register. -/
def WordsInRange (xs : List DMACrossbarSetupData) : Prop :=
  ∀ kind c p w, wordAt xs kind c p = some w → 0 ≤ w ∧ w < kind.bound

/-- The empty configuration of `n` entries. -/
theorem wordAt_replicate_default (n c p : Nat) (kind : SelectionKind) :
    wordAt (List.replicate n defaultSetupData) kind c p =
      if c < n ∧ p < 16 then
        some (match kind with | .chunk => 31 | .position => 0)
      else none := by
  by_cases hc : c < n
  · by_cases hp : p < 16
    · cases kind <;> simp [wordAt, hc, hp, defaultSetupData,
        DMACrossbarSetupData.selection]
    · cases kind <;> simp [wordAt, hc, hp, defaultSetupData,
        DMACrossbarSetupData.selection]
  · simp [wordAt, hc]

theorem wordsInRange_replicate_default (n : Nat) :
    WordsInRange (List.replicate n defaultSetupData) := by
  intro kind c p w hw
  rw [wordAt_replicate_default] at hw
  split at hw
  · rw [Option.some.injEq] at hw
    subst hw
    cases kind <;> decide
  · exact absurd hw (by simp)

/-! ## The chunks that idle lanes are parked at -/

/-- The chunks that stay free are those no lane of the column uses. -/
theorem mem_markChunksAsUsed (xs : List DMACrossbarSetupData)
    (columnId : Fin kDatapathWidth) {freeChunks : List Int}
    (hnodup : freeChunks.Nodup) {y : Int} :
    y ∈ markChunksAsUsed xs columnId freeChunks ↔ y ∈ freeChunks ∧
      ∀ entry ∈ xs, entry.chunkSelection[columnId] = y → y = -1 := by
  induction xs generalizing freeChunks with
  | nil => simp [markChunksAsUsed]
  | cons entry xs ih =>
      rw [markChunksAsUsed, List.foldl_cons, ← markChunksAsUsed]
      by_cases hused : entry.chunkSelection[columnId] = -1
      · rw [if_neg (by simpa using hused), ih hnodup]
        simp only [List.mem_cons, forall_eq_or_imp, hused]
        constructor
        · rintro ⟨hy, hxs⟩
          exact ⟨hy, fun h => h.symm, hxs⟩
        · rintro ⟨hy, -, hxs⟩
          exact ⟨hy, hxs⟩
      · rw [if_pos hused, ih (hnodup.erase _), hnodup.mem_erase_iff]
        simp only [List.mem_cons, forall_eq_or_imp]
        constructor
        · rintro ⟨⟨hne, hy⟩, hxs⟩
          exact ⟨hy, fun h => absurd h.symm hne, hxs⟩
        · rintro ⟨hy, hentry, hxs⟩
          refine ⟨⟨?_, hy⟩, hxs⟩
          intro heq
          exact hused (heq ▸ hentry heq.symm)

/-- Every used lane takes at most one chunk away. -/
theorem length_markChunksAsUsed (xs : List DMACrossbarSetupData)
    (columnId : Fin kDatapathWidth) (freeChunks : List Int) :
    freeChunks.length ≤ (markChunksAsUsed xs columnId freeChunks).length +
      xs.countP (fun entry => entry.chunkSelection[columnId] ≠ -1) := by
  induction xs generalizing freeChunks with
  | nil => simp [markChunksAsUsed]
  | cons entry xs ih =>
      rw [markChunksAsUsed, List.foldl_cons, ← markChunksAsUsed]
      by_cases hused : entry.chunkSelection[columnId] = -1
      · rw [if_neg (by simpa using hused),
          List.countP_cons_of_neg (by simpa using hused)]
        exact ih freeChunks
      · rw [if_pos hused, List.countP_cons_of_pos (by simpa using hused)]
        have herase := List.length_erase_of_mem
          (a := entry.chunkSelection[columnId]) (l := freeChunks)
        have hkept := ih (freeChunks.erase entry.chunkSelection[columnId])
        by_cases hmem : entry.chunkSelection[columnId] ∈ freeChunks
        · have := herase hmem
          omega
        · rw [List.erase_of_not_mem hmem] at hkept ⊢
          omega

/-- A column of at most 32 lanes with an idle one leaves a chunk free. -/
theorem markChunksAsUsed_ne_nil {xs : List DMACrossbarSetupData}
    (columnId : Fin kDatapathWidth) (hlen : xs.length ≤ 32)
    (hidle : ∃ entry ∈ xs, entry.chunkSelection[columnId] = -1) :
    markChunksAsUsed xs columnId createFreeChunksVector ≠ [] := by
  intro hnil
  have hcount := length_markChunksAsUsed xs columnId createFreeChunksVector
  have hfree : createFreeChunksVector.length = 32 := by decide
  rw [hnil, hfree, List.length_nil] at hcount
  have hall : xs.countP (fun entry => entry.chunkSelection[columnId] ≠ -1) =
      xs.length := by
    have := xs.countP_le_length
      (p := fun entry => entry.chunkSelection[columnId] ≠ -1)
    omega
  rw [List.countP_eq_length] at hall
  obtain ⟨entry, hentry, hword⟩ := hidle
  exact absurd hword (by simpa using hall entry hentry)

theorem wordAt_chunk_eq_some {xs : List DMACrossbarSetupData} {c : Nat}
    {columnId : Fin kDatapathWidth} {w : Int} :
    wordAt xs .chunk c columnId = some w ↔
      ∃ entry, xs[c]? = some entry ∧ entry.chunkSelection[columnId] = w := by
  simp [wordAt, DMACrossbarSetupData.selection, Option.bind_eq_some_iff]

theorem allocateAvailableChunks_total {xs : List DMACrossbarSetupData}
    (columnId : Fin kDatapathWidth) {freeChunks : List Int}
    (hfree : (∃ entry ∈ xs, entry.chunkSelection[columnId] = -1) →
      freeChunks ≠ []) :
    ∃ ys, allocateAvailableChunks xs columnId freeChunks = .ok ys ∧
      ys.length = xs.length ∧
      (∀ c p, wordAt ys .position c p = wordAt xs .position c p) ∧
      (∀ c (p : Nat), p ≠ columnId ∨ wordAt xs .chunk c p ≠ some (-1) →
        wordAt ys .chunk c p = wordAt xs .chunk c p) ∧
      ∀ c, wordAt xs .chunk c columnId = some (-1) →
        ∃ chunk ∈ freeChunks, wordAt ys .chunk c columnId = some chunk := by
  refine ⟨xs.map fun entry => if entry.chunkSelection[columnId] = -1 then
      { entry with chunkSelection :=
          entry.chunkSelection.set columnId (freeChunks.headD 0) }
    else entry, ?_, by simp, ?_, ?_, ?_⟩
  · refine mapM_total xs ?_
    intro entry hentry
    by_cases hidle : entry.chunkSelection[columnId] = -1
    · cases hchunks : freeChunks with
      | nil => exact absurd hchunks (hfree ⟨entry, hentry, hidle⟩)
      | cons chunk chunks => simp [hidle, checkedAt]
    · rw [if_neg hidle, if_neg hidle]
  · intro c p
    cases hc : xs[c]? with
    | none => simp [wordAt, hc]
    | some entry =>
        by_cases hidle : entry.chunkSelection[columnId] = -1
        · simp only [wordAt, List.getElem?_map, hc, Option.map_some, if_pos hidle,
            Option.bind_some]
          rfl
        · simp only [wordAt, List.getElem?_map, hc, Option.map_some, if_neg hidle,
            Option.bind_some]
  · intro c p hkeep
    cases hc : xs[c]? with
    | none => simp [wordAt, hc]
    | some entry =>
        by_cases hidle : entry.chunkSelection[columnId] = -1
        · have hp : p ≠ columnId.val := by
            rcases hkeep with hp | hword
            · exact hp
            · rintro rfl
              exact hword (wordAt_chunk_eq_some.mpr ⟨entry, hc, hidle⟩)
          simp only [wordAt, List.getElem?_map, hc, Option.map_some, if_pos hidle,
            Option.bind_some, DMACrossbarSetupData.selection]
          rw [Vector.getElem?_set_ne _ (Ne.symm hp)]
        · simp only [wordAt, List.getElem?_map, hc, Option.map_some, if_neg hidle,
            Option.bind_some]
  · intro c hidle
    obtain ⟨entry, hc, hword⟩ := wordAt_chunk_eq_some.mp hidle
    cases hchunks : freeChunks with
    | nil =>
        exact absurd hchunks (hfree ⟨entry, List.mem_of_getElem? hc, hword⟩)
    | cons chunk chunks =>
        refine ⟨chunk, List.mem_cons_self, ?_⟩
        refine wordAt_chunk_eq_some.mpr
          ⟨{ entry with chunkSelection :=
            entry.chunkSelection.set columnId chunk }, ?_, ?_⟩
        · simp only [List.getElem?_map, hc, Option.map_some, if_pos hword]
          rfl
        · simp

end Orkhestra.Ports.DMACrossbarSetup
