import Mathlib.Data.List.FinRange
import Mathlib.Logic.Function.Basic
import Orkhestra.Ports.DMA
import Orkhestra.Ports.MergeSortSetup

/-!
# Drivers of the small modules

`LinearSort`, `MergeSort`, `Addition` and `Multiplication` with their set-ups.
The addresses are those within a module.

The words of a chunk are counted from the last position down, and so are the
operands of an addition: the set-up reverses the literals and the signs.
-/

namespace Orkhestra.Ports.ModuleDrivers

open Orkhestra.Verified.Checked
open Orkhestra.Verified.BitMask
open Orkhestra.Ports.StreamParameterCalculator
open Orkhestra.Ports.DMA
open Orkhestra.Ports.MergeSortSetup

/-- A loop that sets the elements of an array, each to a value that it reads. -/
def fill {n : Nat} {α : Type} (indices : List (Fin n))
    (read : Fin n → Outcome α) (array : Fin n → α) : Outcome (Fin n → α) :=
  indices.foldlM (fun array i => do
    let value ← read i
    .ok (Function.update array i value)) array

/-! ## Linear sort -/

namespace LinearSort

def startPrefetchingData : RegisterWrite := writeToModule 0 1

def setStreamParams (streamId : Nat) (chunksPerRecord : Int) : RegisterWrite :=
  writeToModule 4 ((chunksPerRecord - 1) * 2 ^ 8 + streamId)

end LinearSort

def setupLinearSortModule (streamId : Nat) (recordSize : Int) :
    List RegisterWrite :=
  [LinearSort.setStreamParams streamId (calculateChunksPerRecord recordSize),
    LinearSort.startPrefetchingData]

/-! ## Merge sort -/

namespace MergeSort

def startPrefetchingData (baseChannelId : Int) (isNotFirstModule : Bool) :
    RegisterWrite :=
  writeToModule 0 (baseChannelId * 2 ^ 8 + isNotFirstModule.toNat)

def setStreamParams (streamId : Nat) (chunksPerRecord : Int) : RegisterWrite :=
  writeToModule 4 ((chunksPerRecord - 1) * 2 ^ 8 + streamId)

def setBufferSize (recordCount : Int) : RegisterWrite :=
  writeToModule 8 recordCount

def setRecordCountPerFetch (recordCount : Int) : RegisterWrite :=
  writeToModule 12 recordCount

def setFetchCount (fetchCount : Int) : RegisterWrite :=
  writeToModule 16 fetchCount

def setFetchOffset (offsetRecordCount : Int) : RegisterWrite :=
  writeToModule 20 offsetRecordCount

end MergeSort

/-- What `MergeSort` does for a call. -/
def mergeSortWrite : MergeSortCall → RegisterWrite
  | .setStreamParams streamId chunksPerRecord =>
      MergeSort.setStreamParams streamId chunksPerRecord
  | .setBufferSize recordCount => MergeSort.setBufferSize recordCount
  | .setRecordCountPerFetch recordCount =>
      MergeSort.setRecordCountPerFetch recordCount
  | .setFetchCount fetchCount => MergeSort.setFetchCount fetchCount
  | .setFetchOffset offsetRecordCount =>
      MergeSort.setFetchOffset offsetRecordCount
  | .startPrefetchingData baseChannelId isNotFirstModule =>
      MergeSort.startPrefetchingData baseChannelId isNotFirstModule

/-! ## Addition -/

namespace Addition

def defineInput (streamId : Nat) (chunkId : Int) : RegisterWrite :=
  writeToModule 0 (chunkId * 2 ^ 8 + streamId)

def setInputSigns (isValueNegative : Fin 8 → Bool) : RegisterWrite :=
  writeToModule 4 (maskOf (List.ofFn isValueNegative) : Nat)

def setLiteralValues (literalValues : Fin 8 → Nat × Nat) :
    List RegisterWrite :=
  (List.finRange 8).flatMap fun i =>
    [writeToModule (64 + i.val * 8) (literalValues i).1,
      writeToModule (64 + i.val * 8 + 4) (literalValues i).2]

end Addition

/-- The loop counts down, so the literals are set in order. -/
def reverseLiteralValues (inputConstantValues : List Int) :
    Outcome (Fin 8 → Nat × Nat) :=
  fill (List.finRange 8) (fun j => do
    let i := j.rev.val
    let low ← checkedAt inputConstantValues (i * 2 + 1)
    let high ← checkedAt inputConstantValues (i * 2)
    .ok (toWord low, toWord high)) fun _ => (0, 0)

def reverseNegationSpecification (negationSpecification : List Int) :
    Outcome (Fin 8 → Bool) :=
  fill (List.finRange 8) (fun j => do
    let negation ← checkedAt negationSpecification j.rev.val
    .ok (decide (negation ≠ 0))) fun _ => false

def setupAdditionModule (streamId : Nat)
    (operationParameters : List (List Int)) : Outcome (List RegisterWrite) := do
  let inputParameters ← checkedAt operationParameters 0
  let chunkId ← checkedAt inputParameters 0
  let negationSpecification ← checkedAt operationParameters 1
  let isValueNegative ← reverseNegationSpecification negationSpecification
  let inputConstantValues ← checkedAt operationParameters 2
  let literalValues ← reverseLiteralValues inputConstantValues
  .ok (Addition.defineInput streamId chunkId ::
    Addition.setInputSigns isValueNegative ::
    Addition.setLiteralValues literalValues)

/-! ## Multiplication -/

namespace Multiplication

def defineActiveStreams (activeStreams : Fin 16 → Bool) : RegisterWrite :=
  writeToModule 0 (maskOf (List.ofFn activeStreams) : Nat)

def chooseMultiplicationResults (chunkId : Int)
    (activePositions : Fin 8 → Bool) : RegisterWrite :=
  writeToModule (128 + chunkId * 4) (maskOf (List.ofFn activePositions) : Nat)

end Multiplication

/-- `active_streams.set(active_stream_id, true)`. -/
def setActiveStream (activeStreams : Fin 16 → Bool) (activeStreamId : Nat) :
    Outcome (Fin 16 → Bool) :=
  if h : activeStreamId < 16 then
    .ok (Function.update activeStreams ⟨activeStreamId, h⟩ true)
  else .error .outOfRange

def selectedPositions (multiplicationSelections : List Int) :
    Outcome (Fin 8 → Bool) :=
  fill (List.finRange 8) (fun position => do
    let selection ← checkedAt multiplicationSelections (8 - position.val)
    .ok (decide (selection ≠ 0))) fun _ => false

/-- The loop over the selections of the chunks. -/
def multiplicationResults (multiplicationSelections : List Int) :
    Outcome RegisterWrite := do
  let activePositions ← selectedPositions multiplicationSelections
  let chunkId ← checkedAt multiplicationSelections 0
  .ok (Multiplication.chooseMultiplicationResults chunkId activePositions)

def setupMultiplicationModule (activeStreamIds : List Nat)
    (operationParameters : List (List Int)) : Outcome (List RegisterWrite) := do
  let activeStreams ← activeStreamIds.foldlM setActiveStream fun _ => false
  let results ← operationParameters.mapM multiplicationResults
  .ok (Multiplication.defineActiveStreams activeStreams :: results)

end Orkhestra.Ports.ModuleDrivers
