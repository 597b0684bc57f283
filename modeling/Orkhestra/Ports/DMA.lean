import Orkhestra.Ports.DMACrossbarSpecifier
import Orkhestra.Ports.QuerySchedulingData
import Orkhestra.Verified.BitMask

/-!
# The DMA engine

`DMA`: each method writes one memory mapped register.  An `int` or an address
that is handed to `WriteToModule` is cut to the 32 bits of a register.

`<<` is a multiplication here; a value that does not fit its field changes the
fields above it, as it does in the source.
-/

namespace Orkhestra.Ports.DMA

open Orkhestra.Verified.Checked
open Orkhestra.Verified.BitMask
open Orkhestra.Ports.QuerySchedulingData

/-! ## Registers -/

/-- Address of a register within its module and the word written to it. -/
structure RegisterWrite where
  address : Int
  data : Nat
  deriving DecidableEq, Repr

/-- Conversion of an integer to `uint32_t`. -/
def toWord (value : Int) : Nat := (value % 2 ^ 32).toNat

/-- Conversion of a `uint32_t` to `int`. -/
def ofWord (word : Nat) : Int :=
  if word < 2 ^ 31 then word else word - 2 ^ 32

def writeToModule (moduleInternalAddress writeData : Int) :
    RegisterWrite :=
  ⟨moduleInternalAddress, toWord writeData⟩

/-- `static_cast<int>(log2(value))`. -/
def log2 (value : Int) : Outcome Nat :=
  if 0 < value then .ok (Nat.log 2 value.toNat) else .error .undefined

/-! ## Methods -/

def setControllerParams (isInput : Bool) (streamId : Nat)
    (ddrBurstSize recordsPerDdrBurst bufferStart bufferEnd : Int) :
    Outcome RegisterWrite := do
  let baseAddress := if isInput then 2 ^ 6 else 2 ^ 16
  let recordsExponent ← log2 recordsPerDdrBurst
  .ok (writeToModule (baseAddress + streamId * 4)
    ((ddrBurstSize - 1) * 2 ^ 24 + recordsExponent * 2 ^ 16 +
      bufferStart * 2 ^ 8 + bufferEnd))

def setControllerStreamAddress (isInput : Bool) (streamId : Nat)
    (address : Nat) : RegisterWrite :=
  let baseAddress := if isInput then 2 * 2 ^ 6 else 2 ^ 16 + 2 ^ 6
  writeToModule (baseAddress + streamId * 4) (address / 2 ^ 4 : Nat)

/-- Register of the size of a stream in amount of records. -/
def streamSizeAddress (isInput : Bool) (streamId : Nat) : Nat :=
  (if isInput then 3 * 2 ^ 6 else 2 ^ 16 + 2 * 2 ^ 6) + streamId * 4

def setControllerStreamSize (isInput : Bool) (streamId : Nat) (size : Int) :
    RegisterWrite :=
  writeToModule (streamSizeAddress isInput streamId) size

/-- `ReadFromModule`: what the hardware answers after the given writes. -/
abbrev Accelerator := List RegisterWrite → Int → Nat

def getControllerStreamSize (accelerator : Accelerator)
    (writes : List RegisterWrite) (isInput : Bool) (streamId : Nat) : Int :=
  ofWord (accelerator writes (streamSizeAddress isInput streamId))

/-- `std::bitset<kMaxIOStreamCount>`. -/
abbrev StreamStatus := Fin kMaxIOStreamCount → Bool

/-- The loop of `StartController`, from the last stream to the first. -/
def activeStreams (streamActive : StreamStatus) : Nat :=
  (List.finRange kMaxIOStreamCount).reverse.foldl
    (fun activeStreams i => shiftIn activeStreams (streamActive i)) 0

def controllerAddress (isInput : Bool) : Nat :=
  if isInput then 0 else 2 ^ 16 + 3 * 2 ^ 6

def startController (isInput : Bool) (streamActive : StreamStatus) :
    RegisterWrite :=
  writeToModule (controllerAddress isInput) (activeStreams streamActive : Nat)

/-- How many chunks is a record on a particular stream. -/
def setRecordSize (streamId : Nat) (recordSize : Int) : RegisterWrite :=
  writeToModule (2 ^ 17 + 2 ^ 8 + streamId * 4) (recordSize - 1)

def setRecordChunkIDs (streamId interfaceCycle : Nat) (chunkId : Int) :
    RegisterWrite :=
  writeToModule
    (2 ^ 17 + 2 ^ 13 + streamId * 2 ^ 8 + interfaceCycle * 2 ^ 2) chunkId

inductive DMACrossbarDirectionSelection where
  | kBufferToInterfaceChunk
  | kBufferToInterfacePosition
  | kInterfaceToBufferChunk
  | kInterfaceToBufferPosition
  deriving DecidableEq, Repr

def crossbarBaseAddress : DMACrossbarDirectionSelection → Nat
  | .kBufferToInterfaceChunk => 2 * 2 ^ 17 + 2 ^ 16
  | .kBufferToInterfacePosition => 2 * 2 ^ 17
  | .kInterfaceToBufferChunk => 3 * 2 ^ 17 + 2 ^ 16
  | .kInterfaceToBufferPosition => 3 * 2 ^ 17

def setCrossbarValues (crossbarSelection : DMACrossbarDirectionSelection)
    (streamId clockCycle offset : Nat)
    (configurationValues : Vector Int 4) : RegisterWrite :=
  writeToModule
    (crossbarBaseAddress crossbarSelection + streamId * 2 ^ 12 +
      clockCycle * 2 ^ 5 + offset * 2 ^ 2)
    (configurationValues[0] * 2 ^ 24 + configurationValues[1] * 2 ^ 16 +
      configurationValues[2] * 2 ^ 8 + configurationValues[3])

def setNumberOfInputStreamsWithMultipleChannels (number : Nat) :
    RegisterWrite :=
  writeToModule 4 (number : Nat)

def setRecordsPerBurstForMultiChannelStreams (streamId : Nat)
    (recordsPerBurst : Int) : RegisterWrite :=
  writeToModule (0x80000 + streamId * 4) recordsPerBurst

def setDDRBurstSizeForMultiChannelStreams (streamId : Nat)
    (ddrBurstSize : Int) : RegisterWrite :=
  writeToModule (0x80000 + 2 ^ 6 + streamId * 4) (ddrBurstSize - 1)

def setNumberOfActiveChannelsForMultiChannelStreams (streamId : Nat)
    (activeChannels : Int) : RegisterWrite :=
  writeToModule (0x80000 + 2 * 2 ^ 6 + streamId * 4) activeChannels

def setAddressForMultiChannelStreams (streamId : Nat) (channelId : Int)
    (address : Nat) : RegisterWrite :=
  writeToModule
    (0x80000 + 2 ^ 16 + streamId * 2 ^ 14 + channelId * 2 ^ 2)
    (address / 2 ^ 4 : Nat)

def setSizeForMultiChannelStreams (streamId : Nat)
    (channelId numberOfRecords : Int) : RegisterWrite :=
  writeToModule
    (0x80000 + 2 * 2 ^ 16 + streamId * 2 ^ 14 + channelId * 2 ^ 2)
    (numberOfRecords + 1)

def kResetDuration : Nat := 8

def globalReset : RegisterWrite := writeToModule 8 (kResetDuration : Nat)

/-! ## Words -/

theorem toWord_natCast (n : Nat) : toWord n = n % 2 ^ 32 := by
  rw [toWord]
  norm_cast

theorem toWord_of_lt {n : Nat} (hn : n < 2 ^ 32) : toWord n = n := by
  rw [toWord_natCast, Nat.mod_eq_of_lt hn]

/-! ## The mask of the controller -/

theorem activeStreams_eq (streamActive : StreamStatus) :
    activeStreams streamActive = maskOf (List.ofFn streamActive) := by
  rw [activeStreams, maskOf, List.ofFn_eq_map, ← List.map_reverse,
    List.foldl_map]

/-- Bit `i` of the mask is set when stream `i` is active. -/
theorem testBit_activeStreams (streamActive : StreamStatus)
    (i : Fin kMaxIOStreamCount) :
    (activeStreams streamActive).testBit i = streamActive i := by
  rw [activeStreams_eq, testBit_maskOf]
  simp

theorem startController_data (isInput : Bool) (streamActive : StreamStatus) :
    (startController isInput streamActive).data =
      activeStreams streamActive := by
  have hlt := maskOf_lt (List.ofFn streamActive)
  rw [← activeStreams_eq, List.length_ofFn] at hlt
  refine toWord_of_lt (Nat.lt_of_lt_of_le hlt ?_)
  decide

end Orkhestra.Ports.DMA
