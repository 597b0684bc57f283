import Orkhestra.Ports.DMA
import Orkhestra.Ports.DMACrossbarSetup
import Orkhestra.Ports.MergeSortSetup

/-!
# The set-up of the DMA engine

`DMASetup`: for each stream with memory, its channels, its place in the buffer,
the burst, and the crossbars.  `StreamParameterCalculator::
CalculateDMAStreamSetupData`, which sets the burst, is here as well, because it
works on the data of a stream.

A stream is set up by `setupStream`, the body of the loop of `SetupDMAModule`.
It returns the data that it has computed with the registers that it has
written.
-/

namespace Orkhestra.Ports.DMASetup

open Orkhestra.Verified.Checked
open Orkhestra.Ports.StreamParameterCalculator
open Orkhestra.Ports.DMACrossbarSpecifier
open Orkhestra.Ports.DMACrossbarSetup
open Orkhestra.Ports.MergeSortSetup
open Orkhestra.Ports.DMA

/-! ## The data of a stream -/

/-- `StreamDataParameters` of a stream with memory.  The address is in bytes. -/
structure StreamInitData where
  streamId : Nat
  streamRecordSize : Int
  streamRecordCount : Int
  physicalAddress : Nat
  streamSpecification : List Int
  inputChunksPerRecord : Int := -1
  /-- `-1` for a stream with a single channel. -/
  maxChannelCount : Int := -1
  recordsPerChannel : Int := -1
  deriving DecidableEq, Repr

structure DMAChannelSetupData where
  streamAddress : Nat
  recordCount : Int
  channelId : Int
  deriving DecidableEq, Repr

/-- `DMASetupData` with the fields that the crossbar does not need. -/
structure DMAStreamSetupData extends DMASetupData where
  streamId : Nat
  ddrBurstLength : Int
  bufferStart : Int
  bufferEnd : Int
  recordChunkIds : List (Nat × Int)
  channelSetupData : List DMAChannelSetupData

/-! ## Channels -/

/-- `physical_address + offset` on a pointer to `uint32_t`. -/
def addressOf (physicalAddress : Nat) (offset : Int) : Nat :=
  ((physicalAddress + 4 * offset) % 2 ^ 64).toNat

/-- The `j`-th of the active channels.  The offset of its first record is the
product of three numbers of type `int`. -/
def activeChannel (s : StreamInitData) (activeChannelCount : Int) (j : Nat) :
    DMAChannelSetupData where
  streamAddress := addressOf s.physicalAddress
    (wrapInt (s.streamRecordSize * wrapInt (s.recordsPerChannel * j)))
  recordCount :=
    if (j : Int) = activeChannelCount - 1 ∧
        s.streamRecordCount.tmod s.recordsPerChannel ≠ 0 then
      s.streamRecordCount.tmod s.recordsPerChannel
    else s.recordsPerChannel
  channelId := j

/-- The unused channels have size 0 and the start address. -/
def unusedChannel (s : StreamInitData) (j : Int) : DMAChannelSetupData where
  streamAddress := addressOf s.physicalAddress 0
  recordCount := 0
  channelId := j

def setMultiChannelSetupData (s : StreamInitData) :
    Outcome (Int × List DMAChannelSetupData) := do
  let activeChannelCount ← divide
    (s.streamRecordCount + s.recordsPerChannel - 1) s.recordsPerChannel
  let active := (List.range activeChannelCount.toNat).map
    (activeChannel s activeChannelCount)
  let unused :=
    (List.range (s.maxChannelCount - activeChannelCount).toNat).map
      fun (k : Nat) => unusedChannel s (activeChannelCount + k)
  .ok (s.maxChannelCount, active ++ unused)

def setSingleChannelSetupData (isInputStream : Bool) (s : StreamInitData) :
    Int × List DMAChannelSetupData :=
  (-1, [{ streamAddress := addressOf s.physicalAddress 0
          recordCount := if isInputStream then s.streamRecordCount else 0
          channelId := 0 }])

/-! ## The burst -/

def kMaxRecordsPerDDRBurst : Int := 32

def kDdrSizePerCycle : Int := 4

def findMinViableRecordsPerDDRBurst (recordSize : Int) : Outcome Int := do
  let recordsPerMaxBurstSize ← divide kDdrBurstSize recordSize
  let exponent ← log2 recordsPerMaxBurstSize
  .ok (min kMaxRecordsPerDDRBurst (2 ^ exponent))

def calculateDDRBurstLength (recordSize recordsPerDdrBurst : Int) : Int :=
  (recordSize * recordsPerDdrBurst + kDdrSizePerCycle - 1).tdiv kDdrSizePerCycle

def recordChunkId (chunksPerRecord : Int) (i : Nat) : Outcome (Nat × Int) := do
  let nextPowerOfTwo ← findNextPowerOfTwo chunksPerRecord
  .ok (i, (i : Int).tmod nextPowerOfTwo)

def recordsPerBurst (isInputStream isMultichannelStream : Bool)
    (chunksPerRecord recordSize : Int) : Outcome Int :=
  if isMultichannelStream then do
    let sortBufferSize ← calculateSortBufferSize 2048 64 chunksPerRecord
    calculateRecordCountPerFetch sortBufferSize recordSize
  else if isInputStream then findMinViableRecordsPerDDRBurst recordSize
  else do
    -- chunks_per_record can't be bigger than 32.
    let nextPowerOfTwo ← findNextPowerOfTwo chunksPerRecord
    divide kMaxRecordsPerDDRBurst nextPowerOfTwo

def calculateDMAStreamSetupData (d : DMAStreamSetupData) (recordSize : Int)
    (isMultichannelStream : Bool) : Outcome DMAStreamSetupData := do
  let recordChunkIds ←
    (List.range kDatapathLength).mapM (recordChunkId d.chunksPerRecord)
  let recordsPerDdrBurst ← recordsPerBurst d.isInputStream isMultichannelStream
    d.chunksPerRecord recordSize
  .ok { d with
    recordChunkIds := recordChunkIds
    recordsPerDdrBurst := recordsPerDdrBurst
    ddrBurstLength := calculateDDRBurstLength recordSize recordsPerDdrBurst }

/-! ## Registers -/

def setUpDMAIOStream (d : DMAStreamSetupData) :
    Outcome (List RegisterWrite) := do
  let params ← setControllerParams d.isInputStream d.streamId d.ddrBurstLength
    d.recordsPerDdrBurst d.bufferStart d.bufferEnd
  if d.isInputStream then do
    let record := setRecordSize d.streamId d.chunksPerRecord ::
      d.recordChunkIds.map fun chunkIdPair =>
        setRecordChunkIDs d.streamId chunkIdPair.1 chunkIdPair.2
    if d.activeChannelCount = -1 then do
      let channel ← readAt d.channelSetupData 0
      .ok (params :: record ++
        [setControllerStreamAddress true d.streamId channel.streamAddress,
          setControllerStreamSize true d.streamId channel.recordCount])
    else
      .ok (params :: record ++
        [setNumberOfActiveChannelsForMultiChannelStreams d.streamId
          d.activeChannelCount] ++
        (d.channelSetupData.flatMap fun channel =>
          [setSizeForMultiChannelStreams d.streamId channel.channelId
            channel.recordCount,
            setAddressForMultiChannelStreams d.streamId channel.channelId
              channel.streamAddress]) ++
        [setDDRBurstSizeForMultiChannelStreams d.streamId d.ddrBurstLength,
          setRecordsPerBurstForMultiChannelStreams d.streamId
            d.recordsPerDdrBurst])
  else do
    let channel ← readAt d.channelSetupData 0
    .ok [params,
      setControllerStreamAddress false d.streamId channel.streamAddress,
      setControllerStreamSize false d.streamId channel.recordCount]

/-- Lane `k + 4 * offset`. -/
def laneOf (offset k : Fin 4) : Fin kDatapathWidth :=
  ⟨k.val + 4 * offset.val, by
    have := k.isLt
    have := offset.isLt
    simp only [kDatapathWidth_eq]
    omega⟩

/-- The words of four lanes; the order is reversed. -/
def offsetValues (selection : Vector Int kDatapathWidth) (offset : Fin 4) :
    Vector Int 4 :=
  #v[selection[laneOf offset 3], selection[laneOf offset 2],
    selection[laneOf offset 1], selection[laneOf offset 0]]

def chunkDirection (isInputStream : Bool) : DMACrossbarDirectionSelection :=
  if isInputStream then .kBufferToInterfaceChunk else .kInterfaceToBufferChunk

def positionDirection (isInputStream : Bool) : DMACrossbarDirectionSelection :=
  if isInputStream then .kBufferToInterfacePosition
  else .kInterfaceToBufferPosition

def setUpDMACrossbarsForStream (d : DMAStreamSetupData) : List RegisterWrite :=
  d.crossbarSetupData.zipIdx.flatMap fun chunk =>
    (List.finRange 4).flatMap fun (currentOffset : Fin 4) =>
      [setCrossbarValues (chunkDirection d.isInputStream) d.streamId chunk.2
        currentOffset.val (offsetValues chunk.1.chunkSelection currentOffset),
       setCrossbarValues (positionDirection d.isInputStream) d.streamId chunk.2
        currentOffset.val
        (offsetValues chunk.1.positionSelection currentOffset)]

/-! ## All streams -/

/-- The given specification, or every integer of the record in order. -/
def streamSpecificationOf (s : StreamInitData) : List Int :=
  if s.streamSpecification = [] then
    (List.range s.streamRecordSize.toNat).map fun (i : Nat) => (i : Int)
  else s.streamSpecification

/-- The chunks of a record between the crossbars and, for an output, behind the
crossbar. -/
def chunksPerRecordOf (isInputStream : Bool) (s : StreamInitData) :
    Outcome Int :=
  let chunks := calculateChunksPerRecord (streamSpecificationOf s).length
  if isInputStream then .ok chunks
  else if s.streamSpecification ≠ [] ∧
      (s.streamSpecification.length : Int) ≠ s.streamRecordSize then
    .error (.runtimeError "Expected data and projection don't match!")
  else if s.inputChunksPerRecord = -1 then
    .error (.runtimeError
      "Chunk size at the end of the acceleration isn't specified!")
  else .ok (max s.inputChunksPerRecord chunks)

/-- One iteration of the loop over the streams. -/
def setupStream (isInputStream : Bool) (bufferSize : Int) (s : StreamInitData)
    (currentStreamCount : Nat) :
    Outcome (DMAStreamSetupData × List RegisterWrite) := do
  let isMultichannelStream := s.maxChannelCount ≠ -1
  let (activeChannelCount, channelSetupData) ←
    (if isMultichannelStream then setMultiChannelSetupData s
    else .ok (setSingleChannelSetupData isInputStream s))
  let bufferStart := bufferSize * currentStreamCount
  let chunksPerRecord ← chunksPerRecordOf isInputStream s
  let d ← calculateDMAStreamSetupData
    { recordsPerDdrBurst := 0
      chunksPerRecord := chunksPerRecord
      crossbarSetupData := []
      isInputStream := isInputStream
      activeChannelCount := activeChannelCount
      streamId := s.streamId
      ddrBurstLength := 0
      bufferStart := bufferStart
      bufferEnd := bufferStart + bufferSize - 1
      recordChunkIds := []
      channelSetupData := channelSetupData }
    s.streamRecordSize isMultichannelStream
  let ioWrites ← setUpDMAIOStream d
  let crossbar ← calculateCrossbarSetupData d.toDMASetupData s.streamRecordSize
    (streamSpecificationOf s)
  let d := { d with toDMASetupData := crossbar }
  .ok (d, ioWrites ++ setUpDMACrossbarsForStream d)

def setupStreams (isInputStream : Bool) (bufferSize : Int) :
    List StreamInitData → Nat →
      Outcome (List (DMAStreamSetupData × List RegisterWrite))
  | [], _ => .ok []
  | s :: rest, currentStreamCount => do
      let first ← setupStream isInputStream bufferSize s currentStreamCount
      let others ← setupStreams isInputStream bufferSize rest
        (currentStreamCount + 1)
      .ok (first :: others)

/-- What `SetupDMAModule` has computed for each stream, and all registers. -/
structure DMAModuleSetup where
  streams : List (DMAStreamSetupData × List RegisterWrite)
  writes : List RegisterWrite

def setupDMAModule (streams : List StreamInitData) (isInputStream : Bool) :
    Outcome DMAModuleSetup := do
  let bufferSize ← divide 16 streams.length
  let setups ← setupStreams isInputStream bufferSize streams 0
  let multichannelStreamCount :=
    streams.countP fun s => s.maxChannelCount ≠ -1
  .ok
    { streams := setups
      writes := setups.flatMap (·.2) ++
        if isInputStream ∧ multichannelStreamCount ≠ 0 then
          [setNumberOfInputStreamsWithMultipleChannels multichannelStreamCount]
        else [] }

end Orkhestra.Ports.DMASetup
