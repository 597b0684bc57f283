import Orkhestra.Ports.ChannelAddresses
import Orkhestra.Ports.CrossbarEntries
import Orkhestra.Verified.Log
import Orkhestra.Verified.RegisterMap

/-!
# The registers of the streams

Each method of the DMA that sets up a stream writes to a bank of registers with
a block for each stream.  All banks lie apart but two: the sizes of the channels
start four blocks behind their addresses, while there are sixteen streams.  The
addresses of the channels of stream `i + 4` are the sizes of the channels of
stream `i`.
-/

namespace Orkhestra.Ports.DMARegisters

open Orkhestra.Verified.Checked
open Orkhestra.Verified.Log
open Orkhestra.Verified.RegisterMap
open Orkhestra.Ports.StreamParameterCalculator
open Orkhestra.Ports.QuerySchedulingData
open Orkhestra.Ports.DMACrossbarSpecifier
open Orkhestra.Ports.DMACrossbarSetup
open Orkhestra.Ports.DMA
open Orkhestra.Ports.DMASetup
open Orkhestra.Ports.DMABurst
open Orkhestra.Ports.DMADomain
open Orkhestra.Ports.ChannelAddresses
open Orkhestra.Ports.CrossbarEntries

/-! ## Banks -/

/-- The registers that are written for a stream. -/
inductive RegisterKind where
  | controllerParams (isInput : Bool)
  | controllerStreamAddress (isInput : Bool)
  | controllerStreamSize (isInput : Bool)
  | recordSize
  | recordChunkIds
  | crossbarValues (crossbarSelection : DMACrossbarDirectionSelection)
  | recordsPerBurst
  | ddrBurstSize
  | activeChannels
  | channelAddress
  | channelSize
  deriving DecidableEq, Repr

/-- One register for each stream. -/
def streamBank (base : Int) : Bank where
  base := base
  stride := 4
  step := 4
  low := 0
  high := 1
  step_pos := by decide
  fits := by decide

/-- The chunk ids of all cycles of the interface. -/
def chunkIdBank (base : Int) : Bank where
  base := base
  stride := 2 ^ 8
  step := 2 ^ 2
  low := 0
  high := 2 ^ 5
  step_pos := by decide
  fits := by decide

/-- Eight words for each clock cycle; the first four of them are used. -/
def crossbarBank (base : Int) : Bank where
  base := base
  stride := 2 ^ 12
  step := 2 ^ 2
  low := 0
  high := 2 ^ 8
  step_pos := by decide
  fits := by decide

/-- 1024 channels.  A stream with a negative amount of records has channels in
front of the first one. -/
def channelBank (base : Int) : Bank where
  base := base
  stride := 2 ^ 14
  step := 2 ^ 2
  low := -2 ^ 10
  high := 2 ^ 10
  step_pos := by decide
  fits := by decide

def RegisterKind.bank : RegisterKind → Bank
  | .controllerParams true => streamBank (2 ^ 6)
  | .controllerParams false => streamBank (2 ^ 16)
  | .controllerStreamAddress true => streamBank (2 * 2 ^ 6)
  | .controllerStreamAddress false => streamBank (2 ^ 16 + 2 ^ 6)
  | .controllerStreamSize true => streamBank (3 * 2 ^ 6)
  | .controllerStreamSize false => streamBank (2 ^ 16 + 2 * 2 ^ 6)
  | .recordSize => streamBank (2 ^ 17 + 2 ^ 8)
  | .recordChunkIds => chunkIdBank (2 ^ 17 + 2 ^ 13)
  | .crossbarValues crossbarSelection =>
      crossbarBank (crossbarBaseAddress crossbarSelection)
  | .recordsPerBurst => streamBank 0x80000
  | .ddrBurstSize => streamBank (0x80000 + 2 ^ 6)
  | .activeChannels => streamBank (0x80000 + 2 * 2 ^ 6)
  | .channelAddress => channelBank (0x80000 + 2 ^ 16)
  | .channelSize => channelBank (0x80000 + 2 * 2 ^ 16)

/-- A register of a stream: its kind, the stream, and which one of its kind. -/
structure Register where
  kind : RegisterKind
  streamId : Nat
  index : Int
  deriving DecidableEq, Repr

def Register.address (r : Register) : Int :=
  r.kind.bank.address r.streamId r.index

/-- The register belongs to one of the streams and to its block. -/
def Register.InRange (r : Register) : Prop :=
  r.streamId < kMaxIOStreamCount ∧ r.kind.bank.Holds r.index

/-- The address of a channel that is also the size of a channel. -/
def Clashing (r r' : Register) : Prop :=
  r.kind = .channelAddress ∧ r'.kind = .channelSize ∧
    r.streamId = r'.streamId + 4 ∧ r.index = r'.index

/-- The addresses and sizes of the channels lie four blocks apart. -/
theorem channelBanks_isShift :
    Bank.IsShift 4 RegisterKind.channelAddress.bank
      RegisterKind.channelSize.bank := by
  decide

/-- All other banks have no register in common. -/
theorem banks_apart {k k' : RegisterKind} (hne : k ≠ k')
    (hchannels : ¬(k = .channelAddress ∧ k' = .channelSize))
    (hchannels' : ¬(k' = .channelAddress ∧ k = .channelSize)) :
    Bank.Apart kMaxIOStreamCount k.bank k'.bank := by
  rcases k with ⟨_ | _⟩ | ⟨_ | _⟩ | ⟨_ | _⟩ | _ | _ | ⟨_ | _ | _ | _⟩ | _ | _ |
      _ | _ | _ <;>
    rcases k' with ⟨_ | _⟩ | ⟨_ | _⟩ | ⟨_ | _⟩ | _ | _ | ⟨_ | _ | _ | _⟩ | _ |
      _ | _ | _ | _ <;>
    first
      | exact absurd rfl hne
      | exact absurd ⟨rfl, rfl⟩ hchannels
      | exact absurd ⟨rfl, rfl⟩ hchannels'
      | decide +kernel

theorem address_eq_iff {r r' : Register} (hr : r.InRange) (hr' : r'.InRange) :
    r.address = r'.address ↔ r = r' ∨ Clashing r r' ∨ Clashing r' r := by
  obtain ⟨kind, streamId, index⟩ := r
  obtain ⟨kind', streamId', index'⟩ := r'
  obtain ⟨hstream, hindex⟩ := hr
  obtain ⟨hstream', hindex'⟩ := hr'
  simp only [Register.address, Clashing, Register.mk.injEq]
  by_cases hsame : kind = kind'
  · subst hsame
    rw [Bank.address_inj hindex hindex']
    constructor
    · exact fun h => .inl ⟨rfl, h⟩
    · rintro (h | ⟨rfl, hsize, -⟩ | ⟨rfl, hsize, -⟩)
      · exact h.2
      · cases hsize
      · cases hsize
  by_cases hchannels : kind = .channelAddress ∧ kind' = .channelSize
  · obtain ⟨rfl, rfl⟩ := hchannels
    rw [Bank.address_eq_iff channelBanks_isShift hindex hindex']
    simp only [reduceCtorEq, false_and, true_and, and_self, or_false, false_or,
      and_congr_left_iff]
    omega
  by_cases hchannels' : kind' = .channelAddress ∧ kind = .channelSize
  · obtain ⟨rfl, rfl⟩ := hchannels'
    rw [eq_comm, Bank.address_eq_iff channelBanks_isShift hindex' hindex]
    simp only [reduceCtorEq, false_and, true_and, and_self, false_or,
      and_congr_left_iff]
    omega
  have hapart := banks_apart hsame hchannels hchannels'
  refine iff_of_false (hapart.address_ne hstream hstream' hindex hindex') ?_
  rintro (h | h | h)
  · exact hsame h.1
  · exact hchannels ⟨h.1, h.2.1⟩
  · exact hchannels' ⟨h.1, h.2.1⟩

/-! ## The registers of a stream -/

/-- The registers of `SetUpDMAIOStream`. -/
def ioRegisters (d : DMAStreamSetupData) : List Register :=
  if d.isInputStream then
    ⟨.controllerParams true, d.streamId, 0⟩ :: ⟨.recordSize, d.streamId, 0⟩ ::
      (d.recordChunkIds.map fun chunkIdPair =>
        ⟨.recordChunkIds, d.streamId, chunkIdPair.1⟩) ++
      if d.activeChannelCount = -1 then
        [⟨.controllerStreamAddress true, d.streamId, 0⟩,
          ⟨.controllerStreamSize true, d.streamId, 0⟩]
      else
        ⟨.activeChannels, d.streamId, 0⟩ ::
          (d.channelSetupData.flatMap fun channel =>
            [⟨.channelSize, d.streamId, channel.channelId⟩,
              ⟨.channelAddress, d.streamId, channel.channelId⟩]) ++
          [⟨.ddrBurstSize, d.streamId, 0⟩, ⟨.recordsPerBurst, d.streamId, 0⟩]
  else
    [⟨.controllerParams false, d.streamId, 0⟩,
      ⟨.controllerStreamAddress false, d.streamId, 0⟩,
      ⟨.controllerStreamSize false, d.streamId, 0⟩]

/-- The register of four lanes in a clock cycle. -/
def crossbarIndex (clockCycle : Nat) (offset : Fin 4) : Int :=
  8 * clockCycle + offset.val

/-- The registers of `SetUpDMACrossbarsForStream`. -/
def crossbarRegisters (d : DMAStreamSetupData) : List Register :=
  (List.range d.crossbarSetupData.length).flatMap fun clockCycle =>
    (List.finRange 4).flatMap fun offset =>
      [⟨.crossbarValues (chunkDirection d.isInputStream), d.streamId,
          crossbarIndex clockCycle offset⟩,
        ⟨.crossbarValues (positionDirection d.isInputStream), d.streamId,
          crossbarIndex clockCycle offset⟩]

def streamRegisters (d : DMAStreamSetupData) : List Register :=
  ioRegisters d ++ crossbarRegisters d

theorem setUpDMAIOStream_registers {d : DMAStreamSetupData}
    {writes : List RegisterWrite} (h : setUpDMAIOStream d = .ok writes) :
    writes.map (·.address) = (ioRegisters d).map (·.address) := by
  simp only [setUpDMAIOStream, setControllerParams, bind_eq_ok,
    Except.ok.injEq] at h
  obtain ⟨params, ⟨exponent, -, rfl⟩, h⟩ := h
  cases hinput : d.isInputStream with
  | true =>
      simp only [hinput, if_true] at h
      split at h
      · rename_i hsingle
        simp only [bind_eq_ok, Except.ok.injEq] at h
        obtain ⟨channel, -, rfl⟩ := h
        simp [ioRegisters, hinput, hsingle, setRecordSize, setRecordChunkIDs,
          setControllerStreamAddress, setControllerStreamSize,
          streamSizeAddress, writeToModule, Register.address, Bank.address,
          RegisterKind.bank, streamBank, chunkIdBank]
      · rename_i hmulti
        rw [Except.ok.injEq] at h
        subst h
        simp [ioRegisters, hinput, hmulti, setRecordSize, setRecordChunkIDs,
          setNumberOfActiveChannelsForMultiChannelStreams,
          setSizeForMultiChannelStreams, setAddressForMultiChannelStreams,
          setDDRBurstSizeForMultiChannelStreams,
          setRecordsPerBurstForMultiChannelStreams, writeToModule,
          Register.address, Bank.address, RegisterKind.bank, streamBank,
          chunkIdBank, channelBank, List.map_flatMap]
  | false =>
      simp only [hinput, Bool.false_eq_true, if_false, bind_eq_ok,
        Except.ok.injEq] at h
      obtain ⟨channel, -, rfl⟩ := h
      simp [ioRegisters, hinput, setControllerStreamAddress,
        setControllerStreamSize, streamSizeAddress, writeToModule,
        Register.address, Bank.address, RegisterKind.bank, streamBank]

theorem setUpDMACrossbarsForStream_registers (d : DMAStreamSetupData) :
    (setUpDMACrossbarsForStream d).map (·.address) =
      (crossbarRegisters d).map (·.address) := by
  have hcycles : List.range d.crossbarSetupData.length =
      d.crossbarSetupData.zipIdx.map (·.2) := by
    rw [List.zipIdx_map_snd, List.range_eq_range']
  rw [crossbarRegisters, hcycles, List.flatMap_map,
    setUpDMACrossbarsForStream, List.map_flatMap, List.map_flatMap]
  refine List.flatMap_congr fun chunk _ => ?_
  rw [List.map_flatMap, List.map_flatMap]
  refine List.flatMap_congr fun offset _ => ?_
  simp only [setCrossbarValues, writeToModule, Int.reducePow, Nat.cast_ofNat,
    List.map_cons, List.map_nil, Register.address, Bank.address,
    RegisterKind.bank, Int.reduceMul, Int.reduceAdd, crossbarBank,
    crossbarIndex, List.cons.injEq, and_true]
  omega

/-! ## Telling registers apart -/

/-- Is the register one of the input streams? -/
def RegisterKind.isInput : RegisterKind → Bool
  | .controllerParams isInput => isInput
  | .controllerStreamAddress isInput => isInput
  | .controllerStreamSize isInput => isInput
  | .crossbarValues .kInterfaceToBufferChunk => false
  | .crossbarValues .kInterfaceToBufferPosition => false
  | _ => true

section Stream

variable {d : DMAStreamSetupData} {r : Register}

/-- Where a register of a stream lies in its block. -/
theorem mem_ioRegisters (hr : r ∈ ioRegisters d) :
    r.streamId = d.streamId ∧ r.kind.isInput = d.isInputStream ∧
      (∀ selection, r.kind ≠ .crossbarValues selection) ∧
      ((r.index = 0 ∧ r.kind ≠ .channelSize ∧ r.kind ≠ .channelAddress) ∨
        (r.kind = .recordChunkIds ∧ ∃ pair ∈ d.recordChunkIds,
          r.index = pair.1) ∨
        ((r.kind = .channelSize ∨ r.kind = .channelAddress) ∧
          d.activeChannelCount ≠ -1 ∧
          ∃ c ∈ d.channelSetupData, r.index = c.channelId)) := by
  unfold ioRegisters at hr
  split at hr
  · rename_i hinput
    rw [hinput]
    split at hr
    · simp only [List.cons_append, List.mem_cons, List.mem_append,
        List.mem_map, List.not_mem_nil, or_false] at hr
      rcases hr with rfl | rfl | ⟨pair, hpair, rfl⟩ | rfl | rfl
      · exact ⟨rfl, rfl, nofun, .inl ⟨rfl, nofun, nofun⟩⟩
      · exact ⟨rfl, rfl, nofun, .inl ⟨rfl, nofun, nofun⟩⟩
      · exact ⟨rfl, rfl, nofun, .inr (.inl ⟨rfl, pair, hpair, rfl⟩)⟩
      · exact ⟨rfl, rfl, nofun, .inl ⟨rfl, nofun, nofun⟩⟩
      · exact ⟨rfl, rfl, nofun, .inl ⟨rfl, nofun, nofun⟩⟩
    · rename_i hmulti
      simp only [List.cons_append, List.mem_cons, List.mem_append,
        List.mem_map, List.mem_flatMap, List.not_mem_nil, or_false] at hr
      rcases hr with rfl | rfl | ⟨pair, hpair, rfl⟩ | rfl |
        ⟨c, hc, rfl | rfl⟩ | rfl | rfl
      · exact ⟨rfl, rfl, nofun, .inl ⟨rfl, nofun, nofun⟩⟩
      · exact ⟨rfl, rfl, nofun, .inl ⟨rfl, nofun, nofun⟩⟩
      · exact ⟨rfl, rfl, nofun, .inr (.inl ⟨rfl, pair, hpair, rfl⟩)⟩
      · exact ⟨rfl, rfl, nofun, .inl ⟨rfl, nofun, nofun⟩⟩
      · exact ⟨rfl, rfl, nofun,
          .inr (.inr ⟨.inl rfl, hmulti, c, hc, rfl⟩)⟩
      · exact ⟨rfl, rfl, nofun,
          .inr (.inr ⟨.inr rfl, hmulti, c, hc, rfl⟩)⟩
      · exact ⟨rfl, rfl, nofun, .inl ⟨rfl, nofun, nofun⟩⟩
      · exact ⟨rfl, rfl, nofun, .inl ⟨rfl, nofun, nofun⟩⟩
  · rename_i houtput
    rw [Bool.eq_false_of_not_eq_true houtput]
    simp only [List.mem_cons, List.not_mem_nil, or_false] at hr
    rcases hr with rfl | rfl | rfl <;>
      exact ⟨rfl, rfl, nofun, .inl ⟨rfl, nofun, nofun⟩⟩

theorem mem_crossbarRegisters (hr : r ∈ crossbarRegisters d) :
    r.streamId = d.streamId ∧ r.kind.isInput = d.isInputStream ∧
      (∃ selection, r.kind = .crossbarValues selection) ∧
      ∃ clockCycle < d.crossbarSetupData.length, ∃ offset,
        r.index = crossbarIndex clockCycle offset := by
  simp only [crossbarRegisters, List.mem_flatMap, List.mem_range,
    List.mem_cons, List.not_mem_nil, or_false] at hr
  obtain ⟨clockCycle, hcycle, offset, -, rfl | rfl⟩ := hr
  · refine ⟨rfl, ?_, ⟨_, rfl⟩, clockCycle, hcycle, offset, rfl⟩
    rw [chunkDirection]
    cases d.isInputStream <;> rfl
  · refine ⟨rfl, ?_, ⟨_, rfl⟩, clockCycle, hcycle, offset, rfl⟩
    rw [positionDirection]
    cases d.isInputStream <;> rfl

theorem mem_streamRegisters (hr : r ∈ streamRegisters d) :
    r.streamId = d.streamId ∧ r.kind.isInput = d.isInputStream := by
  rcases List.mem_append.mp hr with hr | hr
  · exact ⟨(mem_ioRegisters hr).1, (mem_ioRegisters hr).2.1⟩
  · exact ⟨(mem_crossbarRegisters hr).1, (mem_crossbarRegisters hr).2.1⟩

/-- Only a multi-channel input stream has registers of channels. -/
theorem channel_mem_streamRegisters {kind : RegisterKind} {streamId : Nat}
    {index : Int} (hkind : kind = .channelSize ∨ kind = .channelAddress) :
    ⟨kind, streamId, index⟩ ∈ streamRegisters d ↔
      d.isInputStream = true ∧ d.activeChannelCount ≠ -1 ∧
        streamId = d.streamId ∧
        ∃ c ∈ d.channelSetupData, index = c.channelId := by
  constructor
  · intro hr
    rcases List.mem_append.mp hr with hr | hr
    · obtain ⟨hstream, hinput, -, hindex⟩ := mem_ioRegisters hr
      dsimp only at hstream hinput hindex
      have hkind' : kind.isInput = true ∧ kind ≠ .recordChunkIds := by
        rcases hkind with rfl | rfl <;> exact ⟨rfl, nofun⟩
      rcases hindex with ⟨-, hsize, haddress⟩ | ⟨hchunk, -⟩ |
        ⟨-, hmulti, hchannel⟩
      · rcases hkind with h | h
        · exact absurd h hsize
        · exact absurd h haddress
      · exact absurd hchunk hkind'.2
      · exact ⟨hinput ▸ hkind'.1, hmulti, hstream, hchannel⟩
    · obtain ⟨-, -, ⟨selection, hcrossbar⟩, -⟩ := mem_crossbarRegisters hr
      rcases hkind with rfl | rfl <;> cases hcrossbar
  · rintro ⟨hinput, hmulti, rfl, c, hc, rfl⟩
    refine List.mem_append_left _ ?_
    rw [ioRegisters, if_pos hinput, if_neg hmulti]
    simp only [List.mem_append, List.mem_cons, List.mem_flatMap]
    rcases hkind with rfl | rfl
    · exact .inr (.inl (.inr ⟨c, hc, .inl rfl⟩))
    · exact .inr (.inl (.inr ⟨c, hc, .inr (.inl rfl)⟩))

end Stream

/-! ## A stream that is set up -/

/-- The numbers of the channels: the active ones, then the unused ones. -/
def channelIds (activeCount maxCount : Int) : List Int :=
  (List.range activeCount.toNat).map (fun (j : Nat) => (j : Int)) ++
    (List.range (maxCount - activeCount).toNat).map
      fun (k : Nat) => activeCount + k

theorem mem_channelIds {activeCount maxCount id : Int} :
    id ∈ channelIds activeCount maxCount ↔
      0 ≤ id ∧ id < activeCount ∨ activeCount ≤ id ∧ id < maxCount := by
  simp only [channelIds, List.mem_append, List.mem_map, List.mem_range]
  constructor
  · rintro (⟨j, hj, rfl⟩ | ⟨k, hk, rfl⟩)
    · omega
    · omega
  · rintro (h | h)
    · exact .inl ⟨id.toNat, by omega, by omega⟩
    · exact .inr ⟨(id - activeCount).toNat, by omega, by omega⟩

theorem nodup_channelIds (activeCount maxCount : Int) :
    (channelIds activeCount maxCount).Nodup := by
  have hactive : Function.Injective fun (j : Nat) => (j : Int) :=
    fun _ _ => Int.ofNat.inj
  have hunused : Function.Injective fun (k : Nat) => activeCount + k :=
    fun _ _ h => Int.ofNat.inj (Int.add_left_cancel h)
  rw [channelIds, List.nodup_append]
  refine ⟨List.nodup_range.map hactive, List.nodup_range.map hunused, ?_⟩
  simp only [List.mem_map, List.mem_range]
  rintro _ ⟨j, hj, rfl⟩ _ ⟨k, hk, rfl⟩
  omega

/-- What is known of the registers of a stream that is set up. -/
structure RegistersOf (isInputStream : Bool) (s : StreamInitData)
    (d : DMAStreamSetupData) (writes : List RegisterWrite) : Prop where
  isInputStream_eq : d.isInputStream = isInputStream
  streamId_eq : d.streamId = s.streamId
  activeChannelCount_eq : d.activeChannelCount = s.maxChannelCount
  chunkIds : d.recordChunkIds.map (·.1) = List.range kDatapathLength
  channels : s.maxChannelCount ≠ -1 → d.channelSetupData.map (·.channelId) =
    channelIds (activeChannelCount s) s.maxChannelCount
  crossbar : d.crossbarSetupData.length ≤ 32
  addresses : writes.map (·.address) = (streamRegisters d).map (·.address)

theorem setMultiChannelSetupData_ids {s : StreamInitData} {count : Int}
    {channels : List DMAChannelSetupData}
    (h : setMultiChannelSetupData s = .ok (count, channels)) :
    count = s.maxChannelCount ∧ channels.map (·.channelId) =
      channelIds (activeChannelCount s) s.maxChannelCount := by
  obtain ⟨-, rfl, rfl⟩ := setMultiChannelSetupData_cases h
  rw [List.map_append, List.map_map, List.map_map, channelIds]
  exact ⟨rfl, rfl⟩

theorem setupStream_registers {isInputStream : Bool} {bufferSize : Int}
    {s : StreamInitData} {i : Nat} {d : DMAStreamSetupData}
    {writes : List RegisterWrite}
    (h : setupStream isInputStream bufferSize s i = .ok (d, writes)) :
    RegistersOf isInputStream s d writes := by
  have hentries := crossbarEntries_le h
  simp only [setupStream, calculateDMAStreamSetupData, bind_eq_ok,
    Except.ok.injEq, Prod.mk.injEq] at h
  obtain ⟨⟨active, channels⟩, hchannels, chunks, -, d₁,
    ⟨ids, hids, records, -, rfl⟩, ioWrites, hio, crossbar, hcrossbar, rfl,
    rfl⟩ := h
  obtain ⟨xs, rfl⟩ := calculateCrossbarSetupData_frame hcrossbar
  have hactive : active = s.maxChannelCount ∧ (s.maxChannelCount ≠ -1 →
      channels.map (·.channelId) =
        channelIds (activeChannelCount s) s.maxChannelCount) := by
    split at hchannels
    · obtain ⟨hcount, hchannels⟩ := setMultiChannelSetupData_ids hchannels
      exact ⟨hcount, fun _ => hchannels⟩
    · rename_i hsingle
      have hcount := Except.ok.inj hchannels
      simp only [setSingleChannelSetupData, Prod.mk.injEq] at hcount
      exact ⟨by omega, fun hmulti => absurd hmulti hsingle⟩
  refine ⟨rfl, rfl, hactive.1, ?_, hactive.2, hentries, ?_⟩
  · have hindices := map_of_mapM_eq_ok Prod.fst id hids
      fun i idPair hpair => by
        simp only [recordChunkId, bind_eq_ok, Except.ok.injEq] at hpair
        obtain ⟨-, -, rfl⟩ := hpair
        rfl
    rw [List.map_id] at hindices
    exact hindices
  · rw [List.map_append, setUpDMAIOStream_registers hio,
      setUpDMACrossbarsForStream_registers, streamRegisters, List.map_append]
    rfl

/-- The active channels and the unused ones. -/
def channelCount (s : StreamInitData) : Nat :=
  (channelIds (activeChannelCount s) s.maxChannelCount).length

/-- The stream is one of the streams of the hardware, which has room for 1024
channels in each. -/
structure WithinCapacity (isInputStream : Bool) (s : StreamInitData) :
    Prop where
  streamId : s.streamId < kMaxIOStreamCount
  channels : isInputStream = true → s.maxChannelCount ≠ -1 →
    0 < s.maxChannelCount ∧ channelCount s ≤ 1024

section Registers

variable {isInputStream : Bool} {s : StreamInitData} {d : DMAStreamSetupData}
  {writes : List RegisterWrite}

/-- Every bank has the register of index 0. -/
theorem holds_zero (kind : RegisterKind) : kind.bank.Holds 0 := by
  rcases kind with ⟨_ | _⟩ | ⟨_ | _⟩ | ⟨_ | _⟩ | _ | _ | ⟨_ | _ | _ | _⟩ | _ |
      _ | _ | _ | _ <;> decide

theorem channelId_range (hd : RegistersOf isInputStream s d writes)
    (hmulti : s.maxChannelCount ≠ -1) (hpos : 0 < s.maxChannelCount)
    (hcount : channelCount s ≤ 1024) {c : DMAChannelSetupData}
    (hc : c ∈ d.channelSetupData) :
    -1024 ≤ c.channelId ∧ c.channelId < 1024 := by
  simp only [channelCount, channelIds, List.length_map, List.length_append,
    List.length_range] at hcount
  have hid : c.channelId ∈ d.channelSetupData.map (·.channelId) :=
    List.mem_map_of_mem hc
  rw [hd.channels hmulti, mem_channelIds] at hid
  omega

/-- A stream with channels has the channel 0. -/
theorem channelZero_mem (hd : RegistersOf isInputStream s d writes)
    (hmulti : s.maxChannelCount ≠ -1) (hpos : 0 < s.maxChannelCount) :
    ∃ c ∈ d.channelSetupData, (0 : Int) = c.channelId := by
  have hzero : (0 : Int) ∈ d.channelSetupData.map (·.channelId) := by
    rw [hd.channels hmulti, mem_channelIds]
    omega
  obtain ⟨c, hc, hzero⟩ := List.mem_map.mp hzero
  exact ⟨c, hc, hzero.symm⟩

theorem inRange_of_mem (hd : RegistersOf isInputStream s d writes)
    (hcapacity : WithinCapacity isInputStream s) {r : Register}
    (hr : r ∈ streamRegisters d) : r.InRange := by
  have hstream := (mem_streamRegisters hr).1
  refine ⟨by rw [hstream, hd.streamId_eq]; exact hcapacity.streamId, ?_⟩
  rcases List.mem_append.mp hr with hr | hr
  · obtain ⟨-, hinput, -, ⟨hzero, -⟩ | ⟨hkind, pair, hpair, hindex⟩ |
      ⟨hkind, hmulti, c, hc, hindex⟩⟩ := mem_ioRegisters hr
    · rw [hzero]
      exact holds_zero r.kind
    · have hid : pair.1 ∈ d.recordChunkIds.map (·.1) :=
        List.mem_map_of_mem hpair
      rw [hd.chunkIds, List.mem_range] at hid
      rw [hkind, hindex]
      exact ⟨Int.natCast_nonneg _, Int.ofNat_lt.mpr hid⟩
    · have hkinds : r.kind.isInput = true ∧
          ∀ i : Int, -1024 ≤ i ∧ i < 1024 → r.kind.bank.Holds i := by
        rcases hkind with hkind | hkind <;> rw [hkind] <;>
          exact ⟨rfl, fun i hi => hi⟩
      rw [hd.activeChannelCount_eq] at hmulti
      rw [hkinds.1, hd.isInputStream_eq] at hinput
      obtain ⟨hpos, hcount⟩ := hcapacity.channels hinput.symm hmulti
      rw [hindex]
      exact hkinds.2 _ (channelId_range hd hmulti hpos hcount hc)
  · obtain ⟨-, -, ⟨selection, hkind⟩, clockCycle, hcycle, offset, hindex⟩ :=
      mem_crossbarRegisters hr
    have hcrossbar := hd.crossbar
    have hoffset := offset.isLt
    rw [hkind, hindex]
    show 0 ≤ crossbarIndex clockCycle offset ∧
      crossbarIndex clockCycle offset < 2 ^ 8
    simp only [crossbarIndex]
    omega

theorem nodup_crossbarRegisters (d : DMAStreamSetupData) :
    (crossbarRegisters d).Nodup := by
  refine nodup_flatMap_of_key (fun clockCycle : Nat => (clockCycle : Int))
    (fun r => r.index / 8) (List.nodup_range.map fun _ _ => Int.ofNat.inj) ?_ ?_
  · intro clockCycle _
    refine nodup_flatMap_of_key (fun offset : Fin 4 => (offset.val : Int))
      (fun r => r.index % 8) ?_ ?_ ?_
    · exact (List.nodup_finRange 4).map fun _ _ h => Fin.ext (Int.ofNat.inj h)
    · intro offset _
      cases d.isInputStream <;> simp [chunkDirection, positionDirection]
    · intro offset _ r hr
      have hoffset := offset.isLt
      simp only [List.mem_cons, List.not_mem_nil, or_false] at hr
      rcases hr with rfl | rfl <;> simp only [crossbarIndex] <;> omega
  · intro clockCycle _ r hr
    simp only [List.mem_flatMap, List.mem_cons, List.not_mem_nil,
      or_false] at hr
    obtain ⟨offset, -, hr⟩ := hr
    have hoffset := offset.isLt
    rcases hr with rfl | rfl <;> simp only [crossbarIndex] <;> omega

theorem nodup_chunkIdRegisters (hd : RegistersOf isInputStream s d writes) :
    (d.recordChunkIds.map fun pair => (⟨.recordChunkIds, d.streamId,
      pair.1⟩ : Register)).Nodup := by
  refine List.Nodup.of_map (fun r => r.index.toNat) ?_
  have hids : (d.recordChunkIds.map (·.1)).Nodup := by
    rw [hd.chunkIds]
    exact List.nodup_range
  rw [List.map_map]
  exact hids

theorem nodup_channelRegisters (hd : RegistersOf isInputStream s d writes)
    (hmulti : s.maxChannelCount ≠ -1) :
    (d.channelSetupData.flatMap fun channel =>
      [(⟨.channelSize, d.streamId, channel.channelId⟩ : Register),
        ⟨.channelAddress, d.streamId, channel.channelId⟩]).Nodup := by
  refine nodup_flatMap_of_key (·.channelId) (·.index) ?_ ?_ ?_
  · rw [hd.channels hmulti]
    exact nodup_channelIds _ _
  · intro channel _
    simp
  · intro channel _ r hr
    simp only [List.mem_cons, List.not_mem_nil, or_false] at hr
    rcases hr with rfl | rfl <;> rfl

theorem nodup_ioRegisters (hd : RegistersOf isInputStream s d writes) :
    (ioRegisters d).Nodup := by
  have hchunks := nodup_chunkIdRegisters hd
  unfold ioRegisters
  split_ifs with hinput hsingle
  · rw [List.nodup_append]
    refine ⟨by simp [hchunks], by simp, ?_⟩
    simp only [List.mem_cons, List.mem_map, List.not_mem_nil, or_false]
    rintro _ (rfl | rfl | ⟨pair, -, rfl⟩) _ (rfl | rfl) <;> simp
  · rw [hd.activeChannelCount_eq] at hsingle
    have hchannels := nodup_channelRegisters hd hsingle
    rw [List.nodup_append, List.nodup_append]
    refine ⟨by simp [hchunks], ⟨by simp [hchannels], by simp, ?_⟩, ?_⟩
    · simp only [List.mem_cons, List.mem_flatMap, List.not_mem_nil, or_false]
      rintro _ (rfl | ⟨c, -, rfl | rfl⟩) _ (rfl | rfl) <;> simp
    · simp only [List.mem_cons, List.mem_append, List.mem_map,
        List.mem_flatMap, List.not_mem_nil, or_false]
      rintro _ (rfl | rfl | ⟨pair, -, rfl⟩) _
        ((rfl | ⟨c, -, rfl | rfl⟩) | rfl | rfl) <;> simp
  · simp

theorem nodup_streamRegisters (hd : RegistersOf isInputStream s d writes) :
    (streamRegisters d).Nodup := by
  rw [streamRegisters, List.nodup_append]
  refine ⟨nodup_ioRegisters hd, nodup_crossbarRegisters d, ?_⟩
  rintro r hio _ hcrossbar rfl
  obtain ⟨-, -, ⟨selection, hkind⟩, -⟩ := mem_crossbarRegisters hcrossbar
  exact (mem_ioRegisters hio).2.2.1 selection hkind

end Registers

/-! ## All streams -/

/-- The register of the number of multi-channel streams belongs to no stream. -/
theorem address_ne_four {r : Register} (hr : r.InRange) : r.address ≠ 4 := by
  have hstart := Bank.start_le_address hr.2 r.streamId
  have hbanks : ∀ kind : RegisterKind, 64 ≤ kind.bank.start := by
    rintro (⟨_ | _⟩ | ⟨_ | _⟩ | ⟨_ | _⟩ | _ | _ | ⟨_ | _ | _ | _⟩ | _ | _ | _ |
      _ | _) <;> decide +kernel
  have hfirst := hbanks r.kind
  rw [Register.address]
  omega

theorem exists_of_mem_right {α β : Type} {R : α → β → Prop} {xs : List α}
    {ys : List β} (h : List.Forall₂ R xs ys) {y : β} (hy : y ∈ ys) :
    ∃ x ∈ xs, R x y := by
  induction h with
  | nil => cases hy
  | @cons x y' xs ys hfirst _ ih =>
      rcases List.mem_cons.mp hy with rfl | hy
      · exact ⟨x, List.mem_cons_self, hfirst⟩
      · obtain ⟨x', hx', hrest⟩ := ih hy
        exact ⟨x', List.mem_cons_of_mem x hx', hrest⟩

section Module

variable {isInputStream : Bool} {streams : List StreamInitData}
  {r : DMAModuleSetup}

theorem setupDMAModule_registersOf
    (h : setupDMAModule streams isInputStream = .ok r) :
    List.Forall₂ (fun s setup => RegistersOf isInputStream s setup.1 setup.2)
      streams r.streams := by
  obtain ⟨bufferSize, hsetups⟩ := setupDMAModule_ok h
  refine hsetups.imp fun s setup hsetup => ?_
  obtain ⟨i, hsetup⟩ := hsetup
  exact setupStream_registers hsetup

/-- The registers of the streams, and the number of multi-channel streams. -/
theorem setupDMAModule_addresses
    (h : setupDMAModule streams isInputStream = .ok r) :
    ∃ number : List Int, (number = [] ∨ isInputStream = true ∧ number = [4]) ∧
      r.writes.map (·.address) = (r.streams.flatMap fun setup =>
        (streamRegisters setup.1).map (·.address)) ++ number := by
  have hsetups := setupDMAModule_registersOf h
  simp only [setupDMAModule, bind_eq_ok, Except.ok.injEq] at h
  obtain ⟨bufferSize, -, setups, -, rfl⟩ := h
  have hstreams : (setups.flatMap (·.2)).map (·.address) =
      setups.flatMap fun setup =>
        (streamRegisters setup.1).map (·.address) := by
    rw [List.map_flatMap]
    refine List.flatMap_congr fun setup hsetup => ?_
    obtain ⟨s, -, hd⟩ := exists_of_mem_right hsetups hsetup
    exact hd.addresses
  dsimp only
  rw [List.map_append, hstreams]
  split
  · rename_i hnumber
    exact ⟨[4], .inr ⟨hnumber.1, rfl⟩, rfl⟩
  · exact ⟨[], .inl rfl, rfl⟩

theorem mem_writes (h : setupDMAModule streams isInputStream = .ok r)
    {setup : DMAStreamSetupData × List RegisterWrite}
    (hsetup : setup ∈ r.streams) {w : RegisterWrite} (hw : w ∈ setup.2) :
    w ∈ r.writes := by
  simp only [setupDMAModule, bind_eq_ok, Except.ok.injEq] at h
  obtain ⟨bufferSize, -, setups, -, rfl⟩ := h
  exact List.mem_append_left _ (List.mem_flatMap.mpr ⟨setup, hsetup, hw⟩)

theorem setupDMAModule_keys
    (h : setupDMAModule streams isInputStream = .ok r) :
    r.streams.map (fun setup => (setup.1.isInputStream, setup.1.streamId)) =
      streams.map fun s => (isInputStream, s.streamId) := by
  have hsetups := setupDMAModule_registersOf h
  clear h
  generalize r.streams = setups at hsetups ⊢
  induction hsetups with
  | nil => rfl
  | cons hd _ ih =>
      rw [List.map_cons, List.map_cons, hd.isInputStream_eq, hd.streamId_eq,
        ih]

end Module

/-- The registers of all streams of the inputs and the outputs. -/
def registers (a b : DMAModuleSetup) : List Register :=
  (a.streams ++ b.streams).flatMap fun setup => streamRegisters setup.1

/-- What a register holds after the writes. -/
def registerValue (writes : List RegisterWrite) (address : Int) : Option Nat :=
  (lastWith RegisterWrite.address writes address).map (·.data)

/-- After the set-up of the inputs and then the outputs, every register that was
written for a stream holds the value of that stream, and different registers
have different addresses. -/
structure Unclobbered (a b : DMAModuleSetup) : Prop where
  value : ∀ setup ∈ a.streams ++ b.streams, ∀ w ∈ setup.2,
    registerValue (a.writes ++ b.writes) w.address = some w.data
  address_inj : ∀ r ∈ registers a b, ∀ r' ∈ registers a b,
    r.address = r'.address → r = r'

section Modules

variable {inputs outputs : List StreamInitData} {a b : DMAModuleSetup}

theorem nodup_registers (hinputs : (inputs.map (·.streamId)).Nodup)
    (houtputs : (outputs.map (·.streamId)).Nodup)
    (ha : setupDMAModule inputs true = .ok a)
    (hb : setupDMAModule outputs false = .ok b) : (registers a b).Nodup := by
  have hpairs : ∀ isInput : Bool,
      Function.Injective fun (streamId : Nat) => (isInput, streamId) :=
    fun _ _ _ h => (Prod.mk.inj h).2
  refine nodup_flatMap_of_key
    (fun setup => (setup.1.isInputStream, setup.1.streamId))
    (fun r => (r.kind.isInput, r.streamId)) ?_ ?_ ?_
  · rw [List.map_append, setupDMAModule_keys ha, setupDMAModule_keys hb,
      List.nodup_append]
    refine ⟨?_, ?_, ?_⟩
    · have hnodup := hinputs.map (hpairs true)
      rwa [List.map_map] at hnodup
    · have hnodup := houtputs.map (hpairs false)
      rwa [List.map_map] at hnodup
    · simp only [List.mem_map]
      rintro _ ⟨s, -, rfl⟩ _ ⟨s', -, rfl⟩ h
      cases (Prod.mk.inj h).1
  · intro setup hsetup
    rcases List.mem_append.mp hsetup with hsetup | hsetup
    · obtain ⟨s, -, hd⟩ :=
        exists_of_mem_right (setupDMAModule_registersOf ha) hsetup
      exact nodup_streamRegisters hd
    · obtain ⟨s, -, hd⟩ :=
        exists_of_mem_right (setupDMAModule_registersOf hb) hsetup
      exact nodup_streamRegisters hd
  · intro setup _ r hr
    obtain ⟨hstream, hinput⟩ := mem_streamRegisters hr
    rw [hstream, hinput]

/-- Registers with different addresses keep their values. -/
theorem unclobbered_of_address_inj
    (hnodup : (registers a b).Nodup)
    (hrange : ∀ r ∈ registers a b, r.InRange)
    (ha : setupDMAModule inputs true = .ok a)
    (hb : setupDMAModule outputs false = .ok b)
    (hinj : ∀ r ∈ registers a b, ∀ r' ∈ registers a b,
      r.address = r'.address → r = r') : Unclobbered a b := by
  refine ⟨?_, hinj⟩
  obtain ⟨number, hnumber, hinputWrites⟩ := setupDMAModule_addresses ha
  obtain ⟨none, hnone, houtputWrites⟩ := setupDMAModule_addresses hb
  obtain rfl : none = [] := by
    rcases hnone with hnone | hnone
    · exact hnone
    · cases hnone.1
  have hregisters : ((registers a b).map (·.address)).Nodup :=
    hnodup.map_on hinj
  have hfour : (4 : Int) ∉ (registers a b).map (·.address) := by
    intro hfour
    obtain ⟨r, hr, hfour⟩ := List.mem_map.mp hfour
    exact address_ne_four (hrange r hr) hfour
  have hperm : ((a.writes ++ b.writes).map (·.address)).Perm
      (number ++ (registers a b).map (·.address)) := by
    rw [List.map_append, hinputWrites, houtputWrites, List.append_nil,
      registers, List.map_flatMap, List.flatMap_append, ← List.append_assoc]
    exact List.perm_append_comm.append_right _
  have haddresses : ((a.writes ++ b.writes).map (·.address)).Nodup := by
    rw [hperm.nodup_iff]
    rcases hnumber with rfl | ⟨-, rfl⟩
    · exact hregisters
    · exact List.nodup_cons.mpr ⟨hfour, hregisters⟩
  intro setup hsetup w hw
  have hwrites : w ∈ a.writes ++ b.writes := by
    rcases List.mem_append.mp hsetup with hsetup | hsetup
    · exact List.mem_append_left _ (mem_writes ha hsetup hw)
    · exact List.mem_append_right _ (mem_writes hb hsetup hw)
  rw [registerValue, lastWith_of_nodup haddresses hwrites]
  rfl

theorem mem_registers_iff {r : Register} :
    r ∈ registers a b ↔
      ∃ setup ∈ a.streams ++ b.streams, r ∈ streamRegisters setup.1 := by
  rw [registers, List.mem_flatMap]

/-- The channels of two multi-channel inputs meet when their ids are four
apart. -/
theorem clash_of_streamIds (ha : setupDMAModule inputs true = .ok a)
    {s s' : StreamInitData} (hs : s ∈ inputs) (hs' : s' ∈ inputs)
    (hmulti : s.maxChannelCount ≠ -1 ∧ 0 < s.maxChannelCount)
    (hmulti' : s'.maxChannelCount ≠ -1 ∧ 0 < s'.maxChannelCount)
    (hids : s.streamId = s'.streamId + 4) : ¬Unclobbered a b := by
  intro hunclobbered
  have hregister : ∀ s ∈ inputs, s.maxChannelCount ≠ -1 ∧
      0 < s.maxChannelCount → ∀ kind, kind = .channelSize ∨
        kind = .channelAddress → ⟨kind, s.streamId, 0⟩ ∈ registers a b := by
    intro s hs hmulti kind hkind
    obtain ⟨setup, hsetup, hd⟩ :=
      exists_of_mem_right (setupDMAModule_registersOf ha).flip hs
    refine mem_registers_iff.mpr
      ⟨setup, List.mem_append_left _ hsetup,
        (channel_mem_streamRegisters hkind).mpr ⟨hd.isInputStream_eq, ?_,
          hd.streamId_eq.symm, channelZero_mem hd hmulti.1 hmulti.2⟩⟩
    rw [hd.activeChannelCount_eq]
    exact hmulti.1
  have hsame := hunclobbered.address_inj _
    (hregister s hs hmulti .channelAddress (.inr rfl)) _
    (hregister s' hs' hmulti' .channelSize (.inl rfl)) (by
      rw [Register.address, Register.address, Bank.address_eq_iff
        channelBanks_isShift (holds_zero _) (holds_zero _), hids]
      exact ⟨rfl, rfl⟩)
  cases hsame

end Modules

/-- With at most four multi-channel inputs, and only then, no register of a
stream is written for another one. -/
theorem stream_registers_unclobbered_iff (inputs outputs : List StreamInitData)
    (a b : DMAModuleSetup)
    (hinputIds : (inputs.map (·.streamId)).Nodup)
    (houtputIds : (outputs.map (·.streamId)).Nodup)
    (hids : ∀ s ∈ inputs ++ outputs, s.streamId < kMaxIOStreamCount)
    (hmultiIds : ∀ i, (∃ s ∈ inputs, s.maxChannelCount ≠ -1 ∧
      s.streamId = i) ↔ i < inputs.countP (·.maxChannelCount ≠ -1))
    (hchannels : ∀ s ∈ inputs, s.maxChannelCount ≠ -1 →
      0 < s.maxChannelCount ∧ channelCount s ≤ 1024)
    (ha : setupDMAModule inputs true = .ok a)
    (hb : setupDMAModule outputs false = .ok b) :
    Unclobbered a b ↔ inputs.countP (·.maxChannelCount ≠ -1) ≤ 4 := by
  constructor
  · intro hunclobbered
    by_contra hmany
    obtain ⟨s, hs, hmulti, hid⟩ := (hmultiIds 4).mpr (by omega)
    obtain ⟨s', hs', hmulti', hid'⟩ := (hmultiIds 0).mpr (by omega)
    exact clash_of_streamIds ha hs hs' ⟨hmulti, (hchannels s hs hmulti).1⟩
      ⟨hmulti', (hchannels s' hs' hmulti').1⟩ (by omega) hunclobbered
  intro hfew
  have hsetups : ∀ setup ∈ a.streams ++ b.streams,
      (∃ s ∈ inputs, RegistersOf true s setup.1 setup.2 ∧
        WithinCapacity true s) ∨
      (∃ s ∈ outputs, RegistersOf false s setup.1 setup.2 ∧
        WithinCapacity false s) := by
    intro setup hsetup
    rcases List.mem_append.mp hsetup with hsetup | hsetup
    · obtain ⟨s, hs, hd⟩ :=
        exists_of_mem_right (setupDMAModule_registersOf ha) hsetup
      exact .inl ⟨s, hs, hd, hids s (List.mem_append_left _ hs),
        fun _ => hchannels s hs⟩
    · obtain ⟨s, hs, hd⟩ :=
        exists_of_mem_right (setupDMAModule_registersOf hb) hsetup
      exact .inr ⟨s, hs, hd, hids s (List.mem_append_right _ hs), nofun⟩
  have hrange : ∀ r ∈ registers a b, r.InRange := by
    intro r hr
    obtain ⟨setup, hsetup, hr⟩ := mem_registers_iff.mp hr
    rcases hsetups setup hsetup with
      ⟨s, -, hd, hcapacity⟩ | ⟨s, -, hd, hcapacity⟩
    · exact inRange_of_mem hd hcapacity hr
    · exact inRange_of_mem hd hcapacity hr
  -- The addresses of the channels of streams 0 to 3 end before any size.
  have hclash : ∀ r ∈ registers a b, ∀ r', ¬Clashing r r' := by
    rintro ⟨kind, streamId, index⟩ hr r' ⟨rfl, -, hid, -⟩
    obtain ⟨setup, hsetup, hr⟩ := mem_registers_iff.mp hr
    obtain ⟨hinput, hmulti, hstream, -⟩ :=
      (channel_mem_streamRegisters (.inr rfl)).mp hr
    rcases hsetups setup hsetup with ⟨s, hs, hd, -⟩ | ⟨s, -, hd, -⟩
    · rw [hd.activeChannelCount_eq] at hmulti
      have hlow := (hmultiIds s.streamId).mp ⟨s, hs, hmulti, rfl⟩
      rw [hd.streamId_eq] at hstream
      dsimp only at hid
      omega
    · cases hd.isInputStream_eq.symm.trans hinput
  refine unclobbered_of_address_inj (nodup_registers hinputIds houtputIds ha hb)
    hrange ha hb fun r hr r' hr' haddress => ?_
  rcases (address_eq_iff (hrange r hr) (hrange r' hr')).mp haddress with
    hsame | hclashing | hclashing
  · exact hsame
  · exact absurd hclashing (hclash r hr r')
  · exact absurd hclashing (hclash r' hr' r)

/-- Two integers of a merge sort, each in a channel of its own. -/
def twoChannels (streamId : Nat) : StreamInitData where
  streamId := streamId
  streamRecordSize := 1
  streamRecordCount := 2
  physicalAddress := 4096
  streamSpecification := []
  maxChannelCount := 2
  recordsPerChannel := 1

def integersOut : StreamInitData where
  streamId := 0
  streamRecordSize := 1
  streamRecordCount := 2
  physicalAddress := 65536
  streamSpecification := []
  inputChunksPerRecord := 1

theorem stream_registers_unclobbered_iff_twoChannels :
    ∃ a b, setupDMAModule [twoChannels 0] true = .ok a ∧
      setupDMAModule [integersOut] false = .ok b ∧ Unclobbered a b := by
  obtain ⟨a, ha⟩ := setupDMAModule_total [twoChannels 0] true (by decide)
    (by decide +kernel)
  obtain ⟨b, hb⟩ := setupDMAModule_total [integersOut] false (by decide)
    (by decide +kernel)
  refine ⟨a, b, ha, hb, (stream_registers_unclobbered_iff [twoChannels 0]
    [integersOut] a b (by decide) (by decide) (by decide) ?_ (by decide) ha
    hb).mpr (by decide)⟩
  intro i
  simp [twoChannels, eq_comm]

/-- Five merge sorts: the addresses of the channels of the last one are written
to the sizes of the channels of the first one. -/
def fiveSorted : List StreamInitData :=
  (List.range 5).map twoChannels

theorem stream_registers_not_always_unclobbered :
    ¬∀ (inputs outputs : List StreamInitData) (a b : DMAModuleSetup),
      (inputs.map (·.streamId)).Nodup → (outputs.map (·.streamId)).Nodup →
      (∀ s ∈ inputs ++ outputs, s.streamId < kMaxIOStreamCount) →
      (∀ i, (∃ s ∈ inputs, s.maxChannelCount ≠ -1 ∧ s.streamId = i) ↔
        i < inputs.countP (·.maxChannelCount ≠ -1)) →
      (∀ s ∈ inputs, s.maxChannelCount ≠ -1 →
        0 < s.maxChannelCount ∧ channelCount s ≤ 1024) →
      setupDMAModule inputs true = .ok a →
      setupDMAModule outputs false = .ok b → Unclobbered a b := by
  intro hall
  obtain ⟨a, ha⟩ := setupDMAModule_total fiveSorted true (by decide)
    (by decide +kernel)
  obtain ⟨b, hb⟩ := setupDMAModule_total [integersOut] false (by decide)
    (by decide +kernel)
  have hunclobbered := hall fiveSorted [integersOut] a b (by decide)
    (by decide) (by decide) (by
      intro i
      rw [show fiveSorted.countP (·.maxChannelCount ≠ -1) = 5 from rfl]
      simp [fiveSorted, twoChannels]) (by decide) ha hb
  have hmem : ∀ i < 5, twoChannels i ∈ fiveSorted :=
    fun i hi => List.mem_map.mpr ⟨i, List.mem_range.mpr hi, rfl⟩
  exact clash_of_streamIds ha (hmem 4 (by decide)) (hmem 0 (by decide))
    (by decide) (by decide) rfl hunclobbered

end Orkhestra.Ports.DMARegisters
