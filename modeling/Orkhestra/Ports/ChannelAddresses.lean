import Orkhestra.Ports.MergeSortChannels

/-!
# The addresses of the channels

The address register of a channel keeps the bits 4 to 35 of an address.  The
channels of a merge sort start wherever the records of the channel before end,
so an address survives only when a full channel is a multiple of 16 bytes.  The
starts are computed in `int` before they are added to the address, and a start
that is not of that type is lost as well.
-/

namespace Orkhestra.Ports.ChannelAddresses

open Orkhestra.Verified.Checked
open Orkhestra.Ports.QuerySchedulingData
open Orkhestra.Ports.QueryManager
open Orkhestra.Ports.DMACrossbarSpecifier
open Orkhestra.Ports.DMACrossbarSetup
open Orkhestra.Ports.DMA
open Orkhestra.Ports.DMASetup
open Orkhestra.Ports.DMABurst
open Orkhestra.Ports.DMADomain
open Orkhestra.Ports.ActiveStreams
open Orkhestra.Ports.ElasticModuleChecker

/-! ## The address register -/

/-- Address of the first record of channel `j`, in bytes. -/
def channelStart (s : StreamInitData) (j : Int) : Int :=
  s.physicalAddress + 4 * (s.streamRecordSize * (s.recordsPerChannel * j))

theorem channelStart_eq (s : StreamInitData) (j : Int) :
    channelStart s j = s.physicalAddress +
      4 * (s.streamRecordSize * s.recordsPerChannel * j) := by
  rw [channelStart, Int.mul_assoc]

/-- The register gives an address back when no bit of it is cut. -/
theorem addressRegister_eq_iff (physicalAddress : Nat) (offset : Int)
    (streamId : Nat) (channelId : Int) :
    ((setAddressForMultiChannelStreams streamId channelId
      (addressOf physicalAddress offset)).data : Int) * 2 ^ 4 =
        physicalAddress + 4 * offset ↔
      16 ∣ (physicalAddress : Int) + 4 * offset ∧
        0 ≤ (physicalAddress : Int) + 4 * offset ∧
        (physicalAddress : Int) + 4 * offset < 2 ^ 36 := by
  generalize hvalue : (physicalAddress : Int) + 4 * offset = value
  have haddress : addressOf physicalAddress offset =
      (value % 2 ^ 64).toNat := by
    rw [addressOf, hvalue]
  clear hvalue
  rw [setAddressForMultiChannelStreams, writeToModule, toWord_natCast,
    haddress]
  show (((value % 2 ^ 64).toNat / 2 ^ 4 % 2 ^ 32 : Nat) : Int) * 2 ^ 4 =
    value ↔ _
  omega

/-! ## The channels of a stream that is set up -/

/-- Channels with records. -/
def activeChannelCount (s : StreamInitData) : Int :=
  (s.streamRecordCount + s.recordsPerChannel - 1).tdiv s.recordsPerChannel

/-- The number of channels with records is computed without leaving `int`. -/
def CountInInt (s : StreamInitData) : Prop :=
  IsInt (s.streamRecordCount + s.recordsPerChannel) ∧
    IsInt (s.streamRecordCount + s.recordsPerChannel - 1) ∧
    IsInt (activeChannelCount s)

instance (s : StreamInitData) : Decidable (CountInInt s) :=
  inferInstanceAs (Decidable (_ ∧ _))

/-- The offset of channel `j` is computed without leaving `int`. -/
def OffsetInInt (s : StreamInitData) (j : Int) : Prop :=
  IsInt (s.recordsPerChannel * j) ∧
    IsInt (s.streamRecordSize * (s.recordsPerChannel * j))

instance (s : StreamInitData) (j : Int) : Decidable (OffsetInInt s j) :=
  inferInstanceAs (Decidable (_ ∧ _))

/-- The address of each channel with records is computed, and its register gives
the address of the first record of the channel back. -/
def AddressesSurvive (s : StreamInitData)
    (channels : List DMAChannelSetupData) : Prop :=
  CountInInt s ∧ ∀ c ∈ channels, c.recordCount ≠ 0 →
    OffsetInInt s c.channelId ∧
    ((setAddressForMultiChannelStreams s.streamId c.channelId
      c.streamAddress).data : Int) * 2 ^ 4 = channelStart s c.channelId

/-- The second channel starts at a multiple of 16 bytes, and the first and the
last one start in the first 64 GiB and at offsets of type `int`. -/
def AddressesEncodable (s : StreamInitData) : Prop :=
  CountInInt s ∧
  (2 ≤ activeChannelCount s →
    4 ∣ s.streamRecordSize * s.recordsPerChannel) ∧
  (1 ≤ activeChannelCount s →
    OffsetInInt s (activeChannelCount s - 1) ∧
    (s.physicalAddress : Int) < 2 ^ 36 ∧
    0 ≤ channelStart s (activeChannelCount s - 1) ∧
    channelStart s (activeChannelCount s - 1) < 2 ^ 36)

instance (s : StreamInitData) : Decidable (AddressesEncodable s) :=
  inferInstanceAs (Decidable (_ ∧ _))

section Channels

variable {s : StreamInitData}

/-- The channels that are set up: the active ones, then the unused ones. -/
theorem setMultiChannelSetupData_cases {count : Int}
    {channels : List DMAChannelSetupData}
    (h : setMultiChannelSetupData s = .ok (count, channels)) :
    s.recordsPerChannel ≠ 0 ∧ count = s.maxChannelCount ∧
      channels = (List.range (activeChannelCount s).toNat).map
          (activeChannel s (activeChannelCount s)) ++
        (List.range (s.maxChannelCount - activeChannelCount s).toNat).map
          fun (k : Nat) => unusedChannel s (activeChannelCount s + k) := by
  simp only [setMultiChannelSetupData, bind_eq_ok, divide] at h
  obtain ⟨active, hactive, h⟩ := h
  split at hactive
  · cases hactive
  · next hne =>
      obtain rfl : activeChannelCount s = active := Except.ok.inj hactive
      obtain ⟨rfl, rfl⟩ := Prod.mk.inj (Except.ok.inj h)
      exact ⟨hne, rfl, rfl⟩

/-- The channels with records are the active ones. -/
theorem mem_channels_iff {count : Int} {channels : List DMAChannelSetupData}
    (h : setMultiChannelSetupData s = .ok (count, channels))
    {c : DMAChannelSetupData} (hc : c.recordCount ≠ 0) :
    c ∈ channels ↔ ∃ j : Nat, (j : Int) < activeChannelCount s ∧
      activeChannel s (activeChannelCount s) j = c := by
  obtain ⟨-, -, rfl⟩ := setMultiChannelSetupData_cases h
  rw [List.mem_append]
  simp only [List.mem_map, List.mem_range]
  constructor
  · rintro (⟨j, hj, rfl⟩ | ⟨k, -, rfl⟩)
    · exact ⟨j, by omega, rfl⟩
    · exact absurd rfl hc
  · rintro ⟨j, hj, rfl⟩
    exact .inl ⟨j, by omega, rfl⟩

/-- An active channel has records. -/
theorem activeChannel_recordCount_ne_zero (hne : s.recordsPerChannel ≠ 0)
    (count : Int) (j : Nat) : (activeChannel s count j).recordCount ≠ 0 := by
  simp only [activeChannel]
  split
  · next hlast => exact hlast.2
  · exact hne

/-- Between the first and the last channel, no start leaves their range. -/
theorem channelStart_range {k j : Int} (hj0 : 0 ≤ j) (hj : j ≤ k)
    (hlow : 0 ≤ channelStart s k) (hhigh : channelStart s k < 2 ^ 36)
    (hbase : (s.physicalAddress : Int) < 2 ^ 36) :
    0 ≤ channelStart s j ∧ channelStart s j < 2 ^ 36 := by
  simp only [channelStart_eq] at *
  generalize s.streamRecordSize * s.recordsPerChannel = step at *
  rcases Int.le_total 0 step with hstep | hstep
  · have hmul := Int.mul_le_mul_of_nonneg_left hj hstep
    have hzero := Int.mul_nonneg hstep hj0
    omega
  · have hmul := Int.mul_le_mul_of_nonpos_left hstep hj
    have hzero := Int.mul_nonpos_of_nonpos_of_nonneg hstep hj0
    omega

theorem OffsetInInt.of_le {k j : Int} (hj0 : 0 ≤ j) (hj : j ≤ k)
    (h : OffsetInInt s k) : OffsetInInt s j := by
  refine ⟨isInt_mul_of_le hj0 hj h.1, ?_⟩
  rw [← Int.mul_assoc]
  exact isInt_mul_of_le hj0 hj (by rw [Int.mul_assoc]; exact h.2)

theorem activeChannel_streamAddress {count : Int} {j : Nat}
    (h : OffsetInInt s j) : (activeChannel s count j).streamAddress =
      addressOf s.physicalAddress
        (s.streamRecordSize * (s.recordsPerChannel * j)) := by
  simp only [activeChannel, wrapInt_mul_wrapInt, wrapInt_of_isInt h.2]

theorem dvd_channelStart_iff (haligned : s.physicalAddress % 16 = 0) (j : Int) :
    16 ∣ channelStart s j ↔
      4 ∣ s.streamRecordSize * s.recordsPerChannel * j := by
  rw [channelStart_eq]
  omega

theorem addressesSurvive_iff (haligned : s.physicalAddress % 16 = 0)
    {count : Int} {channels : List DMAChannelSetupData}
    (h : setMultiChannelSetupData s = .ok (count, channels)) :
    AddressesSurvive s channels ↔ AddressesEncodable s := by
  have hne := (setMultiChannelSetupData_cases h).1
  -- What is asked of the register of one channel.
  have hregister : ∀ j : Nat, OffsetInInt s j →
      (((setAddressForMultiChannelStreams s.streamId
        (activeChannel s (activeChannelCount s) j).channelId
        (activeChannel s (activeChannelCount s) j).streamAddress).data : Int) *
          2 ^ 4 = channelStart s j ↔
        4 ∣ s.streamRecordSize * s.recordsPerChannel * j ∧
          0 ≤ channelStart s j ∧ channelStart s j < 2 ^ 36) := by
    intro j hoffset
    rw [activeChannel_streamAddress hoffset, channelStart,
      addressRegister_eq_iff, ← channelStart, dvd_channelStart_iff haligned]
  have hsurvive : AddressesSurvive s channels ↔ CountInInt s ∧
      ∀ j : Nat, (j : Int) < activeChannelCount s → OffsetInInt s j ∧
        4 ∣ s.streamRecordSize * s.recordsPerChannel * j ∧
          0 ≤ channelStart s j ∧ channelStart s j < 2 ^ 36 := by
    refine and_congr_right fun _ => ?_
    constructor
    · intro hall j hj
      have hcount := activeChannel_recordCount_ne_zero hne
        (activeChannelCount s) j
      obtain ⟨hoffset, hj⟩ :=
        hall _ ((mem_channels_iff h hcount).mpr ⟨j, hj, rfl⟩) hcount
      exact ⟨hoffset, (hregister j hoffset).mp hj⟩
    · intro hall c hc hcount
      obtain ⟨j, hj, rfl⟩ := (mem_channels_iff h hcount).mp hc
      obtain ⟨hoffset, hj⟩ := hall j hj
      exact ⟨hoffset, (hregister j hoffset).mpr hj⟩
  rw [hsurvive, AddressesEncodable]
  refine and_congr_right fun _ => ?_
  constructor
  · intro hall
    constructor
    · intro htwo
      have hsecond := (hall 1 (by omega)).2.1
      rwa [Nat.cast_one, Int.mul_one] at hsecond
    · intro hone
      have hfirst := (hall 0 (by omega)).2.2.2
      have hlast := hall (activeChannelCount s - 1).toNat (by omega)
      rw [Int.toNat_of_nonneg (by omega)] at hlast
      refine ⟨hlast.1, ?_, hlast.2.2⟩
      simpa [channelStart] using hfirst
  · rintro ⟨hstep, hrange⟩ j hj
    obtain ⟨hoffset, hbase, hlow, hhigh⟩ := hrange (by omega)
    refine ⟨hoffset.of_le (by omega) (by omega), ?_,
      channelStart_range (by omega) (by omega) hlow hhigh hbase⟩
    by_cases hfirst : j = 0
    · simp [hfirst]
    · exact Dvd.dvd.mul_right (hstep (by omega)) _

/-- The channels of a stream that is set up, and the writes of their
addresses. -/
theorem setupStream_channels {bufferSize : Int} {i : Nat}
    {d : DMAStreamSetupData} {writes : List RegisterWrite}
    (hmulti : s.maxChannelCount ≠ -1)
    (h : setupStream true bufferSize s i = .ok (d, writes)) :
    setMultiChannelSetupData s = .ok (s.maxChannelCount, d.channelSetupData) ∧
      ∀ c ∈ d.channelSetupData, setAddressForMultiChannelStreams s.streamId
        c.channelId c.streamAddress ∈ writes := by
  simp only [setupStream, hmulti, not_false_eq_true, ne_eq, if_true,
    calculateDMAStreamSetupData, bind_eq_ok, Except.ok.injEq,
    Prod.mk.injEq] at h
  obtain ⟨⟨active, channels⟩, hchannels, chunks, -, d₁,
    ⟨ids, -, records, -, rfl⟩, ioWrites, hio, crossbar, -, rfl, rfl⟩ := h
  obtain ⟨-, rfl, -⟩ := setMultiChannelSetupData_cases hchannels
  refine ⟨hchannels, fun c hc => List.mem_append_left _ ?_⟩
  simp only [setUpDMAIOStream, hmulti, if_true, if_false, bind_eq_ok,
    Except.ok.injEq] at hio
  obtain ⟨params, -, rfl⟩ := hio
  simp only [List.mem_append, List.mem_flatMap]
  exact .inl (.inr ⟨c, hc, by simp⟩)

end Channels

/-- The addresses of the channels of each merge sort are written, and they
survive the register exactly when they are encodable. -/
theorem channel_addresses_survive_iff (streams : List StreamInitData)
    (r : DMAModuleSetup)
    (haligned : ∀ s ∈ streams, s.maxChannelCount ≠ -1 →
      s.physicalAddress % 16 = 0)
    (h : setupDMAModule streams true = .ok r) :
    List.Forall₂ (fun s setup => s.maxChannelCount ≠ -1 →
      (∀ c ∈ setup.1.channelSetupData, setAddressForMultiChannelStreams
        s.streamId c.channelId c.streamAddress ∈ setup.2) ∧
      (AddressesSurvive s setup.1.channelSetupData ↔ AddressesEncodable s))
      streams r.streams := by
  obtain ⟨bufferSize, hsetups⟩ := setupDMAModule_ok h
  clear h
  generalize r.streams = setups at hsetups ⊢
  induction hsetups with
  | nil => exact .nil
  | @cons s setup rest setups hfirst hrest ih =>
      rw [List.forall_mem_cons] at haligned
      refine .cons (fun hmulti => ?_) (ih haligned.2)
      obtain ⟨i, hfirst⟩ := hfirst
      obtain ⟨hchannels, hwrites⟩ := setupStream_channels hmulti hfirst
      exact ⟨hwrites, addressesSurvive_iff (haligned.1 hmulti) hchannels⟩

/-- Channels of ten records of 40 bytes. -/
theorem channel_addresses_survive_iff_tenIntegersSorted :
    ∃ r, setupDMAModule [tenIntegersSorted] true = .ok r ∧
      List.Forall₂ (fun s setup =>
        AddressesSurvive s setup.1.channelSetupData) [tenIntegersSorted]
          r.streams := by
  obtain ⟨r, hr⟩ := setupDMAModule_total [tenIntegersSorted] true (by decide)
    (by decide +kernel)
  have hsurvive := channel_addresses_survive_iff [tenIntegersSorted] r
    (by decide) hr
  refine ⟨r, hr, ?_⟩
  generalize r.streams = setups at hsurvive ⊢
  cases hsurvive with
  | cons hfirst hrest =>
      cases hrest
      exact .cons ((hfirst (by decide)).2.mpr (by decide)) .nil

/-- Channels of ten records of 4 bytes: the second one starts in the middle of
16 bytes. -/
def singleIntegersSorted : List AcceleratedQueryNode :=
  [{ inputStreams := [⟨0, 1, 20, some 0, [], 1⟩]
     outputStreams := [⟨0, 1, 0, some 1, [], 1⟩]
     operationType := .kMergeSort
     operationModuleLocation := 1
     operationParameters := [[64, 10]] }]

def singleIntegers : StreamInitData where
  streamId := 0
  streamRecordSize := 1
  streamRecordCount := 20
  physicalAddress := 4096
  streamSpecification := []
  inputChunksPerRecord := 1
  maxChannelCount := 64
  recordsPerChannel := 10

theorem channel_addresses_not_always_survive :
    ¬∀ (board : Board) (nodes : List AcceleratedQueryNode)
      (inputs outputs : FoundStreams) (inputStatus outputStatus : StreamStatus)
      (r : DMAModuleSetup), isRunValid nodes = .ok true →
      nodes.foldlM (findNodeStreams board)
        (([], inputStatus), ([], outputStatus)) = .ok (inputs, outputs) →
      setupDMAModule inputs.1 true = .ok r →
      (∀ s ∈ inputs.1, 1 ≤ s.streamRecordSize ∧ s.physicalAddress % 16 = 0 ∧
        CountInInt s ∧ OffsetInInt s (activeChannelCount s - 1)) →
      List.Forall₂ (fun s setup => s.maxChannelCount ≠ -1 →
        AddressesSurvive s setup.1.channelSetupData) inputs.1 r.streams := by
  intro hall
  obtain ⟨r, hr⟩ := setupDMAModule_total [singleIntegers] true (by decide)
    (by decide +kernel)
  have hsurvive := hall sevens singleIntegersSorted ([singleIntegers], _) _
    noStreams noStreams r rfl rfl hr (by decide)
  obtain ⟨bufferSize, hsetups⟩ := setupDMAModule_ok hr
  generalize r.streams = setups at hsurvive hsetups
  cases hsurvive with
  | cons hfirst _ =>
      cases hsetups with
      | cons hsetup _ =>
          obtain ⟨i, hsetup⟩ := hsetup
          obtain ⟨hchannels, -⟩ := setupStream_channels (by decide) hsetup
          have hencodable := (addressesSurvive_iff (by decide) hchannels).mp
            (hfirst (by decide))
          exact absurd hencodable (by decide)

end Orkhestra.Ports.ChannelAddresses
