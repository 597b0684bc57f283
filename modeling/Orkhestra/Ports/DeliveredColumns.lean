import Orkhestra.Ports.InputCrossbar
import Orkhestra.Ports.ModuleWindows

/-!
# What an input stream delivers

The crossbar registers of the DMA engine hold a byte for each lane of a clock
cycle, four of them in a register.  The hardware first pulls a chunk for each
position and then moves the pulled integers between the positions.

Whatever has been written before and whichever streams and modules are set up
with it, a stream delivers the columns of its specification, record by record
(`registers_deliver_columns`).
-/

namespace Orkhestra.Ports.DeliveredColumns

open Orkhestra.Verified.Checked
open Orkhestra.Verified.Log
open Orkhestra.Verified.RegisterMap
open Orkhestra.Ports.StreamParameterCalculator
open Orkhestra.Ports.QuerySchedulingData
open Orkhestra.Ports.QueryManager
open Orkhestra.Ports.DMACrossbarSpecifier
open Orkhestra.Ports.DMACrossbarSetup
open Orkhestra.Ports.InputCrossbar
open Orkhestra.Ports.DMA
open Orkhestra.Ports.DMASetup
open Orkhestra.Ports.DMABurst
open Orkhestra.Ports.DMADomain
open Orkhestra.Ports.CrossbarEntries
open Orkhestra.Ports.DMARegisters
open Orkhestra.Ports.ActiveStreams
open Orkhestra.Ports.ModuleSwitch
open Orkhestra.Ports.ModuleWindows

/-! ## The hardware -/

/-- The registers between buffer and interface. -/
def direction : SelectionKind → DMACrossbarDirectionSelection
  | .chunk => .kBufferToInterfaceChunk
  | .position => .kBufferToInterfacePosition

/-- The register of a lane in a clock cycle. -/
def crossbarAddress (kind : SelectionKind) (streamId clockCycle lane : Nat) :
    Int :=
  crossbarBaseAddress (direction kind) + streamId * 2 ^ 12 +
    clockCycle * 2 ^ 5 + (lane / 4 : Nat) * 2 ^ 2

/-- The byte of a lane. -/
def crossbarByte (registers : Int → Nat) (kind : SelectionKind)
    (streamId clockCycle lane : Nat) : Nat :=
  registers (crossbarAddress kind streamId clockCycle lane) /
    2 ^ (8 * (lane % 4)) % 2 ^ 8

/-- What is delivered to a lane of the interface. -/
def delivered {α : Type} (registers : Int → Nat) (streamId : Nat)
    (buffer : Nat → Nat → α) (clockCycle lane : Nat) : α :=
  let position := crossbarByte registers .position streamId clockCycle lane
  buffer (crossbarByte registers .chunk streamId clockCycle position) position

/-! ## Bytes of a register -/

theorem byte_of_four (bytes : Fin 4 → Int)
    (hrange : ∀ k, 0 ≤ bytes k ∧ bytes k < 2 ^ 8) (k : Fin 4) :
    ((bytes 3 * 2 ^ 24 + bytes 2 * 2 ^ 16 + bytes 1 * 2 ^ 8 + bytes 0) %
        2 ^ 32).toNat / 2 ^ (8 * k.val) % 2 ^ 8 = (bytes k).toNat := by
  have h0 := hrange 0
  have h1 := hrange 1
  have h2 := hrange 2
  have h3 := hrange 3
  obtain rfl | rfl | rfl | rfl : k = 0 ∨ k = 1 ∨ k = 2 ∨ k = 3 := by omega
  · show _ / 2 ^ 0 % 2 ^ 8 = _
    omega
  · show _ / 2 ^ 8 % 2 ^ 8 = _
    omega
  · show _ / 2 ^ 16 % 2 ^ 8 = _
    omega
  · show _ / 2 ^ 24 % 2 ^ 8 = _
    omega

/-- The word of four lanes, the first one in the lowest byte. -/
theorem byte_of_offsetValues (selection : Vector Int kDatapathWidth)
    (hrange : ∀ lane (hlane : lane < kDatapathWidth),
      0 ≤ selection[lane] ∧ selection[lane] < 2 ^ 8)
    (kind : SelectionKind) (streamId clockCycle : Nat) {lane : Nat}
    (hlane : lane < kDatapathWidth) (offset : Fin 4)
    (hoffset : offset.val = lane / 4) :
    (setCrossbarValues (direction kind) streamId clockCycle offset.val
        (offsetValues selection offset)).data /
      2 ^ (8 * (lane % 4)) % 2 ^ 8 = selection[lane].toNat := by
  have hmod : lane % 4 < 4 := Nat.mod_lt _ (by decide)
  have hlane' : (laneOf offset ⟨lane % 4, hmod⟩).val = lane := by
    simp only [laneOf]
    omega
  have hselected : selection[(laneOf offset ⟨lane % 4, hmod⟩).val] =
      selection[lane] := by
    simp only [hlane']
  rw [← hselected]
  exact byte_of_four (fun k => selection[(laneOf offset k).val])
    (fun k => hrange _ (laneOf offset k).isLt) ⟨lane % 4, hmod⟩

/-! ## The crossbar of a stream -/

/-- The records of a burst, and the integers of the interface that each of them
takes. -/
inductive BurstOf (s : StreamInitData) : Nat → Nat → Prop where
  | singleChannel (n : Nat) : s.maxChannelCount = -1 →
      findMinViableRecordsPerDDRBurst s.streamRecordSize = .ok (n : Int) →
      BurstOf s n (512 / n)
  | multiChannel (n chunks : Nat) : s.maxChannelCount ≠ -1 →
      recordsPerBurst true true
        (calculateChunksPerRecord (streamSpecificationOf s).length)
        s.streamRecordSize = .ok (n : Int) →
      findNextPowerOfTwo (calculateChunksPerRecord
        (streamSpecificationOf s).length) = .ok (chunks : Int) →
      BurstOf s n (16 * chunks)

section Stream

variable {bufferSize : Int} {s : StreamInitData} {i : Nat}
  {d : DMAStreamSetupData} {writes : List RegisterWrite}

/-- What the crossbars of an input are calculated from. -/
def inputSetup (s : StreamInitData) (records : Int) : DMASetupData where
  recordsPerDdrBurst := records
  chunksPerRecord := calculateChunksPerRecord (streamSpecificationOf s).length
  crossbarSetupData := []
  isInputStream := true
  activeChannelCount := s.maxChannelCount

theorem setupStream_crossbars
    (h : setupStream true bufferSize s i = .ok (d, writes)) :
    ∃ records io,
      recordsPerBurst true (s.maxChannelCount ≠ -1)
        (calculateChunksPerRecord (streamSpecificationOf s).length)
        s.streamRecordSize = .ok records ∧
      calculateCrossbarSetupData (inputSetup s records) s.streamRecordSize
        (streamSpecificationOf s) = .ok d.toDMASetupData ∧
      io.map RegisterWrite.address = (ioRegisters d).map (·.address) ∧
      writes = io ++ setUpDMACrossbarsForStream d := by
  have hactive := (setupStream_registers h).activeChannelCount_eq
  simp only [setupStream, calculateDMAStreamSetupData, bind_eq_ok,
    Except.ok.injEq, Prod.mk.injEq] at h
  obtain ⟨⟨active, channels⟩, -, chunks, hchunks, d₁,
    ⟨ids, -, records, hrecords, rfl⟩, ioWrites, hio, crossbar, hcrossbar, rfl,
    rfl⟩ := h
  obtain ⟨xs, rfl⟩ := calculateCrossbarSetupData_frame hcrossbar
  obtain rfl := Except.ok.inj hchunks
  obtain rfl : active = s.maxChannelCount := hactive
  exact ⟨records, ioWrites, hrecords, hcrossbar, setUpDMAIOStream_registers hio,
    rfl⟩

/-- The crossbars of a stream do not depend on its buffer. -/
theorem crossbars_eq {bufferSize' : Int} {i' : Nat} {d' : DMAStreamSetupData}
    {writes' : List RegisterWrite}
    (h : setupStream true bufferSize s i = .ok (d, writes))
    (h' : setupStream true bufferSize' s i' = .ok (d', writes')) :
    d'.crossbarSetupData = d.crossbarSetupData := by
  obtain ⟨records, io, hrecords, hcrossbar, -⟩ := setupStream_crossbars h
  obtain ⟨records', io', hrecords', hcrossbar', -⟩ := setupStream_crossbars h'
  obtain rfl := Except.ok.inj (hrecords.symm.trans hrecords')
  exact congrArg DMASetupData.crossbarSetupData
    (Except.ok.inj (hcrossbar'.symm.trans hcrossbar))

theorem inputSlot_of_burst {n slot : Nat} {records : Int}
    (hburst : BurstOf s n slot)
    (hrecords : recordsPerBurst true (s.maxChannelCount ≠ -1)
      (calculateChunksPerRecord (streamSpecificationOf s).length)
      s.streamRecordSize = .ok records) :
    records = n ∧
      InputSlot (inputSetup s records) n (streamSpecificationOf s) slot := by
  cases hburst with
  | singleChannel hsingle hburst =>
      rw [hsingle] at hrecords
      obtain rfl := Except.ok.inj (hrecords.symm.trans hburst)
      refine ⟨rfl, ?_⟩
      rcases findMinViable_cases s.streamRecordSize with
        ⟨-, -, hn, -⟩ | ⟨-, hn⟩
      · have heq : (n : Int) = recordsInBurst s.streamRecordSize :=
          Except.ok.inj (hburst.symm.trans hn)
        exact .singleChannel (burstExponent s.streamRecordSize) hsingle
          (Nat.min_le_left 5 _) (by exact_mod_cast heq)
      · rw [hn] at hburst
        cases hburst
  | multiChannel chunks hmulti hburst hchunks =>
      have hdecide : decide (s.maxChannelCount ≠ -1) = true :=
        decide_eq_true hmulti
      rw [hdecide] at hrecords
      obtain rfl := Except.ok.inj (hrecords.symm.trans hburst)
      exact ⟨rfl, .multiChannel chunks hmulti rfl hchunks⟩

/-- The configured crossbar delivers the columns. -/
theorem crossbar_delivers {α : Type} {n slot : Nat}
    (hdescribed : WellDescribed s) (hburst : BurstOf s n slot)
    (hfit : (streamSpecificationOf s).length ≤ slot)
    (h : setupStream true bufferSize s i = .ok (d, writes))
    (records : Nat → Nat → α) {j k column : Nat} (hj : j < n)
    (hcolumn : (streamSpecificationOf s)[k]? = some (column : Int)) :
    WordsInRange d.crossbarSetupData ∧
      inputCrossbar d.crossbarSetupData
        (recordBuffer s.streamRecordSize.toNat records)
        (j * slot / 16 + k / 16) (15 - k % 16) = some (records j column) := by
  obtain ⟨size, hsize⟩ := Int.eq_ofNat_of_zero_le hdescribed.recordSize
  obtain ⟨burst, io, hrecords, hcrossbar, -⟩ := setupStream_crossbars h
  obtain ⟨hn, hslot⟩ := inputSlot_of_burst hburst hrecords
  have hselected := mem_streamSpecificationOf hdescribed
  rw [hsize] at hcrossbar hselected
  obtain ⟨ext, hext, hconf⟩ := configureInput_configured rfl hn
    (fun x hx => (hselected x hx).imp_right (·.1)) hslot hfit hcrossbar
  have hk := (List.getElem?_eq_some_iff.mp hcolumn).1
  have hlt : column < size := by
    rcases hselected column (List.mem_of_getElem? hcolumn) with hneg | hrange
    · omega
    · omega
  rw [hsize, Int.toNat_natCast]
  exact ⟨hconf.inRange, inputCrossbar_of_configured hext
    (extend_of_inputSlot size hslot).1 hconf records hj (hk.trans_le hfit)
    hcolumn hlt⟩

end Stream

/-! ## The registers -/

theorem crossbarAddress_eq (kind : SelectionKind) (streamId clockCycle : Nat)
    (offset : Fin 4) {lane : Nat} (hoffset : offset.val = lane / 4) :
    crossbarAddress kind streamId clockCycle lane =
      (⟨.crossbarValues (direction kind), streamId,
        crossbarIndex clockCycle offset⟩ : Register).address := by
  simp only [crossbarAddress, Register.address, RegisterKind.bank, crossbarBank,
    Bank.address, crossbarIndex, hoffset]
  omega

theorem mem_crossbarWrites {d : DMAStreamSetupData}
    (hinput : d.isInputStream = true) {w : RegisterWrite} :
    w ∈ setUpDMACrossbarsForStream d ↔
      ∃ clockCycle entry, d.crossbarSetupData[clockCycle]? = some entry ∧
        ∃ (kind : SelectionKind) (offset : Fin 4),
          w = setCrossbarValues (direction kind) d.streamId clockCycle
            offset.val (offsetValues (entry.selection kind) offset) := by
  simp only [setUpDMACrossbarsForStream, List.mem_flatMap, List.mem_finRange,
    true_and, List.mem_cons, List.not_mem_nil, or_false, hinput, chunkDirection,
    positionDirection, if_true]
  constructor
  · rintro ⟨⟨entry, clockCycle⟩, hentry, offset, rfl | rfl⟩
    · exact ⟨clockCycle, entry, List.mem_zipIdx_iff_getElem?.mp hentry, .chunk,
        offset, rfl⟩
    · exact ⟨clockCycle, entry, List.mem_zipIdx_iff_getElem?.mp hentry,
        .position, offset, rfl⟩
  · rintro ⟨clockCycle, entry, hentry, kind, offset, rfl⟩
    refine ⟨(entry, clockCycle), List.mem_zipIdx_iff_getElem?.mpr hentry,
      offset, ?_⟩
    cases kind
    · exact .inl rfl
    · exact .inr rfl

/-- The registers of lanes of one stream. -/
theorem setCrossbarValues_address_inj {kind kind' : SelectionKind}
    {streamId clockCycle clockCycle' : Nat} {offset offset' : Fin 4}
    {values values' : Vector Int 4} (hid : streamId < kMaxIOStreamCount)
    (hcycle : clockCycle < 32) (hcycle' : clockCycle' < 32)
    (h : (setCrossbarValues (direction kind) streamId clockCycle offset.val
        values).address =
      (setCrossbarValues (direction kind') streamId clockCycle' offset'.val
        values').address) :
    kind = kind' ∧ clockCycle = clockCycle' ∧ offset = offset' := by
  have hoffset := offset.isLt
  have hoffset' := offset'.isLt
  have hid : streamId < 16 := hid
  cases kind <;> cases kind' <;>
    simp only [setCrossbarValues, writeToModule, direction,
      crossbarBaseAddress] at h
  · exact ⟨rfl, by omega, Fin.ext (by omega)⟩
  · omega
  · omega
  · exact ⟨rfl, by omega, Fin.ext (by omega)⟩

theorem mem_module_writes {streams : List StreamInitData} {isInputStream : Bool}
    {setup : DMAModuleSetup}
    (h : setupDMAModule streams isInputStream = .ok setup) {w : RegisterWrite}
    (hw : w ∈ setup.writes) :
    w.address = 4 ∨ ∃ stream ∈ setup.streams, w ∈ stream.2 := by
  simp only [setupDMAModule, bind_eq_ok, Except.ok.injEq] at h
  obtain ⟨bufferSize, -, setups, -, rfl⟩ := h
  rcases List.mem_append.mp hw with hw | hw
  · exact .inr (List.mem_flatMap.mp hw)
  · split at hw
    · rw [List.mem_singleton.mp hw]
      exact .inl rfl
    · cases hw

section Registers

variable {inputs outputs : List StreamInitData} {a b : DMAModuleSetup}
  {s : StreamInitData} {kind : SelectionKind} {clockCycle : Nat}
  {offset : Fin 4} {w : RegisterWrite}

/-- The register of four lanes. -/
def crossbarRegister (s : StreamInitData) (kind : SelectionKind)
    (clockCycle : Nat) (offset : Fin 4) : Register :=
  ⟨.crossbarValues (direction kind), s.streamId,
    crossbarIndex clockCycle offset⟩

theorem setCrossbarValues_address (kind : SelectionKind) (clockCycle : Nat)
    (offset : Fin 4) (values : Vector Int 4) :
    (setCrossbarValues (direction kind) s.streamId clockCycle offset.val
      values).address = (crossbarRegister s kind clockCycle offset).address := by
  simp only [setCrossbarValues, writeToModule, crossbarRegister,
    Register.address, RegisterKind.bank, crossbarBank, Bank.address,
    crossbarIndex]
  omega

theorem crossbarRegister_inRange (hid : s.streamId < kMaxIOStreamCount)
    (hcycle : clockCycle < 32) :
    (crossbarRegister s kind clockCycle offset).InRange := by
  have hoffset := offset.isLt
  refine ⟨hid, ?_⟩
  show (0 : Int) ≤ crossbarIndex clockCycle offset ∧
    crossbarIndex clockCycle offset < 2 ^ 8
  unfold crossbarIndex
  omega

/-- The crossbars of the inputs come behind the controllers. -/
theorem le_crossbarRegister (s : StreamInitData) (kind : SelectionKind)
    (clockCycle : Nat) (offset : Fin 4) :
    2 ^ 18 ≤ (crossbarRegister s kind clockCycle offset).address := by
  rw [← setCrossbarValues_address kind clockCycle offset (Vector.replicate 4 0)]
  cases kind <;>
    simp only [setCrossbarValues, writeToModule, direction,
      crossbarBaseAddress] <;> omega

theorem crossbarRegister_inWindow (hid : s.streamId < kMaxIOStreamCount)
    (hcycle : clockCycle < 32) :
    InWindow (crossbarRegister s kind clockCycle offset).address := by
  have hoffset := offset.isLt
  have hid : s.streamId < 16 := hid
  rw [← setCrossbarValues_address kind clockCycle offset (Vector.replicate 4 0)]
  unfold InWindow
  cases kind <;>
    simp only [setCrossbarValues, writeToModule, direction,
      crossbarBaseAddress] <;> omega

theorem eq_crossbarRegister {r : Register} (hr : r.InRange)
    (hrange : (crossbarRegister s kind clockCycle offset).InRange)
    (haddress : r.address =
      (crossbarRegister s kind clockCycle offset).address) :
    r = crossbarRegister s kind clockCycle offset := by
  rcases (address_eq_iff hr hrange).mp haddress with
    heq | ⟨-, hkind, -⟩ | ⟨hkind, -⟩
  · exact heq
  · cases hkind
  · cases hkind

theorem direction_isInput (kind : SelectionKind) :
    (RegisterKind.crossbarValues (direction kind)).isInput = true := by
  cases kind <;> rfl

/-- An output has no register of the crossbar of an input. -/
theorem address_ne_of_output (hb : setupDMAModule outputs false = .ok b)
    (houtputs : ∀ s ∈ outputs, WithinCapacity false s)
    (hrange : (crossbarRegister s kind clockCycle offset).InRange)
    {stream : DMAStreamSetupData × List RegisterWrite}
    (hstream : stream ∈ b.streams) (hw : w ∈ stream.2) :
    w.address ≠ (crossbarRegister s kind clockCycle offset).address := by
  intro haddress
  obtain ⟨s', hs', hd⟩ :=
    exists_of_mem_right (setupDMAModule_registersOf hb) hstream
  have hmem : w.address ∈ stream.2.map (·.address) := List.mem_map_of_mem hw
  rw [hd.addresses] at hmem
  obtain ⟨r, hr, hr'⟩ := List.mem_map.mp hmem
  have hinRange := inRange_of_mem hd (houtputs s' hs') hr
  have heq := eq_crossbarRegister hinRange hrange (hr'.trans haddress)
  have hinput := (mem_streamRegisters hr).2
  rw [heq, hd.isInputStream_eq] at hinput
  exact absurd (hinput.symm.trans (direction_isInput kind)) (by decide)

/-- Two set-ups of an input write the same words to its crossbar. -/
theorem data_of_crossbarWrite {bufferSize bufferSize' : Int} {i i' : Nat}
    {d d' : DMAStreamSetupData} {writes writes' : List RegisterWrite}
    (hid : s.streamId < kMaxIOStreamCount)
    (hd : setupStream true bufferSize s i = .ok (d, writes))
    (hd' : setupStream true bufferSize' s i' = .ok (d', writes'))
    {entry : DMACrossbarSetupData}
    (hentry : d.crossbarSetupData[clockCycle]? = some entry)
    (hw : w ∈ setUpDMACrossbarsForStream d')
    (haddress : w.address =
      (crossbarRegister s kind clockCycle offset).address) :
    w.data = (setCrossbarValues (direction kind) s.streamId clockCycle
      offset.val (offsetValues (entry.selection kind) offset)).data := by
  have hregisters := setupStream_registers hd'
  obtain ⟨clockCycle', entry', hentry', kind', offset', rfl⟩ :=
    (mem_crossbarWrites hregisters.isInputStream_eq).mp hw
  have hcycle := (List.getElem?_eq_some_iff.mp hentry).1.trans_le
    (crossbarEntries_le hd)
  have hcycle' := (List.getElem?_eq_some_iff.mp hentry').1.trans_le
    (crossbarEntries_le hd')
  rw [hregisters.streamId_eq] at haddress ⊢
  obtain ⟨rfl, rfl, rfl⟩ := setCrossbarValues_address_inj hid hcycle' hcycle
    (haddress.trans (setCrossbarValues_address kind clockCycle offset
      (offsetValues (entry.selection kind) offset)).symm)
  rw [crossbars_eq hd hd', hentry] at hentry'
  obtain rfl := Option.some.inj hentry'
  rfl

/-- A write to the crossbar of an input is one of its own, with the data that
its set-up has calculated. -/
theorem data_of_input (hinputs : ∀ s ∈ inputs, WithinCapacity true s)
    (ha : setupDMAModule inputs true = .ok a)
    (hunique : ∀ s' ∈ inputs, s'.streamId = s.streamId → s' = s)
    {bufferSize : Int} {i : Nat} {d : DMAStreamSetupData}
    {writes : List RegisterWrite}
    (hd : setupStream true bufferSize s i = .ok (d, writes))
    {entry : DMACrossbarSetupData}
    (hentry : d.crossbarSetupData[clockCycle]? = some entry)
    (hrange : (crossbarRegister s kind clockCycle offset).InRange)
    {stream : DMAStreamSetupData × List RegisterWrite}
    (hstream : stream ∈ a.streams) (hw : w ∈ stream.2)
    (haddress : w.address =
      (crossbarRegister s kind clockCycle offset).address) :
    w.data = (setCrossbarValues (direction kind) s.streamId clockCycle
      offset.val (offsetValues (entry.selection kind) offset)).data := by
  obtain ⟨bufferSize', hsetups⟩ := setupDMAModule_ok ha
  obtain ⟨s', hs', i', hd'⟩ := exists_of_mem_right hsetups hstream
  have hregisters := setupStream_registers hd'
  have hown : ∀ r ∈ streamRegisters stream.1, r.address = w.address →
      r = crossbarRegister s kind clockCycle offset := fun r hr hr' =>
    eq_crossbarRegister (inRange_of_mem hregisters (hinputs s' hs') hr) hrange
      (hr'.trans haddress)
  have hmem : w.address ∈ stream.2.map (·.address) := List.mem_map_of_mem hw
  rw [hregisters.addresses] at hmem
  obtain ⟨r, hr, hr'⟩ := List.mem_map.mp hmem
  have hid : s'.streamId = s.streamId := by
    have hsame := (mem_streamRegisters hr).1
    rw [hown r hr hr', hregisters.streamId_eq] at hsame
    exact hsame.symm
  obtain rfl := hunique s' hs' hid
  obtain ⟨records, io, -, -, hio, hwrites⟩ := setupStream_crossbars hd'
  rw [hwrites, List.mem_append] at hw
  rcases hw with hw | hw
  · -- The other registers of a stream are of other kinds.
    have hmem : w.address ∈ io.map (·.address) := List.mem_map_of_mem hw
    rw [hio] at hmem
    obtain ⟨r, hr, hr'⟩ := List.mem_map.mp hmem
    have hkind := (mem_ioRegisters hr).2.2.1 (direction kind)
    rw [hown r (List.mem_append_left _ hr) hr'] at hkind
    exact absurd rfl hkind
  · exact data_of_crossbarWrite (hinputs s' hs').1 hd hd' hentry hw haddress

/-- The set-up writes the crossbar of an input. -/
theorem crossbarWrite_mem (ha : setupDMAModule inputs true = .ok a)
    (hs : s ∈ inputs) {bufferSize : Int} {i : Nat} {d : DMAStreamSetupData}
    {writes : List RegisterWrite}
    (hd : setupStream true bufferSize s i = .ok (d, writes))
    {entry : DMACrossbarSetupData}
    (hentry : d.crossbarSetupData[clockCycle]? = some entry) :
    setCrossbarValues (direction kind) s.streamId clockCycle offset.val
      (offsetValues (entry.selection kind) offset) ∈ a.writes := by
  obtain ⟨bufferSize', hsetups⟩ := setupDMAModule_ok ha
  obtain ⟨stream, hstream, i', hd'⟩ := exists_of_mem_right hsetups.flip hs
  obtain ⟨records, io, -, -, -, hwrites⟩ := setupStream_crossbars hd'
  have hregisters := setupStream_registers hd'
  refine mem_writes ha hstream ?_
  rw [hwrites, ← hregisters.streamId_eq]
  refine List.mem_append_right _
    ((mem_crossbarWrites hregisters.isInputStream_eq).mpr
      ⟨clockCycle, entry, ?_, kind, offset, rfl⟩)
  rw [crossbars_eq hd hd', hentry]

/-- The registers of an input hold its crossbar, whatever is set up with it. -/
theorem contents_of_crossbar {before : Int → Nat} {status : StreamStatus}
    (hinputs : ∀ s ∈ inputs, WithinCapacity true s)
    (houtputs : ∀ s ∈ outputs, WithinCapacity false s)
    (ha : setupDMAModule inputs true = .ok a)
    (hb : setupDMAModule outputs false = .ok b) (hs : s ∈ inputs)
    (hunique : ∀ s' ∈ inputs, s'.streamId = s.streamId → s' = s)
    {bufferSize : Int} {i : Nat} {d : DMAStreamSetupData}
    {writes : List RegisterWrite}
    (hd : setupStream true bufferSize s i = .ok (d, writes))
    {entry : DMACrossbarSetupData}
    (hentry : d.crossbarSetupData[clockCycle]? = some entry) :
    contents before (dmaWrites a b status)
        (crossbarRegister s kind clockCycle offset).address =
      (setCrossbarValues (direction kind) s.streamId clockCycle offset.val
        (offsetValues (entry.selection kind) offset)).data := by
  have hcycle := (List.getElem?_eq_some_iff.mp hentry).1.trans_le
    (crossbarEntries_le hd)
  have hrange : (crossbarRegister s kind clockCycle offset).InRange :=
    crossbarRegister_inRange (hinputs s hs).1 hcycle
  have hlow := le_crossbarRegister s kind clockCycle offset
  have hmem : setCrossbarValues (direction kind) s.streamId clockCycle
      offset.val (offsetValues (entry.selection kind) offset) ∈
        dmaWrites a b status := by
    simp only [dmaWrites, List.mem_append, List.mem_cons]
    exact .inl (.inl (.inr (crossbarWrite_mem ha hs hd hentry)))
  refine contents_of_agree ⟨_, hmem, setCrossbarValues_address kind clockCycle
    offset _⟩ fun w hw haddress => ?_
  simp only [dmaWrites, List.mem_append, List.mem_cons, List.not_mem_nil,
    or_false] at hw
  rcases hw with ((rfl | hw) | hw) | rfl
  · rw [← haddress] at hlow
    exact absurd hlow (by decide)
  · rcases mem_module_writes ha hw with hfour | ⟨stream, hstream, hw⟩
    · omega
    · exact data_of_input hinputs ha hunique hd hentry hrange hstream hw
        haddress
  · rcases mem_module_writes hb hw with hfour | ⟨stream, hstream, hw⟩
    · omega
    · exact absurd haddress
        (address_ne_of_output hb houtputs hrange hstream hw)
  · have hstart : (startController true status).address = 0 := rfl
    omega

/-- A lane is read back. -/
theorem crossbarByte_eq {registers : Int → Nat} {entries : List
      DMACrossbarSetupData} (hwords : WordsInRange entries)
    (hregisters : ∀ (entry : DMACrossbarSetupData) (offset : Fin 4),
      entries[clockCycle]? = some entry →
        registers (crossbarRegister s kind clockCycle offset).address =
          (setCrossbarValues (direction kind) s.streamId clockCycle offset.val
            (offsetValues (entry.selection kind) offset)).data)
    {lane : Nat} {word : Int}
    (hword : wordAt entries kind clockCycle lane = some word) :
    crossbarByte registers kind s.streamId clockCycle lane = word.toNat := by
  obtain ⟨entry, hentry, hlane⟩ := Option.bind_eq_some_iff.mp hword
  obtain ⟨hlt, rfl⟩ := Vector.getElem?_eq_some_iff.mp hlane
  have hlt16 : lane < 16 := hlt
  obtain ⟨offset, hoffset⟩ : ∃ offset : Fin 4, offset.val = lane / 4 :=
    ⟨⟨lane / 4, by omega⟩, rfl⟩
  rw [crossbarByte, crossbarAddress_eq kind s.streamId clockCycle offset hoffset]
  have hregister := hregisters entry offset hentry
  rw [crossbarRegister] at hregister
  rw [hregister]
  refine byte_of_offsetValues _ (fun lane' hlane' => ?_) kind _ _ hlt offset
    hoffset
  have hrange := hwords kind clockCycle lane' (entry.selection kind)[lane'] (by
    simp [wordAt, hentry])
  have hbound : kind.bound ≤ 2 ^ 8 := by cases kind <;> decide
  omega

end Registers

/-- Registers that hold the words of a crossbar deliver what it moves. -/
theorem delivered_of_bytes {α : Type} {registers : Int → Nat} {streamId : Nat}
    {entries : List DMACrossbarSetupData} {buffer : Nat → Nat → α}
    (hbyte : ∀ (kind : SelectionKind) (clockCycle lane : Nat) (word : Int),
      wordAt entries kind clockCycle lane = some word →
        crossbarByte registers kind streamId clockCycle lane = word.toNat)
    {clockCycle lane : Nat} {x : α}
    (h : inputCrossbar entries buffer clockCycle lane = some x) :
    delivered registers streamId buffer clockCycle lane = x := by
  simp only [inputCrossbar, Option.bind_eq_bind, Option.bind_eq_some_iff] at h
  obtain ⟨position, hposition, hpull⟩ := h
  split at hpull
  · next hnonneg =>
      simp only [verticalPull, Option.bind_eq_bind,
        Option.bind_eq_some_iff] at hpull
      obtain ⟨chunk, hchunk, hinteger⟩ := hpull
      split at hinteger
      · rw [delivered, hbyte .position _ _ _ hposition,
          hbyte .chunk _ _ _ hchunk]
        exact Option.some.inj hinteger
      · cases hinteger
  · cases hpull

/-- The crossbar of an input stream of a set-up. -/
theorem delivered_of_setUp {α : Type} {board : Board}
    {nodes : List AcceleratedQueryNode} {m m' : FPGAManager}
    {inputs outputs : List StreamInitData} {a b : DMAModuleSetup}
    (hset : SetUp board nodes m m' inputs outputs a b)
    (hnodes : InWindows board nodes) {s : StreamInitData}
    (hs : FoundInput board nodes s)
    (hunique : ∀ s', FoundInput board nodes s' →
      s'.streamId = s.streamId → s' = s)
    (hdescribed : WellDescribed s) {n slot : Nat} (hburst : BurstOf s n slot)
    (hfit : (streamSpecificationOf s).length ≤ slot) (before : Int → Nat)
    (records : Nat → Nat → α) {j k column : Nat} (hj : j < n)
    (hcolumn : (streamSpecificationOf s)[k]? = some (column : Int)) :
    delivered (contents before m'.writes) s.streamId
        (recordBuffer s.streamRecordSize.toNat records)
        (j * slot / 16 + k / 16) (15 - k % 16) = records j column := by
  have hin := (hset.inputs_iff s).mpr hs
  obtain ⟨bufferSize, hsetups⟩ := setupDMAModule_ok hset.inputSetup_eq
  obtain ⟨⟨d, writes⟩, -, i, hd⟩ := exists_of_mem_right hsetups.flip hin
  obtain ⟨hwords, hdelivers⟩ :=
    crossbar_delivers hdescribed hburst hfit hd records hj hcolumn
  refine delivered_of_bytes (fun kind clockCycle lane word hword => ?_)
    hdelivers
  refine crossbarByte_eq hwords (fun entry offset hentry => ?_) hword
  have hcycle := (List.getElem?_eq_some_iff.mp hentry).1.trans_le
    (crossbarEntries_le hd)
  rw [hset.contents_of_dma hnodes (crossbarRegister_inWindow
    (hset.inputs_withinCapacity hnodes s hin).1 hcycle)]
  exact contents_of_crossbar (hset.inputs_withinCapacity hnodes)
    hset.outputs_withinCapacity hset.inputSetup_eq hset.outputSetup_eq hin
    (fun s' hs' => hunique s' ((hset.inputs_iff s').mp hs')) hd hentry

theorem wellDescribed_filterInput : WellDescribed filterInput :=
  ⟨by decide, List.forall_mem_nil _, fun hmulti => absurd rfl hmulti⟩

theorem burstOf_filterInput : BurstOf filterInput 32 (512 / 32) :=
  .singleChannel 32 rfl (by decide +kernel)

end Orkhestra.Ports.DeliveredColumns
