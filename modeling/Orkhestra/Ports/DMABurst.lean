import Orkhestra.Ports.DMASetup

/-!
# The burst of a stream

Three formulas set the records of a DDR burst: by the record size for an input,
by the chunks of the interface for an output, and by the sort buffer for a
multi-channel stream.  The first two never exceed the 512 integers of the
crossbar buffer.  The third takes the chunks of a record behind the projection
and multiplies them with the record size in front of it, so it fits only when
the records are small enough.
-/

namespace Orkhestra.Ports.DMABurst

open Orkhestra.Verified.Checked
open Orkhestra.Ports.StreamParameterCalculator
open Orkhestra.Ports.DMACrossbarSpecifier
open Orkhestra.Ports.DMACrossbarSetup
open Orkhestra.Ports.MergeSortSetup
open Orkhestra.Ports.DMA
open Orkhestra.Ports.DMASetup

/-! ## The three formulas -/

/-- Exponent of the largest power of two of records that fits, at most 32. -/
def burstExponent (recordSize : Int) : Nat :=
  min 5 (Nat.log 2 (512 / recordSize.toNat))

/-- Records in the burst of a single-channel input. -/
def recordsInBurst (recordSize : Int) : Nat := 2 ^ burstExponent recordSize

theorem recordsInBurst_le (recordSize : Int) : recordsInBurst recordSize ≤ 32 :=
  Nat.pow_le_pow_right (by decide) (Nat.min_le_left 5 _)

theorem findMinViable_cases (recordSize : Int) :
    (1 ≤ recordSize ∧ recordSize ≤ 512 ∧
      findMinViableRecordsPerDDRBurst recordSize =
        .ok (recordsInBurst recordSize : Int) ∧
      (recordsInBurst recordSize : Int) * recordSize ≤ 512) ∨
    (¬(1 ≤ recordSize ∧ recordSize ≤ 512) ∧
      findMinViableRecordsPerDDRBurst recordSize = .error .undefined) := by
  by_cases hrange : 1 ≤ recordSize ∧ recordSize ≤ 512
  · left
    obtain ⟨size, rfl⟩ := Int.eq_ofNat_of_zero_le (by omega : 0 ≤ recordSize)
    have hsize : 1 ≤ size ∧ size ≤ 512 := by omega
    have hne : (size : Int) ≠ 0 := by omega
    have hpos : 0 < 512 / size := Nat.div_pos hsize.2 hsize.1
    have hdiv : (512 : Int).tdiv (size : Int) = ((512 / size : Nat) : Int) :=
      Int.ofNat_tdiv 512 size
    have hlog : 2 ^ Nat.log 2 (512 / size) ≤ 512 / size :=
      Nat.pow_log_le_self 2 (by omega)
    have hcast : (2 : Int) ^ Nat.log 2 (512 / size) =
        ((2 ^ Nat.log 2 (512 / size) : Nat) : Int) := by norm_cast
    have hmin : min 32 ((2 : Int) ^ Nat.log 2 (512 / size)) =
        ((2 ^ min 5 (Nat.log 2 (512 / size)) : Nat) : Int) := by
      rw [hcast]
      rcases Nat.le_total 5 (Nat.log 2 (512 / size)) with hle | hle
      · have hpow : 2 ^ 5 ≤ 2 ^ Nat.log 2 (512 / size) :=
          Nat.pow_le_pow_right (by decide) hle
        rw [Nat.min_eq_left hle]
        omega
      · have hpow : 2 ^ Nat.log 2 (512 / size) ≤ 2 ^ 5 :=
          Nat.pow_le_pow_right (by decide) hle
        rw [Nat.min_eq_right hle]
        omega
    refine ⟨hrange.1, hrange.2, ?_, ?_⟩
    · simp only [findMinViableRecordsPerDDRBurst, divide, hne, if_false,
        kDdrBurstSize_eq, log2, Nat.cast_ofNat, hdiv, ok_bind,
        Int.toNat_natCast, kMaxRecordsPerDDRBurst]
      rw [if_pos (by omega), ok_bind, hmin]
      rfl
    · have hpow : 2 ^ min 5 (Nat.log 2 (512 / size)) ≤ 512 / size :=
        Nat.le_trans (Nat.pow_le_pow_right (by decide) (Nat.min_le_right _ _))
          hlog
      have hmul := Nat.mul_le_mul_right size hpow
      have hle : 512 / size * size ≤ 512 := Nat.div_mul_le_self 512 size
      exact_mod_cast Nat.le_trans hmul hle
  · right
    refine ⟨hrange, ?_⟩
    by_cases hzero : recordSize = 0
    · simp [findMinViableRecordsPerDDRBurst, divide, hzero]
    · have hquot : (512 : Int).tdiv recordSize ≤ 0 := by
        rcases Int.lt_or_gt_of_ne hzero with hneg | hpos
        · exact Int.tdiv_nonpos_of_nonneg_of_nonpos (by decide) hneg.le
        · exact (Int.tdiv_eq_zero_of_lt (by decide) (by omega)).le
      simp only [findMinViableRecordsPerDDRBurst, divide, hzero, if_false,
        kDdrBurstSize_eq, log2, Nat.cast_ofNat, ok_bind]
      rw [if_neg (by omega), error_bind]

/-- The records of an output burst halve with each doubling of the chunks. -/
theorem outputBurst_cases {c : Nat} (hc : 0 < c) :
    ∃ np2 : Nat, findNextPowerOfTwo c = .ok (np2 : Int) ∧ c ≤ np2 ∧
      ((c ≤ 32 ∧ ∃ k ≤ 5, 2 ^ k * np2 = 32 ∧
        divide kMaxRecordsPerDDRBurst np2 = .ok ((2 ^ k : Nat) : Int)) ∨
      (32 < c ∧ divide kMaxRecordsPerDDRBurst np2 = .ok 0)) := by
  have hle : c ≤ 2 ^ Nat.clog 2 c := Nat.le_pow_clog (by decide) c
  have hne : ((2 ^ Nat.clog 2 c : Nat) : Int) ≠ 0 := by
    have := Nat.pow_pos (n := Nat.clog 2 c) (show 0 < 2 by decide)
    omega
  have hdivide : divide kMaxRecordsPerDDRBurst ((2 ^ Nat.clog 2 c : Nat) : Int) =
      .ok ((32 / 2 ^ Nat.clog 2 c : Nat) : Int) := by
    rw [divide, if_neg hne, Except.ok.injEq, kMaxRecordsPerDDRBurst]
    exact Int.ofNat_tdiv 32 _
  refine ⟨2 ^ Nat.clog 2 c, findNextPowerOfTwo_natCast hc, hle, ?_⟩
  by_cases hsmall : c ≤ 32
  · left
    have hclog : Nat.clog 2 c ≤ 5 := (Nat.clog_le_iff_le_pow (by decide)).mpr hsmall
    have hmul : 2 ^ (5 - Nat.clog 2 c) * 2 ^ Nat.clog 2 c = 32 := by
      rw [← Nat.pow_add, Nat.sub_add_cancel hclog]
    refine ⟨hsmall, 5 - Nat.clog 2 c, by omega, hmul, ?_⟩
    rw [hdivide, Nat.div_eq_of_eq_mul_left (Nat.pow_pos (by decide)) hmul.symm]
  · right
    refine ⟨by omega, ?_⟩
    rw [hdivide, Nat.div_eq_of_lt (by omega)]
    rfl

/-! ## A stream that is set up -/

/-- Chunks of a record at the interface. -/
def recordChunks (isInputStream : Bool) (s : StreamInitData) : Int :=
  if isInputStream then
    calculateChunksPerRecord (streamSpecificationOf s).length
  else
    max s.inputChunksPerRecord
      (calculateChunksPerRecord (streamSpecificationOf s).length)

/-- The two checks of an output in front of the arithmetic. -/
def Refused (isInputStream : Bool) (s : StreamInitData) : Prop :=
  isInputStream = false ∧
    (s.streamSpecification ≠ [] ∧
      (s.streamSpecification.length : Int) ≠ s.streamRecordSize ∨
    s.inputChunksPerRecord = -1)

instance (isInputStream : Bool) (s : StreamInitData) :
    Decidable (Refused isInputStream s) :=
  inferInstanceAs (Decidable (_ ∧ _))

section Setup

variable {isInputStream : Bool} {s : StreamInitData} {bufferSize : Int}
  {i : Nat}

theorem chunksPerRecordOf_cases (isInputStream : Bool) (s : StreamInitData) :
    (Refused isInputStream s ∧ ∃ what,
      chunksPerRecordOf isInputStream s = .error (.runtimeError what)) ∨
    (¬Refused isInputStream s ∧
      chunksPerRecordOf isInputStream s =
        .ok (recordChunks isInputStream s)) := by
  unfold chunksPerRecordOf Refused recordChunks
  cases isInputStream with
  | true => exact .inr ⟨by simp, rfl⟩
  | false =>
      by_cases hprojection : s.streamSpecification ≠ [] ∧
          (s.streamSpecification.length : Int) ≠ s.streamRecordSize
      · exact .inl ⟨⟨rfl, .inl hprojection⟩, _, by simp [hprojection]; rfl⟩
      · by_cases hchunks : s.inputChunksPerRecord = -1
        · exact .inl ⟨⟨rfl, .inr hchunks⟩, _, by
            simp [hprojection, hchunks]; rfl⟩
        · refine .inr ⟨?_, ?_⟩
          · rintro ⟨-, h | h⟩
            · exact hprojection h
            · exact hchunks h
          · simp [hprojection, hchunks]

theorem recordChunkIds_cases (chunks : Int) :
    (0 < chunks ∧ ∃ ids,
      (List.range kDatapathLength).mapM (recordChunkId chunks) = .ok ids) ∨
    (chunks ≤ 0 ∧ (List.range kDatapathLength).mapM (recordChunkId chunks) =
      .error .undefined) := by
  by_cases hchunks : 0 < chunks
  · left
    refine ⟨hchunks, _, mapM_total (List.range kDatapathLength)
      (g := fun i : Nat =>
        (i, (i : Int).tmod (2 ^ Nat.clog 2 chunks.toNat))) ?_⟩
    intro i _
    simp [recordChunkId, findNextPowerOfTwo, hchunks]
  · right
    refine ⟨by omega, ?_⟩
    have hfirst : recordChunkId chunks 0 = .error .undefined := by
      simp [recordChunkId, findNextPowerOfTwo, hchunks]
    rw [show List.range kDatapathLength = 0 :: List.range' 1 31 from rfl,
      List.mapM_cons, hfirst, error_bind]

/-- The crossbar leaves the other data of the stream alone. -/
theorem calculateCrossbarSetupData_frame {d d' : DMASetupData}
    {recordSize : Int} {selected : List Int}
    (h : calculateCrossbarSetupData d recordSize selected = .ok d') :
    ∃ xs, d' = { d with crossbarSetupData := xs } := by
  unfold calculateCrossbarSetupData at h
  split at h
  · simp only [configureInputCrossbarSetupData] at h
    split at h
    · cases h
    · simp only [bind_eq_ok, Except.ok.injEq] at h
      obtain ⟨ext, -, xs, -, rfl⟩ := h
      exact ⟨xs, rfl⟩
  · simp only [configureOutputCrossbarSetupData] at h
    split at h
    · cases h
    · simp only [bind_eq_ok] at h
      obtain ⟨ext, -, ⟨xs, junk⟩, -, h⟩ := h
      split at h
      · simp only [bind_eq_ok, Except.ok.injEq] at h
        obtain ⟨ys, -, rfl⟩ := h
        exact ⟨ys, rfl⟩
      · simp only [bind_eq_ok] at h
        obtain ⟨np2, -, h⟩ := h
        split at h
        · simp only [bind_eq_ok, Except.ok.injEq] at h
          obtain ⟨ys, -, rfl⟩ := h
          exact ⟨ys, rfl⟩
        · exact ⟨xs, (Except.ok.inj h).symm⟩

/-- The exponent of the records is taken before anything is written. -/
theorem setUpDMAIOStream_pos {d : DMAStreamSetupData}
    {writes : List RegisterWrite} (h : setUpDMAIOStream d = .ok writes) :
    0 < d.recordsPerDdrBurst := by
  simp only [setUpDMAIOStream, setControllerParams, bind_eq_ok] at h
  obtain ⟨-, ⟨exponent, hlog, -⟩, -⟩ := h
  unfold log2 at hlog
  split at hlog
  · assumption
  · cases hlog

/-- What is known of the data of a stream that is set up. -/
theorem setupStream_ok {d : DMAStreamSetupData} {writes : List RegisterWrite}
    (h : setupStream isInputStream bufferSize s i = .ok (d, writes)) :
    ¬Refused isInputStream s ∧ 0 < recordChunks isInputStream s ∧
      recordsPerBurst isInputStream (s.maxChannelCount ≠ -1)
        (recordChunks isInputStream s) s.streamRecordSize =
          .ok d.recordsPerDdrBurst ∧
      0 < d.recordsPerDdrBurst ∧
      d.ddrBurstLength =
        calculateDDRBurstLength s.streamRecordSize d.recordsPerDdrBurst := by
  simp only [setupStream, calculateDMAStreamSetupData, bind_eq_ok,
    Except.ok.injEq, Prod.mk.injEq] at h
  obtain ⟨⟨active, channels⟩, -, chunks, hchunks, d₁,
    ⟨ids, hids, records, hrecords, rfl⟩, ioWrites, hio, crossbar, hcrossbar,
    rfl, -⟩ := h
  rcases chunksPerRecordOf_cases isInputStream s with
    ⟨-, what, hrefused⟩ | ⟨hrefused, hok⟩
  · rw [hrefused] at hchunks
    cases hchunks
  · rw [hok, Except.ok.injEq] at hchunks
    subst hchunks
    obtain ⟨xs, rfl⟩ := calculateCrossbarSetupData_frame hcrossbar
    refine ⟨hrefused, ?_, ?_, ?_, ?_⟩
    · rcases recordChunkIds_cases (recordChunks isInputStream s) with
        ⟨hpos, -⟩ | ⟨-, hundefined⟩
      · exact hpos
      · rw [hundefined] at hids
        cases hids
    · exact hrecords
    · exact setUpDMAIOStream_pos hio
    · rfl

end Setup

/-- Each stream of a module that is set up is set up itself. -/
theorem setupStreams_ok {isInputStream : Bool} {bufferSize : Int}
    {streams : List StreamInitData} {count : Nat}
    {setups : List (DMAStreamSetupData × List RegisterWrite)}
    (h : setupStreams isInputStream bufferSize streams count = .ok setups) :
    List.Forall₂ (fun s setup => ∃ i,
      setupStream isInputStream bufferSize s i = .ok setup) streams setups := by
  induction streams generalizing count setups with
  | nil =>
      rw [setupStreams, Except.ok.injEq] at h
      subst h
      exact .nil
  | cons s rest ih =>
      simp only [setupStreams, bind_eq_ok, Except.ok.injEq] at h
      obtain ⟨first, hfirst, others, hothers, rfl⟩ := h
      exact .cons ⟨count, hfirst⟩ (ih hothers)

theorem setupDMAModule_ok {isInputStream : Bool}
    {streams : List StreamInitData} {r : DMAModuleSetup}
    (h : setupDMAModule streams isInputStream = .ok r) :
    ∃ bufferSize, List.Forall₂ (fun s setup => ∃ i,
      setupStream isInputStream bufferSize s i = .ok setup)
        streams r.streams := by
  simp only [setupDMAModule, bind_eq_ok, Except.ok.injEq] at h
  obtain ⟨bufferSize, -, setups, hsetups, rfl⟩ := h
  exact ⟨bufferSize, setupStreams_ok hsetups⟩

/-! ## The buffer of a burst -/

/-- The records that are transferred with a burst fit the crossbar buffer, and
their number and length have room in the controller registers. -/
structure BurstFits (s : StreamInitData) (d : DMAStreamSetupData) : Prop where
  records_pos : 1 ≤ d.recordsPerDdrBurst
  records_le : d.recordsPerDdrBurst ≤ 32
  size_le : d.recordsPerDdrBurst * s.streamRecordSize ≤ 512
  length_pos : 1 ≤ d.ddrBurstLength
  length_le : d.ddrBurstLength ≤ 128

/-- Integers of a record behind the projection. -/
def selectedCount (s : StreamInitData) : Nat :=
  if s.streamSpecification = [] then s.streamRecordSize.toNat
  else s.streamSpecification.length

/-- The records that a sort buffer fetches at once are few enough for their
size in front of the projection. -/
def SortBurstFits (s : StreamInitData) : Prop :=
  s.streamRecordSize *
    (if selectedCount s ≤ 16 then 12 else if selectedCount s ≤ 32 then 4 else 1)
      ≤ 512

instance (s : StreamInitData) : Decidable (SortBurstFits s) :=
  inferInstanceAs (Decidable (_ ≤ _))

theorem selectedCount_eq (s : StreamInitData) :
    selectedCount s = (streamSpecificationOf s).length := by
  unfold selectedCount streamSpecificationOf
  split <;> simp

theorem calculateChunksPerRecord_spec (s : StreamInitData) :
    calculateChunksPerRecord (streamSpecificationOf s).length =
      ((selectedCount s + 15) / 16 : Nat) := by
  rw [← selectedCount_eq, calculateChunksPerRecord_natCast]

/-- The number of records in a multi-channel burst. -/
theorem recordsPerBurst_multi {isInputStream : Bool} {c : Nat}
    {recordSize records : Int} (hc : 0 < c)
    (h : recordsPerBurst isInputStream true c recordSize = .ok records) :
    records = recordsPerFetch c ∧ SortFits c recordSize := by
  rw [recordsPerBurst, if_pos rfl] at h
  rcases recordCountPerFetch_cases hc recordSize with
    ⟨hfits, hok⟩ | ⟨-, what, herror⟩
  · rw [hok, Except.ok.injEq] at h
    exact ⟨h.symm, hfits⟩
  · rw [herror] at h
    cases h

/-- The number of records in a single-channel burst. -/
theorem recordsPerBurst_single {isInputStream : Bool} {c : Nat}
    {recordSize records : Int} (hc : 0 < c) (hpos : 0 < records)
    (hsize : isInputStream = false → recordSize ≤ 16 * c)
    (h : recordsPerBurst isInputStream false c recordSize = .ok records) :
    records ≤ 32 ∧ records * recordSize ≤ 512 := by
  cases isInputStream with
  | true =>
      rw [recordsPerBurst, if_neg (by decide), if_pos rfl] at h
      rcases findMinViable_cases recordSize with
        ⟨-, -, hok, hfits⟩ | ⟨-, hundefined⟩
      · rw [hok, Except.ok.injEq] at h
        subst h
        have hle := recordsInBurst_le recordSize
        exact ⟨by omega, hfits⟩
      · rw [hundefined] at h
        cases h
  | false =>
      rw [recordsPerBurst, if_neg (by decide), if_neg (by decide)] at h
      obtain ⟨np2, hnp2, hle, ⟨-, k, hk, hmul, hdivide⟩ | ⟨-, hdivide⟩⟩ :=
        outputBurst_cases hc
      · rw [hnp2, ok_bind, hdivide, Except.ok.injEq] at h
        subst h
        have hpow : 2 ^ k ≤ 2 ^ 5 := Nat.pow_le_pow_right (by decide) hk
        refine ⟨by omega, ?_⟩
        calc ((2 ^ k : Nat) : Int) * recordSize
            ≤ ((2 ^ k : Nat) : Int) * (16 * np2 : Nat) :=
              Int.mul_le_mul_of_nonneg_left
                (by have := hsize rfl; push_cast; omega) (by omega)
          _ = ((16 * (2 ^ k * np2) : Nat) : Int) := by
              push_cast
              exact Int.mul_left_comm _ _ _
          _ ≤ 512 := by omega
      · rw [hnp2, ok_bind, hdivide, Except.ok.injEq] at h
        omega

/-- A record of an output fits the chunks of the interface. -/
theorem recordSize_le_chunks {s : StreamInitData}
    (hrefused : ¬Refused false s) :
    s.streamRecordSize ≤ 16 * recordChunks false s := by
  have hcount : s.streamRecordSize ≤ selectedCount s := by
    unfold selectedCount
    split
    · omega
    · rename_i hprojection
      have heq : (s.streamSpecification.length : Int) = s.streamRecordSize := by
        by_contra hne
        exact hrefused ⟨rfl, .inl ⟨hprojection, hne⟩⟩
      omega
  rw [recordChunks, if_neg (by decide), calculateChunksPerRecord_spec]
  omega

/-- A burst of records of positive size that stay in the buffer fits. -/
theorem burstFits_iff {s : StreamInitData} {d : DMAStreamSetupData}
    (hsize : 1 ≤ s.streamRecordSize) (hpos : 0 < d.recordsPerDdrBurst)
    (hle : d.recordsPerDdrBurst ≤ 32)
    (hlength : d.ddrBurstLength =
      calculateDDRBurstLength s.streamRecordSize d.recordsPerDdrBurst) :
    BurstFits s d ↔ d.recordsPerDdrBurst * s.streamRecordSize ≤ 512 := by
  refine ⟨fun h => h.size_le, fun hfits => ?_⟩
  have hmul : 0 < d.recordsPerDdrBurst * s.streamRecordSize :=
    Int.mul_pos hpos (by omega)
  have hdiv := Int.tdiv_eq_ediv_of_nonneg (b := 4)
    (show 0 ≤ s.streamRecordSize * d.recordsPerDdrBurst + 4 - 1 by
      rw [Int.mul_comm]
      omega)
  rw [calculateDDRBurstLength, kDdrSizePerCycle, hdiv,
    Int.mul_comm s.streamRecordSize] at hlength
  exact ⟨by omega, hle, hfits, by omega, by omega⟩

/-- A single-channel burst always fits, a multi-channel burst exactly when the
records of a fetch fit. -/
theorem setupStream_burstFits {isInputStream : Bool} {bufferSize : Int}
    {s : StreamInitData} {i : Nat} {d : DMAStreamSetupData}
    {writes : List RegisterWrite} (hsize : 1 ≤ s.streamRecordSize)
    (h : setupStream isInputStream bufferSize s i = .ok (d, writes)) :
    BurstFits s d ↔
      (s.maxChannelCount ≠ -1 ∧ isInputStream = true → SortBurstFits s) := by
  obtain ⟨hrefused, hchunks, hrecords, hpos, hlength⟩ := setupStream_ok h
  obtain ⟨c, hc⟩ := Int.eq_ofNat_of_zero_le hchunks.le
  have hcpos : 0 < c := by omega
  rw [hc] at hrecords
  have houtput : isInputStream = false → s.streamRecordSize ≤ 16 * c := by
    rintro rfl
    rw [← hc]
    exact recordSize_le_chunks hrefused
  by_cases hmulti : s.maxChannelCount ≠ -1
  · rw [decide_eq_true hmulti] at hrecords
    obtain ⟨hfetch, hfits⟩ := recordsPerBurst_multi hcpos hrecords
    have hle : recordsPerFetch c ≤ 12 := by
      unfold recordsPerFetch
      split
      · decide
      · split <;> decide
    rw [burstFits_iff hsize hpos (by omega) hlength, hfetch, Int.mul_comm]
    cases isInputStream with
    | true =>
        rw [recordChunks, if_pos rfl, calculateChunksPerRecord_spec,
          Int.ofNat_inj] at hc
        have hrecord : recordsPerFetch c =
            if selectedCount s ≤ 16 then 12
            else if selectedCount s ≤ 32 then 4 else 1 := by
          subst hc
          unfold recordsPerFetch
          split_ifs <;> omega
        rw [hrecord, SortBurstFits]
        simp only [hmulti, not_false_eq_true, ne_eq, and_self, true_implies]
        split_ifs <;> rfl
    | false =>
        simp only [reduceCtorEq, and_false, false_implies, iff_true]
        have hsmall : s.streamRecordSize ≤ 16 * c := houtput rfl
        rcases (by rw [SortFits] at hfits; omega : c = 1 ∨ c = 2 ∨ c = 3) with
          rfl | rfl | rfl
        · rw [show recordsPerFetch 1 = 12 from rfl]
          omega
        · rw [show recordsPerFetch 2 = 4 from rfl]
          omega
        · rw [show recordsPerFetch 3 = 1 from rfl]
          omega
  · rw [decide_eq_false hmulti] at hrecords
    obtain ⟨hle, hfits⟩ := recordsPerBurst_single hcpos hpos houtput hrecords
    rw [burstFits_iff hsize hpos hle hlength]
    exact ⟨fun _ hm => absurd hm.1 hmulti, fun _ => hfits⟩

/-- The bursts of a module fit exactly when the records of every multi-channel
input stream do. -/
theorem bursts_fit_iff (streams : List StreamInitData) (isInputStream : Bool)
    (r : DMAModuleSetup) (hsize : ∀ s ∈ streams, 1 ≤ s.streamRecordSize)
    (h : setupDMAModule streams isInputStream = .ok r) :
    List.Forall₂ (fun s setup => BurstFits s setup.1) streams r.streams ↔
      ∀ s ∈ streams, s.maxChannelCount ≠ -1 ∧ isInputStream = true →
        SortBurstFits s := by
  obtain ⟨bufferSize, hsetups⟩ := setupDMAModule_ok h
  clear h
  generalize r.streams = setups at hsetups ⊢
  induction hsetups with
  | nil => simp
  | @cons s setup rest setups hfirst hrest ih =>
      obtain ⟨i, hfirst⟩ := hfirst
      rw [List.forall₂_cons, List.forall_mem_cons,
        setupStream_burstFits (hsize s List.mem_cons_self) hfirst,
        ih fun s' hs' => hsize s' (List.mem_cons_of_mem s hs')]

/-- A merge sort by two of ten integers. -/
def tenIntegersSorted : StreamInitData where
  streamId := 0
  streamRecordSize := 10
  streamRecordCount := 100
  physicalAddress := 8192
  streamSpecification := [0, 9]
  maxChannelCount := 64
  recordsPerChannel := 10

theorem bursts_fit_iff_tenIntegersSorted :
    ∃ r, setupDMAModule [tenIntegersSorted] true = .ok r ∧
      List.Forall₂ (fun s setup => BurstFits s setup.1) [tenIntegersSorted]
        r.streams := by
  obtain ⟨r, hr⟩ := exists_eq_ok
    (show (setupDMAModule [tenIntegersSorted] true).isOk = true by
      decide +kernel)
  exact ⟨r, hr, (bursts_fit_iff [tenIntegersSorted] true r (by decide) hr).mpr
    (by decide)⟩

/-- A merge sort by the first of 44 integers.  Twelve records are fetched at
once, because the other integers are not counted. -/
def wideRecordsSorted : StreamInitData where
  streamId := 0
  streamRecordSize := 44
  streamRecordCount := 100
  physicalAddress := 4096
  streamSpecification := [0]
  maxChannelCount := 64
  recordsPerChannel := 10

theorem bursts_not_always_fit :
    ¬∀ (streams : List StreamInitData) (isInputStream : Bool)
      (r : DMAModuleSetup), (∀ s ∈ streams, 1 ≤ s.streamRecordSize) →
      setupDMAModule streams isInputStream = .ok r →
      List.Forall₂ (fun s setup => BurstFits s setup.1) streams r.streams := by
  intro hall
  obtain ⟨r, hr⟩ := exists_eq_ok
    (show (setupDMAModule [wideRecordsSorted] true).isOk = true by
      decide +kernel)
  have hfits := hall [wideRecordsSorted] true r (by decide) hr
  obtain ⟨bufferSize, hsetups⟩ := setupDMAModule_ok hr
  generalize r.streams = setups at hfits hsetups
  cases hfits with
  | cons hfirst _ =>
      cases hsetups with
      | cons hsetup _ =>
          obtain ⟨i, hsetup⟩ := hsetup
          have hsort := (setupStream_burstFits (by decide) hsetup).mp hfirst
          exact absurd (hsort (by decide)) (by decide)

end Orkhestra.Ports.DMABurst
