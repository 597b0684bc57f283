import Orkhestra.Ports.DMACrossbarSpecifier
import Mathlib.Data.Nat.Find
import Mathlib.Order.Bounds.Basic

/-!
# The merge sort set-up

`MergeSortSetup`: the buffers of a merge sort module.  The DMA set-up computes
the burst of a multi-channel stream with the same two functions, so their values
are tabulated here: a module with 64 channels has room for records of up to
three chunks.  For a buffer of any size the search for the fetch is the largest
count that fills whole DDR cycles.
-/

namespace Orkhestra.Ports.MergeSortSetup

open Orkhestra.Verified.Checked
open Orkhestra.Ports.StreamParameterCalculator
open Orkhestra.Ports.DMACrossbarSpecifier

/-- Methods of `MergeSortInterface`. -/
inductive MergeSortCall where
  | setStreamParams (streamId : Nat) (chunksPerRecord : Int)
  | setBufferSize (recordCount : Int)
  | setRecordCountPerFetch (recordCount : Int)
  | setFetchCount (fetchCount : Int)
  | setFetchOffset (offsetRecordCount : Int)
  | startPrefetchingData (baseChannelId : Int) (isNotFirstModule : Bool)
  deriving DecidableEq, Repr

/-- Sum over the powers of two from 32 up to the number of channels. -/
def internalLogicBufferReserve (channelCount : Nat) : Nat :=
  (List.range channelCount).foldl (fun reserve k =>
    if 32 * 2 ^ k ≤ channelCount then reserve + 32 * 2 ^ k * 2
    else reserve) 240

def calculateSortBufferSize (bufferSpace : Int) (channelCount : Nat)
    (chunksPerRecord : Int) : Outcome Int := do
  let records ← divide bufferSpace chunksPerRecord
  -- -16 for records in the pipelines.
  let maxBufferedRecordCount := records - 16
  let byRecords ← divide
    (maxBufferedRecordCount - internalLogicBufferReserve channelCount)
    channelCount
  .ok (min ((2 * bufferSpace).tdiv channelCount) byRecords)

def potentialRecordCountIsValid (potentialRecordCount recordSize : Int) :
    Outcome Bool :=
  if potentialRecordCount.tmod 4 = 1 ∨ potentialRecordCount.tmod 4 = 3 then
    .ok (recordSize.tmod 4 = 0)
  else if potentialRecordCount.tmod 4 = 2 then .ok (recordSize.tmod 2 = 0)
  else if potentialRecordCount.tmod 4 = 0 then .ok true
  else .error (.runtimeError "Something went wrong!")

/-- The `while` loop down to a count that is valid. -/
def findValidRecordCount (recordSize : Int) : Nat → Int → Outcome Int
  | 0, _ => .error .outOfFuel
  | fuel + 1, potentialRecordCount => do
      let valid ← potentialRecordCountIsValid potentialRecordCount recordSize
      if valid then .ok potentialRecordCount
      else findValidRecordCount recordSize fuel (potentialRecordCount - 1)

def calculateRecordCountPerFetch (sortBufferSize recordSize : Int) :
    Outcome Int := do
  -- Zero is valid, so no more steps than the half of the buffer are needed.
  let potentialRecordCount ← findValidRecordCount recordSize
    ((sortBufferSize.tdiv 2).toNat + 1) (sortBufferSize.tdiv 2)
  if potentialRecordCount = 0 then
    .error (.runtimeError "Records are too big for sorting!")
  else .ok potentialRecordCount

def setupMergeSortModule (streamId : Nat) (recordSize baseChannelId : Int)
    (isFirst : Bool) : Outcome (List MergeSortCall) := do
  let chunksPerRecord := calculateChunksPerRecord recordSize
  if streamId ≠ 0 then
    .error (.runtimeError "The module doesn't support running other streams!")
  else do
    let sortBufferSize ← calculateSortBufferSize 2048 64 chunksPerRecord
    let recordCountPerFetch ←
      calculateRecordCountPerFetch sortBufferSize recordSize
    .ok [.setStreamParams streamId chunksPerRecord,
      .setBufferSize sortBufferSize,
      .setRecordCountPerFetch recordCountPerFetch,
      .setFetchCount (sortBufferSize.tdiv recordCountPerFetch),
      .setFetchOffset (sortBufferSize.tmod recordCountPerFetch),
      .startPrefetchingData baseChannelId !isFirst]

/-! ## Buffers of a module with 64 channels -/

/-- Records that are fetched at once when a record has the given chunks. -/
def recordsPerFetch (chunksPerRecord : Nat) : Nat :=
  if chunksPerRecord = 1 then 12 else if chunksPerRecord = 2 then 4 else 1

/-- The buffer has room for a fetch: a single record is only fetched when it
fills whole cycles. -/
def SortFits (chunksPerRecord : Nat) (recordSize : Int) : Prop :=
  chunksPerRecord ≤ 2 ∨ chunksPerRecord = 3 ∧ recordSize.tmod 4 = 0

instance (chunksPerRecord : Nat) (recordSize : Int) :
    Decidable (SortFits chunksPerRecord recordSize) :=
  inferInstanceAs (Decidable (_ ∨ _))

theorem recordsPerFetch_pos (chunksPerRecord : Nat) :
    0 < recordsPerFetch chunksPerRecord := by
  unfold recordsPerFetch
  split
  · decide
  · split <;> decide

theorem calculateSortBufferSize_natCast {c : Nat} (hc : 0 < c) :
    calculateSortBufferSize 2048 64 c =
      .ok (min 64 ((((2048 / c : Nat) : Int) - 448).tdiv 64)) := by
  have hreserve : internalLogicBufferReserve 64 = 432 := by decide
  have hne : (c : Int) ≠ 0 := by omega
  have hdiv : (2048 : Int).tdiv (c : Int) = ((2048 / c : Nat) : Int) :=
    Int.ofNat_tdiv 2048 c
  simp only [calculateSortBufferSize, divide, hne, if_false, ok_bind, hdiv,
    hreserve]
  rw [if_neg (by decide), ok_bind]
  congr 2
  congr 1
  omega

/-- The loop stops at zero at the latest. -/
theorem calculateRecordCountPerFetch_small {sortBufferSize : Int}
    (recordSize : Int) (hlow : -8 < sortBufferSize) (hhigh : sortBufferSize < 2) :
    ∃ what, calculateRecordCountPerFetch sortBufferSize recordSize =
      .error (.runtimeError what) := by
  have hcases : sortBufferSize.tdiv 2 = 0 ∨ sortBufferSize.tdiv 2 = -1 ∨
      sortBufferSize.tdiv 2 = -2 ∨ sortBufferSize.tdiv 2 = -3 := by
    rcases (by omega : sortBufferSize = 1 ∨ sortBufferSize = 0 ∨
      sortBufferSize = -1 ∨ sortBufferSize = -2 ∨ sortBufferSize = -3 ∨
      sortBufferSize = -4 ∨ sortBufferSize = -5 ∨ sortBufferSize = -6 ∨
      sortBufferSize = -7) with
      rfl | rfl | rfl | rfl | rfl | rfl | rfl | rfl | rfl <;> decide
  rcases hcases with h | h | h | h <;>
    simp [calculateRecordCountPerFetch, h, findValidRecordCount,
      potentialRecordCountIsValid]

/-- The burst of a multi-channel stream, or the exception when a record does
not fit. -/
theorem recordCountPerFetch_cases {c : Nat} (hc : 0 < c) (recordSize : Int) :
    (SortFits c recordSize ∧
      (do let sortBufferSize ← calculateSortBufferSize 2048 64 c
          calculateRecordCountPerFetch sortBufferSize recordSize) =
        .ok (recordsPerFetch c : Int)) ∨
    (¬SortFits c recordSize ∧ ∃ what,
      (do let sortBufferSize ← calculateSortBufferSize 2048 64 c
          calculateRecordCountPerFetch sortBufferSize recordSize) =
        .error (.runtimeError what)) := by
  rcases (by omega : c = 1 ∨ c = 2 ∨ c = 3 ∨ 4 ≤ c) with rfl | rfl | rfl | hbig
  · left
    exact ⟨.inl (by decide), rfl⟩
  · left
    exact ⟨.inl (by decide), rfl⟩
  · have hsize : calculateSortBufferSize 2048 64 (3 : Nat) = .ok 3 := rfl
    have hhalf : (3 : Int).tdiv 2 = 1 := rfl
    rw [hsize, ok_bind]
    by_cases hfull : recordSize.tmod 4 = 0
    · left
      refine ⟨.inr ⟨rfl, hfull⟩, ?_⟩
      simp [calculateRecordCountPerFetch, findValidRecordCount,
        potentialRecordCountIsValid, recordsPerFetch, hhalf, hfull]
    · right
      refine ⟨by simp [SortFits, hfull], "Records are too big for sorting!", ?_⟩
      simp [calculateRecordCountPerFetch, findValidRecordCount,
        potentialRecordCountIsValid, hhalf, hfull]
  · right
    have hle : 2048 / c ≤ 512 := Nat.div_le_of_le_mul (by omega)
    rw [calculateSortBufferSize_natCast hc, ok_bind]
    refine ⟨by rw [SortFits]; omega, ?_⟩
    generalize 2048 / c = records at hle ⊢
    have hdiv := Int.mul_tdiv_add_tmod ((records : Int) - 448) 64
    have hlt := Int.tmod_lt_of_pos ((records : Int) - 448)
      (show (0 : Int) < 64 by decide)
    have hgt := Int.lt_tmod_of_pos ((records : Int) - 448)
      (show (0 : Int) < 64 by decide)
    refine calculateRecordCountPerFetch_small recordSize ?_ ?_
    · omega
    · omega

/-! ## The search for a fetch -/

/-- A fetch takes up to half of the buffer, in whole DDR cycles. -/
def IsFetch (sortBufferSize recordSize recordCount : Int) : Prop :=
  1 ≤ recordCount ∧ recordCount ≤ sortBufferSize / 2 ∧
    4 ∣ recordCount * recordSize

/-- The largest count up to `bound` that fills whole cycles, or 0. -/
def greatestFetch (recordSize : Int) (bound : Nat) : Nat :=
  Nat.findGreatest (fun k => 4 ∣ (k : Int) * recordSize) bound

theorem four_dvd_mul_iff (m n : Int) :
    4 ∣ m * n ↔ 4 ∣ m ∨ 2 ∣ m ∧ 2 ∣ n ∨ 4 ∣ n := by
  have hm := Int.emod_nonneg m (show (4 : Int) ≠ 0 by decide)
  have hlt := Int.emod_lt_of_pos m (show (0 : Int) < 4 by decide)
  rw [Int.dvd_iff_emod_eq_zero, Int.mul_emod]
  rcases (by omega : m % 4 = 0 ∨ m % 4 = 1 ∨ m % 4 = 2 ∨ m % 4 = 3) with
    h | h | h | h <;> rw [h] <;> omega

/-- The cases of the validity test are those of a division by 4. -/
theorem potentialRecordCountIsValid_natCast (k : Nat) (recordSize : Int) :
    potentialRecordCountIsValid k recordSize =
      .ok (decide (4 ∣ (k : Int) * recordSize)) := by
  have htmod : (k : Int).tmod 4 = ((k % 4 : Nat) : Int) := Int.ofNat_tmod k 4
  have hfour : recordSize.tmod 4 = 0 ↔ 4 ∣ recordSize :=
    (Int.dvd_iff_tmod_eq_zero ..).symm
  have htwo : recordSize.tmod 2 = 0 ↔ 2 ∣ recordSize :=
    (Int.dvd_iff_tmod_eq_zero ..).symm
  simp only [potentialRecordCountIsValid, htmod, hfour, htwo,
    four_dvd_mul_iff]
  split
  · congr 2
    rw [eq_iff_iff]
    omega
  · split
    · congr 2
      rw [eq_iff_iff]
      omega
    · rw [if_pos (by omega), decide_eq_true (by omega)]

/-- The loop stops in front of the largest count, for it stops at 0. -/
theorem findValidRecordCount_eq (recordSize : Int) {bound fuel : Nat}
    (hfuel : bound < fuel) :
    findValidRecordCount recordSize fuel bound =
      .ok (greatestFetch recordSize bound : Nat) := by
  induction bound generalizing fuel with
  | zero =>
      obtain ⟨fuel, rfl⟩ : ∃ rest, fuel = rest + 1 := ⟨fuel - 1, by omega⟩
      rw [findValidRecordCount, potentialRecordCountIsValid_natCast, ok_bind,
        if_pos (by simp)]
      rfl
  | succ bound ih =>
      obtain ⟨fuel, rfl⟩ : ∃ rest, fuel = rest + 1 := ⟨fuel - 1, by omega⟩
      rw [findValidRecordCount, potentialRecordCountIsValid_natCast, ok_bind,
        greatestFetch, Nat.findGreatest_succ]
      by_cases hvalid : 4 ∣ ((bound + 1 : Nat) : Int) * recordSize
      · rw [if_pos (by simpa using hvalid), if_pos hvalid]
      · rw [if_neg (by simpa using hvalid), if_neg hvalid]
        have hpred : ((bound + 1 : Nat) : Int) - 1 = bound := by omega
        rw [hpred]
        exact ih (by omega)

theorem calculateRecordCountPerFetch_natCast (bufferSize : Nat)
    (recordSize : Int) :
    calculateRecordCountPerFetch bufferSize recordSize =
      if greatestFetch recordSize (bufferSize / 2) = 0 then
        .error (.runtimeError "Records are too big for sorting!")
      else .ok (greatestFetch recordSize (bufferSize / 2) : Nat) := by
  have hhalf : (bufferSize : Int).tdiv 2 = ((bufferSize / 2 : Nat) : Int) :=
    Int.ofNat_tdiv bufferSize 2
  rw [calculateRecordCountPerFetch, hhalf,
    findValidRecordCount_eq recordSize (by omega), ok_bind]
  simp only [Int.natCast_eq_zero]

section Greatest

variable {bufferSize : Nat} {recordSize : Int}

/-- Every fetch is found by the search. -/
theorem le_greatestFetch {recordCount : Int}
    (h : IsFetch bufferSize recordSize recordCount) :
    recordCount ≤ greatestFetch recordSize (bufferSize / 2) := by
  obtain ⟨hpos, hhalf, hcycles⟩ := h
  obtain ⟨k, rfl⟩ := Int.eq_ofNat_of_zero_le (show 0 ≤ recordCount by omega)
  have hle : k ≤ greatestFetch recordSize (bufferSize / 2) :=
    Nat.le_findGreatest (by omega) hcycles
  exact Int.ofNat_le.mpr hle

theorem isGreatest_greatestFetch
    (hfound : greatestFetch recordSize (bufferSize / 2) ≠ 0) :
    IsGreatest {k | IsFetch bufferSize recordSize k}
      (greatestFetch recordSize (bufferSize / 2)) := by
  have hle : greatestFetch recordSize (bufferSize / 2) ≤ bufferSize / 2 :=
    Nat.findGreatest_le _
  refine ⟨⟨by omega, by omega, ?_⟩, fun k hk => le_greatestFetch hk⟩
  exact Nat.findGreatest_of_ne_zero rfl hfound

theorem greatestFetch_eq_zero_iff :
    greatestFetch recordSize (bufferSize / 2) = 0 ↔
      ¬∃ k, IsFetch bufferSize recordSize k := by
  constructor
  · rintro hzero ⟨k, hk⟩
    have hle := le_greatestFetch hk
    have hpos := hk.1
    omega
  · intro hnone
    by_contra hfound
    exact hnone ⟨_, (isGreatest_greatestFetch hfound).1⟩

end Greatest

/-- The search ends with the largest fetch, and throws when there is none. -/
theorem calculateRecordCountPerFetch_optimal {sortBufferSize : Int}
    (recordSize : Int) (hsize : 0 ≤ sortBufferSize) :
    (∃ count, ∀ fuel : Nat, sortBufferSize / 2 < fuel →
      findValidRecordCount recordSize fuel (sortBufferSize.tdiv 2) =
        .ok count) ∧
    (∀ count,
      calculateRecordCountPerFetch sortBufferSize recordSize = .ok count ↔
        IsGreatest {k | IsFetch sortBufferSize recordSize k} count) ∧
    (calculateRecordCountPerFetch sortBufferSize recordSize =
        .error (.runtimeError "Records are too big for sorting!") ↔
      ¬∃ k, IsFetch sortBufferSize recordSize k) := by
  obtain ⟨bufferSize, rfl⟩ := Int.eq_ofNat_of_zero_le hsize
  have hhalf : (bufferSize : Int).tdiv 2 = ((bufferSize / 2 : Nat) : Int) :=
    Int.ofNat_tdiv bufferSize 2
  rw [calculateRecordCountPerFetch_natCast, ← greatestFetch_eq_zero_iff]
  refine ⟨⟨greatestFetch recordSize (bufferSize / 2), fun fuel hfuel => ?_⟩,
    fun count => ?_, ?_⟩
  · rw [hhalf]
    exact findValidRecordCount_eq recordSize (by omega)
  · split
    · next hzero =>
        have hnone := greatestFetch_eq_zero_iff.mp hzero
        refine iff_of_false (by simp) fun hcount => ?_
        exact hnone ⟨count, hcount.1⟩
    · next hfound =>
        have hgreatest := isGreatest_greatestFetch hfound
        rw [Except.ok.injEq]
        constructor
        · rintro rfl
          exact hgreatest
        · exact fun hcount => hgreatest.unique hcount
  · split <;> simp_all

theorem calculateRecordCountPerFetch_optimal_at_three_integers :
    IsGreatest {k | IsFetch 27 3 k} 12 :=
  ((calculateRecordCountPerFetch_optimal 3 (by decide)).2.1 12).mp rfl

end Orkhestra.Ports.MergeSortSetup
