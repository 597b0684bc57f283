import Orkhestra.Ports.DMABurst
import Orkhestra.Ports.OutputCrossbar

/-!
# The entries of a crossbar

The crossbar has an entry for each clock cycle of a burst.  An input has one for
every chunk of its extended specification, an output one for every chunk of the
interface, filled up to a power of two for each record.  Neither needs more than
the 32 cycles of a burst.
-/

namespace Orkhestra.Ports.CrossbarEntries

open Orkhestra.Verified.Checked
open Orkhestra.Ports.StreamParameterCalculator
open Orkhestra.Ports.DMACrossbarSpecifier
open Orkhestra.Ports.DMACrossbarSetup
open Orkhestra.Ports.OutputCrossbar
open Orkhestra.Ports.MergeSortSetup
open Orkhestra.Ports.DMASetup
open Orkhestra.Ports.DMABurst

/-! ## Configuring keeps the entries -/

section Steps

variable {xs ys : List DMACrossbarSetupData}

theorem setSelection_length {kind : SelectionKind} {chunk position value : Int}
    (h : setSelection xs kind chunk position value = .ok ys) :
    ys.length = xs.length := by
  simp only [setSelection, bind_eq_ok, writeAt_eq_ok] at h
  obtain ⟨c, -, entry, -, v, -, -, rfl⟩ := h
  exact List.length_set

theorem configureInputStep_length {ext : List Int} {id : Nat}
    (h : configureInputStep ext xs id = .ok ys) : ys.length = xs.length := by
  rw [configureInputStep, bind_eq_ok] at h
  obtain ⟨selection, -, h⟩ := h
  split at h
  · obtain ⟨zs, hchunk, hposition⟩ := bind_eq_ok.mp h
    exact (setSelection_length hposition).trans (setSelection_length hchunk)
  · rw [← Except.ok.inj h]

theorem configureOutputStep_length {ext : List Int} {id : Nat}
    {s s' : List DMACrossbarSetupData × Nat}
    (h : configureOutputStep ext s id = .ok s') :
    s'.1.length = s.1.length := by
  simp only [configureOutputStep, bind_eq_ok] at h
  obtain ⟨reversedId, -, selection, -, h⟩ := h
  split at h
  · rw [← Except.ok.inj h]
  split at h
  · rw [← Except.ok.inj h]
  · simp only [bind_eq_ok, setNextOutputConfiguration, Except.ok.injEq] at h
    obtain ⟨zs, ⟨us, hposition, hchunk⟩, rfl⟩ := h
    exact (setSelection_length hchunk).trans (setSelection_length hposition)

theorem allocateFreeChunks_length (h : allocateFreeChunks xs = .ok ys) :
    ys.length = xs.length := by
  refine foldlM_invariant (fun _ zs => zs.length = xs.length) _ rfl ?_ h
  intro _ columnId _ zs zs' _ hlength hallocate
  have hmap := map_of_mapM_eq_ok (fun _ => ()) (fun _ => ()) hallocate
    fun _ _ _ => rfl
  rw [← hlength, ← List.length_map (fun _ => ()), hmap, List.length_map]

end Steps

/-! ## How many entries there are -/

/-- A specification that is extended fits the burst. -/
theorem extendSpecification_length {records recordSize junk endPoint : Int}
    {spec ext : List Int}
    (h : extendSpecification records spec recordSize junk endPoint = .ok ext) :
    ext.length ≤ 512 := by
  simp only [extendSpecification, bind_eq_ok] at h
  obtain ⟨valid, hvalid, h⟩ := h
  split at h
  · rename_i hfits
    rw [Except.ok.injEq] at h
    rw [h, hfits, isSpecificationValid] at hvalid
    split at hvalid
    · rename_i hlength
      exact hlength
    · cases hvalid
  · cases h

theorem inputEntries_le {selected : List Int} {d d' : DMASetupData}
    {recordSize : Int} (hnil : d.crossbarSetupData = [])
    (h : configureInputCrossbarSetupData selected d recordSize = .ok d') :
    d'.crossbarSetupData.length ≤ 32 := by
  simp only [configureInputCrossbarSetupData] at h
  split at h
  · cases h
  simp only [bind_eq_ok, Except.ok.injEq] at h
  obtain ⟨ext, hext, xs, hrun, rfl⟩ := h
  have hlength : ext.length ≤ 512 := by
    split at hext
    · obtain ⟨endPoint, -, hext⟩ := bind_eq_ok.mp hext
      exact extendSpecification_length hext
    · obtain ⟨np2, -, hext⟩ := bind_eq_ok.mp hext
      exact extendSpecification_length hext
  have hxs := foldlM_invariant (fun _ ys => ys.length =
      (setUpEmptyCrossbarSetupData d.crossbarSetupData
        (ext.length / kDatapathWidth : Nat)).length) _ rfl
    (fun _ id _ ys ys' _ hys hstep =>
      (configureInputStep_length hstep).trans hys) hrun
  simp only [setUpEmptyCrossbarSetupData, hnil, List.nil_append,
    List.length_replicate, List.length_nil, kDatapathWidth_eq] at hxs
  dsimp only
  omega

/-- `r` records of `c` chunks each are filled up to `np2` chunks. -/
theorem outputEntries_le {selected : List Int} {d d' : DMASetupData}
    {c r np2 : Nat} (hnil : d.crossbarSetupData = []) (hc : 0 < c)
    (hchunks : d.chunksPerRecord = c) (hrecords : d.recordsPerDdrBurst = r)
    (hnp2 : findNextPowerOfTwo c = .ok (np2 : Int)) (hle : c ≤ np2)
    (h : configureOutputCrossbarSetupData selected d = .ok d') :
    d'.crossbarSetupData.length ≤ np2 * r := by
  simp only [configureOutputCrossbarSetupData, hchunks, hrecords] at h
  split at h
  · cases h
  simp only [bind_eq_ok] at h
  obtain ⟨ext, -, ⟨xs, junk⟩, hrun, h⟩ := h
  have hempty : (setUpEmptyCrossbarSetupData d.crossbarSetupData
      ((c : Int) * r)).length = c * r := by
    rw [setUpEmptyCrossbarSetupData, hnil, List.nil_append,
      List.length_replicate, List.length_nil, ← Nat.cast_mul, Nat.cast_zero,
      Int.sub_zero, Int.toNat_natCast]
  have hxs := foldlM_invariant (fun _ (s : List DMACrossbarSetupData × Nat) =>
      s.1.length = c * r) _ (by
        split
        · rw [fillSetupDataWithNegativePositions, List.length_map, hempty]
        · exact hempty)
    (fun _ id _ s s' _ hs hstep =>
      (configureOutputStep_length hstep).trans hs) hrun
  have hfits : c * r ≤ np2 * r := Nat.mul_le_mul_right r hle
  dsimp only at hxs
  split at h
  · simp only [bind_eq_ok, Except.ok.injEq] at h
    obtain ⟨ys, hallocate, rfl⟩ := h
    rw [allocateFreeChunks_length hallocate, hxs]
    exact hfits
  · rw [hnp2, ok_bind] at h
    split at h
    · simp only [bind_eq_ok, Except.ok.injEq] at h
      obtain ⟨ys, hinsert, rfl⟩ := h
      have hfuel : r ≤ xs.length := by
        rw [hxs]
        exact Nat.le_mul_of_pos_left r hc
      obtain ⟨zs, hzs, hlength, -⟩ := insertMissing_total
        ((np2 : Int) - c).toNat hc hfuel hxs.ge
      rw [hxs] at hinsert hzs
      rw [hzs, Except.ok.injEq] at hinsert
      subst hinsert
      have hmissing : ((np2 : Int) - c).toNat = np2 - c := by omega
      show zs.length ≤ np2 * r
      rw [hlength, hxs, hmissing, ← Nat.add_mul, Nat.add_sub_cancel' hle]
    · rw [← Except.ok.inj h]
      dsimp only
      rw [hxs]
      exact hfits

/-- The chunks of a burst behind the crossbar of an output. -/
theorem outputBurst_chunks_le {c r : Nat} {recordSize : Int} {multi : Bool}
    (hc : 0 < c) (h : recordsPerBurst false multi c recordSize = .ok (r : Int)) :
    ∃ np2 : Nat, findNextPowerOfTwo c = .ok (np2 : Int) ∧ c ≤ np2 ∧
      np2 * r ≤ 32 := by
  obtain ⟨np2, hnp2, hle, hcases⟩ := outputBurst_cases hc
  refine ⟨np2, hnp2, hle, ?_⟩
  cases multi with
  | true =>
      obtain ⟨hr, hfits⟩ := recordsPerBurst_multi hc h
      rw [findNextPowerOfTwo_natCast hc, Except.ok.injEq, Int.ofNat_inj] at hnp2
      rw [Int.ofNat_inj] at hr
      rw [← hnp2, hr]
      rcases (by rw [SortFits] at hfits; omega : c = 1 ∨ c = 2 ∨ c = 3) with
        rfl | rfl | rfl <;> decide +kernel
  | false =>
      rw [recordsPerBurst, if_neg (by decide), if_neg (by decide), hnp2,
        ok_bind] at h
      rcases hcases with ⟨-, k, -, hmul, hdivide⟩ | ⟨-, hdivide⟩
      · rw [hdivide, Except.ok.injEq, Int.ofNat_inj] at h
        rw [← h, Nat.mul_comm, hmul]
      · rw [hdivide, Except.ok.injEq] at h
        have hzero : r = 0 := by omega
        simp [hzero]

/-- A stream that is set up needs no more than the 32 cycles of a burst. -/
theorem crossbarEntries_le {isInputStream : Bool} {bufferSize : Int}
    {s : StreamInitData} {i : Nat} {d : DMAStreamSetupData}
    {writes : List DMA.RegisterWrite}
    (h : setupStream isInputStream bufferSize s i = .ok (d, writes)) :
    d.crossbarSetupData.length ≤ 32 := by
  obtain ⟨-, hpos, -, hrecordsPos, -⟩ := setupStream_ok h
  simp only [setupStream, calculateDMAStreamSetupData, bind_eq_ok,
    Except.ok.injEq, Prod.mk.injEq] at h
  obtain ⟨⟨active, channels⟩, -, chunks, hchunks, d₁,
    ⟨ids, -, records, hrecords, rfl⟩, ioWrites, -, crossbar, hcrossbar, rfl,
    -⟩ := h
  rcases chunksPerRecordOf_cases isInputStream s with
    ⟨-, what, hthrow⟩ | ⟨-, hok⟩
  · rw [hthrow] at hchunks
    cases hchunks
  rw [hok, Except.ok.injEq] at hchunks
  subst hchunks
  cases isInputStream with
  | true => exact inputEntries_le rfl hcrossbar
  | false =>
      obtain ⟨c, hc⟩ := Int.eq_ofNat_of_zero_le hpos.le
      have hcpos : 0 < c := by omega
      obtain ⟨xs, hframe⟩ := calculateCrossbarSetupData_frame hcrossbar
      have hsame : crossbar.recordsPerDdrBurst = records := by rw [hframe]
      dsimp only at hrecordsPos
      rw [hsame] at hrecordsPos
      obtain ⟨r, hr⟩ := Int.eq_ofNat_of_zero_le hrecordsPos.le
      rw [hc, hr] at hrecords
      obtain ⟨np2, hnp2, hle, hchunks⟩ := outputBurst_chunks_le hcpos hrecords
      exact (outputEntries_le rfl hcpos hc hr hnp2 hle hcrossbar).trans hchunks

end Orkhestra.Ports.CrossbarEntries
