import Orkhestra.Ports.DMABurst
import Orkhestra.Ports.InputCrossbar
import Orkhestra.Ports.OutputCrossbar
import Orkhestra.Verified.OwnException

/-!
# The arithmetic domain of the DMA set-up

When does `SetupDMAModule` only ever return or throw an exception of its own?
The divisors and the arguments of the logarithms are derived from the record
size and from the chunks of a record, and the check of the specification comes
behind most of the arithmetic.
-/

namespace Orkhestra.Ports.DMADomain

open Orkhestra.Verified.Checked
open Orkhestra.Verified.OwnException
open Orkhestra.Ports.StreamParameterCalculator
open Orkhestra.Ports.DMACrossbarSpecifier
open Orkhestra.Ports.DMACrossbarSetup
open Orkhestra.Ports.InputCrossbar
open Orkhestra.Ports.OutputCrossbar
open Orkhestra.Ports.MergeSortSetup
open Orkhestra.Ports.DMA
open Orkhestra.Ports.DMASetup
open Orkhestra.Ports.DMABurst

/-! ## Extending any selection -/

section Extension

variable {n e : Nat} {spec : List Int} {recordSize junk : Int}

/-- Entries that are pushed for a burst. -/
def burstLength (n e : Nat) (spec : List Int) : Nat := n * max spec.length e

theorem length_burstStream :
    (burstStream n spec recordSize junk e).length = burstLength n e spec := by
  have hblock : ∀ j, (recordBlock spec recordSize junk e j).length =
      max spec.length e := by
    intro j
    simp only [recordBlock, List.length_append, List.length_map,
      List.length_replicate]
    omega
  simp [burstStream, burstLength, List.length_flatMap, hblock]

/-- An entry is junk or a selected integer of one of the records. -/
theorem mem_burstStream {x : Int}
    (hx : x ∈ burstStream n spec recordSize junk e) :
    x = junk ∨ ∃ j < n, ∃ s ∈ spec,
      x = extendSelection (recordSize * (j : Nat)) s := by
  simp only [burstStream, List.mem_flatMap, List.mem_range, recordBlock,
    List.mem_append, List.mem_map, List.mem_replicate] at hx
  obtain ⟨j, hj, ⟨s, hs, rfl⟩ | ⟨-, rfl⟩⟩ := hx
  · exact .inr ⟨j, hj, s, hs, rfl⟩
  · exact .inl rfl

theorem isSpecificationValid_of_ne_nil {ext : List Int} (hne : ext ≠ []) :
    isSpecificationValid ext =
      .ok (decide (ext.length ≤ 512 ∧ ∀ x ∈ ext, x < 512)) := by
  by_cases hvalid : isSpecificationValid ext = .ok true
  · rw [hvalid, Except.ok.injEq, eq_comm, decide_eq_true_eq]
    exact (isSpecificationValid_eq_true.mp hvalid).2
  · have hfalse : ¬(ext.length ≤ 512 ∧ ∀ x ∈ ext, x < 512) :=
      fun h => hvalid (isSpecificationValid_eq_true.mpr ⟨hne, h⟩)
    rw [decide_eq_false hfalse]
    unfold isSpecificationValid at hvalid ⊢
    split
    · rename_i hsize
      rw [if_pos hsize] at hvalid
      cases hmax : ext.max? with
      | none => exact absurd (List.max?_eq_none_iff.mp hmax) hne
      | some largest =>
          simpa [hmax] using hvalid
    · rfl

/-- A burst with a full chunk is extended or refused, for its size or for an
entry behind the end of the buffer. -/
theorem extendSpecification_cases (n e : Nat) (spec : List Int)
    (recordSize junk : Int) (hchunk : 16 ≤ burstLength n e spec) :
    ∃ ext : List Int, ext.length = 16 * (burstLength n e spec / 16) ∧
      (∀ x ∈ ext, x ∈ burstStream n spec recordSize junk e) ∧
      (16 ∣ burstLength n e spec →
        ∀ x ∈ burstStream n spec recordSize junk e, x ∈ ext) ∧
      extendSpecification n spec recordSize junk e =
        if ext.length ≤ 512 ∧ ∀ x ∈ ext, x < 512 then .ok ext
        else .error (.runtimeError
          "Incorrect parameters created a specification which doesn't fit!") := by
  have hpushed := pushed_burst n spec recordSize junk e
  rw [← (length_burstStream :
    (burstStream n spec recordSize junk e).length = _)] at *
  generalize hb : (List.range n).foldl (insertRecord spec recordSize junk e)
    ⟨[], []⟩ = b at hpushed
  have hne : b.extended ≠ [] := by
    intro hnil
    have hlen := hpushed.length
    rw [hnil, List.length_nil] at hlen
    omega
  refine ⟨b.extended, hpushed.length, ?_, ?_, ?_⟩
  · intro x hx
    exact hpushed.perm.mem_iff.mp (List.mem_append_left _ hx)
  · intro hwhole x hx
    have hrest : b.chunk = [] := by
      rw [hpushed.chunk, Nat.mul_div_cancel' hwhole, List.drop_length]
    have hperm := hpushed.perm
    rw [hrest, List.append_nil] at hperm
    exact hperm.mem_iff.mpr hx
  · simp only [extendSpecification, Int.toNat_natCast, hb,
      isSpecificationValid_of_ne_nil hne, ok_bind, decide_eq_true_eq]

/-- The extension of a burst that fits. -/
theorem extendSpecification_fits {n e : Nat} {spec : List Int}
    (recordSize junk : Int) (hchunk : 16 ≤ burstLength n e spec)
    (hsize : burstLength n e spec < 528) (hjunk : junk < 512)
    (hentry : ∀ j < n, ∀ s ∈ spec,
      extendSelection (recordSize * (j : Nat)) s < 512) :
    ∃ ext, extendSpecification n spec recordSize junk e = .ok ext ∧
      ext.length = 16 * (burstLength n e spec / 16) ∧ ∀ x ∈ ext,
        x = junk ∨ ∃ j < n, ∃ s ∈ spec,
          x = extendSelection (recordSize * (j : Nat)) s := by
  obtain ⟨ext, hlen, hmem, -, hrun⟩ :=
    extendSpecification_cases n e spec recordSize junk hchunk
  have hlt : ∀ x ∈ ext, x < 512 := by
    intro x hx
    rcases mem_burstStream (hmem x hx) with rfl | ⟨j, hj, s, hs, rfl⟩
    · exact hjunk
    · exact hentry j hj s hs
  refine ⟨ext, ?_, hlen, fun x hx => mem_burstStream (hmem x hx)⟩
  rw [hrun, if_pos ⟨by omega, hlt⟩]

end Extension

/-! ## The crossbars stay in their configuration -/

/-- An entry of an extension is mirrored within its chunk. -/
theorem extendSelection_cases (recordSize j : Nat) {s : Int}
    (hs : s = -1 ∨ 0 ≤ s) :
    extendSelection ((recordSize : Int) * j) s = -1 ∧ s = -1 ∨
      ∃ k : Nat, s = k ∧ extendSelection ((recordSize : Int) * j) s =
        (mirrorIndex (j * recordSize + k) : Nat) := by
  rcases hs with rfl | hs
  · exact .inl ⟨rfl, rfl⟩
  · obtain ⟨k, rfl⟩ := Int.eq_ofNat_of_zero_le hs
    exact .inr ⟨k, rfl, extendSelection_natCast recordSize j k⟩

theorem mirrorIndex_lt {k m : Nat} : mirrorIndex k < 16 * m ↔ k < 16 * m := by
  simp only [mirrorIndex]
  omega

/-- The input loop only writes to the entries of its own cycles. -/
theorem configureInputLoop_total {ext : List Int}
    (xs : List DMACrossbarSetupData) (hlen : ext.length = 16 * xs.length)
    (hsign : ∀ x ∈ ext, x = -1 ∨ 0 ≤ x) :
    ∃ ys, (List.range ext.length).foldlM (configureInputStep ext) xs =
      .ok ys ∧ ys.length = xs.length := by
  refine forRange_total (fun _ (ys : List DMACrossbarSetupData) =>
    ys.length = xs.length) ext.length rfl ?_
  intro id ys hid hys
  have hread : ext[id]? = some ext[id] := List.getElem?_eq_getElem hid
  simp only [configureInputStep, readAt, hread, ok_bind]
  rcases hsign ext[id] (List.getElem_mem hid) with hx | hx
  · exact ⟨ys, by rw [hx]; rfl, hys⟩
  · obtain ⟨target, htarget⟩ := Int.eq_ofNat_of_zero_le hx
    obtain ⟨zs, hzs, hzlen, -⟩ := setNextInputConfiguration_total
      (show id / 16 < ys.length by omega) target
    refine ⟨zs, ?_, by omega⟩
    rw [if_pos (by omega), htarget, hzs]

/-- The output loop only writes to the entries of the records. -/
theorem configureOutputSteps_total {ext : List Int} {m : Nat}
    (xs : List DMACrossbarSetupData) (hlen : ext.length = 16 * m)
    (htarget : ∀ x ∈ ext, x = -1 ∨ x = -2 ∨
      ∃ k : Nat, x = (mirrorIndex k : Nat) ∧ k / 16 < xs.length) :
    ∃ s, (List.range ext.length).foldlM (configureOutputStep ext) (xs, 0) =
      .ok s ∧ s.2 ≤ ext.length ∧ s.1.length = xs.length := by
  refine forRange_total (fun id (s : List DMACrossbarSetupData × Nat) =>
    s.2 ≤ id ∧ s.1.length = xs.length) ext.length ⟨Nat.le_refl 0, rfl⟩ ?_
  intro id s hid hstate
  obtain ⟨hjunk, hslen⟩ := hstate
  have hmirror : mirrorIndex id < ext.length := by
    rw [hlen, mirrorIndex_lt, ← hlen]
    exact hid
  have hread : ext[mirrorIndex id]? = some ext[mirrorIndex id] :=
    List.getElem?_eq_getElem hmirror
  simp only [configureOutputStep, getReverseIndex_natCast, indexOf_natCast,
    ok_bind, readAt, hread]
  rcases htarget _ (List.getElem_mem hmirror) with hx | hx | ⟨k, hx, hk⟩
  · exact ⟨s, by rw [hx]; rfl, by omega, hslen⟩
  · exact ⟨(s.1, s.2 + 1), by rw [hx]; rfl, Nat.succ_le_succ hjunk, hslen⟩
  · obtain ⟨ys, hys, hyslen, -⟩ := setNextOutputConfiguration_total
      (id - s.2) (hslen ▸ hk)
    refine ⟨(ys, s.2), ?_, Nat.le_succ_of_le hjunk, by rw [hyslen, hslen]⟩
    have hcurrent : (id : Int) - (s.2 : Int) = ((id - s.2 : Nat) : Int) := by
      omega
    rw [hx, hcurrent, getReverseIndex_natCast, hys, if_neg (by omega),
      if_neg (by omega), ok_bind]

section Crossbars

variable {d : DMASetupData} {n slot recordSize : Nat} {sel : List Int}

/-- An input whose burst fits the buffer is configured. -/
theorem configureInput_total (hempty : d.crossbarSetupData = [])
    (hrecords : d.recordsPerDdrBurst = n) (hslot : InputSlot d n sel slot)
    (hsel : ∀ s ∈ sel, s = -1 ∨ 0 ≤ s) (hclash : isInputClashing sel = false)
    (hchunk : 16 ≤ burstLength n slot sel)
    (hsize : burstLength n slot sel < 528)
    (hentry : ∀ j < n, ∀ s ∈ sel, 0 ≤ s → recordSize * (j : Int) + s < 512) :
    ∃ d', configureInputCrossbarSetupData sel d recordSize = .ok d' := by
  obtain ⟨-, hextend⟩ := extend_of_inputSlot recordSize hslot
  obtain ⟨ext, hext, hlen, hmem⟩ := extendSpecification_fits
    (recordSize : Int) (-1) hchunk hsize (by decide) (by
      intro j hj s hs
      have hlt := hentry j hj s hs
      rcases extendSelection_cases recordSize j (hsel s hs) with
        ⟨heq, -⟩ | ⟨k, rfl, heq⟩
      · rw [heq]
        decide
      · rw [heq]
        have hlt := hlt (Int.natCast_nonneg k)
        have hk : j * recordSize + k < 16 * 32 := by
          rw [Int.mul_comm] at hlt
          exact_mod_cast hlt
        exact_mod_cast mirrorIndex_lt.mpr hk)
  have hsign : ∀ x ∈ ext, x = -1 ∨ 0 ≤ x := by
    intro x hx
    rcases hmem x hx with rfl | ⟨j, -, s, hs, rfl⟩
    · exact .inl rfl
    · rcases extendSelection_cases recordSize j (hsel s hs) with
        ⟨heq, -⟩ | ⟨k, rfl, heq⟩
      · exact .inl heq
      · right
        rw [heq]
        omega
  obtain ⟨ys, hys, -⟩ := configureInputLoop_total
    (setUpEmptyCrossbarSetupData [] (ext.length / kDatapathWidth : Nat))
    (by
      simp only [setUpEmptyCrossbarSetupData, kDatapathWidth_eq, List.length_nil,
        Nat.cast_zero, Int.sub_zero, Int.toNat_natCast, List.nil_append,
        List.length_replicate]
      omega) hsign
  refine ⟨{ d with crossbarSetupData := ys }, ?_⟩
  simp only [configureInputCrossbarSetupData, hclash, Bool.false_eq_true,
    if_false, hrecords, hextend, hext, hempty, ok_bind, hys]

/-- An input whose burst does not fit the buffer is refused. -/
theorem configureInput_refused (hrecords : d.recordsPerDdrBurst = n)
    (hslot : InputSlot d n sel slot)
    (hclash : isInputClashing sel = false)
    (hchunk : 16 ≤ burstLength n slot sel)
    (hlarge : 528 ≤ burstLength n slot sel ∨
      sel.length ≤ slot ∧ ∃ j < n, ∃ s ∈ sel, 0 ≤ s ∧
        512 ≤ recordSize * (j : Int) + s) :
    ∃ what, configureInputCrossbarSetupData sel d recordSize =
      .error (.runtimeError what) := by
  obtain ⟨hslotChunks, hextend⟩ := extend_of_inputSlot recordSize hslot
  obtain ⟨ext, hlen, -, hmem, hrun⟩ :=
    extendSpecification_cases n slot sel recordSize (-1) hchunk
  have hlarge : ¬(ext.length ≤ 512 ∧ ∀ x ∈ ext, x < 512) := by
    rintro ⟨hsize, hlt⟩
    rcases hlarge with hlarge | ⟨hfit, j, hj, s, hs, hs0, hlarge⟩
    · omega
    · obtain ⟨k, rfl⟩ := Int.eq_ofNat_of_zero_le hs0
      have hwhole : 16 ∣ burstLength n slot sel := by
        rw [burstLength, Nat.max_eq_right hfit]
        exact Nat.dvd_trans hslotChunks (Nat.dvd_mul_left slot n)
      have hx := hlt _ (hmem hwhole (extendSelection (recordSize * j) k) (by
        simp only [burstStream, List.mem_flatMap, List.mem_range, recordBlock,
          List.mem_append, List.mem_map]
        exact ⟨j, hj, .inl ⟨k, hs, rfl⟩⟩))
      rw [extendSelection_natCast] at hx
      have hk : ¬j * recordSize + k < 16 * 32 := by
        rw [Int.mul_comm] at hlarge
        have : 512 ≤ j * recordSize + k := by exact_mod_cast hlarge
        omega
      exact hk (mirrorIndex_lt.mp (by exact_mod_cast hx))
  refine ⟨"Incorrect parameters created a specification which doesn't fit!", ?_⟩
  simp only [configureInputCrossbarSetupData, hclash, Bool.false_eq_true,
    if_false, hrecords, hextend, hrun, hlarge, error_bind]

/-- An output whose records fit their chunks is configured. -/
theorem configureOutput_total {c : Nat} (hempty : d.crossbarSetupData = [])
    (hrecords : d.recordsPerDdrBurst = n) (hchunks : d.chunksPerRecord = c)
    (hn : 0 < n) (hc : 0 < c) (hfit : c * n ≤ 32)
    (hsel : ∀ s ∈ sel, s = -1 ∨ 0 ≤ s ∧ s < 16 * c)
    (hlen : sel.length ≤ 16 * c) (hclash : isOutputClashing sel = false) :
    ∃ d', configureOutputCrossbarSetupData sel d = .ok d' := by
  have hne : (n : Int) ≠ 0 := by omega
  have hslot : 16 * c ≤ 512 / n := by
    rw [Nat.le_div_iff_mul_le hn, Nat.mul_assoc]
    omega
  have hburst : burstLength n (512 / n) sel = n * (512 / n) := by
    rw [burstLength, Nat.max_eq_right (by omega)]
  have hn32 : n ≤ 32 := Nat.le_trans (Nat.le_mul_of_pos_left n hc) hfit
  have hle : n * (512 / n) ≤ 512 := Nat.mul_div_le 512 n
  have hlt : 512 < n * (512 / n) + n := Nat.lt_mul_div_succ 512 hn
  have hplace : ∀ j < n, ∀ k < 16 * c, j * (16 * c) + k < 16 * (c * n) := by
    intro j hj k hk
    calc j * (16 * c) + k < (j + 1) * (16 * c) := by rw [Nat.add_mul]; omega
      _ ≤ n * (16 * c) := Nat.mul_le_mul_right _ hj
      _ = 16 * (c * n) := by rw [Nat.mul_comm n, Nat.mul_assoc]
  have hselected : ∀ j < n, ∀ s ∈ sel,
      extendSelection (((16 * c : Nat) : Int) * (j : Nat)) s = -1 ∨
        ∃ k : Nat, k < 16 * (c * n) ∧
          extendSelection (((16 * c : Nat) : Int) * (j : Nat)) s =
            (mirrorIndex k : Nat) := by
    intro j hj s hs
    rcases extendSelection_cases (16 * c) j ((hsel s hs).imp_right (·.1)) with
      ⟨heq, -⟩ | ⟨k, rfl, heq⟩
    · exact .inl heq
    · rcases hsel _ hs with h | h
      · omega
      · exact .inr ⟨_, hplace j hj k (by omega), heq⟩
  obtain ⟨ext, hext, hextlen, hmem⟩ := extendSpecification_fits
    (n := n) (e := 512 / n) ((16 * c : Nat) : Int) (-2)
    (by rw [hburst]; omega) (by rw [hburst]; omega) (by decide) (by
      intro j hj s hs
      rcases hselected j hj s hs with heq | ⟨k, hk, heq⟩
      · rw [heq]
        decide
      · rw [heq]
        have hk512 : mirrorIndex k < 16 * 32 := mirrorIndex_lt.mpr (by omega)
        exact_mod_cast hk512)
  have hextend : extendOutputSpecification sel (n : Int) (c : Int) =
      .ok ext := by
    rw [extendOutputSpecification, divide, if_neg hne, ok_bind, ← hext,
      kDatapathWidth_eq, kDdrBurstSize_eq, ← Int.ofNat_tdiv,
      ← Int.natCast_mul, Nat.mul_comm c]
  have hsetup : (setUpEmptyCrossbarSetupData [] ((c : Int) * n)).length =
      c * n := by
    rw [setUpEmptyCrossbarSetupData, List.nil_append, List.length_nil,
      Nat.cast_zero, Int.sub_zero, ← Int.natCast_mul, Int.toNat_natCast,
      List.length_replicate]
  have hloop : ∀ xs : List DMACrossbarSetupData, xs.length = c * n →
      ∃ s, (List.range ext.length).foldlM (configureOutputStep ext) (xs, 0) =
        .ok s ∧ s.1.length = c * n := by
    intro xs hxs
    obtain ⟨s, hs, -, hslen⟩ := configureOutputSteps_total xs hextlen (by
      intro x hx
      rcases hmem x hx with rfl | ⟨j, hj, s, hs, rfl⟩
      · exact .inr (.inl rfl)
      · rcases hselected j hj s hs with heq | ⟨k, hk, heq⟩
        · exact .inl heq
        · exact .inr (.inr ⟨k, heq, by omega⟩))
    exact ⟨s, hs, hslen.trans hxs⟩
  simp only [configureOutputCrossbarSetupData, hclash, Bool.false_eq_true,
    if_false, hextend, ok_bind, hempty, hchunks, hrecords]
  by_cases hfull : needsOverwriteCheck ext = true
  · obtain ⟨s, hs, hslen⟩ := hloop (fillSetupDataWithNegativePositions
      (setUpEmptyCrossbarSetupData [] ((c : Int) * n)))
      (by rw [fillSetupDataWithNegativePositions, List.length_map, hsetup])
    obtain ⟨zs, hzs, -⟩ := allocateFreeChunks_total
      (show s.1.length ≤ 32 by omega)
    simp only [hfull, if_true, hs, ok_bind, hzs]
    exact ⟨_, rfl⟩
  · obtain ⟨s, hs, hslen⟩ := hloop
      (setUpEmptyCrossbarSetupData [] ((c : Int) * n)) hsetup
    simp only [hfull, Bool.false_eq_true, if_false, hs, ok_bind,
      findNextPowerOfTwo_natCast hc]
    obtain ⟨ys, hys, -⟩ := insertMissing_total
      (((2 ^ Nat.clog 2 c : Nat) : Int) - c).toNat hc
      (show n ≤ s.1.length by rw [hslen]; exact Nat.le_mul_of_pos_left n hc)
      (Nat.le_of_eq hslen.symm)
    split
    · rw [← hslen] at hys
      rw [hys, ok_bind]
      exact ⟨_, rfl⟩
    · exact ⟨_, rfl⟩

end Crossbars

/-! ## One stream -/

/-- What the callers promise of the description of a stream. -/
structure WellDescribed (s : StreamInitData) : Prop where
  recordSize : 0 ≤ s.streamRecordSize
  selection : ∀ x ∈ s.streamSpecification,
    x = -1 ∨ 0 ≤ x ∧ x < s.streamRecordSize
  channels : s.maxChannelCount ≠ -1 →
    0 < s.maxChannelCount ∧ 0 < s.recordsPerChannel

/-- Does the assertion on the selection fail? -/
def clashes (isInputStream : Bool) (s : StreamInitData) : Bool :=
  if isInputStream then isInputClashing (streamSpecificationOf s)
  else isOutputClashing (streamSpecificationOf s)

/-- The sort buffer has room for the records of a multi-channel stream. -/
def Sortable (isInputStream : Bool) (s : StreamInitData) : Prop :=
  SortFits (recordChunks isInputStream s).toNat s.streamRecordSize

instance (isInputStream : Bool) (s : StreamInitData) :
    Decidable (Sortable isInputStream s) :=
  inferInstanceAs (Decidable (SortFits _ _))

/-- The extended selection of an input is larger than the buffer, or it selects
from behind its end. -/
def BurstTooLarge (s : StreamInitData) : Prop :=
  (s.maxChannelCount = -1 ∧
    528 ≤ recordsInBurst s.streamRecordSize * selectedCount s) ∨
  (s.maxChannelCount ≠ -1 ∧ ∃ x ∈ streamSpecificationOf s, 0 ≤ x ∧
    512 ≤ s.streamRecordSize *
      ((recordsPerFetch (recordChunks true s).toNat : Int) - 1) + x)

instance (s : StreamInitData) : Decidable (BurstTooLarge s) :=
  inferInstanceAs (Decidable (_ ∨ _))

/-- The stream is refused with an exception of the set-up. -/
def Throws (isInputStream : Bool) (s : StreamInitData) : Prop :=
  Refused isInputStream s ∨
  (s.maxChannelCount ≠ -1 ∧ ¬Sortable isInputStream s) ∨
  (isInputStream = true ∧ BurstTooLarge s)

instance (isInputStream : Bool) (s : StreamInitData) :
    Decidable (Throws isInputStream s) :=
  inferInstanceAs (Decidable (_ ∨ _))

/-- The sizes of a single-channel stream for which the arithmetic of its burst
is defined. -/
def SizeInDomain (isInputStream : Bool) (s : StreamInitData) : Prop :=
  if isInputStream then 1 ≤ s.streamRecordSize ∧ s.streamRecordSize ≤ 512
  else recordChunks isInputStream s ≤ 32

instance (isInputStream : Bool) (s : StreamInitData) :
    Decidable (SizeInDomain isInputStream s) := by
  unfold SizeInDomain
  infer_instance

/-- The set-up of the stream stays in its arithmetic domain: it is refused in
front of the arithmetic, or all of the arithmetic is defined. -/
def InDomain (isInputStream : Bool) (s : StreamInitData) : Prop :=
  Refused isInputStream s ∨
  0 < recordChunks isInputStream s ∧
    (s.maxChannelCount = -1 → SizeInDomain isInputStream s) ∧
    (s.maxChannelCount = -1 ∨ Sortable isInputStream s →
      clashes isInputStream s = false)

instance (isInputStream : Bool) (s : StreamInitData) :
    Decidable (InDomain isInputStream s) :=
  inferInstanceAs (Decidable (_ ∨ _))

section Stream

variable {isInputStream : Bool} {s : StreamInitData}

/-- There is a channel to read from, whatever the number of records. -/
theorem setMultiChannelSetupData_total (h : WellDescribed s)
    (hmulti : s.maxChannelCount ≠ -1) :
    ∃ channels, setMultiChannelSetupData s = .ok (s.maxChannelCount, channels) ∧
      channels ≠ [] := by
  obtain ⟨hmax, hrecords⟩ := h.channels hmulti
  have hne : s.recordsPerChannel ≠ 0 := by omega
  refine ⟨_, by
    simp only [setMultiChannelSetupData, divide, hne, if_false, ok_bind]; rfl, ?_⟩
  intro hnil
  have hlen := congrArg List.length hnil
  simp only [List.length_append, List.length_map, List.length_range,
    List.length_nil] at hlen
  omega

theorem channels_total (isInputStream : Bool) (h : WellDescribed s) :
    ∃ channels,
      (if s.maxChannelCount ≠ -1 then setMultiChannelSetupData s
      else .ok (setSingleChannelSetupData isInputStream s)) =
        .ok (s.maxChannelCount, channels) ∧ channels ≠ [] := by
  by_cases hmulti : s.maxChannelCount ≠ -1
  · rw [if_pos hmulti]
    exact setMultiChannelSetupData_total h hmulti
  · rw [if_neg hmulti, setSingleChannelSetupData, not_not.mp hmulti]
    exact ⟨_, rfl, List.cons_ne_nil _ _⟩

theorem setUpDMAIOStream_cases {d : DMAStreamSetupData}
    (hchannels : d.channelSetupData ≠ []) :
    (0 < d.recordsPerDdrBurst ∧ ∃ writes, setUpDMAIOStream d = .ok writes) ∨
    (d.recordsPerDdrBurst ≤ 0 ∧ setUpDMAIOStream d = .error .undefined) := by
  obtain ⟨channel, rest, hchannel⟩ := List.exists_cons_of_ne_nil hchannels
  by_cases hpos : 0 < d.recordsPerDdrBurst
  · left
    refine ⟨hpos, ?_⟩
    simp only [setUpDMAIOStream, setControllerParams, log2, hpos, if_true,
      ok_bind, readAt, hchannel, List.getElem?_cons_zero]
    split
    · split <;> exact ⟨_, rfl⟩
    · exact ⟨_, rfl⟩
  · right
    refine ⟨by omega, ?_⟩
    simp only [setUpDMAIOStream, setControllerParams, log2, hpos, if_false,
      error_bind]

/-- The set-up of a stream behind the checks of its chunks. -/
theorem setupStream_eq (h : WellDescribed s) (bufferSize : Int) (i : Nat)
    (hrefused : ¬Refused isInputStream s)
    (hchunks : 0 < recordChunks isInputStream s) :
    ∃ setup : Int → DMAStreamSetupData,
      (∀ n, (setup n).recordsPerDdrBurst = n ∧
        (setup n).chunksPerRecord = recordChunks isInputStream s ∧
        (setup n).crossbarSetupData = [] ∧
        (setup n).isInputStream = isInputStream ∧
        (setup n).activeChannelCount = s.maxChannelCount ∧
        (setup n).channelSetupData ≠ []) ∧
      setupStream isInputStream bufferSize s i = (do
        let n ← recordsPerBurst isInputStream (s.maxChannelCount ≠ -1)
          (recordChunks isInputStream s) s.streamRecordSize
        let ioWrites ← setUpDMAIOStream (setup n)
        let crossbar ← calculateCrossbarSetupData (setup n).toDMASetupData
          s.streamRecordSize (streamSpecificationOf s)
        let d := { setup n with toDMASetupData := crossbar }
        .ok (d, ioWrites ++ setUpDMACrossbarsForStream d)) := by
  obtain ⟨channels, hchannels, hne⟩ := channels_total isInputStream h
  have hok : chunksPerRecordOf isInputStream s =
      .ok (recordChunks isInputStream s) := by
    rcases chunksPerRecordOf_cases isInputStream s with ⟨hr, -⟩ | ⟨-, hok⟩
    · exact absurd hr hrefused
    · exact hok
  obtain ⟨ids, hids⟩ : ∃ ids, (List.range kDatapathLength).mapM
      (recordChunkId (recordChunks isInputStream s)) = .ok ids := by
    rcases recordChunkIds_cases (recordChunks isInputStream s) with
      ⟨-, hids⟩ | ⟨hle, -⟩
    · exact hids
    · omega
  refine ⟨fun n =>
    { recordsPerDdrBurst := n
      chunksPerRecord := recordChunks isInputStream s
      crossbarSetupData := []
      isInputStream := isInputStream
      activeChannelCount := s.maxChannelCount
      streamId := s.streamId
      ddrBurstLength := calculateDDRBurstLength s.streamRecordSize n
      bufferStart := bufferSize * i
      bufferEnd := bufferSize * i + bufferSize - 1
      recordChunkIds := ids
      channelSetupData := channels },
    fun n => ⟨rfl, rfl, rfl, rfl, rfl, hne⟩, ?_⟩
  simp only [setupStream, hchannels, ok_bind, hok, calculateDMAStreamSetupData,
    hids, bind_assoc]

/-- A multi-channel stream has at most three chunks. -/
theorem Sortable.chunks (h : Sortable isInputStream s)
    (hchunks : 0 < recordChunks isInputStream s) :
    ∃ c : Nat, recordChunks isInputStream s = c ∧ (c = 1 ∨ c = 2 ∨ c = 3) := by
  obtain ⟨c, hc⟩ := Int.eq_ofNat_of_zero_le hchunks.le
  refine ⟨c, hc, ?_⟩
  rw [Sortable, SortFits, hc, Int.toNat_natCast] at h
  omega

/-- The records of the burst of a stream whose arithmetic is defined. -/
theorem recordsPerBurst_cases
    (hchunks : 0 < recordChunks isInputStream s) :
    (s.maxChannelCount ≠ -1 ∧ Sortable isInputStream s ∧
      recordsPerBurst isInputStream (s.maxChannelCount ≠ -1)
        (recordChunks isInputStream s) s.streamRecordSize =
          .ok (recordsPerFetch (recordChunks isInputStream s).toNat : Int)) ∨
    (s.maxChannelCount ≠ -1 ∧ ¬Sortable isInputStream s ∧ ∃ what,
      recordsPerBurst isInputStream (s.maxChannelCount ≠ -1)
        (recordChunks isInputStream s) s.streamRecordSize =
          .error (.runtimeError what)) ∨
    (s.maxChannelCount = -1 ∧ SizeInDomain isInputStream s ∧ ∃ k ≤ 5,
      recordsPerBurst isInputStream (s.maxChannelCount ≠ -1)
        (recordChunks isInputStream s) s.streamRecordSize =
          .ok ((2 ^ k : Nat) : Int) ∧
      (isInputStream = true →
        2 ^ k = recordsInBurst s.streamRecordSize ∧
        ((2 ^ k : Nat) : Int) * s.streamRecordSize ≤ 512) ∧
      (isInputStream = false →
        (recordChunks isInputStream s).toNat * 2 ^ k ≤ 32)) ∨
    (s.maxChannelCount = -1 ∧ ¬SizeInDomain isInputStream s ∧
      (recordsPerBurst isInputStream (s.maxChannelCount ≠ -1)
        (recordChunks isInputStream s) s.streamRecordSize =
          .error .undefined ∨
      recordsPerBurst isInputStream (s.maxChannelCount ≠ -1)
        (recordChunks isInputStream s) s.streamRecordSize = .ok 0)) := by
  obtain ⟨c, hc⟩ := Int.eq_ofNat_of_zero_le hchunks.le
  have hcpos : 0 < c := by omega
  rw [Sortable, hc, Int.toNat_natCast]
  by_cases hmulti : s.maxChannelCount ≠ -1
  · rw [decide_eq_true hmulti, recordsPerBurst, if_pos rfl]
    rcases recordCountPerFetch_cases hcpos s.streamRecordSize with
      ⟨hfits, hok⟩ | ⟨hfits, herror⟩
    · exact .inl ⟨hmulti, hfits, hok⟩
    · exact .inr (.inl ⟨hmulti, hfits, herror⟩)
  · right
    right
    rw [decide_eq_false hmulti, recordsPerBurst, if_neg (by decide)]
    have hsingle : s.maxChannelCount = -1 := not_not.mp hmulti
    cases isInputStream with
    | true =>
        rw [SizeInDomain, if_pos rfl, if_pos rfl]
        rcases findMinViable_cases s.streamRecordSize with
          ⟨hlow, hhigh, hok, hfits⟩ | ⟨hrange, hundefined⟩
        · exact .inl ⟨hsingle, ⟨hlow, hhigh⟩, burstExponent s.streamRecordSize,
            Nat.min_le_left 5 _, hok, fun _ => ⟨rfl, hfits⟩, by simp⟩
        · exact .inr ⟨hsingle, hrange, .inl hundefined⟩
    | false =>
        rw [SizeInDomain, if_neg (by decide), if_neg (by decide), hc]
        obtain ⟨np2, hnp2, hle, ⟨hsmall, k, hk, hmul, hdivide⟩ |
          ⟨hlarge, hdivide⟩⟩ := outputBurst_cases hcpos
        · refine .inl ⟨hsingle, by omega, k, hk, ?_, by simp, fun _ => ?_⟩
          · rw [hnp2, ok_bind, hdivide]
          · rw [Nat.mul_comm, ← hmul]
            exact Nat.mul_le_mul_left _ hle
        · refine .inr ⟨hsingle, by omega, .inr ?_⟩
          rw [hnp2, ok_bind, hdivide]

theorem mem_streamSpecificationOf (h : WellDescribed s) :
    ∀ x ∈ streamSpecificationOf s,
      x = -1 ∨ 0 ≤ x ∧ x < s.streamRecordSize := by
  unfold streamSpecificationOf
  split
  · intro x hx
    rw [List.mem_map] at hx
    obtain ⟨k, hk, rfl⟩ := hx
    rw [List.mem_range] at hk
    exact .inr (by omega)
  · exact h.selection

theorem length_le_chunks {c : Nat} (hc : recordChunks isInputStream s = c) :
    (streamSpecificationOf s).length ≤ 16 * c := by
  rw [recordChunks, calculateChunksPerRecord_spec, selectedCount_eq] at hc
  split at hc <;> omega

/-- The crossbars of an output whose records fit its burst. -/
theorem outputCrossbar_total (h : WellDescribed s) {d : DMASetupData}
    {c n : Nat} (hrefused : ¬Refused false s)
    (hempty : d.crossbarSetupData = []) (hrecords : d.recordsPerDdrBurst = n)
    (hchunks : d.chunksPerRecord = recordChunks false s)
    (hinput : d.isInputStream = false) (hc : recordChunks false s = c)
    (hcpos : 0 < c) (hn : 0 < n) (hfit : c * n ≤ 32)
    (hclash : clashes false s = false) :
    ∃ d', calculateCrossbarSetupData d s.streamRecordSize
      (streamSpecificationOf s) = .ok d' := by
  have hsize := recordSize_le_chunks hrefused
  rw [calculateCrossbarSetupData, hinput, if_neg (by decide)]
  refine configureOutput_total hempty hrecords (hchunks.trans hc) hn hcpos hfit
    ?_ (length_le_chunks hc) hclash
  intro x hx
  have := mem_streamSpecificationOf h x hx
  omega

/-- The crossbars of an input: the burst fits or is refused. -/
theorem inputCrossbar_cases (h : WellDescribed s) {d : DMASetupData}
    {n slot : Nat} (hempty : d.crossbarSetupData = [])
    (hrecords : d.recordsPerDdrBurst = n) (hinput : d.isInputStream = true)
    (hslot : InputSlot d n (streamSpecificationOf s) slot)
    (hclash : clashes true s = false)
    (hchunk : 16 ≤ burstLength n slot (streamSpecificationOf s))
    (hlarge : BurstTooLarge s ↔
      528 ≤ burstLength n slot (streamSpecificationOf s) ∨
        (streamSpecificationOf s).length ≤ slot ∧ ∃ j < n,
          ∃ x ∈ streamSpecificationOf s, 0 ≤ x ∧
            512 ≤ s.streamRecordSize * (j : Int) + x)
    (hsmall : ¬BurstTooLarge s → ∀ j < n, ∀ x ∈ streamSpecificationOf s,
      0 ≤ x → s.streamRecordSize * (j : Int) + x < 512) :
    (¬BurstTooLarge s ∧ ∃ d', calculateCrossbarSetupData d s.streamRecordSize
      (streamSpecificationOf s) = .ok d') ∨
    (BurstTooLarge s ∧ ∃ what, calculateCrossbarSetupData d s.streamRecordSize
      (streamSpecificationOf s) = .error (.runtimeError what)) := by
  obtain ⟨size, hsize⟩ := Int.eq_ofNat_of_zero_le h.recordSize
  rw [calculateCrossbarSetupData, hinput, if_pos rfl]
  rw [hsize] at hlarge hsmall ⊢
  by_cases htoo : BurstTooLarge s
  · exact .inr ⟨htoo, configureInput_refused hrecords hslot hclash hchunk
      (hlarge.mp htoo)⟩
  · refine .inl ⟨htoo, configureInput_total hempty hrecords hslot ?_ hclash
      hchunk ?_ (hsmall htoo)⟩
    · intro x hx
      exact (mem_streamSpecificationOf h x hx).imp_right (·.1)
    · by_contra hge
      exact htoo (hlarge.mpr (.inl (by omega)))

/-- The crossbars of a single-channel input. -/
theorem singleInputCrossbar_cases (h : WellDescribed s) {d : DMASetupData}
    {k : Nat} (hk : k ≤ 5) (hrecords : 2 ^ k = recordsInBurst s.streamRecordSize)
    (hfits : ((2 ^ k : Nat) : Int) * s.streamRecordSize ≤ 512)
    (hempty : d.crossbarSetupData = [])
    (hburst : d.recordsPerDdrBurst = ((2 ^ k : Nat) : Int))
    (hinput : d.isInputStream = true) (hsingle : s.maxChannelCount = -1)
    (hchannels : d.activeChannelCount = -1) (hclash : clashes true s = false) :
    (¬BurstTooLarge s ∧ ∃ d', calculateCrossbarSetupData d s.streamRecordSize
      (streamSpecificationOf s) = .ok d') ∨
    (BurstTooLarge s ∧ ∃ what, calculateCrossbarSetupData d s.streamRecordSize
      (streamSpecificationOf s) = .error (.runtimeError what)) := by
  have hwhole : 2 ^ k * (512 / 2 ^ k) = 512 := by
    interval_cases k <;> rfl
  have hburstLength : burstLength (2 ^ k) (512 / 2 ^ k)
      (streamSpecificationOf s) =
        max (2 ^ k * (streamSpecificationOf s).length) 512 := by
    rw [burstLength, ← Nat.mul_max_mul_left, hwhole]
  have hinside : ∀ j : Nat, j < 2 ^ k → ∀ x ∈ streamSpecificationOf s,
      0 ≤ x → s.streamRecordSize * (j : Int) + x < 512 := by
    intro j hj x hx hx0
    have hlt : x < s.streamRecordSize := by
      rcases mem_streamSpecificationOf h x hx with hneg | hrange
      · omega
      · exact hrange.2
    have hmul : s.streamRecordSize * ((j : Int) + 1) ≤
        s.streamRecordSize * ((2 ^ k : Nat) : Int) :=
      Int.mul_le_mul_of_nonneg_left (by omega) h.recordSize
    rw [Int.mul_comm s.streamRecordSize ((2 ^ k : Nat) : Int), Int.mul_add,
      Int.mul_one] at hmul
    omega
  refine inputCrossbar_cases h hempty hburst hinput
    (.singleChannel k hchannels hk rfl) hclash (by omega) ?_
    (fun _ => hinside)
  rw [hburstLength, BurstTooLarge, selectedCount_eq, ← hrecords]
  constructor
  · rintro (⟨-, hlarge⟩ | ⟨hmulti, -⟩)
    · exact .inl (by omega)
    · exact absurd hsingle hmulti
  · rintro (hlarge | ⟨-, j, hj, x, hx, hx0, hlarge⟩)
    · exact .inl ⟨hsingle, by omega⟩
    · have := hinside j hj x hx hx0
      omega

/-- The crossbars of a multi-channel input. -/
theorem multiInputCrossbar_cases (h : WellDescribed s) {d : DMASetupData}
    (hsort : Sortable true s) (hpos : 0 < recordChunks true s)
    (hempty : d.crossbarSetupData = [])
    (hburst : d.recordsPerDdrBurst =
      (recordsPerFetch (recordChunks true s).toNat : Int))
    (hchunks : d.chunksPerRecord = recordChunks true s)
    (hinput : d.isInputStream = true) (hmulti : s.maxChannelCount ≠ -1)
    (hchannels : d.activeChannelCount ≠ -1) (hclash : clashes true s = false) :
    (¬BurstTooLarge s ∧ ∃ d', calculateCrossbarSetupData d s.streamRecordSize
      (streamSpecificationOf s) = .ok d') ∨
    (BurstTooLarge s ∧ ∃ what, calculateCrossbarSetupData d s.streamRecordSize
      (streamSpecificationOf s) = .error (.runtimeError what)) := by
  obtain ⟨c, hc, hcases⟩ := hsort.chunks hpos
  have hlen := length_le_chunks hc
  have hn := recordsPerFetch_pos c
  have hbound : ∃ slot, 2 ^ Nat.clog 2 c = slot ∧ c ≤ slot ∧
      16 ≤ recordsPerFetch c * (16 * slot) ∧
      recordsPerFetch c * (16 * slot) < 528 := by
    rcases hcases with rfl | rfl | rfl
    · exact ⟨1, by decide, by decide, by decide, by decide⟩
    · exact ⟨2, by decide, by decide, by decide, by decide⟩
    · exact ⟨4, by decide, by decide, by decide, by decide⟩
  obtain ⟨slot, hslot, hle, hlow, hhigh⟩ := hbound
  have hfit : (streamSpecificationOf s).length ≤ 16 * slot := by omega
  have hburstLength : burstLength (recordsPerFetch c) (16 * slot)
      (streamSpecificationOf s) = recordsPerFetch c * (16 * slot) := by
    rw [burstLength, Nat.max_eq_right hfit]
  have hspec : calculateChunksPerRecord (streamSpecificationOf s).length =
      (c : Int) := by
    rw [← hc, recordChunks, if_pos rfl]
  rw [hc, Int.toNat_natCast] at hburst
  have hiff : BurstTooLarge s ↔ ∃ j < recordsPerFetch c,
      ∃ x ∈ streamSpecificationOf s, 0 ≤ x ∧
        512 ≤ s.streamRecordSize * (j : Int) + x := by
    rw [BurstTooLarge, hc, Int.toNat_natCast]
    constructor
    · rintro (⟨hsingle, -⟩ | ⟨-, x, hx, hx0, hlarge⟩)
      · exact absurd hsingle hmulti
      · refine ⟨recordsPerFetch c - 1, by omega, x, hx, hx0, ?_⟩
        rwa [Nat.cast_sub (by omega), Nat.cast_one]
    · rintro ⟨j, hj, x, hx, hx0, hlarge⟩
      have hmul : s.streamRecordSize * (j : Int) ≤
          s.streamRecordSize * ((recordsPerFetch c : Int) - 1) :=
        Int.mul_le_mul_of_nonneg_left (by omega) h.recordSize
      exact .inr ⟨hmulti, x, hx, hx0, by omega⟩
  refine inputCrossbar_cases h hempty hburst hinput
    (.multiChannel slot hchannels (hchunks.trans (hc.trans hspec.symm)) ?_)
    hclash (by omega) ?_ ?_
  · rw [hspec, findNextPowerOfTwo_natCast (by omega), hslot]
  · rw [hiff, hburstLength]
    constructor
    · exact fun hlarge => .inr ⟨hfit, hlarge⟩
    · rintro (hlarge | ⟨-, hlarge⟩)
      · omega
      · exact hlarge
  · intro hsmall j hj x hx hx0
    by_contra hge
    exact hsmall (hiff.mpr ⟨j, hj, x, hx, hx0, by omega⟩)

/-- The crossbars of a stream with a defined burst: the assertion fails, or
the burst is refused, or the stream is configured. -/
theorem crossbar_cases (h : WellDescribed s) {d : DMASetupData} {n : Int}
    (hrefused : ¬Refused isInputStream s)
    (hpos : 0 < recordChunks isInputStream s)
    (hrecords : recordsPerBurst isInputStream (s.maxChannelCount ≠ -1)
      (recordChunks isInputStream s) s.streamRecordSize = .ok n)
    (hn : 0 < n) (hburst : d.recordsPerDdrBurst = n)
    (hchunks : d.chunksPerRecord = recordChunks isInputStream s)
    (hempty : d.crossbarSetupData = [])
    (hinput : d.isInputStream = isInputStream)
    (hchannels : d.activeChannelCount = s.maxChannelCount) :
    (clashes isInputStream s = true ∧ calculateCrossbarSetupData d
      s.streamRecordSize (streamSpecificationOf s) =
        .error .assertionFailed) ∨
    (clashes isInputStream s = false ∧ (isInputStream = true ∧ BurstTooLarge s) ∧
      ∃ what, calculateCrossbarSetupData d s.streamRecordSize
        (streamSpecificationOf s) = .error (.runtimeError what)) ∨
    (clashes isInputStream s = false ∧
      ¬(isInputStream = true ∧ BurstTooLarge s) ∧
      ∃ d', calculateCrossbarSetupData d s.streamRecordSize
        (streamSpecificationOf s) = .ok d') := by
  cases hclash : clashes isInputStream s with
  | true =>
      refine .inl ⟨rfl, ?_⟩
      cases isInputStream with
      | true =>
          rw [clashes, if_pos rfl] at hclash
          simp [calculateCrossbarSetupData, hinput,
            configureInputCrossbarSetupData, hclash]
      | false =>
          rw [clashes, if_neg (by decide)] at hclash
          simp [calculateCrossbarSetupData, hinput,
            configureOutputCrossbarSetupData, hclash]
  | false =>
      right
      cases isInputStream with
      | true =>
          have hcases : (¬BurstTooLarge s ∧ ∃ d', calculateCrossbarSetupData d
              s.streamRecordSize (streamSpecificationOf s) = .ok d') ∨
              (BurstTooLarge s ∧ ∃ what, calculateCrossbarSetupData d
                s.streamRecordSize (streamSpecificationOf s) =
                  .error (.runtimeError what)) := by
            rcases recordsPerBurst_cases hpos with ⟨hmulti, hsort, hok⟩ |
              ⟨-, -, what, herror⟩ | ⟨hsingle, -, k, hk, hok, hfits, -⟩ |
              ⟨-, -, herror | hok⟩
            · rw [hrecords, Except.ok.injEq] at hok
              exact multiInputCrossbar_cases h hsort hpos hempty
                (hburst.trans hok) hchunks hinput hmulti
                (by rwa [hchannels]) hclash
            · rw [hrecords] at herror
              cases herror
            · rw [hrecords, Except.ok.injEq] at hok
              obtain ⟨hpower, hfits⟩ := hfits rfl
              exact singleInputCrossbar_cases h hk hpower hfits hempty
                (hburst.trans hok) hinput hsingle (hchannels.trans hsingle)
                hclash
            · rw [hrecords] at herror
              cases herror
            · rw [hrecords, Except.ok.injEq] at hok
              omega
          rcases hcases with ⟨hsmall, hok⟩ | ⟨hlarge, herror⟩
          · exact .inr ⟨rfl, fun hlarge => hsmall hlarge.2, hok⟩
          · exact .inl ⟨rfl, ⟨rfl, hlarge⟩, herror⟩
      | false =>
          refine .inr ⟨rfl, by simp, ?_⟩
          obtain ⟨records, rfl⟩ := Int.eq_ofNat_of_zero_le hn.le
          obtain ⟨c, hc⟩ := Int.eq_ofNat_of_zero_le hpos.le
          refine outputCrossbar_total h hrefused hempty hburst hchunks hinput hc
            (by omega) (by omega) ?_ hclash
          rcases recordsPerBurst_cases hpos with ⟨-, hsort, hok⟩ |
            ⟨-, -, what, herror⟩ | ⟨-, -, k, -, hok, -, hfits⟩ |
            ⟨-, -, herror | hok⟩
          · rw [hrecords, Except.ok.injEq, hc, Int.toNat_natCast,
              Int.ofNat_inj] at hok
            obtain ⟨c', hc', hcases⟩ := hsort.chunks hpos
            rw [hc, Int.ofNat_inj] at hc'
            subst hc' hok
            rcases hcases with rfl | rfl | rfl <;> decide
          · rw [hrecords] at herror
            cases herror
          · rw [hrecords, Except.ok.injEq, Int.ofNat_inj] at hok
            have hfits := hfits rfl
            rwa [hc, Int.toNat_natCast, ← hok] at hfits
          · rw [hrecords] at herror
            cases herror
          · rw [hrecords, Except.ok.injEq] at hok
            omega

/-- The set-up of a stream from its burst on. -/
theorem setupStream_burst (h : WellDescribed s) (bufferSize : Int) (i : Nat)
    {n : Int} (hrefused : ¬Refused isInputStream s)
    (hpos : 0 < recordChunks isInputStream s)
    (hrecords : recordsPerBurst isInputStream (s.maxChannelCount ≠ -1)
      (recordChunks isInputStream s) s.streamRecordSize = .ok n) :
    (n ≤ 0 ∧ setupStream isInputStream bufferSize s i = .error .undefined) ∨
    (0 < n ∧ clashes isInputStream s = true ∧
      setupStream isInputStream bufferSize s i = .error .assertionFailed) ∨
    (0 < n ∧ clashes isInputStream s = false ∧
      (isInputStream = true ∧ BurstTooLarge s) ∧ ∃ what,
        setupStream isInputStream bufferSize s i =
          .error (.runtimeError what)) ∨
    (0 < n ∧ clashes isInputStream s = false ∧
      ¬(isInputStream = true ∧ BurstTooLarge s) ∧ ∃ r,
        setupStream isInputStream bufferSize s i = .ok r) := by
  obtain ⟨setup, hsetup, hrun⟩ := setupStream_eq h bufferSize i hrefused hpos
  obtain ⟨hburst, hchunks, hempty, hinput, hchannels, hne⟩ := hsetup n
  rw [hrun, hrecords, ok_bind]
  rcases setUpDMAIOStream_cases hne with ⟨hn, writes, hio⟩ | ⟨hn, hio⟩
  · rw [hburst] at hn
    right
    rw [hio, ok_bind]
    rcases crossbar_cases h hrefused hpos hrecords hn hburst hchunks hempty hinput
      hchannels with ⟨hclash, hrun⟩ | ⟨hclash, hlarge, what, hrun⟩ |
        ⟨hclash, hsmall, d', hrun⟩
    · exact .inl ⟨hn, hclash, by rw [hrun, error_bind]⟩
    · exact .inr (.inl ⟨hn, hclash, hlarge, what, by rw [hrun, error_bind]⟩)
    · exact .inr (.inr ⟨hn, hclash, hsmall, _, by rw [hrun, ok_bind]⟩)
  · rw [hburst] at hn
    exact .inl ⟨hn, by rw [hio, error_bind]⟩

/-- The set-up of a stream completes, or it is refused with an exception of its
own, or it leaves the arithmetic domain. -/
theorem setupStream_cases (h : WellDescribed s) (bufferSize : Int) (i : Nat) :
    (InDomain isInputStream s ∧ ¬Throws isInputStream s ∧
      ∃ r, setupStream isInputStream bufferSize s i = .ok r) ∨
    (InDomain isInputStream s ∧ Throws isInputStream s ∧
      ∃ what, setupStream isInputStream bufferSize s i =
        .error (.runtimeError what)) ∨
    (¬InDomain isInputStream s ∧
      ¬Regular (setupStream isInputStream bufferSize s i)) := by
  obtain ⟨channels, hchannels, -⟩ := channels_total isInputStream h
  rcases chunksPerRecordOf_cases isInputStream s with
    ⟨hrefused, what, herror⟩ | ⟨hrefused, hok⟩
  · refine .inr (.inl ⟨.inl hrefused, .inl hrefused, what, ?_⟩)
    simp only [setupStream, hchannels, ok_bind, herror, error_bind]
  rcases recordChunkIds_cases (recordChunks isInputStream s) with
    ⟨hpos, -⟩ | ⟨hnone, hundefined⟩
  swap
  · refine .inr (.inr ⟨?_, ?_⟩)
    · rintro (hr | ⟨hpos, -⟩)
      · exact hrefused hr
      · omega
    · simp only [setupStream, hchannels, hok, ok_bind,
        calculateDMAStreamSetupData, hundefined, error_bind,
        not_regular_undefined, not_false_eq_true]
  -- A burst of the right size; only the crossbars can still refuse the stream.
  have hburst : ∀ n : Int, 0 < n →
      recordsPerBurst isInputStream (s.maxChannelCount ≠ -1)
        (recordChunks isInputStream s) s.streamRecordSize = .ok n →
      (s.maxChannelCount = -1 ∧ SizeInDomain isInputStream s ∨
        s.maxChannelCount ≠ -1 ∧ Sortable isInputStream s) →
      (InDomain isInputStream s ∧ ¬Throws isInputStream s ∧
        ∃ r, setupStream isInputStream bufferSize s i = .ok r) ∨
      (InDomain isInputStream s ∧ Throws isInputStream s ∧
        ∃ what, setupStream isInputStream bufferSize s i =
          .error (.runtimeError what)) ∨
      (¬InDomain isInputStream s ∧
        ¬Regular (setupStream isInputStream bufferSize s i)) := by
    intro n hn hrecords hsize
    have hindomain : InDomain isInputStream s ↔
        clashes isInputStream s = false := by
      unfold InDomain
      tauto
    have hthrows : Throws isInputStream s ↔
        isInputStream = true ∧ BurstTooLarge s := by
      unfold Throws
      tauto
    rw [hindomain, hthrows]
    rcases setupStream_burst h bufferSize i hrefused hpos hrecords with
      ⟨hle, -⟩ | ⟨-, hclash, hrun⟩ | ⟨-, hclash, hlarge, what, hrun⟩ |
      ⟨-, hclash, hsmall, r, hrun⟩
    · omega
    · refine .inr (.inr ⟨by rw [hclash]; decide, ?_⟩)
      rw [hrun]
      exact not_regular_assertionFailed
    · exact .inr (.inl ⟨hclash, hlarge, what, hrun⟩)
    · exact .inl ⟨hclash, hsmall, r, hrun⟩
  rcases recordsPerBurst_cases hpos with ⟨hmulti, hsort, hok⟩ |
    ⟨hmulti, hsort, what, herror⟩ | ⟨hsingle, hsize, k, hk, hok, -⟩ |
    ⟨hsingle, hsize, hrecords⟩
  · refine hburst _ ?_ hok (.inr ⟨hmulti, hsort⟩)
    have := recordsPerFetch_pos (recordChunks isInputStream s).toNat
    omega
  · obtain ⟨setup, -, hrun⟩ := setupStream_eq h bufferSize i hrefused hpos
    refine .inr (.inl ⟨?_, .inr (.inl ⟨hmulti, hsort⟩), what, ?_⟩)
    · refine .inr ⟨hpos, fun hsingle => absurd hsingle hmulti, ?_⟩
      rintro (hsingle | hfits)
      · exact absurd hsingle hmulti
      · exact absurd hfits hsort
    · rw [hrun, herror, error_bind]
  · refine hburst _ ?_ hok (.inl ⟨hsingle, hsize⟩)
    have := Nat.pow_pos (n := k) (show 0 < 2 by decide)
    omega
  · refine .inr (.inr ⟨?_, ?_⟩)
    · rintro (hr | ⟨-, hdomain, -⟩)
      · exact hrefused hr
      · exact hsize (hdomain hsingle)
    · rcases hrecords with herror | hok
      · obtain ⟨setup, -, hrun⟩ := setupStream_eq h bufferSize i hrefused hpos
        rw [hrun, herror, error_bind]
        exact not_regular_undefined
      · rcases setupStream_burst h bufferSize i hrefused hpos hok with
          ⟨-, hrun⟩ | ⟨hlt, -⟩ | ⟨hlt, -⟩ | ⟨hlt, -⟩
        · rw [hrun]
          exact not_regular_undefined
        · omega
        · omega
        · omega

end Stream

/-! ## All streams -/

/-- Every stream up to the first that is refused stays in the domain. -/
def StaysInDomain (isInputStream : Bool) : List StreamInitData → Prop
  | [] => True
  | s :: rest => InDomain isInputStream s ∧
      (¬Throws isInputStream s → StaysInDomain isInputStream rest)

instance decidableStaysInDomain (isInputStream : Bool) :
    ∀ streams, Decidable (StaysInDomain isInputStream streams)
  | [] => inferInstanceAs (Decidable True)
  | s :: rest =>
      have := decidableStaysInDomain isInputStream rest
      inferInstanceAs (Decidable (InDomain isInputStream s ∧
        (¬Throws isInputStream s → StaysInDomain isInputStream rest)))

theorem setupStreams_regular_iff {isInputStream : Bool} {bufferSize : Int}
    {streams : List StreamInitData} {count : Nat}
    (h : ∀ s ∈ streams, WellDescribed s) :
    Regular (setupStreams isInputStream bufferSize streams count) ↔
      StaysInDomain isInputStream streams := by
  induction streams generalizing count with
  | nil => simp [setupStreams, StaysInDomain]
  | cons s rest ih =>
      rw [List.forall_mem_cons] at h
      have hrest := @ih (count + 1) h.2
      rw [StaysInDomain, setupStreams, regular_bind_iff]
      rcases setupStream_cases h.1 bufferSize count with
        ⟨hdomain, hthrows, first, hrun⟩ | ⟨hdomain, hthrows, what, hrun⟩ |
        ⟨hdomain, hrun⟩
      · rw [hrun]
        simp only [regular_ok, Except.ok.injEq, forall_eq', true_and, hdomain,
          hthrows, not_false_eq_true, true_implies]
        rw [regular_bind_iff, hrest]
        simp
      · rw [hrun]
        simp [hdomain, hthrows]
      · simp [hdomain, hrun]

/-- Streams that stay in the domain and are not refused are set up. -/
theorem setupDMAModule_total (streams : List StreamInitData)
    (isInputStream : Bool) (hne : streams ≠ [])
    (h : ∀ s ∈ streams, WellDescribed s ∧ InDomain isInputStream s ∧
      ¬Throws isInputStream s) :
    ∃ r, setupDMAModule streams isInputStream = .ok r := by
  have hcount : (streams.length : Int) ≠ 0 := by
    have := List.length_pos_of_ne_nil hne
    omega
  have hsetups : ∀ bufferSize count, ∃ setups,
      setupStreams isInputStream bufferSize streams count = .ok setups := by
    clear hne hcount
    intro bufferSize
    induction streams with
    | nil => exact fun _ => ⟨[], rfl⟩
    | cons s rest ih =>
        intro count
        rw [List.forall_mem_cons] at h
        obtain ⟨⟨hwell, hdomain, hthrows⟩, hrest⟩ := h
        obtain ⟨others, hothers⟩ := ih hrest (count + 1)
        rcases setupStream_cases hwell bufferSize count with
          ⟨-, -, first, hfirst⟩ | ⟨-, hrefused, -⟩ | ⟨houtside, -⟩
        · exact ⟨first :: others, by
            rw [setupStreams, hfirst, ok_bind, hothers, ok_bind]⟩
        · exact absurd hrefused hthrows
        · exact absurd hdomain houtside
  obtain ⟨setups, hsetups⟩ := hsetups ((16 : Int).tdiv streams.length) 0
  rw [setupDMAModule, divide, if_neg hcount, ok_bind, hsetups, ok_bind]
  exact ⟨_, rfl⟩

instance (s : StreamInitData) : Decidable (WellDescribed s) :=
  decidable_of_iff (0 ≤ s.streamRecordSize ∧
    (∀ x ∈ s.streamSpecification, x = -1 ∨ 0 ≤ x ∧ x < s.streamRecordSize) ∧
    (s.maxChannelCount ≠ -1 →
      0 < s.maxChannelCount ∧ 0 < s.recordsPerChannel))
    ⟨fun h => ⟨h.1, h.2.1, h.2.2⟩, fun h => ⟨h.1, h.2, h.3⟩⟩

/-- A projection, a merge sort, and records that are too large to be sorted;
the stream of 600 integers behind them is not reached. -/
def sortsAndWideRecords : List StreamInitData :=
  [{ streamId := 1
     streamRecordSize := 20
     streamRecordCount := 50
     physicalAddress := 4096
     streamSpecification := [3, 1, 18] },
   tenIntegersSorted,
   { tenIntegersSorted with streamRecordSize := 90, streamSpecification := [] },
   { streamId := 3
     streamRecordSize := 600
     streamRecordCount := 50
     physicalAddress := 4096
     streamSpecification := [] }]

/-- A record that is one integer larger than the burst. -/
def recordBeyondBurst : StreamInitData where
  streamId := 0
  streamRecordSize := 513
  streamRecordCount := 1
  physicalAddress := 4096
  streamSpecification := []

end Orkhestra.Ports.DMADomain
