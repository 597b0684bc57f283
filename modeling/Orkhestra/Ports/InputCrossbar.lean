import Orkhestra.Ports.DMACrossbarSetup
import Mathlib.Tactic.IntervalCases
import Mathlib.Tactic.Positivity

/-!
# The input crossbar realises the projection

The crossbar between buffer and interface is modelled as the documentation and
the register writes describe it: in every cycle it first pulls one chunk for
each position and then moves the pulled integers between positions.

A configuration loop writes two words for every selected integer.  Two writes
to one chunk word agree because the selection does not clash, so every write is
still there when the loop ends (`Configured`).
-/

namespace Orkhestra.Ports.InputCrossbar

open Orkhestra.Verified.Checked
open Orkhestra.Ports.StreamParameterCalculator
open Orkhestra.Ports.DMACrossbarSpecifier
open Orkhestra.Ports.DMACrossbarSetup

/-! ## The crossbar -/

/-- The buffer with the records of one burst concatenated: integer `k` sits at
chunk `k / 16`, position `15 - k % 16`. -/
def recordBuffer {α : Type} (recordSize : Nat) (records : Nat → Nat → α)
    (chunk position : Nat) : α :=
  let k := 16 * chunk + (15 - position)
  records (k / recordSize) (k % recordSize)

/-- Vertical pull: the integer that position `p` pulls in cycle `c`. -/
def verticalPull {α : Type} (xs : List DMACrossbarSetupData)
    (buffer : Nat → Nat → α) (c p : Nat) : Option α := do
  let chunk ← wordAt xs .chunk c p
  if 0 ≤ chunk then some (buffer chunk.toNat p) else none

/-- Vertical pull followed by the horizontal pull of output position `q`. -/
def inputCrossbar {α : Type} (xs : List DMACrossbarSetupData)
    (buffer : Nat → Nat → α) (c q : Nat) : Option α := do
  let position ← wordAt xs .position c q
  if 0 ≤ position then verticalPull xs buffer c position.toNat else none

/-! ## What the configuration loop leaves behind -/

/-- The words written for the selections before `t` are all in place. -/
structure Configured (ext : List Int) (n t : Nat)
    (xs : List DMACrossbarSetupData) : Prop where
  length : xs.length = n
  position : ∀ id < t, ∀ target : Nat, ext[id]? = some (target : Int) →
    wordAt xs .position (id / 16) (id % 16) = some ((target % 16 : Nat) : Int)
  chunk : ∀ id < t, ∀ target : Nat, ext[id]? = some (target : Int) →
    wordAt xs .chunk (id / 16) (target % 16) = some ((target / 16 : Nat) : Int)
  inRange : WordsInRange xs

/-- Two selections of one cycle that pull from one position pull the same
integer. -/
def PullsAgree (ext : List Int) : Prop :=
  ∀ id id' target target' : Nat, id / 16 = id' / 16 →
    ext[id]? = some (target : Int) → ext[id']? = some (target' : Int) →
    target % 16 = target' % 16 → target = target'

theorem setNextInputConfiguration_total {xs : List DMACrossbarSetupData}
    {id : Nat} (hid : id / 16 < xs.length) (target : Nat) :
    ∃ ys, setNextInputConfiguration xs id target = .ok ys ∧
      ys.length = xs.length ∧
      (∀ c p, wordAt ys .position c p =
        if c = id / 16 ∧ p = id % 16 then some ((target % 16 : Nat) : Int)
        else wordAt xs .position c p) ∧
      ∀ c p, wordAt ys .chunk c p =
        if c = id / 16 ∧ p = target % 16 then some ((target / 16 : Nat) : Int)
        else wordAt xs .chunk c p := by
  obtain ⟨ys, hys, hlen, hword⟩ := setSelection_total .chunk hid
    (Nat.mod_lt target (by decide : 0 < 16)) ((target / 16 : Nat) : Int)
  obtain ⟨zs, hzs, hlen', hword'⟩ := setSelection_total .position
    (hlen ▸ hid) (Nat.mod_lt id (by decide : 0 < 16))
    ((target % 16 : Nat) : Int)
  refine ⟨zs, ?_, by omega, ?_, ?_⟩
  · simp only [setNextInputConfiguration, kDatapathWidth_eq]
    simp only [← Int.ofNat_tdiv, ← Int.ofNat_tmod]
    rw [hys, ok_bind, hzs]
  · intro c p
    rw [hword']
    simp [hword]
  · intro c p
    rw [hword']
    simp [hword]

theorem Configured.step {ext : List Int} {n t : Nat}
    {xs : List DMACrossbarSetupData} (h : Configured ext n t xs)
    (hlen : ext.length = 16 * n) (hagree : PullsAgree ext)
    (hentry : ∀ x ∈ ext, x = -1 ∨ 0 ≤ x) (hlt : ∀ x ∈ ext, x < 512) (ht : t < ext.length) :
    ∃ ys, configureInputStep ext xs t = .ok ys ∧
      Configured ext n (t + 1) ys := by
  have hread : ext[t]? = some ext[t] := List.getElem?_eq_getElem ht
  rcases hentry ext[t] (List.getElem_mem ht) with hx | hx
  · -- Nothing is configured for a lane without data.
    refine ⟨xs, ?_, h.length, ?_, ?_, h.inRange⟩
    · simp [configureInputStep, readAt, ht, hx]
    · intro id hid target htarget
      have hne : id ≠ t := by
        rintro rfl
        rw [hread, hx, Option.some.injEq] at htarget
        omega
      exact h.position id (by omega) target htarget
    · intro id hid target htarget
      have hne : id ≠ t := by
        rintro rfl
        rw [hread, hx, Option.some.injEq] at htarget
        omega
      exact h.chunk id (by omega) target htarget
  · obtain ⟨target, htarget⟩ := Int.eq_ofNat_of_zero_le hx
    rw [htarget] at hread
    obtain ⟨ys, hys, hlength, hposition, hchunk⟩ :=
      setNextInputConfiguration_total
        (show t / 16 < xs.length by rw [h.length]; omega) target
    refine ⟨ys, ?_, by rw [hlength, h.length], ?_, ?_, ?_⟩
    · have hne : (target : Int) ≠ -1 := by omega
      simp only [configureInputStep, readAt, hread, ok_bind, ne_eq, hne,
        not_false_eq_true, if_true, hys]
    · intro id hid target' htarget'
      rw [hposition]
      by_cases hsame : id / 16 = t / 16 ∧ id % 16 = t % 16
      · have hidt : id = t := by omega
        subst hidt
        rw [if_pos hsame]
        rw [hread, Option.some.injEq] at htarget'
        rw [Int.ofNat_inj.mp htarget']
      · rw [if_neg hsame]
        exact h.position id (by omega) target' htarget'
    · intro id hid target' htarget'
      rw [hchunk]
      by_cases hsame : id / 16 = t / 16 ∧ target' % 16 = target % 16
      · rw [if_pos hsame,
          hagree id t target' target hsame.1 htarget' hread hsame.2]
      · rw [if_neg hsame]
        refine h.chunk id ?_ target' htarget'
        rcases Nat.lt_succ_iff_lt_or_eq.mp hid with hlt | rfl
        · exact hlt
        · rw [hread, Option.some.injEq] at htarget'
          exact absurd ⟨rfl, by rw [Int.ofNat_inj.mp htarget']⟩ hsame
    · have htarget512 : target < 512 := by
        have hx512 := hlt ext[t] (List.getElem_mem ht)
        omega
      intro kind c p w hw
      cases kind with
      | chunk =>
          rw [hchunk] at hw
          split at hw
          · rw [Option.some.injEq] at hw
            simp only [SelectionKind.bound, kDatapathLength_eq]
            omega
          · exact h.inRange .chunk c p w hw
      | position =>
          rw [hposition] at hw
          split at hw
          · rw [Option.some.injEq] at hw
            simp only [SelectionKind.bound, kDatapathWidth_eq]
            omega
          · exact h.inRange .position c p w hw

/-- The configuration loop does not fault and keeps everything it writes. -/
theorem configured_of_pullsAgree {ext : List Int} {n : Nat}
    (hlen : ext.length = 16 * n) (hagree : PullsAgree ext)
    (hentry : ∀ x ∈ ext, x = -1 ∨ 0 ≤ x) (hlt : ∀ x ∈ ext, x < 512) :
    ∃ ys, (List.range ext.length).foldlM (configureInputStep ext)
        (List.replicate n defaultSetupData) = .ok ys ∧
      Configured ext n ext.length ys := by
  refine forRange_total (Configured ext n) ext.length ?_ ?_
  · exact ⟨by simp, by simp, by simp, wordsInRange_replicate_default n⟩
  · intro t ys ht hconf
    exact hconf.step hlen hagree hentry hlt ht

section Selection

variable {n e recordSize : Nat} {sel ext : List Int}

/-- The shift of a whole record keeps equal positions equal, so a selection
without clashes extends to one whose pulls agree. -/
theorem pullsAgree_of_extended
    (h : Extended n sel recordSize (-1) e ext) (hchunks : 16 ∣ e)
    (hsel : ∀ s ∈ sel, s = -1 ∨ 0 ≤ s)
    (hclash : isInputClashing sel = false) : PullsAgree ext := by
  intro id id' target target' hcycle htarget htarget' hmod
  obtain ⟨s, hs, rfl⟩ := h.target_eq hchunks hsel htarget
  obtain ⟨s', hs', rfl⟩ := h.target_eq hchunks hsel htarget'
  obtain ⟨c, rfl⟩ := hchunks
  have hk : mirrorIndex id / 16 = mirrorIndex id' / 16 := by
    simp only [mirrorIndex]
    omega
  have hj : mirrorIndex id / (16 * c) = mirrorIndex id' / (16 * c) := by
    rw [← Nat.div_div_eq_div_mul, ← Nat.div_div_eq_div_mul, hk]
  have hi : mirrorIndex id % (16 * c) / 16 =
      mirrorIndex id' % (16 * c) / 16 := by
    rw [Nat.mod_mul_right_div_self, Nat.mod_mul_right_div_self, hk]
  rw [hj] at hmod ⊢
  have hss : (s : Int).tmod 16 = (s' : Int).tmod 16 := by
    have hsmod : s % 16 = s' % 16 := by
      simp only [mirrorIndex] at hmod
      omega
    have hcast := congrArg (fun m : Nat => (m : Int)) hsmod
    simp only [Int.ofNat_tmod] at hcast
    exact hcast
  have heq := eq_of_not_isInputClashing hclash hi hs hs' hss
  rw [Int.ofNat_inj.mp heq]

/-- Reading the configured crossbar in the cycle of a selected integer. -/
theorem inputCrossbar_of_configured {α : Type} {xs : List DMACrossbarSetupData}
    (h : Extended n sel recordSize (-1) e ext) (hchunks : 16 ∣ e)
    (hconf : Configured ext (n * e / 16) ext.length xs)
    (records : Nat → Nat → α) {j i s : Nat} (hj : j < n) (hi : i < e)
    (hs : sel[i]? = some (s : Int)) (hsize : s < recordSize) :
    inputCrossbar xs (recordBuffer recordSize records)
      (j * e / 16 + i / 16) (15 - i % 16) = some (records j s) := by
  have htarget := h.entry j i hj hi
  rw [hs, Option.map_some, Option.getD_some, extendSelection_natCast] at htarget
  have hid := (List.getElem?_eq_some_iff.mp htarget).1
  have hposition := hconf.position _ hid _ htarget
  have hchunk := hconf.chunk _ hid _ htarget
  obtain ⟨c, rfl⟩ := hchunks
  have hslot : j * (16 * c) = 16 * (j * c) := Nat.mul_left_comm j 16 c
  have hcycle : mirrorIndex (j * (16 * c) + i) / 16 =
      j * (16 * c) / 16 + i / 16 := by
    simp only [mirrorIndex]
    omega
  have hlane : mirrorIndex (j * (16 * c) + i) % 16 = 15 - i % 16 := by
    simp only [mirrorIndex]
    omega
  have hback : 16 * (mirrorIndex (j * recordSize + s) / 16) +
      (15 - mirrorIndex (j * recordSize + s) % 16) = recordSize * j + s := by
    rw [Nat.mul_comm recordSize j]
    exact mirrorIndex_mirrorIndex (j * recordSize + s)
  rw [hcycle, hlane] at hposition
  rw [hcycle] at hchunk
  have hpos : 0 < recordSize := by omega
  simp only [inputCrossbar, verticalPull, hposition, Option.bind_eq_bind,
    Option.bind_some, Int.natCast_nonneg, if_true, Int.toNat_natCast, hchunk,
    recordBuffer, hback, Nat.mul_add_div hpos, Nat.div_eq_of_lt hsize,
    Nat.mul_add_mod, Nat.mod_eq_of_lt hsize, Nat.add_zero]

end Selection

/-! ## The configuration of a stream -/

/-- How many integers of the interface a record of an input stream takes. -/
inductive InputSlot (d : DMASetupData) (n : Nat) (sel : List Int) :
    Nat → Prop where
  | singleChannel (a : Nat) : d.activeChannelCount = -1 → a ≤ 5 → n = 2 ^ a →
      InputSlot d n sel (512 / n)
  | multiChannel (chunks : Nat) : d.activeChannelCount ≠ -1 →
      d.chunksPerRecord = calculateChunksPerRecord sel.length →
      findNextPowerOfTwo (calculateChunksPerRecord sel.length) = .ok chunks →
      InputSlot d n sel (16 * chunks)

/-- Both kinds of streams extend the selection with the slot of a record. -/
theorem extend_of_inputSlot {d : DMASetupData} {n slot : Nat}
    {sel : List Int} (recordSize : Nat) (hslot : InputSlot d n sel slot) :
    16 ∣ slot ∧
      (if d.activeChannelCount = -1 then
        extendSpecificationSingleChannel recordSize sel n
      else extendSpecificationMultiChannel recordSize sel n d.chunksPerRecord) =
        extendSpecification n sel recordSize (-1) slot := by
  cases hslot with
  | singleChannel a hsingle ha hn =>
      subst hn
      refine ⟨?_, ?_⟩
      · interval_cases a <;> decide
      · have hne : ((2 ^ a : Nat) : Int) ≠ 0 := by positivity
        simp only [hsingle, if_true, extendSpecificationSingleChannel, divide,
          hne, if_false, ok_bind, kDdrBurstSize_eq, ← Int.ofNat_tdiv]
  | multiChannel chunks hmulti hchunks hpower =>
      refine ⟨Nat.dvd_mul_right 16 chunks, ?_⟩
      simp only [hmulti, if_false, extendSpecificationMultiChannel, hchunks,
        hpower, ok_bind, kDatapathWidth_eq]
      congr 1
      push_cast
      exact Int.mul_comm _ _

/-- What the configuration of an input stream leaves behind. -/
theorem configureInput_configured {d d' : DMASetupData}
    {n slot recordSize : Nat} {sel : List Int}
    (hempty : d.crossbarSetupData = []) (hrecords : d.recordsPerDdrBurst = n)
    (hsel : ∀ s ∈ sel, s = -1 ∨ 0 ≤ s) (hslot : InputSlot d n sel slot)
    (hfit : sel.length ≤ slot)
    (hrun : configureInputCrossbarSetupData sel d recordSize = .ok d') :
    ∃ ext, Extended n sel recordSize (-1) slot ext ∧
      Configured ext (n * slot / 16) ext.length d'.crossbarSetupData := by
  obtain ⟨hchunks, hextend⟩ := extend_of_inputSlot recordSize hslot
  cases hclash : isInputClashing sel with
  | true => simp [configureInputCrossbarSetupData, hclash] at hrun
  | false =>
      simp only [configureInputCrossbarSetupData, hclash, Bool.false_eq_true,
        if_false, hrecords, hextend, hempty, bind_eq_ok, Except.ok.injEq]
        at hrun
      obtain ⟨ext, hext, xs, hxs, rfl⟩ := hrun
      have hextended := extendSpecification_extended hfit hchunks hext
      have hlen := hextended.length
      have hwhole : 16 * (n * slot / 16) = n * slot :=
        Nat.mul_div_cancel' (Nat.dvd_trans hchunks (Nat.dvd_mul_left slot n))
      have hsetup : setUpEmptyCrossbarSetupData []
          (ext.length / kDatapathWidth : Nat) =
          List.replicate (n * slot / 16) defaultSetupData := by
        simp only [setUpEmptyCrossbarSetupData, hlen, kDatapathWidth_eq,
          List.length_nil, Nat.cast_zero, Int.sub_zero, Int.toNat_natCast,
          List.nil_append]
      rw [hsetup] at hxs
      obtain ⟨ys, hys, hconf⟩ := configured_of_pullsAgree
        (show ext.length = 16 * (n * slot / 16) by omega)
        (pullsAgree_of_extended hextended hchunks hsel hclash)
        (hextended.nonneg_or_junk hchunks hsel) hextended.entry_lt
      rw [hys, Except.ok.injEq] at hxs
      subst hxs
      exact ⟨ext, hextended, hconf⟩

end Orkhestra.Ports.InputCrossbar
