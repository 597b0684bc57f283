import Orkhestra.Ports.DMACrossbarSpecifier
import Orkhestra.Verified.SwitchStage

/-!
# What the clash checks decide

A crossbar is a switch with two stages.  The input crossbar first takes each
source position from one chunk (the vertical pull) and then each target from one
source position (the horizontal pull).  The output crossbar takes, for a chunk
of the interface, each lane from one source position and puts it into one target
chunk.

`IsInputClashing` and `IsOutputClashing` look for two entries of a selection
that ask a stage for different settings at one place, and these are all the
selections that cannot be routed.
-/

namespace Orkhestra.Ports.ClashChecks

open Orkhestra.Verified.SwitchStage
open Orkhestra.Ports.StreamParameterCalculator
open Orkhestra.Ports.DMACrossbarSpecifier

/-! ## Routings -/

/-- Settings of the input crossbar for one chunk of the interface. -/
structure InputRouting where
  /-- Vertical pull: the chunk that a source position is taken from. -/
  chunk : Fin kDatapathWidth → Nat
  /-- Horizontal pull: the source position that a target is taken from. -/
  position : Fin kDatapathWidth → Fin kDatapathWidth

/-- Every target gets the integer that is selected for it. -/
def InputRouting.Delivers (r : InputRouting) (block : List Int) : Prop :=
  ∀ (target : Fin kDatapathWidth) (selection : Int),
    block[target.val]? = some selection → selection ≠ -1 →
      selection = (kDatapathWidth * r.chunk (r.position target) +
        (r.position target).val : Nat)

/-- Settings of the output crossbar for the chunks of the interface. -/
structure OutputRouting where
  /-- The source position that a lane is taken from. -/
  position : Nat → Fin kDatapathWidth → Fin kDatapathWidth
  /-- The target chunk that a lane is put into. -/
  chunk : Nat → Fin kDatapathWidth → Nat

/-- Lane of an integer of the packed records. -/
def laneOf (packed : Nat) : Fin kDatapathWidth :=
  ⟨packed % kDatapathWidth, Nat.mod_lt _ (by decide)⟩

/-- Entry `i` of a record that is laid down at `offset` is stored at the packed
integer `offset + i`. -/
def OutputRouting.Stores (r : OutputRouting) (spec : List Int) (offset : Nat) :
    Prop :=
  ∀ (i : Nat) (selection : Int), spec[i]? = some selection → selection ≠ -1 →
    ∃ interfaceChunk : Nat,
      selection = (kDatapathWidth * interfaceChunk +
        (r.position interfaceChunk (laneOf (offset + i))).val : Nat) ∧
      r.chunk interfaceChunk (laneOf (offset + i)) =
        (offset + i) / kDatapathWidth

/-! ## Clashes -/

/-- A map that is inserted into twice has been given two elements with the same
key. -/
theorem insertsTwice_map_iff {xs : List Int} (hnodup : xs.Nodup)
    {f : Int → Int} :
    insertsTwice (xs.map f) = true ↔
      ∃ s ∈ xs, ∃ s' ∈ xs, s ≠ s' ∧ f s = f s' := by
  rw [← Bool.not_eq_false, insertsTwice_map_eq_false,
    List.nodup_map_iff_inj_on hnodup]
  push Not
  constructor
  · rintro ⟨s, hs, s', hs', heq, hne⟩
    exact ⟨s, hs, s', hs', hne, heq⟩
  · rintro ⟨s, hs, s', hs', hne, heq⟩
    exact ⟨s, hs, s', hs', heq, hne⟩

theorem isInputClashing_iff {spec : List Int} :
    isInputClashing spec = true ↔ ∃ c, ∃ s ∈ chunkOfSpecification spec c,
      ∃ s' ∈ chunkOfSpecification spec c, s ≠ s' ∧ s.tmod 16 = s'.tmod 16 := by
  simp only [isInputClashing, List.any_eq_true, List.mem_range,
    insertsTwice_map_iff (List.nodup_dedup _), List.mem_dedup]
  constructor
  · rintro ⟨c, -, hclash⟩
    exact ⟨c, hclash⟩
  · rintro ⟨c, s, hs, hclash⟩
    refine ⟨c, ?_, s, hs, hclash⟩
    -- A block with an entry begins within the selection.
    have hlt := List.length_pos_of_mem hs
    simp only [chunkOfSpecification, List.length_take, List.length_drop,
      kDatapathWidth_eq] at hlt ⊢
    omega

theorem isOutputClashing_iff {spec : List Int} :
    isOutputClashing spec = true ↔ ∃ i i' s s', i < i' ∧ i % 16 = i' % 16 ∧
      spec[i]? = some s ∧ spec[i']? = some s' ∧ s ≠ -1 ∧ s' ≠ -1 ∧
      s.tdiv 16 = s'.tdiv 16 := by
  constructor
  · intro hclash
    rw [isOutputClashing] at hclash
    split at hclash
    · cases hclash
    · obtain ⟨position, -, htwice⟩ := List.any_eq_true.mp hclash
      rw [← Bool.not_eq_false, insertsTwice_map_eq_false, List.Nodup,
        List.pairwise_map, List.pairwise_filter, currentPositionLocations,
        List.pairwise_filterMap, List.pairwise_iff_getElem] at htwice
      push Not at htwice
      obtain ⟨c, c', hc, hc', hlt, s, hs, s', hs', hne, hne', heq⟩ := htwice
      simp only [List.getElem_range, kDatapathWidth_eq] at hs hs'
      exact ⟨position + 16 * c, position + 16 * c', s, s', by omega, by omega,
        hs, hs', by simpa using hne, by simpa using hne', heq⟩
  · rintro ⟨i, i', s, s', hlt, hpos, hs, hs', hne, hne', heq⟩
    by_contra hclash
    exact ne_of_not_isOutputClashing (Bool.eq_false_iff.mpr hclash) hlt hpos hs
      hs' hne hne' heq

/-! ## The input crossbar -/

theorem laneOf_eq_iff {n n' : Nat} : laneOf n = laneOf n' ↔ n % 16 = n' % 16 := by
  simp [laneOf]

/-- A chunk and a position make an integer. -/
theorem eq_laneOf_and_div {n c : Nat} {position : Fin kDatapathWidth}
    (h : n = kDatapathWidth * c + position.val) :
    laneOf n = position ∧ n / kDatapathWidth = c := by
  have hlt := position.isLt
  subst h
  refine ⟨Fin.ext ?_, ?_⟩
  · show (kDatapathWidth * c + position.val) % kDatapathWidth = position.val
    rw [Nat.mul_add_mod, Nat.mod_eq_of_lt hlt]
  · rw [Nat.mul_add_div (by decide), Nat.div_eq_of_lt hlt, Nat.add_zero]

/-- What a block asks of the vertical pull: the chunk of each of its integers,
at the source position. -/
def BlockServed (block : List Int) : Prop :=
  Served (fun n : Nat => (n : Int) ∈ block) laneOf (· / kDatapathWidth)

theorem exists_delivers_iff {block : List Int}
    (hblock : ∀ s ∈ block, s = -1 ∨ 0 ≤ s)
    (hlength : block.length ≤ kDatapathWidth) :
    (∃ r : InputRouting, r.Delivers block) ↔ BlockServed block := by
  constructor
  · rintro ⟨r, hr⟩
    refine ⟨r.chunk, ?_⟩
    intro n hn
    obtain ⟨t, ht⟩ := List.mem_iff_getElem?.mp hn
    have hlt := (List.getElem?_eq_some_iff.mp ht).1
    have hdelivers := hr ⟨t, by omega⟩ n ht (by omega)
    obtain ⟨hlane, hdiv⟩ := eq_laneOf_and_div (Int.ofNat_inj.mp hdelivers)
    show r.chunk (laneOf n) = n / kDatapathWidth
    rw [hlane, hdiv]
  · rintro ⟨chunk, hchunk⟩
    refine ⟨⟨chunk, fun target => laneOf (block[target.val]?.getD 0).toNat⟩, ?_⟩
    intro target s hs hne
    obtain ⟨n, rfl⟩ := Int.eq_ofNat_of_zero_le
      ((hblock s (List.mem_of_getElem? hs)).resolve_left hne)
    have hpull := hchunk n (List.mem_of_getElem? hs)
    simp only [hs, Option.getD_some, Int.toNat_natCast, hpull]
    simp only [laneOf, Nat.div_add_mod]

theorem not_blockServed_iff {block : List Int}
    (hblock : ∀ s ∈ block, s = -1 ∨ 0 ≤ s) :
    ¬BlockServed block ↔ ∃ s ∈ block, ∃ s' ∈ block, s ≠ s' ∧
      s.tmod 16 = s'.tmod 16 := by
  rw [BlockServed, not_served_iff]
  simp only [laneOf_eq_iff, kDatapathWidth_eq]
  constructor
  · rintro ⟨n, n', hn, hn', hmod, hdiv⟩
    refine ⟨n, hn, n', hn', ?_, ?_⟩
    · intro heq
      exact hdiv (by rw [Int.ofNat_inj.mp heq])
    · exact congrArg Int.ofNat hmod
  · rintro ⟨s, hs, s', hs', hne, hmod⟩
    -- The remainder of `-1` is `-1`, which no other entry has.
    rcases hblock s hs with rfl | hs0
    · rcases hblock s' hs' with rfl | hs0'
      · exact absurd rfl hne
      · rw [Int.tmod_eq_emod_of_nonneg hs0'] at hmod
        have := Int.emod_nonneg s' (show (16 : Int) ≠ 0 by decide)
        rw [← hmod] at this
        exact absurd this (by decide)
    · rcases hblock s' hs' with rfl | hs0'
      · rw [Int.tmod_eq_emod_of_nonneg hs0] at hmod
        have := Int.emod_nonneg s (show (16 : Int) ≠ 0 by decide)
        rw [hmod] at this
        exact absurd this (by decide)
      · obtain ⟨n, rfl⟩ := Int.eq_ofNat_of_zero_le hs0
        obtain ⟨n', rfl⟩ := Int.eq_ofNat_of_zero_le hs0'
        rw [Int.tmod_eq_emod_of_nonneg hs0, Int.tmod_eq_emod_of_nonneg hs0'] at hmod
        exact ⟨n, n', hs, hs', by omega, by omega⟩

/-! ## The output crossbar -/

/-- An entry of a selection that is not junk. -/
def Selected (spec : List Int) (entry : Nat × Nat) : Prop :=
  spec[entry.1]? = some (entry.2 : Int)

/-- What a record asks of the output crossbar: the source position and the
target chunk of each of its entries, for the chunk of the interface that the
entry comes from and the lane that it goes to. -/
def RecordServed (spec : List Int) (offset : Nat) : Prop :=
  Served (Selected spec)
    (fun entry => (entry.2 / kDatapathWidth, laneOf (offset + entry.1)))
    (fun entry => (laneOf entry.2, (offset + entry.1) / kDatapathWidth))

theorem exists_stores_iff {spec : List Int} (hspec : ∀ s ∈ spec, s = -1 ∨ 0 ≤ s)
    (offset : Nat) :
    (∃ r : OutputRouting, r.Stores spec offset) ↔ RecordServed spec offset := by
  constructor
  · rintro ⟨r, hr⟩
    refine ⟨fun key => (r.position key.1 key.2, r.chunk key.1 key.2), ?_⟩
    rintro ⟨i, n⟩ hn
    obtain ⟨c, heq, hchunk⟩ := hr i n hn (by omega)
    obtain ⟨hlane, hdiv⟩ := eq_laneOf_and_div (Int.ofNat_inj.mp heq)
    simp only [hdiv, hlane, hchunk]
  · rintro ⟨stage, hstage⟩
    refine ⟨⟨fun c lane => (stage (c, lane)).1, fun c lane => (stage (c, lane)).2⟩,
      ?_⟩
    intro i s hs hne
    obtain ⟨n, rfl⟩ := Int.eq_ofNat_of_zero_le
      ((hspec s (List.mem_of_getElem? hs)).resolve_left hne)
    have hentry := hstage (i, n) hs
    refine ⟨n / kDatapathWidth, ?_, ?_⟩
    · simp only [hentry]
      simp only [laneOf, Nat.div_add_mod]
    · simp only [hentry]

theorem not_recordServed_iff {spec : List Int}
    (hspec : ∀ s ∈ spec, s = -1 ∨ 0 ≤ s) (offset : Nat) :
    ¬RecordServed spec offset ↔ ∃ i i' s s', i < i' ∧ i % 16 = i' % 16 ∧
      spec[i]? = some s ∧ spec[i']? = some s' ∧ s ≠ -1 ∧ s' ≠ -1 ∧
      s.tdiv 16 = s'.tdiv 16 := by
  rw [RecordServed, not_served_iff]
  simp only [Prod.exists, Selected, Prod.mk.injEq, laneOf_eq_iff,
    kDatapathWidth_eq, ne_eq, not_and]
  constructor
  · rintro ⟨i, n, i', n', hn, hn', ⟨hdiv, hmod⟩, hne⟩
    have hdiff : i ≠ i' := by
      rintro rfl
      obtain rfl := Int.ofNat_inj.mp (Option.some.inj (hn.symm.trans hn'))
      exact hne rfl rfl
    rcases Nat.lt_or_gt_of_ne hdiff with hlt | hlt
    · exact ⟨i, i', n, n', hlt, by omega, hn, hn', by omega, by omega,
        congrArg Int.ofNat hdiv⟩
    · exact ⟨i', i, n', n, hlt, by omega, hn', hn, by omega, by omega,
        congrArg Int.ofNat hdiv.symm⟩
  · rintro ⟨i, i', s, s', hlt, hmod, hs, hs', hne, hne', hdiv⟩
    obtain ⟨n, rfl⟩ := Int.eq_ofNat_of_zero_le
      ((hspec s (List.mem_of_getElem? hs)).resolve_left hne)
    obtain ⟨n', rfl⟩ := Int.eq_ofNat_of_zero_le
      ((hspec s' (List.mem_of_getElem? hs')).resolve_left hne')
    refine ⟨i, n, i', n', hs, hs', ⟨Int.ofNat_inj.mp hdiv, by omega⟩, ?_⟩
    -- Entries of one lane lie at least a chunk apart.
    intro _
    omega

/-! ## Exactness -/

/-- An input clash is a block that the input crossbar cannot deliver, and an
output clash a record that the output crossbar cannot store, whatever the offset
at which it is laid down. -/
theorem clash_checks_exact {spec : List Int}
    (hspec : ∀ s ∈ spec, s = -1 ∨ 0 ≤ s) :
    (isInputClashing spec = true ↔
      ∃ c, ¬∃ r : InputRouting, r.Delivers (chunkOfSpecification spec c)) ∧
    ∀ offset, isOutputClashing spec = true ↔
      ¬∃ r : OutputRouting, r.Stores spec offset := by
  constructor
  · rw [isInputClashing_iff]
    refine exists_congr fun c => ?_
    have hblock : ∀ s ∈ chunkOfSpecification spec c, s = -1 ∨ 0 ≤ s :=
      fun s hs => hspec s (List.mem_of_mem_drop (List.mem_of_mem_take hs))
    rw [exists_delivers_iff hblock (List.length_take_le _ _),
      not_blockServed_iff hblock]
  · intro offset
    rw [exists_stores_iff hspec, not_recordServed_iff hspec,
      isOutputClashing_iff]

/-- Two columns that are swapped across chunks clash in both crossbars. -/
theorem clash_checks_exact_twoChunks :
    (∃ c, ¬∃ r : InputRouting, r.Delivers (chunkOfSpecification [1, 17] c)) ∧
      ¬∃ r : OutputRouting, r.Stores
        [1, 3, 2, 4, 5, 6, 7, 8, 9, 10, 11, 12, 13, 14, 15, 16, 0, 17, 18] 5 :=
  ⟨(clash_checks_exact (by decide)).1.mp (by decide),
    ((clash_checks_exact (by decide)).2 5).mp (by decide)⟩

end Orkhestra.Ports.ClashChecks
