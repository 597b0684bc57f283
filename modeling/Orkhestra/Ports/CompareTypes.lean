import Orkhestra.Ports.FilterClauses
import Orkhestra.Verified.Log

/-!
# Compare types of the words of a comparison

The reference values are written in a loop over the words of each comparison,
the compare types in a second loop that counts the words of the first
comparison of the header.  A word behind those has no compare type.
-/

namespace Orkhestra.Ports.CompareTypes

open Orkhestra.Verified.Checked
open Orkhestra.Verified.Log
open Orkhestra.Ports.DMA
open Orkhestra.Ports.FilterModule
open Orkhestra.Ports.FilterSetup
open Orkhestra.Ports.FilterClauses

variable {headers : List Header} {h : Header} {c : Comparison}

/-! ## The registers of a header -/

/-- The register that `FilterSetCompareTypes` writes for a cell. -/
def compareTypesAddress (chunkId dataPosition : Int) : Int :=
  2 ^ 15 + dataPosition * 2 ^ 2 + chunkId * 2 ^ 7

/-- The write of a call of `FilterSetCompareTypes`, with the functions of the
lanes. -/
def compareTypesWrite (chunkId dataPosition : Int)
    (types : Nat → FilterCompareFunctions) : RegisterWrite :=
  writeToModule (compareTypesAddress chunkId dataPosition)
    ((types 3).toInt * 2 ^ 12 + (types 2).toInt * 2 ^ 8 +
      (types 1).toInt * 2 ^ 4 + (types 0).toInt)

/-- The write of a call of `FilterSetCompareReferenceValue`. -/
def referenceValueWrite (chunkId dataPosition : Int) (lane : Nat)
    (value : Int) : RegisterWrite :=
  writeToModule
    (compareTypesAddress chunkId dataPosition + (lane + 1) * 2 ^ 12) value

/-- The function of a lane; an unused one compares for equality. -/
def compareType (h : Header) (lane : Nat) : FilterCompareFunctions :=
  ((h.comparisons[lane]?).map fun c => .ofInt c.compareFunction).getD
    .kEqual32Bit

/-- Words that are given compare types. -/
def typedWords (h : Header) : Nat :=
  ((h.comparisons[0]?).map fun c => c.referenceValues.length).getD 0

def referenceWrites (h : Header) : List RegisterWrite :=
  h.comparisons.zipIdx.flatMap fun lane =>
    lane.1.referenceValues.zipIdx.flatMap fun value =>
      [referenceValueWrite (currentChunkId h.chunkId h.dataPosition value.2)
        (currentDataPosition h.dataPosition value.2) lane.2 value.1]

/-- The write for word `k`. -/
def typesWrite (h : Header) (k : Nat) : RegisterWrite :=
  compareTypesWrite (currentChunkId h.chunkId h.dataPosition k)
    (currentDataPosition h.dataPosition k) (compareType h)

def headerWrites (h : Header) : List RegisterWrite :=
  referenceWrites h ++
    (List.range (typedWords h)).flatMap fun k => [typesWrite h k]

/-! ## The run -/

/-- Literals are collected in the table and not written. -/
theorem emits_clauseLiterals (comparison : FilterComparison) (lane : Nat)
    (chunkId dataPosition : Int) :
    Emits Filter.writes (fun filterModule => setClauseLiterals filterModule
      comparison lane chunkId dataPosition) [] := by
  have hloop : Emits Filter.writes (fun filterModule => setClauseLiterals
      filterModule comparison lane chunkId dataPosition)
      ((comparison.dnfClauseIds.zip comparison.literalTypes).flatMap
        fun _ => []) := by
    refine Emits.foldlM _ fun dnf _ filterModule filterModule' hrun => ?_
    simp only [filterSetDNFClauseLiteral, bind_eq_ok] at hrun
    obtain ⟨_, -, _, -, _, -, _, -, hrun⟩ := hrun
    obtain rfl := Except.ok.inj hrun
    exact (List.append_nil _).symm
  rwa [List.flatMap_eq_nil_iff.mpr fun _ _ => rfl] at hloop

theorem emits_comparison (chunkId dataPosition : Int)
    (lane : Comparison × Nat) :
    Emits Filter.writes (fun filterModule => setComparison chunkId dataPosition
      filterModule (lane.1.toFilterComparison, lane.2))
      (lane.1.referenceValues.zipIdx.flatMap fun value =>
        [referenceValueWrite (currentChunkId chunkId dataPosition value.2)
          (currentDataPosition dataPosition value.2) lane.2 value.1]) := by
  refine Emits.foldlM _ fun value _ filterModule filterModule' hrun => ?_
  have hliterals := emits_clauseLiterals _ _ _ _ _ _ hrun
  rw [List.append_nil] at hliterals
  exact hliterals

theorem emits_compareTypes (chunkId dataPosition : Int)
    (compareFunctions : List FilterCompareFunctions)
    {types : Nat → FilterCompareFunctions}
    (htypes : ∀ i t, readAt compareFunctions i = .ok t → t = types i)
    (valueCount : Nat) :
    Emits Filter.writes (fun filterModule => setCompareTypes filterModule
      chunkId dataPosition compareFunctions valueCount)
      ((List.range valueCount).flatMap fun k =>
        [compareTypesWrite (currentChunkId chunkId dataPosition k)
          (currentDataPosition dataPosition k) types]) := by
  refine Emits.foldlM _ fun k _ filterModule filterModule' hrun => ?_
  simp only [bind_eq_ok] at hrun
  obtain ⟨_, h0, _, h1, _, h2, _, h3, hrun⟩ := hrun
  obtain rfl := Except.ok.inj hrun
  rw [htypes 0 _ h0, htypes 1 _ h1, htypes 2 _ h2, htypes 3 _ h3]
  rfl

theorem compareFunctions_at {i : Nat} {t : FilterCompareFunctions}
    (hread : readAt ((h.comparisons.map Comparison.toFilterComparison).map
      (·.compareFunction) ++ List.replicate
        (4 - (h.comparisons.map Comparison.toFilterComparison).length)
        .kEqual32Bit) i = .ok t) : t = compareType h i := by
  rw [readAt_eq_ok, List.getElem?_append] at hread
  simp only [List.length_map, List.getElem?_map] at hread
  rw [compareType]
  split at hread
  · cases hc : h.comparisons[i]? with
    | none =>
        rw [hc] at hread
        cases hread
    | some c =>
        rw [hc] at hread
        exact (Option.some.inj hread).symm
  · next hlt =>
      rw [List.getElem?_eq_none (Nat.le_of_not_lt hlt)]
      exact (List.mem_replicate.mp (List.mem_of_getElem? hread)).2

theorem emits_header (h : Header) :
    Emits Filter.writes (fun filterModule => h.setComparisons filterModule)
      (headerWrites h) := by
  intro filterModule filterModule' hrun
  simp only [Header.setComparisons, setComparisons, bind_eq_ok] at hrun
  obtain ⟨middle, hreferences, first, hfirst, htypes⟩ := hrun
  simp only [List.zipIdx_map, List.foldlM_map] at hreferences
  have hlanes := Emits.foldlM h.comparisons.zipIdx
    (fun lane _ => emits_comparison h.chunkId h.dataPosition lane) _ _
    hreferences
  have hwords := emits_compareTypes h.chunkId h.dataPosition _
    (fun i t => compareFunctions_at) _ _ _ htypes
  rw [readAt_eq_ok, List.getElem?_map, Option.map_eq_some_iff] at hfirst
  obtain ⟨c, hc, rfl⟩ := hfirst
  rw [hwords, hlanes, headerWrites, typedWords, hc, List.append_assoc]
  rfl

/-! ## Cells -/

/-- The registers of a word. -/
theorem typesWrite_address (hh : h.WellFormed) (k : Nat) :
    (typesWrite h k).address = compareTypesAddress ((h.firstWord + k) / 16)
      (15 - (h.firstWord + k) % 16) := by
  obtain ⟨hchunk, hposition⟩ := current_eq hh.position k
  rw [typesWrite, hchunk, hposition]
  rfl

theorem mem_headerWrites {w : RegisterWrite} (hw : w ∈ headerWrites h) :
    (∃ c ∈ h.comparisons, ∃ k < c.referenceValues.length, ∃ lane value,
      w = referenceValueWrite (currentChunkId h.chunkId h.dataPosition k)
        (currentDataPosition h.dataPosition k) lane value) ∨
    ∃ k < typedWords h, w = typesWrite h k := by
  rcases List.mem_append.mp hw with hw | hw
  · simp only [referenceWrites, List.mem_flatMap, List.mem_singleton] at hw
    obtain ⟨⟨c, lane⟩, hlane, ⟨value, k⟩, hvalue, rfl⟩ := hw
    have hk := (List.getElem?_eq_some_iff.mp
      (List.mem_zipIdx_iff_getElem?.mp hvalue)).1
    exact .inl ⟨c, List.mem_of_getElem? (List.mem_zipIdx_iff_getElem?.mp hlane),
      k, hk, lane, value, rfl⟩
  · simp only [List.mem_flatMap, List.mem_range, List.mem_singleton] at hw
    obtain ⟨k, hk, rfl⟩ := hw
    exact .inr ⟨k, hk, rfl⟩

theorem exists_typedWords {k : Nat} (hk : k < typedWords h) :
    ∃ c ∈ h.comparisons, k < c.referenceValues.length := by
  rw [typedWords] at hk
  cases hc : h.comparisons[0]? with
  | none =>
      rw [hc] at hk
      exact absurd hk (Nat.not_lt_zero k)
  | some c =>
      rw [hc] at hk
      exact ⟨c, List.mem_of_getElem? hc, hk⟩

/-- Only the second loop of its own header writes the compare types of a
word. -/
theorem eq_typesWrite (hwf : WellFormed headers) (hh : h ∈ headers)
    (hc : c ∈ h.comparisons) {k : Nat} (hk : k < c.referenceValues.length)
    {w : RegisterWrite} (hw : w ∈ headers.flatMap headerWrites)
    (haddress : w.address = (typesWrite h k).address) :
    k < typedWords h ∧ w = typesWrite h k := by
  have hwords := (hwf.wellFormed h hh).inside c hc k hk
  rw [typesWrite_address (hwf.wellFormed h hh)] at haddress
  obtain ⟨h', hh', hw⟩ := List.mem_flatMap.mp hw
  rcases mem_headerWrites hw with
    ⟨c', hc', k', hk', lane, value, rfl⟩ | ⟨k', hk', rfl⟩
  · have hwords' := (hwf.wellFormed h' hh').inside c' hc' k' hk'
    obtain ⟨hchunk, hposition⟩ := current_eq (hwf.wellFormed h' hh').position k'
    rw [hchunk, hposition] at haddress
    simp only [referenceValueWrite, writeToModule, compareTypesAddress]
      at haddress
    omega
  · obtain ⟨c', hc', hkc'⟩ := exists_typedWords hk'
    have hwords' := (hwf.wellFormed h' hh').inside c' hc' k' hkc'
    rw [typesWrite_address (hwf.wellFormed h' hh')] at haddress
    simp only [compareTypesAddress] at haddress
    have hword : h'.firstWord + k' = h.firstWord + k := by omega
    have hheader : h' = h := by
      by_contra hne
      exact hwf.apart.forall hh' hh hne c' hc' c hc k' k hkc' hk hword
    subst hheader
    have hsame : k' = k := by omega
    subst hsame
    exact ⟨hk', rfl⟩

/-! ## Coverage -/

/-- The last call of `FilterSetCompareTypes` for a cell exists, and carries the
function in the lane: its word is made of the functions of all lanes of the
header. -/
def LastCarries (writes : List RegisterWrite) (h : Header)
    (chunkId dataPosition : Int) (lane : Nat)
    (compareFunction : FilterCompareFunctions) : Prop :=
  compareType h lane = compareFunction ∧
    lastWith RegisterWrite.address writes
      (compareTypesAddress chunkId dataPosition) =
      some (compareTypesWrite chunkId dataPosition (compareType h))

/-- The last call for a word, if there is one. -/
theorem lastWith_compareTypesAddress (hwf : WellFormed headers)
    (hh : h ∈ headers) (hc : c ∈ h.comparisons) {k : Nat}
    (hk : k < c.referenceValues.length) :
    lastWith RegisterWrite.address (headers.flatMap headerWrites)
        (compareTypesAddress ((h.firstWord + k) / 16)
          (15 - (h.firstWord + k) % 16)) =
      if k < typedWords h then
        some (compareTypesWrite ((h.firstWord + k) / 16)
          (15 - (h.firstWord + k) % 16) (compareType h))
      else none := by
  have haddress := typesWrite_address (hwf.wellFormed h hh) k
  rw [← haddress]
  split
  · next htyped =>
      have hmem : typesWrite h k ∈ headers.flatMap headerWrites := by
        refine List.mem_flatMap.mpr ⟨h, hh, List.mem_append_right _ ?_⟩
        exact List.mem_flatMap.mpr
          ⟨k, List.mem_range.mpr htyped, List.mem_singleton_self _⟩
      rw [lastWith_of_unique hmem fun w hw hsame =>
        (eq_typesWrite hwf hh hc hk hw hsame).2]
      obtain ⟨hchunk, hposition⟩ := current_eq (hwf.wellFormed h hh).position k
      rw [typesWrite, hchunk, hposition]
  · next htyped =>
      rw [Option.eq_none_iff_forall_ne_some]
      intro w hlast
      obtain ⟨hw, hsame⟩ := lastWith_eq_some hlast
      exact htyped (eq_typesWrite hwf hh hc hk hw hsame).1

theorem lastCarries_iff (hwf : WellFormed headers) (hh : h ∈ headers)
    {lane : Nat} (hlane : h.comparisons[lane]? = some c) {k : Nat}
    (hk : k < c.referenceValues.length) :
    LastCarries (headers.flatMap headerWrites) h ((h.firstWord + k) / 16)
        (15 - (h.firstWord + k) % 16) lane (.ofInt c.compareFunction) ↔
      k < typedWords h := by
  have hfunction : compareType h lane = .ofInt c.compareFunction := by
    rw [compareType, hlane]
    rfl
  rw [LastCarries, and_iff_right hfunction,
    lastWith_compareTypesAddress hwf hh (List.mem_of_getElem? hlane) hk]
  simp

theorem setAllComparisons_writes (hwf : WellFormed headers)
    (filterModule : Filter) :
    ∃ filterModule', setAllComparisons filterModule (parameters headers) =
        .ok filterModule' ∧
      filterModule'.writes =
        filterModule.writes ++ headers.flatMap headerWrites := by
  obtain ⟨filterModule', hrun, -⟩ :=
    sets_allComparisons hwf.wellFormed filterModule
  refine ⟨filterModule', hrun, ?_⟩
  dsimp only at hrun
  rw [setAllComparisons_eq hwf.wellFormed] at hrun
  exact Emits.foldlM headers (fun h _ => emits_header h) _ _ hrun

/-- Every word of every comparison has the compare type of its comparison
exactly when in no header a comparison has more words than the first one. -/
theorem compare_types_cover_iff (hwf : WellFormed headers)
    (filterModule : Filter) :
    ∃ filterModule' writes,
      setAllComparisons filterModule (parameters headers) =
        .ok filterModule' ∧
      filterModule'.writes = filterModule.writes ++ writes ∧
      ((∀ h ∈ headers, ∀ lane c, h.comparisons[lane]? = some c →
          ∀ k : Nat, k < c.referenceValues.length →
            LastCarries writes h ((h.firstWord + k) / 16)
              (15 - (h.firstWord + k) % 16) lane
              (.ofInt c.compareFunction)) ↔
        ∀ h ∈ headers, ∀ first, h.comparisons[0]? = some first →
          ∀ c ∈ h.comparisons,
            c.referenceValues.length ≤ first.referenceValues.length) := by
  obtain ⟨filterModule', hrun, hwrites⟩ :=
    setAllComparisons_writes hwf filterModule
  refine ⟨filterModule', _, hrun, hwrites, ?_⟩
  refine forall₂_congr fun h hh => ?_
  have htyped : ∀ first, h.comparisons[0]? = some first →
      typedWords h = first.referenceValues.length := by
    intro first hfirst
    rw [typedWords, hfirst]
    rfl
  constructor
  · intro hcarries first hfirst c hc
    obtain ⟨lane, hlane⟩ := List.mem_iff_getElem?.mp hc
    by_contra hlt
    have hcovered := hcarries lane c hlane first.referenceValues.length
      (by omega)
    rw [lastCarries_iff hwf hh hlane (by omega), htyped first hfirst]
      at hcovered
    omega
  · intro hle lane c hlane k hk
    obtain ⟨first, hfirst⟩ : ∃ first, h.comparisons[0]? = some first := by
      have := (hwf.wellFormed h hh).count
      exact ⟨_, List.getElem?_eq_getElem (by omega)⟩
    rw [lastCarries_iff hwf hh hlane hk, htyped first hfirst]
    have := hle first hfirst c (List.mem_of_getElem? hlane)
    omega

theorem compare_types_cover_acrossChunks :
    ∃ filterModule' writes,
      setAllComparisons unconfigured (parameters acrossChunks) =
        .ok filterModule' ∧
      filterModule'.writes = writes ∧
      ∀ h ∈ acrossChunks, ∀ lane c, h.comparisons[lane]? = some c →
        ∀ k : Nat, k < c.referenceValues.length →
          LastCarries writes h ((h.firstWord + k) / 16)
            (15 - (h.firstWord + k) % 16) lane
            (.ofInt c.compareFunction) := by
  obtain ⟨filterModule', writes, hrun, hwrites, hcover⟩ :=
    compare_types_cover_iff wellFormed_acrossChunks unconfigured
  refine ⟨filterModule', writes, hrun, hwrites, hcover.mpr ?_⟩
  intro h hh first hfirst c hc
  rw [acrossChunks, List.mem_singleton] at hh
  subst hh
  obtain rfl := Option.some.inj hfirst
  rcases List.mem_pair.mp hc with rfl | rfl <;> exact Nat.le_refl 2

/-- A number and a text of two words are compared from the same position on. -/
def numberAndText : Header where
  chunkId := 0
  dataPosition := 15
  comparisons := [⟨2, [], [9], [1], [0]⟩, ⟨2, [], [7, 8], [1], [0]⟩]

theorem wellFormed_numberAndText : WellFormed [numberAndText] := by
  refine ⟨by decide, ?_, List.pairwise_singleton _ _⟩
  intro h hh
  obtain rfl := List.mem_singleton.mp hh
  refine ⟨by decide, by decide, ?_, ?_⟩
  · intro c hc k hk
    have hlength : c.referenceValues.length ≤ 2 := by
      rcases List.mem_pair.mp hc with rfl | rfl <;> decide
    show 0 ≤ (0 : Int) + k ∧ (0 : Int) + k < 512
    omega
  · intro c hc
    rcases List.mem_pair.mp hc with rfl | rfl <;>
      exact ⟨by decide, by decide, by decide⟩

/-- The second word of the text has no compare type. -/
theorem compare_types_not_always_cover :
    ∃ filterModule', setAllComparisons unconfigured
        (parameters [numberAndText]) = .ok filterModule' ∧
      lastWith RegisterWrite.address filterModule'.writes
        (compareTypesAddress 0 14) = none ∧
      ¬∀ h ∈ [numberAndText], ∀ lane c, h.comparisons[lane]? = some c →
        ∀ k : Nat, k < c.referenceValues.length →
          LastCarries filterModule'.writes h ((h.firstWord + k) / 16)
            (15 - (h.firstWord + k) % 16) lane
            (.ofInt c.compareFunction) := by
  have hwf := wellFormed_numberAndText
  obtain ⟨filterModule', hrun, hwrites⟩ :=
    setAllComparisons_writes hwf unconfigured
  have hlast := lastWith_compareTypesAddress hwf List.mem_cons_self
    (List.mem_cons_of_mem _ List.mem_cons_self) (by decide : 1 < 2)
  refine ⟨filterModule', hrun, by rw [hwrites]; exact hlast, ?_⟩
  intro hcover
  have hsecond := hcover numberAndText List.mem_cons_self 1 _ rfl 1 (by decide)
  rw [hwrites] at hsecond
  have htyped := (lastCarries_iff hwf List.mem_cons_self rfl
    (by decide)).mp hsecond
  exact absurd htyped (by decide)

end Orkhestra.Ports.CompareTypes
