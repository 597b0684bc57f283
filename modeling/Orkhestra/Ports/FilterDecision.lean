import Orkhestra.Ports.ModuleWindows

/-!
# What a filter decides

A comparator of the filter takes its function and its reference word from its
registers and compares a word of the record with it; a clause survives a
comparator when its bit is set in the mask for the outcome.

No register is reset between runs, and a set-up only writes the functions and
reference words of the words that its comparisons name.  The others keep what an
earlier run has left, but every mask is written, and a comparator that no
comparison names lets every clause in use survive.  So a filter decides each
record by its own parameters, whatever ran before it (`filter_decides`).
-/

namespace Orkhestra.Ports.FilterDecision

open Orkhestra.Verified.Checked
open Orkhestra.Verified.Log
open Orkhestra.Verified.LiteralTable
open Orkhestra.Ports.StreamParameterCalculator
open Orkhestra.Ports.QuerySchedulingData
open Orkhestra.Ports.QueryManager
open Orkhestra.Ports.DMA
open Orkhestra.Ports.DMASetup
open Orkhestra.Ports.ActiveStreams
open Orkhestra.Ports.FilterModule
open Orkhestra.Ports.FilterSetup
open Orkhestra.Ports.FilterClauses
open Orkhestra.Ports.CompareTypes
open Orkhestra.Ports.ModuleSwitch
open Orkhestra.Ports.ModuleWindows

/-! ## The hardware -/

/-- A comparator of 32 bit words, by the function code and the reference word;
the last argument is the word of the record. -/
abbrev Comparator := Nat → Nat → Nat → Bool

/-- The words of a record by chunk and data position. -/
abbrev Chunks := Nat → Nat → Nat

/-- The outcomes of the comparators with the functions and reference words of
the registers. -/
def outcome (compare : Comparator) (registers : Int → Nat) (chunks : Chunks) :
    Truth :=
  fun lane chunk position =>
    compare (registers (compareTypesAddress chunk position) / 16 ^ lane % 16)
      (registers (compareTypesAddress chunk position + (lane + 1) * 2 ^ 12))
      (chunks chunk position)

/-- The bit of the clause is set in the mask for the outcome of each
comparator. -/
def SurvivesIn (registers : Int → Nat) (truth : Truth) (clause : Nat) : Prop :=
  ∀ lane < 4, ∀ chunk < 32, ∀ position < kDatapathWidth,
    (registers (maskAddress (truth lane chunk position) lane chunk
      position)).testBit clause = true

/-- The module lets the record through. -/
def Passes (compare : Comparator) (registers : Int → Nat) (chunks : Chunks) :
    Prop :=
  ∃ clause < 32, SurvivesIn registers (outcome compare registers chunks) clause

/-! ## The parameters -/

/-- The word of a record at a place of the datapath. -/
def wordAt (chunks : Chunks) (word : Int) : Nat :=
  chunks (word / 16).toNat (15 - word % 16).toNat

/-- All literals of the clause hold for the record. -/
def Meets (compare : Comparator) (headers : List Header) (chunks : Chunks)
    (clause : Int) : Prop :=
  ∀ h ∈ headers, ∀ c ∈ h.comparisons, ∀ literalType,
    (clause, literalType) ∈ c.literals →
      ∀ (k : Nat) (value : Int), c.referenceValues[k]? = some value →
        literalType.HoldsAt (compare c.compareFunction.toNat (toWord value)
          (wordAt chunks (h.firstWord + k)))

/-- Comparisons of 32 bit words; none has more words than the first one of its
header, whose words the compare types are written for. -/
structure Decidable32Bit (headers : List Header) : Prop where
  functions : ∀ h ∈ headers, ∀ c ∈ h.comparisons,
    0 ≤ c.compareFunction ∧ c.compareFunction ≤ 5
  covered : ∀ h ∈ headers, ∀ first, h.comparisons[0]? = some first →
    ∀ c ∈ h.comparisons,
      c.referenceValues.length ≤ first.referenceValues.length

/-! ## The registers of a filter -/

section Registers

variable {headers : List Header} {h : Header} {c : Comparison}
  {before : Int → Nat} {writes : List RegisterWrite}

theorem kDatapathWidth_lt : kDatapathWidth < 33 := by decide

/-- The masks of a table, written at the end. -/
def maskTable (configured : Filter) : List RegisterWrite :=
  (filterWriteDNFClauseLiteralsToModule ⟨configured.dnfStates, []⟩
    (size4CMP32DNF ⟨kDatapathWidth, kDatapathWidth_lt⟩)).writes

/-- The writes of a set-up: the streams and the mode, the comparisons, the
masks. -/
theorem setupFilterModule_writes (hwf : WellFormed headers)
    {filterModule filterModule' : Filter} {inputStreamId outputStreamId : Int}
    (hrun : setupFilterModule filterModule inputStreamId outputStreamId
      (parameters headers) = .ok filterModule') :
    ∃ configured : Filter, ∃ start : List RegisterWrite,
      start.map (·.address) = [0, 4] ∧
      configured.table = (Table.empty .kLiteralDontCare).setAll
        (headers.flatMap Header.settings) ∧
      filterModule' = filterWriteDNFClauseLiteralsToModule configured
        (size4CMP32DNF ⟨kDatapathWidth, by decide⟩) ∧
      filterModule'.writes = filterModule.writes ++ start ++
        headers.flatMap headerWrites ++ maskTable configured := by
  obtain ⟨configured, hset, htable⟩ := sets_allComparisons hwf.wellFormed
    (setOneOutputSingleModuleMode (filterSetStreamIDs
      (resetDNFStates filterModule) inputStreamId outputStreamId
      outputStreamId))
  obtain ⟨configured', hset', hwrites⟩ := setAllComparisons_writes hwf
    (setOneOutputSingleModuleMode (filterSetStreamIDs
      (resetDNFStates filterModule) inputStreamId outputStreamId
      outputStreamId))
  obtain rfl := Except.ok.inj (hset.symm.trans hset')
  have hrun' : setupFilterModule filterModule inputStreamId outputStreamId
      (parameters headers) =
        .ok (filterWriteDNFClauseLiteralsToModule configured
          (size4CMP32DNF ⟨kDatapathWidth, by decide⟩)) := by
    obtain ⟨h, rest, rfl⟩ := List.exists_cons_of_ne_nil hwf.nonempty
    rw [parameters, List.flatMap_cons, Header.vectors,
      List.cons_append] at hset ⊢
    simp only [setupFilterModule, hset, ok_bind]
    rfl
  obtain rfl := Except.ok.inj (hrun.symm.trans hrun')
  refine ⟨configured, (setOneOutputSingleModuleMode (filterSetStreamIDs
    ⟨configured.dnfStates, []⟩ inputStreamId outputStreamId
    outputStreamId)).writes, rfl, htable, rfl, ?_⟩
  rw [filterWriteDNFClauseLiteralsToModule, hwrites]
  simp only [maskTable, filterWriteDNFClauseLiteralsToModule,
    setOneOutputSingleModuleMode, filterSetMode, filterSetStreamIDs,
    resetDNFStates, Filter.writeToModule, List.append_assoc, List.nil_append,
    List.cons_append]

/-- The masks lie behind the other registers. -/
theorem maskTable_address {configured : Filter} {w : RegisterWrite}
    (hw : w ∈ maskTable configured) : 2 ^ 16 ≤ w.address := by
  simp only [maskTable, filterWriteDNFClauseLiteralsToModule, List.nil_append,
    List.mem_flatMap, List.mem_finRange, true_and] at hw
  obtain ⟨lane, position, chunk, hw⟩ := hw
  rw [maskWrites_eq] at hw
  simp only [List.mem_cons, List.not_mem_nil, or_false] at hw
  rcases hw with rfl | rfl
  all_goals
    simp only [maskWrite, maskAddress, if_true, Bool.false_eq_true, if_false]
    omega

/-- Every comparator has its masks. -/
theorem exists_mask (configured : Filter) (positive : Bool)
    {lane chunk position : Nat} (hlane : lane < 4) (hchunk : chunk < 32)
    (hposition : position < kDatapathWidth) :
    ∃ w ∈ maskTable configured,
      w.address = maskAddress positive lane chunk position := by
  let size := size4CMP32DNF ⟨kDatapathWidth, by decide⟩
  refine ⟨maskWrite configured.dnfStates size ⟨lane, hlane⟩ ⟨chunk, hchunk⟩
    ⟨position, hposition⟩ positive, ?_, rfl⟩
  simp only [maskTable, filterWriteDNFClauseLiteralsToModule, List.nil_append,
    List.mem_flatMap, List.mem_finRange, true_and]
  refine ⟨⟨lane, hlane⟩, ⟨position, hposition⟩, ⟨chunk, hchunk⟩, ?_⟩
  rw [maskWrites_eq]
  cases positive <;> simp [size]

/-- A register that is written holds the same word after any history. -/
theorem contents_eq_registerValue {a : Int} (h : ∃ w ∈ writes, w.address = a)
    (earlier : List RegisterWrite) :
    contents before writes a =
      FilterModule.registerValue (earlier ++ writes) a := by
  obtain ⟨w, hw, haddress⟩ := h
  unfold contents FilterModule.registerValue
  rw [List.reverse_append, List.find?_append]
  cases hlast : lastWith RegisterWrite.address writes a with
  | none => exact absurd haddress (lastWith_eq_none.mp hlast w hw)
  | some w' =>
      rw [lastWith] at hlast
      rw [hlast]
      rfl

/-- The cells of a word of a comparison. -/
theorem word_inTable (hwf : WellFormed headers) (hh : h ∈ headers)
    (hc : c ∈ h.comparisons) {k : Nat} (hk : k < c.referenceValues.length) :
    InTable ((h.firstWord + k) / 16) (15 - (h.firstWord + k) % 16) := by
  have hwords := (hwf.wellFormed h hh).inside c hc k hk
  unfold InTable
  omega

/-- The registers of the comparisons lie between the mode and the masks. -/
theorem lastWith_comparison {configured : Filter} {start : List RegisterWrite}
    (hstart : start.map (·.address) = [0, 4]) {a : Int} (hlow : 4 < a)
    (hhigh : a < 2 ^ 16) :
    lastWith RegisterWrite.address
        (start ++ headers.flatMap headerWrites ++ maskTable configured) a =
      lastWith RegisterWrite.address (headers.flatMap headerWrites) a := by
  have hmasks : lastWith RegisterWrite.address (maskTable configured) a =
      none := by
    rw [lastWith_eq_none]
    intro w hw heq
    have hmask := maskTable_address hw
    omega
  have hids : lastWith RegisterWrite.address start a = none := by
    rw [lastWith_eq_none]
    intro w hw heq
    have hmem := List.mem_map_of_mem (f := (·.address)) hw
    rw [hstart] at hmem
    simp only [List.mem_cons, List.not_mem_nil, or_false] at hmem
    omega
  rw [lastWith_append, lastWith_append, hmasks, hids, Option.none_or,
    Option.or_none]

theorem mem_referenceWrites {w : RegisterWrite} :
    w ∈ referenceWrites h ↔
      ∃ lane c, h.comparisons[lane]? = some c ∧
        ∃ (k : Nat) (value : Int), c.referenceValues[k]? = some value ∧
          w = referenceValueWrite (currentChunkId h.chunkId h.dataPosition k)
            (currentDataPosition h.dataPosition k) lane value := by
  simp only [referenceWrites, List.mem_flatMap, List.mem_singleton]
  constructor
  · rintro ⟨⟨c, lane⟩, hlane, ⟨value, k⟩, hvalue, rfl⟩
    exact ⟨lane, c, List.mem_zipIdx_iff_getElem?.mp hlane, k, value,
      List.mem_zipIdx_iff_getElem?.mp hvalue, rfl⟩
  · rintro ⟨lane, c, hlane, k, value, hvalue, rfl⟩
    exact ⟨(c, lane), List.mem_zipIdx_iff_getElem?.mpr hlane, (value, k),
      List.mem_zipIdx_iff_getElem?.mpr hvalue, rfl⟩

/-- Register of the reference word of a lane. -/
def referenceAddress (word : Int) (lane : Nat) : Int :=
  compareTypesAddress (word / 16) (15 - word % 16) + (lane + 1) * 2 ^ 12

theorem referenceValueWrite_address (hh : h.WellFormed) (k lane : Nat)
    (value : Int) :
    (referenceValueWrite (currentChunkId h.chunkId h.dataPosition k)
      (currentDataPosition h.dataPosition k) lane value).address =
      referenceAddress (h.firstWord + k) lane := by
  obtain ⟨hchunk, hposition⟩ := current_eq hh.position k
  rw [hchunk, hposition]
  rfl

/-- Only the first loop of its own header writes the reference word of a lane. -/
theorem eq_referenceValueWrite (hwf : WellFormed headers) (hh : h ∈ headers)
    {lane : Nat} (hlane : h.comparisons[lane]? = some c) {k : Nat} {value : Int}
    (hvalue : c.referenceValues[k]? = some value) {w : RegisterWrite}
    (hw : w ∈ headers.flatMap headerWrites)
    (haddress : w.address = referenceAddress (h.firstWord + k) lane) :
    w.data = toWord value := by
  have hc := List.mem_of_getElem? hlane
  have hk := (List.getElem?_eq_some_iff.mp hvalue).1
  have hwords := (hwf.wellFormed h hh).inside c hc k hk
  obtain ⟨h', hh', hw⟩ := List.mem_flatMap.mp hw
  rcases List.mem_append.mp hw with hw | hw
  · obtain ⟨lane', c', hlane', k', value', hvalue', rfl⟩ :=
      mem_referenceWrites.mp hw
    have hc' := List.mem_of_getElem? hlane'
    have hk' := (List.getElem?_eq_some_iff.mp hvalue').1
    have hwords' := (hwf.wellFormed h' hh').inside c' hc' k' hk'
    rw [referenceValueWrite_address (hwf.wellFormed h' hh')] at haddress
    simp only [referenceAddress, compareTypesAddress] at haddress
    have hword : h'.firstWord + k' = h.firstWord + k := by omega
    have hsame : lane' = lane := by omega
    have hheader : h' = h := by
      by_contra hne
      exact hwf.apart.forall hh' hh hne c' hc' c hc k' k hk' hk hword
    subst hheader
    subst hsame
    obtain rfl := Option.some.inj (hlane'.symm.trans hlane)
    have hk'k : k' = k := by omega
    subst hk'k
    obtain rfl := Option.some.inj (hvalue'.symm.trans hvalue)
    rfl
  · simp only [List.mem_flatMap, List.mem_range, List.mem_singleton] at hw
    obtain ⟨k', hk', rfl⟩ := hw
    obtain ⟨c', hc', hkc'⟩ := exists_typedWords hk'
    have hwords' := (hwf.wellFormed h' hh').inside c' hc' k' hkc'
    rw [typesWrite_address (hwf.wellFormed h' hh')] at haddress
    simp only [referenceAddress, compareTypesAddress] at haddress
    omega

theorem contents_reference (hwf : WellFormed headers) (hh : h ∈ headers)
    {lane : Nat} (hlane : h.comparisons[lane]? = some c) {k : Nat} {value : Int}
    (hvalue : c.referenceValues[k]? = some value) :
    contents before (headers.flatMap headerWrites)
      (referenceAddress (h.firstWord + k) lane) = toWord value := by
  have hmem : referenceValueWrite (currentChunkId h.chunkId h.dataPosition k)
      (currentDataPosition h.dataPosition k) lane value ∈
        headers.flatMap headerWrites := by
    refine List.mem_flatMap.mpr ⟨h, hh, List.mem_append_left _ ?_⟩
    exact mem_referenceWrites.mpr ⟨lane, c, hlane, k, value, hvalue, rfl⟩
  exact contents_of_agree
    ⟨_, hmem, referenceValueWrite_address (hwf.wellFormed h hh) k lane value⟩
    fun w hw haddress => eq_referenceValueWrite hwf hh hlane hvalue hw haddress

/-! ### Compare types -/

theorem toInt_ofInt {value : Int} (hlow : 0 ≤ value) (hhigh : value ≤ 5) :
    (FilterCompareFunctions.ofInt value).toInt = value := by
  obtain rfl | rfl | rfl | rfl | rfl | rfl :
      value = 0 ∨ value = 1 ∨ value = 2 ∨ value = 3 ∨ value = 4 ∨ value = 5 := by
    omega
  all_goals rfl

/-- The functions of the lanes of a header, also of the unused ones. -/
theorem compareType_range (hfunctions : ∀ c ∈ h.comparisons,
      0 ≤ c.compareFunction ∧ c.compareFunction ≤ 5) (lane : Nat) :
    0 ≤ (compareType h lane).toInt ∧ (compareType h lane).toInt ≤ 5 := by
  unfold compareType
  cases hlane : h.comparisons[lane]? with
  | none => decide
  | some c =>
      obtain ⟨hlow, hhigh⟩ := hfunctions c (List.mem_of_getElem? hlane)
      simp only [Option.map_some, Option.getD_some]
      rw [toInt_ofInt hlow hhigh]
      exact ⟨hlow, hhigh⟩

/-- The function of a lane is read back. -/
theorem lane_of_compareTypes {types : Nat → FilterCompareFunctions}
    (hrange : ∀ lane, 0 ≤ (types lane).toInt ∧ (types lane).toInt ≤ 5)
    {lane : Nat} (hlane : lane < 4) (chunkId dataPosition : Int) :
    (compareTypesWrite chunkId dataPosition types).data / 16 ^ lane % 16 =
      (types lane).toInt.toNat := by
  have h0 := hrange 0
  have h1 := hrange 1
  have h2 := hrange 2
  have h3 := hrange 3
  simp only [compareTypesWrite, writeToModule, toWord]
  obtain rfl | rfl | rfl | rfl : lane = 0 ∨ lane = 1 ∨ lane = 2 ∨ lane = 3 := by
    omega
  all_goals omega

theorem contents_compareTypes (hwf : WellFormed headers) (hh : h ∈ headers)
    (hc : c ∈ h.comparisons) {k : Nat} (hk : k < c.referenceValues.length)
    (htyped : k < typedWords h) :
    contents before (headers.flatMap headerWrites)
      (compareTypesAddress ((h.firstWord + k) / 16)
        (15 - (h.firstWord + k) % 16)) = (typesWrite h k).data := by
  have hmem : typesWrite h k ∈ headers.flatMap headerWrites := by
    refine List.mem_flatMap.mpr ⟨h, hh, List.mem_append_right _ ?_⟩
    exact List.mem_flatMap.mpr
      ⟨k, List.mem_range.mpr htyped, List.mem_singleton_self _⟩
  rw [← typesWrite_address (hwf.wellFormed h hh), contents,
    lastWith_of_unique hmem fun w hw hsame =>
      (eq_typesWrite hwf hh hc hk hw hsame).2]
  rfl

/-- Every word of a comparison has a compare type. -/
theorem lt_typedWords (hh : h.WellFormed)
    (hcovered : ∀ first, h.comparisons[0]? = some first →
      ∀ c ∈ h.comparisons,
        c.referenceValues.length ≤ first.referenceValues.length)
    (hc : c ∈ h.comparisons) {k : Nat} (hk : k < c.referenceValues.length) :
    k < typedWords h := by
  have hcount := hh.count
  have hfirst := List.getElem?_eq_getElem (show 0 < h.comparisons.length by
    omega)
  rw [typedWords, hfirst]
  exact hk.trans_le (hcovered _ hfirst c hc)

end Registers

/-! ## The decision -/

section Decision

variable {headers : List Header} {registers before : Int → Nat}
  {configured : Filter} {start : List RegisterWrite}

/-- The registers of a module that has been set up, over what was there
before. -/
structure Configures (registers before : Int → Nat) (headers : List Header)
    (configured : Filter) (start : List RegisterWrite) : Prop where
  start_eq : start.map (·.address) = [0, 4]
  table_eq : configured.table = (Table.empty .kLiteralDontCare).setAll
    (headers.flatMap Header.settings)
  registers_eq : ∀ a, InWindow a → registers a = contents before
    (start ++ headers.flatMap headerWrites ++ maskTable configured) a

/-- Every mask is written, so none is left from an earlier run. -/
theorem Configures.mask
    (hreg : Configures registers before headers configured start)
    (positive : Bool) {lane chunk position : Nat} (hlane : lane < 4)
    (hchunk : chunk < 32) (hposition : position < kDatapathWidth) :
    registers (maskAddress positive lane chunk position) =
      FilterModule.registerValue
        (filterWriteDNFClauseLiteralsToModule configured
          (size4CMP32DNF ⟨kDatapathWidth, by decide⟩)).writes
        (maskAddress positive lane chunk position) := by
  have hwindow : InWindow (maskAddress positive lane chunk position) := by
    simp only [kDatapathWidth_eq] at hposition
    unfold InWindow maskAddress
    cases positive <;> simp only [if_true, Bool.false_eq_true, if_false] <;> omega
  have hmask := exists_mask configured positive hlane hchunk hposition
  rw [hreg.registers_eq _ hwindow, contents_append,
    contents_eq_registerValue hmask configured.writes]
  simp only [maskTable, filterWriteDNFClauseLiteralsToModule, List.nil_append]

theorem Configures.comparison
    (hreg : Configures registers before headers configured start) {a : Int}
    (hlow : 4 < a) (hhigh : a < 2 ^ 16) :
    registers a = contents before (headers.flatMap headerWrites) a := by
  rw [hreg.registers_eq a ⟨by omega, by omega⟩, contents,
    lastWith_comparison hreg.start_eq hlow hhigh, contents]

theorem survivesIn_iff (hwf : WellFormed headers)
    (hreg : Configures registers before headers configured start)
    (truth : Truth) {clause : Nat} (hclause : clause < 32) :
    SurvivesIn registers truth clause ↔
      Applied headers clause ∧ ClauseHolds headers truth clause := by
  rw [← survives_iff hwf hreg.table_eq truth hclause]
  unfold SurvivesIn Survives clauseBit
  refine forall₂_congr fun lane hlane => forall₂_congr fun chunk hchunk =>
    forall₂_congr fun position hposition => ?_
  rw [hreg.mask _ hlane hchunk hposition]

/-- A comparator of a comparison compares the word of the record with the
reference word, by the function of the comparison. -/
theorem outcome_eq (hwf : WellFormed headers) (h32 : Decidable32Bit headers)
    (hreg : Configures registers before headers configured start)
    (compare : Comparator) (chunks : Chunks) {h : Header} (hh : h ∈ headers)
    {lane : Nat} {c : Comparison} (hlane : h.comparisons[lane]? = some c)
    {k : Nat} {value : Int} (hvalue : c.referenceValues[k]? = some value) :
    outcome compare registers chunks lane ((h.firstWord + k) / 16).toNat
        (15 - (h.firstWord + k) % 16).toNat =
      compare c.compareFunction.toNat (toWord value)
        (wordAt chunks (h.firstWord + k)) := by
  have hc := List.mem_of_getElem? hlane
  have hk := (List.getElem?_eq_some_iff.mp hvalue).1
  have hlt := ((hwf.wellFormed h hh).cell hlane hk).1
  obtain ⟨⟨hlow, hhigh⟩, hlow', hhigh'⟩ := word_inTable hwf hh hc hk
  have hfunctions := h32.functions h hh
  obtain ⟨hf0, hf5⟩ := hfunctions c hc
  have hchunk : (((h.firstWord + k) / 16).toNat : Int) =
      (h.firstWord + k) / 16 := Int.toNat_of_nonneg hlow
  have hposition : ((15 - (h.firstWord + k) % 16).toNat : Int) =
      15 - (h.firstWord + k) % 16 := Int.toNat_of_nonneg hlow'
  have htypes : registers (compareTypesAddress ((h.firstWord + k) / 16)
      (15 - (h.firstWord + k) % 16)) / 16 ^ lane % 16 =
        c.compareFunction.toNat := by
    rw [hreg.comparison, contents_compareTypes hwf hh hc hk
      (lt_typedWords (hwf.wellFormed h hh) (h32.covered h hh) hc hk), typesWrite,
      lane_of_compareTypes (compareType_range hfunctions) hlt, compareType,
      hlane]
    · simp only [Option.map_some, Option.getD_some]
      rw [toInt_ofInt hf0 hf5]
    · unfold compareTypesAddress
      omega
    · unfold compareTypesAddress
      omega
  have hreference : registers (referenceAddress (h.firstWord + k) lane) =
      toWord value := by
    rw [hreg.comparison, contents_reference hwf hh hlane hvalue]
    · unfold referenceAddress compareTypesAddress
      omega
    · unfold referenceAddress compareTypesAddress
      omega
  unfold outcome
  rw [hchunk, hposition, htypes]
  rw [referenceAddress] at hreference
  rw [hreference]
  rfl

theorem clauseHolds_iff_meets (hwf : WellFormed headers)
    (h32 : Decidable32Bit headers)
    (hreg : Configures registers before headers configured start)
    (compare : Comparator) (chunks : Chunks) (clause : Int) :
    ClauseHolds headers (outcome compare registers chunks) clause ↔
      Meets compare headers chunks clause := by
  constructor
  · intro hholds h hh c hc literalType hdnf k value hvalue
    obtain ⟨lane, hlane⟩ := List.mem_iff_getElem?.mp hc
    have hk := (List.getElem?_eq_some_iff.mp hvalue).1
    rw [← outcome_eq hwf h32 hreg compare chunks hh hlane hvalue]
    refine hholds h hh lane c hlane literalType hdnf _ ?_
    simp only [Header.outcomes, List.mem_map, List.mem_range]
    exact ⟨k, hk, rfl⟩
  · intro hmeets h hh lane c hlane literalType hdnf o ho
    simp only [Header.outcomes, List.mem_map, List.mem_range] at ho
    obtain ⟨k, hk, rfl⟩ := ho
    have hvalue := List.getElem?_eq_getElem hk
    rw [outcome_eq hwf h32 hreg compare chunks hh hlane hvalue]
    exact hmeets h hh c (List.mem_of_getElem? hlane) literalType hdnf k _ hvalue

/-- The registers decide a record by the parameters. -/
theorem Configures.passes_iff (hwf : WellFormed headers)
    (h32 : Decidable32Bit headers)
    (hreg : Configures registers before headers configured start)
    (compare : Comparator) (chunks : Chunks) :
    Passes compare registers chunks ↔
      ∃ clause, Applied headers clause ∧
        Meets compare headers chunks clause := by
  constructor
  · rintro ⟨clause, hclause, hsurvives⟩
    obtain ⟨happlied, hholds⟩ :=
      (survivesIn_iff hwf hreg _ hclause).mp hsurvives
    exact ⟨clause, happlied,
      (clauseHolds_iff_meets hwf h32 hreg compare chunks clause).mp hholds⟩
  · rintro ⟨clause, happlied, hmeets⟩
    obtain ⟨hlow, hhigh⟩ := happlied.lt hwf
    obtain ⟨n, rfl⟩ := Int.eq_ofNat_of_zero_le hlow
    have hclause : n < 32 := by omega
    exact ⟨n, hclause, (survivesIn_iff hwf hreg _ hclause).mpr ⟨happlied,
      (clauseHolds_iff_meets hwf h32 hreg compare chunks _).mpr hmeets⟩⟩

end Decision

/-- The registers of a filter of a set-up. -/
theorem configures_of_setUp {board : Board} {m m' : FPGAManager}
    {nodes : List AcceleratedQueryNode} {inputs outputs : List StreamInitData}
    {inputSetup outputSetup : DMAModuleSetup}
    (hset : SetUp board nodes m m' inputs outputs inputSetup outputSetup)
    (hnodes : InWindows board nodes) {q : AcceleratedQueryNode} (hq : q ∈ nodes)
    (hfilter : q.operationType = .kFilter) {headers : List Header}
    (hparameters : q.operationParameters = parameters headers)
    (hwf : WellFormed headers) (before : Int → Nat) :
    ∃ configured start, Configures
      (window (contents before m'.writes) q.operationModuleLocation)
      (window (contents before m.writes) q.operationModuleLocation) headers
      configured start := by
  have hconfigured := hset.configured q hq
  simp only [configureModule, hfilter, hparameters, bind_eq_ok,
    Except.ok.injEq] at hconfigured
  obtain ⟨input, -, output, -, filterModule, hrun, hown⟩ := hconfigured
  obtain ⟨configured, start, hstart, htable, -, hwrites⟩ :=
    setupFilterModule_writes hwf hrun
  refine ⟨configured, start, hstart, htable, fun a ha => ?_⟩
  rw [hset.window_of_node hnodes hq (by simp [HasModule, hfilter]) ha, ← hown,
    hwrites]
  rfl

/-- Whatever has been written before, and whichever modules are set up with it,
a filter lets exactly the records through that meet some clause of its
parameters. -/
theorem filter_decides (physicalAddress : Block → Nat)
    (accelerator : Accelerator) (before : Int → Nat) (m m' : FPGAManager)
    (nodes : List AcceleratedQueryNode) (q : AcceleratedQueryNode)
    (headers : List Header)
    (hsetup : setupQueryAcceleration (moduleBoard physicalAddress accelerator) m
      nodes = .ok m')
    (hnodes : InWindows (moduleBoard physicalAddress accelerator) nodes)
    (hq : q ∈ nodes) (hfilter : q.operationType = .kFilter)
    (hparameters : q.operationParameters = parameters headers)
    (hwf : WellFormed headers) (h32 : Decidable32Bit headers)
    (compare : Comparator) (chunks : Chunks) :
    Passes compare
        (window (contents before m'.writes) q.operationModuleLocation) chunks ↔
      ∃ clause, Applied headers clause ∧
        Meets compare headers chunks clause := by
  obtain ⟨inputs, outputs, inputSetup, outputSetup, hset⟩ := exists_setUp hsetup
  obtain ⟨configured, start, hreg⟩ :=
    configures_of_setUp hset hnodes hq hfilter hparameters hwf before
  exact hreg.passes_iff hwf h32 compare chunks

/-- A comparison of the first word with 9. -/
def withNine : List Header :=
  [{ chunkId := 0, dataPosition := 15, comparisons := [⟨0, [], [9], [1], [0]⟩] }]

theorem wellFormed_withNine : WellFormed withNine := by
  refine ⟨by decide, ?_, List.pairwise_singleton _ _⟩
  intro h hh
  obtain rfl := List.mem_singleton.mp hh
  refine ⟨by decide, by decide, ?_, ?_⟩
  · intro c hc k hk
    obtain rfl := List.mem_singleton.mp hc
    have hlength : k < 1 := hk
    show 0 ≤ (0 : Int) + k ∧ (0 : Int) + k < 512
    omega
  · intro c hc
    obtain rfl := List.mem_singleton.mp hc
    exact ⟨by decide, by decide, by decide⟩

theorem decidable_withNine : Decidable32Bit withNine := by
  refine ⟨by decide, ?_⟩
  intro h hh first hfirst c hc
  obtain rfl := List.mem_singleton.mp hh
  obtain rfl := Option.some.inj hfirst
  obtain rfl := List.mem_singleton.mp hc
  exact Nat.le_refl 1

theorem filterAt_configured {headers : List Header} (hwf : WellFormed headers)
    (modulePosition : Int) :
    ∃ writes, configureModule
      (nodeAt .kFilter modulePosition (parameters headers)) = .ok writes := by
  obtain ⟨configured, hrun, -⟩ := setupFilterModule_ok hwf unconfigured 3 5
  have hconfigured : configureModule
      (nodeAt .kFilter modulePosition (parameters headers)) =
        (setupFilterModule unconfigured 3 5 (parameters headers) >>= fun f =>
          .ok f.writes) := rfl
  rw [hconfigured, hrun]
  exact ⟨_, rfl⟩

/-- The comparison behind a filter with others at the same position, by a
comparator that compares for less. -/
theorem filter_decides_withNine :
    ∃ m m', Completed sevensModules
        [[nodeAt .kFilter 1 (parameters acrossChunks)]] m ∧
      setupQueryAcceleration sevensModules m
        [nodeAt .kFilter 1 (parameters withNine)] = .ok m' ∧
      ∀ before chunks, Passes (fun _ reference word => word < reference)
          (window (contents before m'.writes) 1) chunks ↔ chunks 0 15 < 9 := by
  obtain ⟨m₁, hsetup₁⟩ := nodeAt_setup initial (by decide)
    (filterAt_configured wellFormed_acrossChunks 1)
  obtain ⟨⟨m, sizes⟩, hrun⟩ := nodeAt_run hsetup₁
  obtain ⟨m', hsetup⟩ := nodeAt_setup m (by decide)
    (filterAt_configured wellFormed_withNine 1)
  refine ⟨m, m', .pair .initial hsetup₁ hrun, hsetup, fun before chunks => ?_⟩
  have hnodes : InWindows sevensModules
      [nodeAt .kFilter 1 (parameters withNine)] :=
    nodeAt_inWindows (by decide) (by decide)
      (fitsWindow_of_other (by decide) (by decide))
  refine (filter_decides sevens.physicalAddress sevens.accelerator before m m' _
    _ withNine hsetup hnodes (List.mem_singleton_self _) rfl rfl
    wellFormed_withNine decidable_withNine _ chunks).trans ?_
  constructor
  · rintro ⟨clause, ⟨h, hh, c, hc, -, hclause⟩, hmeets⟩
    obtain rfl := List.mem_singleton.mp hh
    obtain rfl := List.mem_singleton.mp hc
    obtain rfl := List.mem_singleton.mp hclause
    have hholds := hmeets _ List.mem_cons_self _ List.mem_cons_self
      .kLiteralPositive (by decide) 0 9 rfl
    exact of_decide_eq_true hholds
  · intro hless
    refine ⟨0, ⟨_, List.mem_cons_self, _, List.mem_cons_self, by decide,
      List.mem_cons_self⟩, ?_⟩
    intro h hh c hc literalType hdnf k value hvalue
    obtain rfl := List.mem_singleton.mp hh
    obtain rfl := List.mem_singleton.mp hc
    obtain rfl := congrArg Prod.snd (List.mem_singleton.mp hdnf)
    match k with
    | 0 =>
        obtain rfl := Option.some.inj hvalue
        exact decide_eq_true hless
    | k + 1 => cases hvalue

end Orkhestra.Ports.FilterDecision
