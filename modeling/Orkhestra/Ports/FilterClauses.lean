import Mathlib.Data.List.Pairwise
import Orkhestra.Ports.FilterSetup

/-!
# The clauses of a filter

The operation parameters of a filter describe a formula in disjunctive normal
form: a clause is the conjunction of the literals that the comparisons give it,
and a literal speaks of all reference words of its comparison.

The module decides a record by the masks: a clause survives a comparator when
its bit is set in the mask for the outcome.  After the set-up a clause survives
all comparators exactly when its literals hold and some comparison with a
reference word names it (`survives_iff`).
-/

namespace Orkhestra.Ports.FilterClauses

open Orkhestra.Verified.Checked
open Orkhestra.Verified.Loop
open Orkhestra.Verified.LiteralTable
open Orkhestra.Ports.StreamParameterCalculator
open Orkhestra.Ports.DMA
open Orkhestra.Ports.FilterModule
open Orkhestra.Ports.FilterSetup

/-! ## Operation parameters -/

/-- The four vectors of a comparison.  Only the first compare function is
read. -/
structure Comparison where
  compareFunction : Int
  unread : List Int := []
  referenceValues : List Int
  literalTypes : List Int
  clauseIds : List Int
  deriving DecidableEq

/-- A header with its comparisons. -/
structure Header where
  chunkId : Int
  dataPosition : Int
  unread : List Int := []
  comparisons : List Comparison
  deriving DecidableEq

def Comparison.vectors (c : Comparison) : List (List Int) :=
  [c.compareFunction :: c.unread, c.referenceValues, c.literalTypes, c.clauseIds]

def Header.vectors (h : Header) : List (List Int) :=
  (h.chunkId :: h.dataPosition :: (h.comparisons.length : Int) :: h.unread) ::
    h.comparisons.flatMap Comparison.vectors

def parameters (headers : List Header) : List (List Int) :=
  headers.flatMap Header.vectors

/-- The clauses of a comparison with their literals, positive if no literal
types are given. -/
def Comparison.literals (c : Comparison) : List (Int × LiteralTypes) :=
  c.clauseIds.zip (if c.literalTypes = [] then
    c.clauseIds.map fun _ => .kLiteralPositive
    else c.literalTypes.map .ofInt)

/-- The words of the datapath are counted from chunk 0 on, and in a chunk from
the last position down. -/
def Header.firstWord (h : Header) : Int := 16 * h.chunkId + (15 - h.dataPosition)

structure Comparison.WellFormed (c : Comparison) : Prop where
  /-- The literal types can be completed. -/
  literals : if c.literalTypes = [] then c.clauseIds ≠ []
    else c.literalTypes.length = c.clauseIds.length
  inRange : ∀ clause ∈ c.clauseIds, 0 ≤ clause ∧ clause < 32
  nodup : c.clauseIds.Nodup

structure Header.WellFormed (h : Header) : Prop where
  count : 1 ≤ h.comparisons.length ∧ h.comparisons.length ≤ 4
  position : h.dataPosition ≤ 15
  /-- The words stay within chunks 0 to 31. -/
  inside : ∀ c ∈ h.comparisons, ∀ k : Nat, k < c.referenceValues.length →
    0 ≤ h.firstWord + k ∧ h.firstWord + k < 512
  comparisons : ∀ c ∈ h.comparisons, c.WellFormed

/-- The words of two headers do not overlap. -/
def Header.Apart (h h' : Header) : Prop :=
  ∀ c ∈ h.comparisons, ∀ c' ∈ h'.comparisons, ∀ k k' : Nat,
    k < c.referenceValues.length → k' < c'.referenceValues.length →
      h.firstWord + k ≠ h'.firstWord + k'

structure WellFormed (headers : List Header) : Prop where
  nonempty : headers ≠ []
  wellFormed : ∀ h ∈ headers, h.WellFormed
  apart : headers.Pairwise Header.Apart

/-! ## The formula -/

/-- Outcomes of the comparators by compare lane, chunk and data position. -/
abbrev Truth := Nat → Nat → Nat → Bool

/-- Outcomes of the words of a comparison. -/
def Header.outcomes (h : Header) (truth : Truth) (lane : Nat)
    (c : Comparison) : List Bool :=
  (List.range c.referenceValues.length).map fun (k : Nat) =>
    truth lane ((h.firstWord + k) / 16).toNat (15 - (h.firstWord + k) % 16).toNat

/-- All literals of the clause hold: a positive literal when all words of its
comparison are true, a negative literal when all are false. -/
def ClauseHolds (headers : List Header) (truth : Truth) (clause : Int) : Prop :=
  ∀ h ∈ headers, ∀ lane c, h.comparisons[lane]? = some c →
    ∀ literalType, (clause, literalType) ∈ c.literals →
      ∀ outcome ∈ h.outcomes truth lane c, literalType.HoldsAt outcome

/-- The clause is named in the parameters. -/
def Named (headers : List Header) (clause : Int) : Prop :=
  ∃ h ∈ headers, ∃ c ∈ h.comparisons, clause ∈ c.clauseIds

/-- The clause is named by a comparison with a reference word. -/
def Applied (headers : List Header) (clause : Int) : Prop :=
  ∃ h ∈ headers, ∃ c ∈ h.comparisons, c.referenceValues ≠ [] ∧
    clause ∈ c.clauseIds

/-- The bit of the clause is set in the mask for the outcome of each
comparator. -/
def Survives (writes : List RegisterWrite) (truth : Truth) (clause : Nat) :
    Prop :=
  ∀ lane < 4, ∀ chunk < 32, ∀ position < kDatapathWidth,
    clauseBit writes (truth lane chunk position) lane chunk position clause =
      true

/-! ## Comparisons as they are built -/

def Comparison.toFilterComparison (c : Comparison) : FilterComparison where
  compareFunction := .ofInt c.compareFunction
  compareReferenceValues := c.referenceValues
  literalTypes := c.literals.map Prod.snd
  dnfClauseIds := c.literals.map Prod.fst
  sameLength := by simp

variable {c : Comparison} {h : Header} {headers : List Header}

/-- A word of a comparison has its cell in the table. -/
theorem Header.WellFormed.cell (hh : h.WellFormed) {lane : Nat}
    (hlane : h.comparisons[lane]? = some c) {k : Nat}
    (hk : k < c.referenceValues.length) :
    lane < 4 ∧ 0 ≤ h.firstWord + k ∧ h.firstWord + k < 512 := by
  have hlt := (List.getElem?_eq_some_iff.mp hlane).1
  have hcount := hh.count
  exact ⟨by omega, hh.inside c (List.mem_of_getElem? hlane) k hk⟩

theorem map_fst_literals (hc : c.WellFormed) :
    c.literals.map Prod.fst = c.clauseIds := by
  have hlength := hc.literals
  rw [Comparison.literals, List.map_fst_zip]
  split
  · simp
  · next hempty =>
      rw [if_neg hempty] at hlength
      simp [hlength]

theorem filterComparison_eq (hc : c.WellFormed) :
    filterComparison (.ofInt c.compareFunction) c.referenceValues
      (c.literalTypes.map .ofInt) c.clauseIds = .ok c.toFilterComparison := by
  have hids := map_fst_literals hc
  have hlength := hc.literals
  simp only [filterComparison, List.map_eq_nil_iff, List.length_map]
  split
  · next hempty =>
      rw [if_pos hempty] at hlength
      rw [if_neg hlength]
      simp only [Comparison.toFilterComparison, hids, Except.ok.injEq,
        FilterComparison.mk.injEq, true_and, and_true]
      rw [Comparison.literals, if_pos hempty, List.map_snd_zip]
      simp
  · next hempty =>
      rw [if_neg hempty] at hlength
      rw [dif_pos hlength]
      simp only [Comparison.toFilterComparison, hids, Except.ok.injEq,
        FilterComparison.mk.injEq, true_and, and_true]
      rw [Comparison.literals, if_neg hempty, List.map_snd_zip]
      simp [hlength]

theorem zip_toFilterComparison (c : Comparison) :
    c.toFilterComparison.dnfClauseIds.zip c.toFilterComparison.literalTypes =
      c.literals := by
  show (c.literals.map Prod.fst).zip (c.literals.map Prod.snd) = c.literals
  rw [List.zip_map', List.map_id'']
  intro dnf
  rfl

/-! ## Settings of a run -/

/-- Cell of a word at a compare lane. -/
def literalCell (lane : Nat) (word : Int) : Cell :=
  (⟨lane % 4, Nat.mod_lt _ (Nat.succ_pos 3)⟩,
    ⟨(word / 16).toNat % 32, Nat.mod_lt _ (Nat.succ_pos 31)⟩,
    ⟨(15 - word % 16).toNat % 32, Nat.mod_lt _ (Nat.succ_pos 31)⟩)

def clauseSetting (lane : Nat) (word : Int) (dnf : Int × LiteralTypes) :
    LiteralSetting :=
  ⟨⟨dnf.1.toNat % 32, Nat.mod_lt _ (Nat.succ_pos 31)⟩, literalCell lane word,
    dnf.2⟩

def Header.comparisonSettings (h : Header) (lane : Comparison × Nat) :
    List LiteralSetting :=
  lane.1.referenceValues.zipIdx.flatMap fun value =>
    lane.1.literals.map (clauseSetting lane.2 (h.firstWord + value.2))

def Header.settings (h : Header) : List LiteralSetting :=
  h.comparisons.zipIdx.flatMap h.comparisonSettings

/-- The computation returns, and has changed the table by the settings. -/
def Sets (run : Filter → Outcome Filter) (settings : List LiteralSetting) :
    Prop :=
  ∀ filterModule, ∃ filterModule', run filterModule = .ok filterModule' ∧
    filterModule'.table = filterModule.table.setAll settings

theorem Sets.of_table {run : Filter → Outcome Filter}
    (hrun : ∀ filterModule, ∃ filterModule',
      run filterModule = .ok filterModule' ∧
        filterModule'.table = filterModule.table) : Sets run [] := hrun

theorem Sets.bind {run run' : Filter → Outcome Filter}
    {settings settings' : List LiteralSetting} (hrun : Sets run settings)
    (hrun' : Sets run' settings') :
    Sets (fun filterModule => run filterModule >>= run')
      (settings ++ settings') := by
  intro filterModule
  obtain ⟨middle, hmiddle, htable⟩ := hrun filterModule
  obtain ⟨last, hlast, htable'⟩ := hrun' middle
  refine ⟨last, ?_, ?_⟩
  · show run filterModule >>= run' = _
    rw [hmiddle, ok_bind, hlast]
  · rw [htable', htable, setAll_append]

theorem Sets.foldlM {α : Type} {body : Filter → α → Outcome Filter}
    {settings : α → List LiteralSetting} (xs : List α)
    (hbody : ∀ x ∈ xs, Sets (fun filterModule => body filterModule x)
      (settings x)) :
    Sets (fun filterModule => xs.foldlM body filterModule)
      (xs.flatMap settings) := by
  induction xs with
  | nil => exact .of_table fun filterModule => ⟨filterModule, rfl, rfl⟩
  | cons x xs ih =>
      have hrest := ih fun y hy => hbody y (List.mem_cons_of_mem x hy)
      simp only [List.foldlM_cons, List.flatMap_cons]
      exact (hbody x List.mem_cons_self).bind hrest

/-! ## The run of the set-up -/

/-- The chunk and the position of a word. -/
theorem current_eq {h : Header} (hposition : h.dataPosition ≤ 15) (k : Nat) :
    currentChunkId h.chunkId h.dataPosition k = (h.firstWord + k) / 16 ∧
      currentDataPosition h.dataPosition k = 15 - (h.firstWord + k) % 16 := by
  have hnonneg : 0 ≤ 15 - h.dataPosition + (k : Int) := by omega
  rw [currentChunkId, currentDataPosition, Header.firstWord,
    Int.tdiv_eq_ediv_of_nonneg hnonneg, Int.tmod_eq_emod_of_nonneg hnonneg]
  omega

theorem sets_clauseLiteral (hc : c.WellFormed) {lane : Nat} (hlane : lane < 4)
    {word : Int} (hlow : 0 ≤ word) (hhigh : word < 512)
    {dnf : Int × LiteralTypes} (hdnf : dnf ∈ c.literals) :
    Sets (fun filterModule => filterSetDNFClauseLiteral filterModule dnf.1 lane
      (word / 16) (15 - word % 16) dnf.2) [clauseSetting lane word dnf] := by
  intro filterModule
  have hid : dnf.1 ∈ c.clauseIds := by
    rw [← map_fst_literals hc]
    exact List.mem_map_of_mem hdnf
  obtain ⟨hid0, hid32⟩ := hc.inRange dnf.1 hid
  exact filterSetDNFClauseLiteral_ok filterModule
    (s := clauseSetting lane word dnf)
    (arrayIndex_of_lt hid0 hid32 _)
    (arrayIndex_of_lt (Int.natCast_nonneg lane) (by omega) _)
    (arrayIndex_of_lt (by omega) (by omega) _)
    (arrayIndex_of_lt (by omega) (by omega) _) rfl

theorem sets_comparison (hh : h.WellFormed) {lane : Comparison × Nat}
    (hlane : lane ∈ h.comparisons.zipIdx) :
    Sets (fun filterModule => setComparison h.chunkId h.dataPosition
      filterModule (lane.1.toFilterComparison, lane.2))
      (h.comparisonSettings lane) := by
  obtain ⟨c, i⟩ := lane
  have hget := List.mem_zipIdx_iff_getElem?.mp hlane
  have hc := List.mem_of_getElem? hget
  refine Sets.foldlM _ ?_
  rintro ⟨value, k⟩ hvalue
  have hk := (List.getElem?_eq_some_iff.mp
    (List.mem_zipIdx_iff_getElem?.mp hvalue)).1
  obtain ⟨hi, hlow, hhigh⟩ := hh.cell hget hk
  obtain ⟨hchunk, hposition⟩ := current_eq hh.position k
  intro filterModule
  show ∃ filterModule', setClauseLiterals _ _ _ _ _ = .ok filterModule' ∧ _
  simp only [setClauseLiterals, zip_toFilterComparison, hchunk, hposition]
  have hclauses : Sets (fun filterModule => c.literals.foldlM
      (fun filterModule dnf => filterSetDNFClauseLiteral filterModule dnf.1
        (i : Nat) ((h.firstWord + k) / 16) (15 - (h.firstWord + k) % 16) dnf.2)
      filterModule)
      (c.literals.flatMap fun dnf =>
        [clauseSetting i (h.firstWord + k) dnf]) :=
    Sets.foldlM _ fun dnf hdnf =>
      sets_clauseLiteral (hh.comparisons c hc) hi hlow hhigh hdnf
  rw [← List.map_eq_flatMap] at hclauses
  exact hclauses _

theorem sets_compareTypes (chunkId dataPosition : Int)
    (compareFunctions : List FilterCompareFunctions) (valueCount : Nat)
    (hlength : 4 ≤ compareFunctions.length) :
    Sets (fun filterModule => setCompareTypes filterModule chunkId dataPosition
      compareFunctions valueCount) [] := by
  have hat : ∀ i < 4, ∃ f, readAt compareFunctions i = .ok f := by
    intro i hi
    exact ⟨compareFunctions.get ⟨i, by omega⟩, by simp⟩
  obtain ⟨f0, h0⟩ := hat 0 (by decide)
  obtain ⟨f1, h1⟩ := hat 1 (by decide)
  obtain ⟨f2, h2⟩ := hat 2 (by decide)
  obtain ⟨f3, h3⟩ := hat 3 (by decide)
  have hloop : Sets (fun filterModule => setCompareTypes filterModule chunkId
      dataPosition compareFunctions valueCount)
      ((List.range valueCount).flatMap fun _ => []) := by
    refine Sets.foldlM _ fun i _ => .of_table fun filterModule => ?_
    simp only [h0, h1, h2, h3, ok_bind]
    exact ⟨_, rfl, rfl⟩
  rw [List.flatMap_eq_nil_iff.mpr fun _ _ => rfl] at hloop
  exact hloop

theorem sets_comparisons (hh : h.WellFormed) :
    Sets (fun filterModule => setComparisons filterModule
      (h.comparisons.map Comparison.toFilterComparison) h.chunkId
      h.dataPosition) h.settings := by
  have hlanes : Sets (fun filterModule =>
      (h.comparisons.map Comparison.toFilterComparison).zipIdx.foldlM
        (setComparison h.chunkId h.dataPosition) filterModule) h.settings := by
    simp only [List.zipIdx_map, List.foldlM_map]
    exact Sets.foldlM _ fun lane hlane => sets_comparison hh hlane
  obtain ⟨first, rest, hfirst⟩ :=
    List.exists_cons_of_length_pos (show 0 < h.comparisons.length by
      have := hh.count; omega)
  have htypes := sets_compareTypes h.chunkId h.dataPosition
    ((h.comparisons.map Comparison.toFilterComparison).map
      (·.compareFunction) ++ List.replicate
        (4 - (h.comparisons.map Comparison.toFilterComparison).length)
        .kEqual32Bit) first.referenceValues.length (by simp; omega)
  have hread : readAt (h.comparisons.map Comparison.toFilterComparison) 0 =
      .ok first.toFilterComparison := by
    rw [hfirst]
    rfl
  have hall := hlanes.bind htypes
  rw [List.append_nil] at hall
  intro filterModule
  obtain ⟨filterModule', hrun, htable⟩ := hall filterModule
  refine ⟨filterModule', ?_, htable⟩
  refine Eq.trans ?_ hrun
  simp only [setComparisons, hread, ok_bind]
  rfl

theorem readComparisons_eq {operationParameters : List (List Int)}
    {rest : List (List Int)} (cs : List Comparison)
    (hcs : ∀ c ∈ cs, c.WellFormed) {id : Nat}
    (hdrop : operationParameters.drop (id + 1) =
      cs.flatMap Comparison.vectors ++ rest) :
    readComparisons operationParameters cs.length id =
      .ok (cs.map Comparison.toFilterComparison, id + 4 * cs.length) := by
  induction cs generalizing id with
  | nil => rfl
  | cons c cs ih =>
      have hat : ∀ i, operationParameters[id + 1 + i]? =
          (c.vectors ++ (cs.flatMap Comparison.vectors ++ rest))[i]? := by
        intro i
        rw [← List.getElem?_drop, hdrop, List.flatMap_cons, List.append_assoc]
      have h1 : checkedAt operationParameters (id + 1) =
          .ok (c.compareFunction :: c.unread) := checkedAt_eq_ok.mpr (hat 0)
      have h2 : checkedAt operationParameters (id + 2) = .ok c.referenceValues :=
        checkedAt_eq_ok.mpr (hat 1)
      have h3 : checkedAt operationParameters (id + 3) = .ok c.literalTypes :=
        checkedAt_eq_ok.mpr (hat 2)
      have h4 : checkedAt operationParameters (id + 4) = .ok c.clauseIds :=
        checkedAt_eq_ok.mpr (hat 3)
      have hfunction : checkedAt (c.compareFunction :: c.unread) 0 =
          .ok c.compareFunction := rfl
      have hnext : operationParameters.drop (id + 4 + 1) =
          cs.flatMap Comparison.vectors ++ rest := by
        rw [show id + 4 + 1 = id + 1 + 4 by omega, ← List.drop_drop, hdrop]
        rfl
      rw [List.length_cons, readComparisons, h1, ok_bind, hfunction, ok_bind, h2,
        ok_bind, h3, ok_bind, h4, ok_bind,
        filterComparison_eq (hcs c List.mem_cons_self), ok_bind,
        ih (fun c' hc' => hcs c' (List.mem_cons_of_mem c hc')) hnext, ok_bind]
      simp only [List.map_cons, Except.ok.injEq, Prod.mk.injEq, true_and]
      omega

theorem length_flatMap_vectors (cs : List Comparison) :
    (cs.flatMap Comparison.vectors).length = 4 * cs.length := by
  induction cs with
  | nil => rfl
  | cons c cs ih =>
      rw [List.flatMap_cons, List.length_append, ih, List.length_cons]
      simp only [Comparison.vectors, List.length_cons, List.length_nil]
      omega

/-- The set-up of the comparisons of a header. -/
def Header.setComparisons (h : Header) (filterModule : Filter) :
    Outcome Filter :=
  FilterSetup.setComparisons filterModule
    (h.comparisons.map Comparison.toFilterComparison) h.chunkId h.dataPosition

/-- A header is read with its comparisons. -/
theorem setHeader_eq (hh : h.WellFormed) {operationParameters : List (List Int)}
    {rest : List (List Int)} {id : Nat} (filterModule : Filter)
    (hdrop : operationParameters.drop id = h.vectors ++ rest) :
    setHeader operationParameters (filterModule, id) =
      h.setComparisons filterModule >>= fun filterModule' =>
        .ok (.again (filterModule', id + h.vectors.length)) := by
  have hhead : operationParameters[id]? = some (h.chunkId :: h.dataPosition ::
      (h.comparisons.length : Int) :: h.unread) := by
    have h0 : (operationParameters.drop id)[0]? = operationParameters[id]? :=
      List.getElem?_drop
    rw [← h0, hdrop]
    rfl
  have hlt := (List.getElem?_eq_some_iff.mp hhead).1
  have hcomparisons : operationParameters.drop (id + 1) =
      h.comparisons.flatMap Comparison.vectors ++ rest := by
    rw [← List.drop_drop, hdrop]
    rfl
  rw [setHeader]
  simp only [if_neg (Nat.ne_of_lt hlt)]
  rw [checkedAt_eq_ok.mpr hhead, ok_bind,
    show checkedAt (h.chunkId :: h.dataPosition ::
      (h.comparisons.length : Int) :: h.unread) 0 = .ok h.chunkId from rfl,
    ok_bind, show checkedAt (h.chunkId :: h.dataPosition ::
      (h.comparisons.length : Int) :: h.unread) 1 = .ok h.dataPosition from rfl,
    ok_bind, show checkedAt (h.chunkId :: h.dataPosition ::
      (h.comparisons.length : Int) :: h.unread) 2 =
        .ok (h.comparisons.length : Int) from rfl,
    ok_bind, Int.toNat_natCast,
    readComparisons_eq h.comparisons hh.comparisons hcomparisons, ok_bind]
  refine congrArg (h.setComparisons filterModule >>= ·) (funext fun _ => ?_)
  simp only [Header.vectors, List.length_cons, length_flatMap_vectors,
    Except.ok.injEq, Next.again.injEq, Prod.mk.injEq, true_and]
  omega

theorem iterate_setHeader (hheaders : ∀ h ∈ headers, h.WellFormed)
    (operationParameters : List (List Int)) {fuel id : Nat}
    (filterModule : Filter)
    (hdrop : operationParameters.drop id = parameters headers)
    (hid : id ≤ operationParameters.length) (hfuel : headers.length < fuel) :
    iterate (setHeader operationParameters) fuel (filterModule, id) =
      headers.foldlM (fun filterModule h => h.setComparisons filterModule)
        filterModule := by
  induction headers generalizing fuel id filterModule with
  | nil =>
      have hend : id = operationParameters.length := by
        have hlength := congrArg List.length hdrop
        rw [List.length_drop] at hlength
        simp only [parameters, List.flatMap_nil, List.length_nil] at hlength
        omega
      obtain ⟨fuel, rfl⟩ : ∃ n, fuel = n + 1 := ⟨fuel - 1, by omega⟩
      rw [iterate, setHeader]
      simp only [hend, if_true]
      rfl
  | cons h headers ih =>
      obtain ⟨fuel, rfl⟩ : ∃ n, fuel = n + 1 := ⟨fuel - 1, by omega⟩
      have hlength := congrArg List.length hdrop
      rw [List.length_drop, parameters, List.flatMap_cons, List.length_append]
        at hlength
      have hpos : 0 < h.vectors.length := Nat.succ_pos _
      have hnext : operationParameters.drop (id + h.vectors.length) =
          parameters headers := by
        rw [← List.drop_drop, hdrop, parameters, List.flatMap_cons,
          List.drop_left]
        rfl
      have hfuel' : headers.length < fuel := by
        rw [List.length_cons] at hfuel
        omega
      rw [iterate, setHeader_eq (hheaders h List.mem_cons_self) filterModule
        hdrop, List.foldlM_cons]
      cases h.setComparisons filterModule with
      | error e => rfl
      | ok middle =>
          simp only [ok_bind]
          exact ih (fun h' hh' => hheaders h' (List.mem_cons_of_mem h hh'))
            middle hnext (by omega) hfuel'

theorem length_le_parameters (headers : List Header) :
    headers.length ≤ (parameters headers).length := by
  induction headers with
  | nil => exact Nat.le_refl 0
  | cons h headers ih =>
      rw [parameters, List.flatMap_cons, List.length_append, List.length_cons,
        Header.vectors, List.length_cons]
      rw [parameters] at ih
      omega

/-- The operation parameters are read header by header. -/
theorem setAllComparisons_eq (hheaders : ∀ h ∈ headers, h.WellFormed)
    (filterModule : Filter) :
    setAllComparisons filterModule (parameters headers) =
      headers.foldlM (fun filterModule h => h.setComparisons filterModule)
        filterModule :=
  iterate_setHeader hheaders (parameters headers) filterModule List.drop_zero
    (Nat.zero_le _) (Nat.lt_of_le_of_lt (length_le_parameters headers)
      (show _ < (parameters headers).length + 2 by omega))

theorem sets_allComparisons (hheaders : ∀ h ∈ headers, h.WellFormed) :
    Sets (fun filterModule => setAllComparisons filterModule
      (parameters headers)) (headers.flatMap Header.settings) := by
  simp only [setAllComparisons_eq hheaders]
  exact Sets.foldlM headers fun h hh => sets_comparisons (hheaders h hh)

/-- After the set-up the masks are those of a table that holds the settings. -/
theorem setupFilterModule_ok (hwf : WellFormed headers)
    (filterModule : Filter) (inputStreamId outputStreamId : Int) :
    ∃ configured : Filter, setupFilterModule filterModule inputStreamId
        outputStreamId (parameters headers) =
      .ok (filterWriteDNFClauseLiteralsToModule configured
        (size4CMP32DNF ⟨kDatapathWidth, by decide⟩)) ∧
      configured.table = (Table.empty .kLiteralDontCare).setAll
        (headers.flatMap Header.settings) := by
  obtain ⟨configured, hrun, htable⟩ := sets_allComparisons hwf.wellFormed
    (setOneOutputSingleModuleMode (filterSetStreamIDs
      (resetDNFStates filterModule) inputStreamId outputStreamId
      outputStreamId))
  refine ⟨configured, ?_, htable⟩
  obtain ⟨h, rest, rfl⟩ := List.exists_cons_of_ne_nil hwf.nonempty
  rw [parameters, List.flatMap_cons, Header.vectors, List.cons_append] at hrun ⊢
  simp only [setupFilterModule, hrun, ok_bind]
  rfl

/-! ## The settings as a formula -/

theorem mem_settings {s : LiteralSetting} :
    s ∈ headers.flatMap Header.settings ↔
      ∃ h ∈ headers, ∃ lane c, h.comparisons[lane]? = some c ∧
        ∃ k : Nat, k < c.referenceValues.length ∧ ∃ dnf ∈ c.literals,
          s = clauseSetting lane (h.firstWord + k) dnf := by
  simp only [List.mem_flatMap, Header.settings, Header.comparisonSettings,
    List.mem_map]
  constructor
  · rintro ⟨h, hh, ⟨c, lane⟩, hlane, ⟨value, k⟩, hvalue, dnf, hdnf, rfl⟩
    have hk := (List.getElem?_eq_some_iff.mp
      (List.mem_zipIdx_iff_getElem?.mp hvalue)).1
    exact ⟨h, hh, lane, c, List.mem_zipIdx_iff_getElem?.mp hlane, k, hk, dnf,
      hdnf, rfl⟩
  · rintro ⟨h, hh, lane, c, hlane, k, hk, dnf, hdnf, rfl⟩
    exact ⟨h, hh, (c, lane), List.mem_zipIdx_iff_getElem?.mpr hlane,
      (c.referenceValues.get ⟨k, hk⟩, k),
      List.mem_zipIdx_iff_getElem?.mpr (by simp), dnf, hdnf, rfl⟩

theorem literalCell_val {lane : Nat} {word : Int} (hlane : lane < 4)
    (hlow : 0 ≤ word) (hhigh : word < 512) :
    (literalCell lane word).1.val = lane ∧
      (literalCell lane word).2.1.val = (word / 16).toNat ∧
      (literalCell lane word).2.2.val = (15 - word % 16).toNat := by
  simp only [literalCell]
  omega

theorem literalCell_inj {lane lane' : Nat} {word word' : Int}
    (hlane : lane < 4) (hlane' : lane' < 4) (hlow : 0 ≤ word)
    (hhigh : word < 512) (hlow' : 0 ≤ word') (hhigh' : word' < 512)
    (heq : literalCell lane word = literalCell lane' word') :
    lane = lane' ∧ word = word' := by
  obtain ⟨hl, hc, hp⟩ := literalCell_val hlane hlow hhigh
  obtain ⟨hl', hc', hp'⟩ := literalCell_val hlane' hlow' hhigh'
  rw [heq] at hl hc hp
  omega

/-- A clause has one literal in a comparison. -/
theorem literals_unique (hc : c.WellFormed) {clause : Int}
    {literalType literalType' : LiteralTypes}
    (hmem : (clause, literalType) ∈ c.literals)
    (hmem' : (clause, literalType') ∈ c.literals) :
    literalType = literalType' := by
  have hnodup : (c.literals.map Prod.fst).Nodup := by
    rw [map_fst_literals hc]
    exact hc.nodup
  have heq := List.inj_on_of_nodup_map hnodup hmem hmem' rfl
  exact congrArg Prod.snd heq

theorem Header.Apart.symm {h h' : Header} (hapart : h.Apart h') :
    h'.Apart h :=
  fun c hc c' hc' k k' hk hk' heq => hapart c' hc' c hc k' k hk' hk heq.symm

instance : Std.Symm Header.Apart := ⟨fun _ _ => Header.Apart.symm⟩

theorem consistent_settings (hwf : WellFormed headers) :
    Consistent (headers.flatMap Header.settings) := by
  intro s hs s' hs' hclause hcell
  obtain ⟨h, hh, lane, c, hlane, k, hk, dnf, hdnf, rfl⟩ := mem_settings.mp hs
  obtain ⟨h', hh', lane', c', hlane', k', hk', dnf', hdnf', rfl⟩ :=
    mem_settings.mp hs'
  have hw := hwf.wellFormed h hh
  have hw' := hwf.wellFormed h' hh'
  have hc := List.mem_of_getElem? hlane
  have hc' := List.mem_of_getElem? hlane'
  obtain ⟨hi, hlow, hhigh⟩ := hw.cell hlane hk
  obtain ⟨hi', hlow', hhigh'⟩ := hw'.cell hlane' hk'
  obtain ⟨rfl, hword⟩ := literalCell_inj hi hi' hlow hhigh hlow' hhigh' hcell
  -- Words that coincide belong to one header.
  have hheader : h = h' := by
    by_contra hne
    have hapart := hwf.apart.forall hh hh' hne
    exact hapart c hc c' hc' k k' hk hk' hword
  subst hheader
  rw [hlane, Option.some.injEq] at hlane'
  subst hlane'
  have hid : ∀ dnf ∈ c.literals, 0 ≤ dnf.1 ∧ dnf.1 < 32 := by
    intro dnf hdnf
    refine (hw.comparisons c hc).inRange dnf.1 ?_
    rw [← map_fst_literals (hw.comparisons c hc)]
    exact List.mem_map_of_mem hdnf
  have hval : dnf.1.toNat % 32 = dnf'.1.toNat % 32 := congrArg Fin.val hclause
  have hsame : dnf.1 = dnf'.1 := by
    have hrange := hid dnf hdnf
    have hrange' := hid dnf' hdnf'
    omega
  obtain ⟨clause, literalType⟩ := dnf
  obtain ⟨clause', literalType'⟩ := dnf'
  have hsame : clause = clause' := hsame
  subst hsame
  exact literals_unique (hw.comparisons c hc) hdnf hdnf'

theorem mem_clauseIds (hc : c.WellFormed) {clause : Int} :
    clause ∈ c.clauseIds ↔ ∃ literalType, (clause, literalType) ∈ c.literals := by
  rw [← map_fst_literals hc]
  simp

theorem exists_setting_iff (hwf : WellFormed headers) {clause : Nat}
    (hclause : clause < 32) :
    (∃ s ∈ headers.flatMap Header.settings, s.clause = ⟨clause, hclause⟩) ↔
      Applied headers clause := by
  constructor
  · rintro ⟨s, hs, hsame⟩
    obtain ⟨h, hh, lane, c, hlane, k, hk, ⟨id, literalType⟩, hdnf, rfl⟩ :=
      mem_settings.mp hs
    have hc := List.mem_of_getElem? hlane
    have hcwf := (hwf.wellFormed h hh).comparisons c hc
    have hid := (mem_clauseIds hcwf).mpr ⟨literalType, hdnf⟩
    have hval : id.toNat % 32 = clause := congrArg Fin.val hsame
    have hrange := hcwf.inRange id hid
    have heq : (clause : Int) = id := by omega
    refine ⟨h, hh, c, hc, List.ne_nil_of_length_pos (by omega), ?_⟩
    rw [heq]
    exact hid
  · rintro ⟨h, hh, c, hc, hwords, hid⟩
    have hcwf := (hwf.wellFormed h hh).comparisons c hc
    obtain ⟨literalType, hdnf⟩ := (mem_clauseIds hcwf).mp hid
    obtain ⟨lane, hlane⟩ := List.mem_iff_getElem?.mp hc
    refine ⟨clauseSetting lane (h.firstWord + (0 : Nat)) (clause, literalType),
      mem_settings.mpr ⟨h, hh, lane, c, hlane, 0,
        List.length_pos_of_ne_nil hwords, _, hdnf, rfl⟩, ?_⟩
    apply Fin.ext
    show (clause : Int).toNat % 32 = clause
    omega

theorem forall_setting_iff (hwf : WellFormed headers) (truth : Truth)
    {clause : Nat} (hclause : clause < 32) :
    (∀ s ∈ headers.flatMap Header.settings, s.clause = ⟨clause, hclause⟩ →
      s.literal.HoldsAt (truth s.cell.1 s.cell.2.1 s.cell.2.2)) ↔
      ClauseHolds headers truth clause := by
  have hcell : ∀ h ∈ headers, ∀ lane c, h.comparisons[lane]? = some c →
      ∀ k : Nat, k < c.referenceValues.length → ∀ dnf,
        let s := clauseSetting lane (h.firstWord + k) dnf
        truth s.cell.1 s.cell.2.1 s.cell.2.2 =
          truth lane ((h.firstWord + k) / 16).toNat
            (15 - (h.firstWord + k) % 16).toNat := by
    intro h hh lane c hlane k hk dnf
    obtain ⟨hi, hlow, hhigh⟩ := (hwf.wellFormed h hh).cell hlane hk
    obtain ⟨hl, hc, hp⟩ := literalCell_val hi hlow hhigh
    simp only [clauseSetting, hl, hc, hp]
  constructor
  · intro hsettings h hh lane c hlane literalType hdnf outcome houtcome
    simp only [Header.outcomes, List.mem_map, List.mem_range] at houtcome
    obtain ⟨k, hk, rfl⟩ := houtcome
    have hholds := hsettings _ (mem_settings.mpr
      ⟨h, hh, lane, c, hlane, k, hk, _, hdnf, rfl⟩)
      (by apply Fin.ext
          show (clause : Int).toNat % 32 = clause
          omega)
    rw [hcell h hh lane c hlane k hk] at hholds
    exact hholds
  · intro hholds s hs hsame
    obtain ⟨h, hh, lane, c, hlane, k, hk, ⟨id, literalType⟩, hdnf, rfl⟩ :=
      mem_settings.mp hs
    have hcwf := (hwf.wellFormed h hh).comparisons c (List.mem_of_getElem? hlane)
    have hval : id.toNat % 32 = clause := congrArg Fin.val hsame
    have hrange := hcwf.inRange id ((mem_clauseIds hcwf).mpr ⟨literalType, hdnf⟩)
    have heq : id = (clause : Int) := by omega
    subst heq
    rw [hcell h hh lane c hlane k hk]
    refine hholds h hh lane c hlane literalType hdnf _ ?_
    simp only [Header.outcomes, List.mem_map, List.mem_range]
    exact ⟨k, hk, rfl⟩

/-! ## Masks and formula -/

/-- The bits of a clause in the masks say whether the clause is satisfied in
the table. -/
theorem survives_iff_satisfied (configured : Filter) (truth : Truth)
    {clause : Nat} (hclause : clause < 32) :
    Survives (filterWriteDNFClauseLiteralsToModule configured
        (size4CMP32DNF ⟨kDatapathWidth, by decide⟩)).writes truth clause ↔
      configured.table.Satisfied LiteralTypes.HoldsAt
        (fun cell => cell.2.2.val < kDatapathWidth)
        (fun cell => truth cell.1 cell.2.1 cell.2.2) ⟨clause, hclause⟩ := by
  have hbit : ∀ (lane : Fin 4) (chunk : Fin 32) (position : Fin kDatapathWidth),
      clauseBit (filterWriteDNFClauseLiteralsToModule configured
        (size4CMP32DNF ⟨kDatapathWidth, by decide⟩)).writes
        (truth lane chunk position) lane chunk position clause = true ↔ _ :=
    fun lane chunk position =>
      clauseBit_filterWriteDNFClauseLiteralsToModule configured
        (size4CMP32DNF ⟨kDatapathWidth, by decide⟩) lane chunk position
        ⟨clause, hclause⟩ (truth lane chunk position)
  constructor
  · intro hsurvives
    have hcells := fun (lane : Fin 4) (chunk : Fin 32)
      (position : Fin kDatapathWidth) => (hbit lane chunk position).mp
        (hsurvives lane lane.isLt chunk chunk.isLt position position.isLt)
    refine ⟨(hcells 0 0 0).1, ?_⟩
    rintro ⟨lane, chunk, position⟩ hposition
    exact (hcells lane chunk ⟨position, hposition⟩).2
  · rintro ⟨hused, hcells⟩ lane hlane chunk hchunk position hposition
    refine (hbit ⟨lane, hlane⟩ ⟨chunk, hchunk⟩ ⟨position, hposition⟩).mpr
      ⟨hused, ?_⟩
    exact hcells (⟨lane, hlane⟩, ⟨chunk, hchunk⟩,
      ⟨position, Nat.lt_trans hposition (by decide)⟩) hposition

/-- A clause survives when it is applied and its literals hold. -/
theorem survives_iff (hwf : WellFormed headers) {configured : Filter}
    (htable : configured.table = (Table.empty .kLiteralDontCare).setAll
      (headers.flatMap Header.settings)) (truth : Truth) {clause : Nat}
    (hclause : clause < 32) :
    Survives (filterWriteDNFClauseLiteralsToModule configured
        (size4CMP32DNF ⟨kDatapathWidth, by decide⟩)).writes truth clause ↔
      Applied headers clause ∧ ClauseHolds headers truth clause := by
  have hvisible : ∀ s ∈ headers.flatMap Header.settings,
      s.cell.2.2.val < kDatapathWidth := by
    intro s hs
    obtain ⟨h, hh, lane, c, hlane, k, hk, dnf, hdnf, rfl⟩ := mem_settings.mp hs
    obtain ⟨hi, hlow, hhigh⟩ := (hwf.wellFormed h hh).cell hlane hk
    have hp := (literalCell_val hi hlow hhigh).2.2
    show (literalCell lane (h.firstWord + k)).2.2.val < 16
    omega
  rw [survives_iff_satisfied configured truth hclause, htable,
    satisfied_setAll_iff (fun _ => trivial) hvisible (consistent_settings hwf),
    exists_setting_iff hwf hclause, forall_setting_iff hwf truth hclause]

/-- The clauses that are applied have a place in the masks. -/
theorem Applied.lt (hwf : WellFormed headers) {clause : Int}
    (happlied : Applied headers clause) : 0 ≤ clause ∧ clause < 32 := by
  obtain ⟨h, hh, c, hc, -, hid⟩ := happlied
  exact ((hwf.wellFormed h hh).comparisons c hc).inRange clause hid

/-- The registers of the filter denote the formula: for all outcomes of the
comparators, some clause survives when the literals of some clause hold that a
comparison with a reference word names. -/
theorem filter_registers_denote_formula (hwf : WellFormed headers)
    (filterModule : Filter) (inputStreamId outputStreamId : Int) :
    ∃ filterModule', setupFilterModule filterModule inputStreamId
        outputStreamId (parameters headers) = .ok filterModule' ∧
      ∀ truth, (∃ clause < 32, Survives filterModule'.writes truth clause) ↔
        ∃ clause, Applied headers clause ∧ ClauseHolds headers truth clause := by
  obtain ⟨configured, hrun, htable⟩ := setupFilterModule_ok hwf filterModule
    inputStreamId outputStreamId
  refine ⟨_, hrun, fun truth => ⟨?_, ?_⟩⟩
  · rintro ⟨clause, hclause, hsurvives⟩
    exact ⟨clause, (survives_iff hwf htable truth hclause).mp hsurvives⟩
  · rintro ⟨clause, happlied, hholds⟩
    obtain ⟨hlow, hhigh⟩ := happlied.lt hwf
    obtain ⟨n, rfl⟩ := Int.eq_ofNat_of_zero_le hlow
    have hn : n < 32 := by omega
    exact ⟨n, hn, (survives_iff hwf htable truth hn).mpr ⟨happlied, hholds⟩⟩

def unconfigured : Filter := ⟨fun _ => ⟨false, fun _ _ _ => .kLiteralDontCare⟩, []⟩

/-- Two comparisons of a 64 bit column at the end of chunk 1 and the start of
chunk 2; clause 0 asks for the first and against the second. -/
def acrossChunks : List Header :=
  [{ chunkId := 1
     dataPosition := 0
     comparisons := [⟨11, [], [7, 8], [1], [0]⟩, ⟨12, [], [9, 10], [2], [0]⟩] }]

theorem wellFormed_acrossChunks : WellFormed acrossChunks := by
  refine ⟨by decide, ?_, List.pairwise_singleton _ _⟩
  intro h hh
  rw [acrossChunks, List.mem_singleton] at hh
  subst hh
  refine ⟨by decide, by decide, ?_, ?_⟩
  · intro c hc k hk
    have hlength : c.referenceValues.length = 2 := by
      rcases List.mem_pair.mp hc with rfl | rfl <;> rfl
    show 0 ≤ (31 : Int) + k ∧ (31 : Int) + k < 512
    omega
  · intro c hc
    rcases List.mem_pair.mp hc with rfl | rfl <;>
      exact ⟨by decide, by decide, by decide⟩

theorem filter_registers_denote_acrossChunks :
    ∃ filterModule', setupFilterModule unconfigured 0 1
        (parameters acrossChunks) = .ok filterModule' ∧
      ∀ truth, (∃ clause < 32, Survives filterModule'.writes truth clause) ↔
        truth 0 1 0 = true ∧ truth 0 2 15 = true ∧ truth 1 1 0 = false ∧
          truth 1 2 15 = false := by
  obtain ⟨filterModule', hrun, hmasks⟩ := filter_registers_denote_formula
    wellFormed_acrossChunks unconfigured 0 1
  refine ⟨filterModule', hrun, fun truth => (hmasks truth).trans ?_⟩
  constructor
  · rintro ⟨clause, ⟨h, hh, c, hc, -, hid⟩, hholds⟩
    have hclause : clause = 0 := by
      rw [acrossChunks, List.mem_singleton] at hh
      subst hh
      rcases List.mem_pair.mp hc with rfl | rfl <;>
        exact List.mem_singleton.mp hid
    subst hclause
    have hfirst := hholds _ List.mem_cons_self 0 _ rfl .kLiteralPositive
      (by decide)
    have hsecond := hholds _ List.mem_cons_self 1 _ rfl .kLiteralNegative
      (by decide)
    exact ⟨hfirst _ List.mem_cons_self,
      hfirst _ (List.mem_cons_of_mem _ List.mem_cons_self),
      hsecond _ List.mem_cons_self,
      hsecond _ (List.mem_cons_of_mem _ List.mem_cons_self)⟩
  · rintro ⟨h0, h1, h2, h3⟩
    refine ⟨0, ⟨_, List.mem_cons_self, _, List.mem_cons_self, by decide,
      by decide⟩, ?_⟩
    intro h hh lane c hlane literalType hdnf outcome houtcome
    rw [acrossChunks, List.mem_singleton] at hh
    subst hh
    match lane with
    | 0 =>
        obtain rfl := Option.some.inj hlane
        obtain rfl := congrArg Prod.snd (List.mem_singleton.mp hdnf)
        rcases List.mem_pair.mp houtcome with rfl | rfl
        · exact h0
        · exact h1
    | 1 =>
        obtain rfl := Option.some.inj hlane
        obtain rfl := congrArg Prod.snd (List.mem_singleton.mp hdnf)
        rcases List.mem_pair.mp houtcome with rfl | rfl
        · exact h2
        · exact h3
    | lane + 2 => cases hlane

/-- A comparison without reference words; its literal holds in any case. -/
def withoutWords : List Header :=
  [{ chunkId := 0, dataPosition := 15, comparisons := [⟨2, [], [], [1], [0]⟩] }]

theorem wellFormed_withoutWords : WellFormed withoutWords := by
  refine ⟨by decide, ?_, List.pairwise_singleton _ _⟩
  intro h hh
  rw [withoutWords, List.mem_singleton] at hh
  subst hh
  refine ⟨by decide, by decide, ?_, ?_⟩
  · intro c hc k hk
    obtain rfl := List.mem_singleton.mp hc
    exact absurd hk (Nat.not_lt_zero k)
  · intro c hc
    obtain rfl := List.mem_singleton.mp hc
    exact ⟨by decide, by decide, by decide⟩

/-- The clause is named and all of its literals hold, but it is not in use. -/
theorem filter_registers_drop_withoutWords :
    WellFormed withoutWords ∧
    parameters withoutWords = [[0, 15, 1], [2], [], [1], [0]] ∧
    ∃ filterModule', setupFilterModule unconfigured 0 1
        (parameters withoutWords) = .ok filterModule' ∧
      ¬∀ truth, (∃ clause < 32, Survives filterModule'.writes truth clause) ↔
        ∃ clause, Named withoutWords clause ∧
          ClauseHolds withoutWords truth clause := by
  have hwf := wellFormed_withoutWords
  obtain ⟨configured, hrun, htable⟩ := setupFilterModule_ok hwf unconfigured 0 1
  refine ⟨hwf, rfl, _, hrun, ?_⟩
  intro hclaim
  have hnamed : ∃ clause, Named withoutWords clause ∧
      ClauseHolds withoutWords (fun _ _ _ => true) clause := by
    refine ⟨0, ⟨_, List.mem_cons_self, _, List.mem_cons_self,
      List.mem_cons_self⟩, ?_⟩
    intro h hh lane c hlane literalType hdnf outcome houtcome
    rw [withoutWords, List.mem_singleton] at hh
    subst hh
    obtain rfl := List.mem_singleton.mp (List.mem_of_getElem? hlane)
    exact absurd houtcome List.not_mem_nil
  obtain ⟨clause, hclause, hsurvives⟩ := (hclaim fun _ _ _ => true).mpr hnamed
  obtain ⟨⟨h, hh, c, hc, hwords, -⟩, -⟩ :=
    (survives_iff hwf htable _ hclause).mp hsurvives
  rw [withoutWords, List.mem_singleton] at hh
  subst hh
  obtain rfl := List.mem_singleton.mp hc
  exact hwords rfl

end Orkhestra.Ports.FilterClauses
