import Mathlib.Data.Fin.Basic
import Orkhestra.Ports.DMA
import Orkhestra.Verified.LiteralTable

/-!
# The filter module

`Filter`: the low level driver.  The literals of the DNF clauses are collected
in a table and written to the module at the end, as one mask of clauses for each
comparator and outcome: bit `i` of the positive mask says that clause `i`
survives when the comparison is true.

The masks are `int` in the source; the accumulators here are their bit patterns.
-/

namespace Orkhestra.Ports.FilterModule

open Orkhestra.Verified.Checked
open Orkhestra.Verified.BitMask
open Orkhestra.Verified.LiteralTable
open Orkhestra.Ports.DMA

/-! ## Configuration values -/

/-- `unnamed` is a value that was cast to the enumeration without being one of
its names. -/
inductive FilterCompareFunctions where
  | kLessThan32Bit
  | kLessThanOrEqual32Bit
  | kEqual32Bit
  | kGreaterThanOrEqual32Bit
  | kGreaterThan32Bit
  | kNotEqual32Bit
  | kLessThan64Bit
  | kLessThanOrEqual64Bit
  | kEqual64Bit
  | kGreaterThanOrEqual64Bit
  | kGreaterThan64Bit
  | kNotEqual64Bit
  | unnamed (value : Int)
  deriving DecidableEq, Repr

def FilterCompareFunctions.toInt : FilterCompareFunctions → Int
  | kLessThan32Bit => 0
  | kLessThanOrEqual32Bit => 1
  | kEqual32Bit => 2
  | kGreaterThanOrEqual32Bit => 3
  | kGreaterThan32Bit => 4
  | kNotEqual32Bit => 5
  | kLessThan64Bit => 8
  | kLessThanOrEqual64Bit => 9
  | kEqual64Bit => 10
  | kGreaterThanOrEqual64Bit => 11
  | kGreaterThan64Bit => 12
  | kNotEqual64Bit => 13
  | unnamed value => value

def FilterCompareFunctions.ofInt : Int → FilterCompareFunctions
  | 0 => kLessThan32Bit
  | 1 => kLessThanOrEqual32Bit
  | 2 => kEqual32Bit
  | 3 => kGreaterThanOrEqual32Bit
  | 4 => kGreaterThan32Bit
  | 5 => kNotEqual32Bit
  | 8 => kLessThan64Bit
  | 9 => kLessThanOrEqual64Bit
  | 10 => kEqual64Bit
  | 11 => kGreaterThanOrEqual64Bit
  | 12 => kGreaterThan64Bit
  | 13 => kNotEqual64Bit
  | value => unnamed value

inductive LiteralTypes where
  | kLiteralDontCare
  | kLiteralPositive
  | kLiteralNegative
  | unnamed (value : Int)
  deriving DecidableEq, Repr

def LiteralTypes.ofInt : Int → LiteralTypes
  | 0 => kLiteralDontCare
  | 1 => kLiteralPositive
  | 2 => kLiteralNegative
  | value => unnamed value

/-- Literals by compare lane, chunk and data position. -/
abbrev DNFClause := Fin 4 → Fin 32 → Fin 32 → LiteralTypes

/-- A pair of the `DNFClauseStates`. -/
structure DNFState where
  used : Bool
  clause : DNFClause

abbrev DNFClauseStates := Fin 32 → DNFState

/-! ## The driver -/

structure Filter where
  dnfStates : DNFClauseStates
  writes : List RegisterWrite

/-- `AccelerationModule::WriteToModule`. -/
def Filter.writeToModule (filter : Filter)
    (moduleInternalAddress writeData : Int) : Filter :=
  { filter with
    writes := filter.writes ++
      [DMA.writeToModule moduleInternalAddress writeData] }

def filterSetStreamIDs (filter : Filter)
    (streamIdInput streamIdValidOutput streamIdInvalidOutput : Int) : Filter :=
  filter.writeToModule 0
    (streamIdInput + streamIdValidOutput * 2 ^ 8 +
      streamIdInvalidOutput * 2 ^ 16)

def filterSetMode (filter : Filter)
    (requestOnInvalidIfLast forwardInvalidRecordFirstChunk
      forwardFullInvalidRecords firstModuleInResourceElasticChain
      lastModuleInResourceElasticChain : Bool) : Filter :=
  filter.writeToModule 0x4
    ((if requestOnInvalidIfLast then 16 else 0) +
      (if forwardInvalidRecordFirstChunk then 8 else 0) +
      (if forwardFullInvalidRecords then 4 else 0) +
      (if firstModuleInResourceElasticChain then 2 else 0) +
      (if lastModuleInResourceElasticChain then 1 else 0))

def filterSetCompareTypes (filter : Filter) (chunkId dataPosition : Int)
    (compare1Type compare2Type compare3Type compare4Type :
      FilterCompareFunctions) : Filter :=
  filter.writeToModule (2 ^ 15 + dataPosition * 2 ^ 2 + chunkId * 2 ^ 7)
    (compare4Type.toInt * 2 ^ 12 + compare3Type.toInt * 2 ^ 8 +
      compare2Type.toInt * 2 ^ 4 + compare1Type.toInt)

def filterSetCompareReferenceValue (filter : Filter)
    (chunkId dataPosition : Int) (compareLaneIndex : Nat)
    (compareReferenceValue : Int) : Filter :=
  filter.writeToModule
    (2 ^ 15 + dataPosition * 2 ^ 2 + chunkId * 2 ^ 7 +
      (compareLaneIndex + 1) * 2 ^ 12) compareReferenceValue

/-- The index of a `std::array` of `n` elements. -/
def arrayIndex (n : Nat) (i : Int) : Outcome (Fin n) :=
  if h : 0 ≤ i ∧ i < n then .ok ⟨i.toNat, by omega⟩ else .error .undefined

def filterSetDNFClauseLiteral (filter : Filter)
    (dnfClauseId compareNumber chunkId dataPosition : Int)
    (literalType : LiteralTypes) : Outcome Filter := do
  let clause ← arrayIndex 32 dnfClauseId
  let lane ← arrayIndex 4 compareNumber
  let chunk ← arrayIndex 32 chunkId
  let position ← arrayIndex 32 dataPosition
  let literals := (filter.dnfStates clause).clause
  .ok { filter with
    dnfStates := Function.update filter.dnfStates clause
      { used := true
        clause := Function.update literals lane
          (Function.update (literals lane) chunk
            (Function.update (literals lane chunk) position literalType)) } }

def resetDNFStates (filter : Filter) : Filter :=
  { filter with
    dnfStates := fun _ => ⟨false, fun _ _ _ => .kLiteralDontCare⟩ }

/-! ## The masks of the clauses -/

/-- Bits of a clause in the positive and the negative mask. -/
def clauseBits (used : Bool) (literalType : LiteralTypes) : Bool × Bool :=
  if used then
    match literalType with
    | .kLiteralDontCare => (true, true)
    | .kLiteralPositive => (true, false)
    | .kLiteralNegative => (false, true)
    | .unnamed _ => (false, false)
  else (false, false)

/-- Register of a mask. -/
def maskAddress (positive : Bool) (compareLane chunkId dataPosition : Nat) :
    Int :=
  2 ^ 16 + dataPosition * 2 ^ 2 + (if positive then 1 else 0) * 2 ^ 7 +
    chunkId * 2 ^ 8 + compareLane * 2 ^ 13

/-- The sizes of a module; its part of the table lies within the arrays. -/
structure ModuleSize where
  datapathWidth : Nat
  moduleComparesPerField : Nat
  moduleDnfClauses : Nat
  width_le : datapathWidth ≤ 32
  compares_le : moduleComparesPerField ≤ 4
  clauses_le : moduleDnfClauses ≤ 32

/-- The loop over the clauses, from the last clause to the first: the packed
positive and negative results. -/
def packClauses (dnfStates : DNFClauseStates) (size : ModuleSize)
    (lane : Fin size.moduleComparesPerField) (chunk : Fin 32)
    (position : Fin size.datapathWidth) : Nat × Nat :=
  (List.finRange size.moduleDnfClauses).reverse.foldl
    (fun packed i =>
      let state := dnfStates (i.castLE size.clauses_le)
      let bits := clauseBits state.used (state.clause
        (lane.castLE size.compares_le) chunk (position.castLE size.width_le))
      (shiftIn packed.1 bits.1, shiftIn packed.2 bits.2)) (0, 0)

/-- The two registers of a comparator. -/
def maskWrites (dnfStates : DNFClauseStates) (size : ModuleSize)
    (lane : Fin size.moduleComparesPerField) (chunk : Fin 32)
    (position : Fin size.datapathWidth) : List RegisterWrite :=
  let packed := packClauses dnfStates size lane chunk position
  [DMA.writeToModule (maskAddress true lane chunk position) (packed.1 : Nat),
    DMA.writeToModule (maskAddress false lane chunk position) (packed.2 : Nat)]

def filterWriteDNFClauseLiteralsToModule (filter : Filter)
    (size : ModuleSize) : Filter :=
  { filter with
    writes := filter.writes ++
      (List.finRange size.moduleComparesPerField).flatMap fun lane =>
        (List.finRange size.datapathWidth).flatMap fun position =>
          (List.finRange 32).flatMap fun chunk =>
            maskWrites filter.dnfStates size lane chunk position }

def size1CMP8DNF (datapathWidth : Fin 33) : ModuleSize :=
  ⟨datapathWidth, 1, 8, by omega, by decide, by decide⟩

def size2CMP16DNF (datapathWidth : Fin 33) : ModuleSize :=
  ⟨datapathWidth, 2, 16, by omega, by decide, by decide⟩

def size4CMP32DNF (datapathWidth : Fin 33) : ModuleSize :=
  ⟨datapathWidth, 4, 32, by omega, by decide, by decide⟩

def writeDNFClauseLiteralsToFilter1CMP8DNF (filter : Filter)
    (datapathWidth : Fin 33) : Filter :=
  filterWriteDNFClauseLiteralsToModule filter (size1CMP8DNF datapathWidth)

def writeDNFClauseLiteralsToFilter2CMP16DNF (filter : Filter)
    (datapathWidth : Fin 33) : Filter :=
  filterWriteDNFClauseLiteralsToModule filter (size2CMP16DNF datapathWidth)

def writeDNFClauseLiteralsToFilter4CMP32DNF (filter : Filter)
    (datapathWidth : Fin 33) : Filter :=
  filterWriteDNFClauseLiteralsToModule filter (size4CMP32DNF datapathWidth)

/-! ## The table -/

/-- Cell of a literal: compare lane, chunk and data position. -/
abbrev Cell := Fin 4 × Fin 32 × Fin 32

abbrev LiteralSetting := Setting (Fin 32) Cell LiteralTypes

def Filter.table (filter : Filter) : Table (Fin 32) Cell LiteralTypes where
  used := fun i => (filter.dnfStates i).used
  literal := fun i cell => (filter.dnfStates i).clause cell.1 cell.2.1 cell.2.2

theorem arrayIndex_of_lt {n : Nat} {i : Int} (h0 : 0 ≤ i) (hn : i < n)
    (hlt : i.toNat % n < n) : arrayIndex n i = .ok ⟨i.toNat % n, hlt⟩ := by
  rw [arrayIndex, dif_pos ⟨h0, hn⟩]
  congr 1
  apply Fin.ext
  show i.toNat = i.toNat % n
  rw [Nat.mod_eq_of_lt (by omega)]

theorem update_clause (literals : DNFClause) (cell : Cell)
    (literalType : LiteralTypes) (lane : Fin 4) (chunk position : Fin 32) :
    Function.update literals cell.1
      (Function.update (literals cell.1) cell.2.1
        (Function.update (literals cell.1 cell.2.1) cell.2.2 literalType))
      lane chunk position =
    if (lane, chunk, position) = cell then literalType
    else literals lane chunk position := by
  obtain ⟨l, c, p⟩ := cell
  simp only [Function.update_apply, Prod.mk.injEq]
  by_cases hl : lane = l
  · subst hl
    by_cases hc : chunk = c
    · subst hc
      simp [Function.update_apply]
    · simp [hc]
  · simp [hl]

/-- A literal inside the arrays is set in the table. -/
theorem filterSetDNFClauseLiteral_ok (filter : Filter)
    {dnfClauseId compareNumber chunkId dataPosition : Int}
    {literalType : LiteralTypes} {s : LiteralSetting}
    (hclause : arrayIndex 32 dnfClauseId = .ok s.clause)
    (hlane : arrayIndex 4 compareNumber = .ok s.cell.1)
    (hchunk : arrayIndex 32 chunkId = .ok s.cell.2.1)
    (hposition : arrayIndex 32 dataPosition = .ok s.cell.2.2)
    (hliteral : literalType = s.literal) :
    ∃ filter', filterSetDNFClauseLiteral filter dnfClauseId compareNumber
      chunkId dataPosition literalType = .ok filter' ∧
      filter'.table = filter.table.set s := by
  rw [filterSetDNFClauseLiteral, hclause, ok_bind, hlane, ok_bind, hchunk,
    ok_bind, hposition, ok_bind]
  refine ⟨_, rfl, ?_⟩
  subst hliteral
  simp only [Filter.table, Table.set, Table.mk.injEq]
  refine ⟨?_, ?_⟩
  · funext i
    by_cases hi : i = s.clause
    · simp [hi]
    · simp [hi]
  · funext i cell
    by_cases hi : i = s.clause
    · subst hi
      simp only [Function.update_self]
      rw [update_clause, Function.update_apply]
    · simp only [Function.update_of_ne hi]

/-! ## Reading the masks -/

/-- What a literal says about the outcome of its comparison. -/
def LiteralTypes.HoldsAt : LiteralTypes → Bool → Prop
  | .kLiteralDontCare, _ => True
  | .kLiteralPositive, outcome => outcome = true
  | .kLiteralNegative, outcome => outcome = false
  | .unnamed _, _ => False

instance : ∀ (t : LiteralTypes) (outcome : Bool), Decidable (t.HoldsAt outcome)
  | .kLiteralDontCare, _ => .isTrue trivial
  | .kLiteralPositive, outcome => inferInstanceAs (Decidable (outcome = true))
  | .kLiteralNegative, outcome => inferInstanceAs (Decidable (outcome = false))
  | .unnamed _, _ => .isFalse id

/-- Content of a register: the word that was written to it last. -/
def registerValue (writes : List RegisterWrite) (address : Int) : Nat :=
  match writes.reverse.find? fun w => w.address = address with
  | some w => w.data
  | none => 0

/-- A bit of the mask for the outcome of a comparator. -/
def clauseBit (writes : List RegisterWrite) (outcome : Bool)
    (compareLane chunkId dataPosition clause : Nat) : Bool :=
  (registerValue writes
    (maskAddress outcome compareLane chunkId dataPosition)).testBit clause

theorem clauseBits_eq (used : Bool) (t : LiteralTypes) (outcome : Bool) :
    (if outcome then (clauseBits used t).1 else (clauseBits used t).2) = true ↔
      used = true ∧ t.HoldsAt outcome := by
  cases used <;> cases t <;> cases outcome <;>
    simp [clauseBits, LiteralTypes.HoldsAt]

/-- Bits of the clauses at a comparator, for an outcome. -/
def clauseColumn (dnfStates : DNFClauseStates) (size : ModuleSize)
    (lane : Fin size.moduleComparesPerField) (chunk : Fin 32)
    (position : Fin size.datapathWidth) (outcome : Bool) : List Bool :=
  List.ofFn fun i : Fin size.moduleDnfClauses =>
    let state := dnfStates (i.castLE size.clauses_le)
    let bits := clauseBits state.used (state.clause
      (lane.castLE size.compares_le) chunk (position.castLE size.width_le))
    if outcome then bits.1 else bits.2

theorem foldl_shiftIn_pair {α : Type} (f g : α → Bool) (xs : List α)
    (masks : Nat × Nat) :
    xs.foldl (fun packed x => (shiftIn packed.1 (f x), shiftIn packed.2 (g x)))
      masks =
      ((xs.map f).foldl shiftIn masks.1, (xs.map g).foldl shiftIn masks.2) := by
  induction xs generalizing masks with
  | nil => rfl
  | cons x xs ih => rw [List.foldl_cons, ih, List.map_cons, List.map_cons,
      List.foldl_cons, List.foldl_cons]

theorem packClauses_eq (dnfStates : DNFClauseStates) (size : ModuleSize)
    (lane : Fin size.moduleComparesPerField) (chunk : Fin 32)
    (position : Fin size.datapathWidth) :
    packClauses dnfStates size lane chunk position =
      (maskOf (clauseColumn dnfStates size lane chunk position true),
        maskOf (clauseColumn dnfStates size lane chunk position false)) := by
  rw [packClauses, foldl_shiftIn_pair]
  simp only [clauseColumn, maskOf, List.ofFn_eq_map, List.map_reverse, if_true,
    Bool.false_eq_true, if_false]

theorem registerValue_of_mem {before writes : List RegisterWrite}
    {w : RegisterWrite} (hw : w ∈ writes)
    (hunique : ∀ w' ∈ writes, w'.address = w.address → w' = w) :
    registerValue (before ++ writes) w.address = w.data := by
  have hfind : writes.reverse.find? (fun w' => w'.address = w.address) =
      some w := by
    cases h : writes.reverse.find? (fun w' => w'.address = w.address) with
    | none =>
        rw [List.find?_eq_none] at h
        exact absurd (decide_eq_true rfl) (h w (List.mem_reverse.mpr hw))
    | some w' =>
        have hmem := List.mem_reverse.mp (List.mem_of_find?_eq_some h)
        have haddress : w'.address = w.address := by
          simpa using List.find?_some h
        rw [hunique w' hmem haddress]
  rw [registerValue, List.reverse_append, List.find?_append, hfind]
  rfl

theorem maskAddress_inj {positive positive' : Bool}
    {lane chunk position lane' chunk' position' : Nat}
    (hchunk : chunk < 32) (hchunk' : chunk' < 32) (hposition : position < 32)
    (hposition' : position' < 32)
    (h : maskAddress positive lane chunk position =
      maskAddress positive' lane' chunk' position') :
    positive = positive' ∧ lane = lane' ∧ chunk = chunk' ∧
      position = position' := by
  unfold maskAddress at h
  cases positive <;> cases positive' <;>
    simp only [if_true, Bool.false_eq_true, if_false] at h <;>
    simp only [true_and, reduceCtorEq, false_and] <;> omega

/-- The write of the mask for an outcome of a comparator. -/
def maskWrite (dnfStates : DNFClauseStates) (size : ModuleSize)
    (lane : Fin size.moduleComparesPerField) (chunk : Fin 32)
    (position : Fin size.datapathWidth) (outcome : Bool) : RegisterWrite :=
  ⟨maskAddress outcome lane chunk position,
    maskOf (clauseColumn dnfStates size lane chunk position outcome)⟩

theorem maskWrites_eq (dnfStates : DNFClauseStates) (size : ModuleSize)
    (lane : Fin size.moduleComparesPerField) (chunk : Fin 32)
    (position : Fin size.datapathWidth) :
    maskWrites dnfStates size lane chunk position =
      [maskWrite dnfStates size lane chunk position true,
        maskWrite dnfStates size lane chunk position false] := by
  have hword : ∀ outcome : Bool, toWord
      (maskOf (clauseColumn dnfStates size lane chunk position outcome) : Nat) =
      maskOf (clauseColumn dnfStates size lane chunk position outcome) := by
    intro outcome
    have hlt := maskOf_lt (clauseColumn dnfStates size lane chunk position outcome)
    rw [clauseColumn, List.length_ofFn] at hlt
    exact toWord_of_lt (Nat.lt_of_lt_of_le hlt
      (Nat.pow_le_pow_right (by decide) size.clauses_le))
  simp only [maskWrites, packClauses_eq, DMA.writeToModule, hword, maskWrite]

/-- A bit of a mask that was written at the end. -/
theorem clauseBit_filterWriteDNFClauseLiteralsToModule (filter : Filter)
    (size : ModuleSize) (lane : Fin size.moduleComparesPerField)
    (chunk : Fin 32) (position : Fin size.datapathWidth)
    (clause : Fin size.moduleDnfClauses) (outcome : Bool) :
    clauseBit (filterWriteDNFClauseLiteralsToModule filter size).writes outcome
        lane chunk position clause = true ↔
      (filter.dnfStates (clause.castLE size.clauses_le)).used = true ∧
        ((filter.dnfStates (clause.castLE size.clauses_le)).clause
          (lane.castLE size.compares_le) chunk
          (position.castLE size.width_le)).HoldsAt outcome := by
  have hwidth := size.width_le
  have hvalue : registerValue
      (filterWriteDNFClauseLiteralsToModule filter size).writes
      (maskAddress outcome lane chunk position) =
      maskOf (clauseColumn filter.dnfStates size lane chunk position outcome) := by
    refine registerValue_of_mem
      (w := maskWrite filter.dnfStates size lane chunk position outcome) ?_ ?_
    · simp only [List.mem_flatMap, List.mem_finRange, true_and]
      refine ⟨lane, position, chunk, ?_⟩
      rw [maskWrites_eq]
      cases outcome <;> simp
    · intro w hw haddress
      simp only [List.mem_flatMap, List.mem_finRange, true_and] at hw
      obtain ⟨lane', position', chunk', hw⟩ := hw
      have hform : ∃ outcome',
          w = maskWrite filter.dnfStates size lane' chunk' position' outcome' := by
        rw [maskWrites_eq, List.mem_cons, List.mem_singleton] at hw
        rcases hw with rfl | rfl
        · exact ⟨true, rfl⟩
        · exact ⟨false, rfl⟩
      obtain ⟨outcome', rfl⟩ := hform
      obtain ⟨rfl, hlane, hchunk, hposition⟩ := maskAddress_inj chunk'.isLt
        chunk.isLt (by omega) (by omega) haddress
      rw [Fin.ext hlane, Fin.ext hchunk, Fin.ext hposition]
  rw [clauseBit, hvalue, testBit_maskOf, clauseColumn, List.getElem?_ofFn,
    dif_pos clause.isLt]
  exact clauseBits_eq _ _ outcome

end Orkhestra.Ports.FilterModule
