import Orkhestra.Ports.DeliveredColumns
import Orkhestra.Ports.FilterDecision

/-!
# Which records a filter lets through

The crossbar of an input stream and the filter behind it, put together.  The
chunks of a record follow each other from the first clock cycle of its slot, and
the comparators look at the integers of each chunk.

After a set-up a filter lets exactly the records through whose columns meet some
clause of its parameters, whatever ran before (`filter_decides_columns`).
-/

namespace Orkhestra.Ports.FilteredColumns

open Orkhestra.Ports.QuerySchedulingData
open Orkhestra.Ports.QueryManager
open Orkhestra.Ports.InputCrossbar (recordBuffer)
open Orkhestra.Ports.DMA
open Orkhestra.Ports.DMASetup
open Orkhestra.Ports.DMADomain
open Orkhestra.Ports.ActiveStreams
open Orkhestra.Ports.FilterModule
open Orkhestra.Ports.FilterSetup
open Orkhestra.Ports.FilterClauses
open Orkhestra.Ports.ModuleSwitch
open Orkhestra.Ports.ModuleWindows
open Orkhestra.Ports.FilterDecision
open Orkhestra.Ports.DeliveredColumns

/-- The chunks of a record as they come from the crossbar. -/
def deliveredChunks (registers : Int → Nat) (streamId : Nat)
    (buffer : Nat → Nat → Nat) (firstCycle : Nat) : Chunks :=
  fun chunk position =>
    delivered registers streamId buffer (firstCycle + chunk) position

/-- Every word that is compared is a column of the specification. -/
def ComparesColumns (headers : List Header) (specification : List Int) : Prop :=
  ∀ h ∈ headers, ∀ c ∈ h.comparisons, ∀ k < c.referenceValues.length,
    ∃ column : Nat,
      specification[(h.firstWord + k).toNat]? = some (column : Int)

/-- All literals of the clause hold for the columns of the record. -/
def MeetsColumns (compare : Comparator) (headers : List Header)
    (specification : List Int) (record : Nat → Nat) (clause : Int) : Prop :=
  ∀ h ∈ headers, ∀ c ∈ h.comparisons, ∀ literalType,
    (clause, literalType) ∈ c.literals →
      ∀ (k : Nat) (value : Int) (column : Nat),
        c.referenceValues[k]? = some value →
        specification[(h.firstWord + k).toNat]? = some (column : Int) →
          literalType.HoldsAt (compare c.compareFunction.toNat (toWord value)
            (record column))

section Columns

variable {headers : List Header} {specification : List Int}
  {chunks : Chunks} {record : Nat → Nat}

/-- The words of the chunks are the columns of the record. -/
def Carries (chunks : Chunks) (specification : List Int)
    (record : Nat → Nat) : Prop :=
  ∀ k column : Nat, specification[k]? = some (column : Int) →
    chunks (k / 16) (15 - k % 16) = record column

theorem Carries.wordAt (hcarries : Carries chunks specification record)
    {word : Int} (hword : 0 ≤ word) {column : Nat}
    (hcolumn : specification[word.toNat]? = some (column : Int)) :
    wordAt chunks word = record column := by
  obtain ⟨k, rfl⟩ := Int.eq_ofNat_of_zero_le hword
  rw [Int.toNat_natCast] at hcolumn
  have hchunk : ((k : Int) / 16).toNat = k / 16 := by omega
  have hposition : (15 - (k : Int) % 16).toNat = 15 - k % 16 := by omega
  rw [FilterDecision.wordAt, hchunk, hposition]
  exact hcarries k column hcolumn

theorem meets_iff (hwf : WellFormed headers)
    (hcompared : ComparesColumns headers specification)
    (hcarries : Carries chunks specification record) (compare : Comparator)
    (clause : Int) :
    Meets compare headers chunks clause ↔
      MeetsColumns compare headers specification record clause := by
  constructor
  · intro hmeets h hh c hc literalType hdnf k value column hvalue hcolumn
    have hk := (List.getElem?_eq_some_iff.mp hvalue).1
    have hword := ((hwf.wellFormed h hh).inside c hc k hk).1
    rw [← hcarries.wordAt hword hcolumn]
    exact hmeets h hh c hc literalType hdnf k value hvalue
  · intro hmeets h hh c hc literalType hdnf k value hvalue
    have hk := (List.getElem?_eq_some_iff.mp hvalue).1
    have hword := ((hwf.wellFormed h hh).inside c hc k hk).1
    obtain ⟨column, hcolumn⟩ := hcompared h hh c hc k hk
    rw [hcarries.wordAt hword hcolumn]
    exact hmeets h hh c hc literalType hdnf k value column hvalue hcolumn

end Columns

/-- Whatever has been written before, and whichever streams and modules are set
up with it, a filter on a stream in memory lets exactly the records through
whose columns meet some clause of its parameters. -/
theorem filter_decides_columns (physicalAddress : Block → Nat)
    (accelerator : Accelerator) (before : Int → Nat) (m m' : FPGAManager)
    (nodes : List AcceleratedQueryNode) (q : AcceleratedQueryNode)
    (s : StreamInitData) (n slot : Nat) (headers : List Header)
    (hsetup : setupQueryAcceleration (moduleBoard physicalAddress accelerator) m
      nodes = .ok m')
    (hnodes : InWindows (moduleBoard physicalAddress accelerator) nodes)
    (hq : q ∈ nodes) (hfilter : q.operationType = .kFilter)
    (hparameters : q.operationParameters = parameters headers)
    (hwf : WellFormed headers) (h32 : Decidable32Bit headers)
    (hs : FoundFor (moduleBoard physicalAddress accelerator)
      q.operationParameters false q.inputStreams s)
    (hunique : ∀ s', FoundInput (moduleBoard physicalAddress accelerator) nodes
      s' → s'.streamId = s.streamId → s' = s)
    (hdescribed : WellDescribed s) (hburst : BurstOf s n slot)
    (hfit : (streamSpecificationOf s).length ≤ slot)
    (hcompared : ComparesColumns headers (streamSpecificationOf s))
    (compare : Comparator) (records : Nat → Nat → Nat) (j : Nat) (hj : j < n) :
    Passes compare
        (window (contents before m'.writes) q.operationModuleLocation)
        (deliveredChunks (contents before m'.writes) s.streamId
          (recordBuffer s.streamRecordSize.toNat records) (j * slot / 16)) ↔
      ∃ clause, Applied headers clause ∧
        MeetsColumns compare headers (streamSpecificationOf s) (records j)
          clause := by
  obtain ⟨inputs, outputs, inputSetup, outputSetup, hset⟩ := exists_setUp hsetup
  obtain ⟨configured, start, hreg⟩ :=
    configures_of_setUp hset hnodes hq hfilter hparameters hwf before
  have hfound : FoundInput (moduleBoard physicalAddress accelerator) nodes s := by
    refine ⟨q, hq, ?_⟩
    rw [decide_eq_false (by rw [hfilter]; decide)]
    exact hs
  have hcarries : Carries
      (deliveredChunks (contents before m'.writes) s.streamId
        (recordBuffer s.streamRecordSize.toNat records) (j * slot / 16))
      (streamSpecificationOf s) (records j) := fun k column hcolumn =>
    delivered_of_setUp hset hnodes hfound hunique hdescribed hburst hfit before
      records hj hcolumn
  rw [hreg.passes_iff hwf h32]
  exact exists_congr fun clause => and_congr_right fun _ =>
    meets_iff hwf hcompared hcarries compare clause

/-- The first column is compared with 9 in each record of a burst of 32. -/
theorem filter_decides_columns_withNine :
    ∃ m', setupQueryAcceleration sevensModules initial
        [nodeAt .kFilter 1 (parameters withNine)] = .ok m' ∧
      ∀ (before : Int → Nat) (records : Nat → Nat → Nat) (j : Nat), j < 32 →
        (Passes (fun _ reference word => word < reference)
          (window (contents before m'.writes) 1)
          (deliveredChunks (contents before m'.writes) 3
            (recordBuffer 4 records) (j * 16 / 16)) ↔ records j 0 < 9) := by
  obtain ⟨m', hsetup⟩ := nodeAt_setup initial (by decide)
    (filterAt_configured wellFormed_withNine 1)
  refine ⟨m', hsetup, fun before records j hj => ?_⟩
  have hnodes : InWindows sevensModules
      [nodeAt .kFilter 1 (parameters withNine)] :=
    nodeAt_inWindows (by decide) (by decide)
      (fitsWindow_of_other (by decide) (by decide))
  have hcompared : ComparesColumns withNine
      (streamSpecificationOf filterInput) := by
    intro h hh c hc k hk
    obtain rfl := List.mem_singleton.mp hh
    obtain rfl := List.mem_singleton.mp hc
    obtain rfl : k = 0 := Nat.lt_one_iff.mp hk
    exact ⟨0, rfl⟩
  refine (filter_decides_columns sevens.physicalAddress sevens.accelerator
    before initial m' _ _ filterInput 32 (512 / 32) withNine hsetup hnodes
    (List.mem_singleton_self _) rfl rfl wellFormed_withNine decidable_withNine
    ⟨_, List.mem_singleton_self _, by decide, by decide, rfl⟩
    (fun s' hs' _ => (foundInput_nodeAt (by decide)).mp hs')
    wellDescribed_filterInput burstOf_filterInput (by decide) hcompared _
    records j hj).trans ?_
  constructor
  · rintro ⟨clause, ⟨h, hh, c, hc, -, hclause⟩, hmeets⟩
    obtain rfl := List.mem_singleton.mp hh
    obtain rfl := List.mem_singleton.mp hc
    obtain rfl := List.mem_singleton.mp hclause
    have hholds := hmeets _ List.mem_cons_self _ List.mem_cons_self
      .kLiteralPositive (by decide) 0 9 0 rfl rfl
    exact of_decide_eq_true hholds
  · intro hless
    refine ⟨0, ⟨_, List.mem_cons_self, _, List.mem_cons_self, by decide,
      List.mem_cons_self⟩, ?_⟩
    intro h hh c hc literalType hdnf k value column hvalue hcolumn
    obtain rfl := List.mem_singleton.mp hh
    obtain rfl := List.mem_singleton.mp hc
    obtain rfl := congrArg Prod.snd (List.mem_singleton.mp hdnf)
    obtain rfl : k = 0 :=
      Nat.lt_one_iff.mp (List.getElem?_eq_some_iff.mp hvalue).1
    obtain rfl := Option.some.inj hvalue
    obtain rfl : column = 0 :=
      (Int.ofNat_inj.mp (Option.some.inj hcolumn)).symm
    exact decide_eq_true hless

end Orkhestra.Ports.FilteredColumns
