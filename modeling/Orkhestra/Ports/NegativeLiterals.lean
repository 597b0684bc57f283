import Orkhestra.Ports.FilterClauses

/-!
# Negative literals

A literal is given to every reference word of its comparison.  A clause with a
positive literal survives the cells of the comparison when all words are true;
with a negative literal it survives when all words are false, which is the
negation of the comparison only if there is a single word.
-/

namespace Orkhestra.Ports.NegativeLiterals

open Orkhestra.Verified.LiteralTable
open Orkhestra.Ports.StreamParameterCalculator
open Orkhestra.Ports.DMA
open Orkhestra.Ports.FilterModule
open Orkhestra.Ports.FilterSetup
open Orkhestra.Ports.FilterClauses

variable {headers : List Header} {h : Header} {c : Comparison} {lane : Nat}

/-- The bit of the clause is set in the masks for the outcomes of all words of
the comparison. -/
def SurvivesComparison (writes : List RegisterWrite) (truth : Truth)
    (h : Header) (lane : Nat) (c : Comparison) (clause : Nat) : Prop :=
  ∀ k : Nat, k < c.referenceValues.length →
    let chunk := ((h.firstWord + k) / 16).toNat
    let position := (15 - (h.firstWord + k) % 16).toNat
    clauseBit writes (truth lane chunk position) lane chunk position clause =
      true

/-- A literal that was set, in a table of consistent settings. -/
theorem literal_of_mem {settings : List LiteralSetting}
    (hconsistent : Consistent settings) {s : LiteralSetting}
    (hs : s ∈ settings) :
    ((Table.empty .kLiteralDontCare).setAll settings).used s.clause = true ∧
      ((Table.empty .kLiteralDontCare).setAll settings).literal s.clause
        s.cell = s.literal := by
  refine ⟨(setAll_used _ settings s.clause).mpr (.inr ⟨s, hs, rfl⟩), ?_⟩
  rcases setAll_literal (Table.empty LiteralTypes.kLiteralDontCare) settings
    s.clause s.cell with ⟨s', hs', hclause, hcell, hliteral⟩ | ⟨hnone, -⟩
  · rw [hliteral]
    exact hconsistent s' hs' s hs hclause hcell
  · exact absurd rfl (hnone s hs rfl)

/-- A clause survives the cells of a comparison when its literal there holds at
all words. -/
theorem survivesComparison_iff (hwf : WellFormed headers) (hh : h ∈ headers)
    (hlane : h.comparisons[lane]? = some c) {clause : Nat}
    (hclause : clause < 32) {literalType : LiteralTypes}
    (hliteral : ((clause : Int), literalType) ∈ c.literals)
    {configured : Filter}
    (htable : configured.table = (Table.empty .kLiteralDontCare).setAll
      (headers.flatMap Header.settings)) (truth : Truth) :
    SurvivesComparison (filterWriteDNFClauseLiteralsToModule configured
        (size4CMP32DNF ⟨kDatapathWidth, by decide⟩)).writes truth h lane c
        clause ↔
      ∀ outcome ∈ h.outcomes truth lane c, literalType.HoldsAt outcome := by
  simp only [SurvivesComparison, Header.outcomes, List.forall_mem_map,
    List.mem_range]
  refine forall₂_congr fun k hk => ?_
  obtain ⟨hi, hlow, hhigh⟩ := (hwf.wellFormed h hh).cell hlane hk
  have hchunk : ((h.firstWord + k) / 16).toNat < 32 := by omega
  have hposition : (15 - (h.firstWord + k) % 16).toNat < kDatapathWidth := by
    show _ < 16
    omega
  let s := clauseSetting lane (h.firstWord + k) (clause, literalType)
  obtain ⟨hused, hset⟩ := literal_of_mem (consistent_settings hwf)
    (mem_settings.mpr ⟨h, hh, lane, c, hlane, k, hk, _, hliteral, rfl⟩ :
      s ∈ headers.flatMap Header.settings)
  rw [← htable] at hused hset
  have hsclause : s.clause = ⟨clause, hclause⟩ := by
    apply Fin.ext
    show (clause : Int).toNat % 32 = clause
    omega
  have hscell : s.cell = (⟨lane, hi⟩, ⟨_, hchunk⟩,
      ⟨_, Nat.lt_trans hposition (by decide)⟩) := by
    obtain ⟨hl, hc, hp⟩ := literalCell_val hi hlow hhigh
    exact Prod.ext (Fin.ext hl) (Prod.ext (Fin.ext hc) (Fin.ext hp))
  rw [hsclause, hscell] at hset
  rw [hsclause] at hused
  refine (clauseBit_filterWriteDNFClauseLiteralsToModule configured
    (size4CMP32DNF ⟨kDatapathWidth, by decide⟩) ⟨lane, hi⟩ ⟨_, hchunk⟩
    ⟨_, hposition⟩ ⟨clause, hclause⟩ _).trans ?_
  refine (and_iff_right hused).trans ?_
  exact iff_of_eq (congrArg (fun literal => LiteralTypes.HoldsAt literal _) hset)

/-! ## Negation -/

/-- Outcomes that are all the same. -/
def Uniform (outcomes : List Bool) : Prop :=
  ∀ o ∈ outcomes, ∀ o' ∈ outcomes, o = o'

/-- That no outcome is true is the negation of that all are exactly when the
outcomes are the same. -/
theorem none_iff_not_all_iff {outcomes : List Bool} (hne : outcomes ≠ []) :
    ((∀ o ∈ outcomes, o = false) ↔ ¬∀ o ∈ outcomes, o = true) ↔
      Uniform outcomes := by
  obtain ⟨first, hfirst⟩ := List.exists_mem_of_ne_nil outcomes hne
  constructor
  · intro hneg o ho o' ho'
    by_cases hall : ∀ o ∈ outcomes, o = true
    · rw [hall o ho, hall o' ho']
    · rw [hneg.mpr hall o ho, hneg.mpr hall o' ho']
  · intro huniform
    constructor
    · intro hnone hall
      have := (hnone first hfirst).symm.trans (hall first hfirst)
      cases this
    · intro hnot o ho
      rw [← Bool.not_eq_true]
      intro htrue
      exact hnot fun o' ho' => (huniform o' ho' o ho).trans htrue

/-- The words of a comparison can have different outcomes if there are two. -/
theorem uniform_iff_single (h : Header) (lane : Nat)
    (hwords : c.referenceValues ≠ []) (hlow : 0 ≤ h.firstWord) :
    (∀ truth : Truth, Uniform (h.outcomes truth lane c)) ↔
      c.referenceValues.length = 1 := by
  have hpos := List.length_pos_of_ne_nil hwords
  constructor
  · intro huniform
    by_contra hlength
    -- Only the first word is true.
    let first : Truth := fun _ chunk position =>
      chunk = (h.firstWord / 16).toNat ∧
        position = (15 - h.firstWord % 16).toNat
    have hmem : ∀ k : Nat, k < c.referenceValues.length →
        first lane ((h.firstWord + k) / 16).toNat
          (15 - (h.firstWord + k) % 16).toNat ∈ h.outcomes first lane c := by
      intro k hk
      simp only [Header.outcomes, List.mem_map, List.mem_range]
      exact ⟨k, hk, rfl⟩
    have hsame := huniform first _ (hmem 0 hpos) _ (hmem 1 (by omega))
    have htrue : first lane ((h.firstWord + (0 : Nat)) / 16).toNat
        (15 - (h.firstWord + (0 : Nat)) % 16).toNat = true := by
      simp [first]
    have hfalse : first lane ((h.firstWord + (1 : Nat)) / 16).toNat
        (15 - (h.firstWord + (1 : Nat)) % 16).toNat = false := by
      simp only [first, decide_eq_false_iff_not]
      omega
    rw [htrue, hfalse] at hsame
    cases hsame
  · intro hone truth o ho o' ho'
    simp only [Header.outcomes, hone, List.range_one, List.map_singleton,
      List.mem_singleton] at ho ho'
    rw [ho, ho']

/-- For a record, a negative literal is the negation of its comparison exactly
when the words of the comparison have the same outcome, and for every record
exactly when there is one word. -/
theorem negative_literal_negates_iff (hwf : WellFormed headers)
    (hh : h ∈ headers) (hlane : h.comparisons[lane]? = some c) {clause : Int}
    (hnegative : (clause, .kLiteralNegative) ∈ c.literals)
    (hwords : c.referenceValues ≠ []) (filterModule : Filter)
    (inputStreamId outputStreamId : Int) :
    ∃ filterModule', setupFilterModule filterModule inputStreamId
        outputStreamId (parameters headers) = .ok filterModule' ∧
      (∀ truth,
        (SurvivesComparison filterModule'.writes truth h lane c clause.toNat ↔
          ¬∀ outcome ∈ h.outcomes truth lane c, outcome = true) ↔
        Uniform (h.outcomes truth lane c)) ∧
      ((∀ truth,
        SurvivesComparison filterModule'.writes truth h lane c clause.toNat ↔
          ¬∀ outcome ∈ h.outcomes truth lane c, outcome = true) ↔
        c.referenceValues.length = 1) := by
  obtain ⟨configured, hrun, htable⟩ := setupFilterModule_ok hwf filterModule
    inputStreamId outputStreamId
  have hcwf := (hwf.wellFormed h hh).comparisons c (List.mem_of_getElem? hlane)
  obtain ⟨hlow, hhigh⟩ := hcwf.inRange clause
    ((mem_clauseIds hcwf).mpr ⟨_, hnegative⟩)
  obtain ⟨n, rfl⟩ := Int.eq_ofNat_of_zero_le hlow
  have hrecord : ∀ truth, (SurvivesComparison
      (filterWriteDNFClauseLiteralsToModule configured
        (size4CMP32DNF ⟨kDatapathWidth, by decide⟩)).writes truth h lane c n ↔
      ¬∀ outcome ∈ h.outcomes truth lane c, outcome = true) ↔
      Uniform (h.outcomes truth lane c) := by
    intro truth
    rw [survivesComparison_iff hwf hh hlane (by omega) hnegative htable truth]
    refine none_iff_not_all_iff ?_
    simpa [Header.outcomes] using hwords
  refine ⟨_, hrun, hrecord, ?_⟩
  have hpos := List.length_pos_of_ne_nil hwords
  have hfirst := ((hwf.wellFormed h hh).cell hlane hpos).2.1
  rw [← uniform_iff_single h lane hwords (by omega)]
  exact forall_congr' hrecord

/-! ### A text that must not be found -/

/-- A comparison for equality with the words of a text, and its negation as the
only literal. -/
def notEqual (words : List Int) : Comparison := ⟨2, [], words, [2], [0]⟩

def notEqualHeader (words : List Int) : Header where
  chunkId := 0
  dataPosition := 15
  comparisons := [notEqual words]

theorem wellFormed_notEqual {words : List Int} (hwords : words.length ≤ 512) :
    WellFormed [notEqualHeader words] := by
  refine ⟨by simp, ?_, List.pairwise_singleton _ _⟩
  intro h hh
  obtain rfl := List.mem_singleton.mp hh
  refine ⟨by simp [notEqualHeader], by simp [notEqualHeader], ?_, ?_⟩
  · intro c hc k hk
    obtain rfl := List.mem_singleton.mp hc
    have hk : k < words.length := hk
    show 0 ≤ (0 : Int) + k ∧ (0 : Int) + k < 512
    omega
  · intro c hc
    obtain rfl := List.mem_singleton.mp hc
    exact ⟨by simp [notEqual], by simp [notEqual], by simp [notEqual]⟩

theorem literals_notEqual (words : List Int) :
    (0, .kLiteralNegative) ∈ (notEqual words).literals := by
  simp [notEqual, Comparison.literals, LiteralTypes.ofInt]

/-- A record whose text has the first word in common is not accepted. -/
theorem negative_literal_not_always_negates :
    ∃ filterModule', setupFilterModule unconfigured 0 1
        (parameters [notEqualHeader [9, 10]]) = .ok filterModule' ∧
      ¬∀ truth, SurvivesComparison filterModule'.writes truth
          (notEqualHeader [9, 10]) 0 (notEqual [9, 10]) 0 ↔
        ¬∀ outcome ∈ (notEqualHeader [9, 10]).outcomes truth 0
          (notEqual [9, 10]), outcome = true := by
  have hwf := @wellFormed_notEqual [9, 10] (by decide)
  obtain ⟨configured, hrun, htable⟩ := setupFilterModule_ok hwf unconfigured 0 1
  refine ⟨_, hrun, ?_⟩
  intro hnegates
  let truth : Truth := fun _ _ position => position = 15
  have hsurvives := (hnegates truth).mpr (by decide)
  have hnone := (survivesComparison_iff hwf List.mem_cons_self rfl (by decide)
    (literals_notEqual [9, 10]) htable truth).mp hsurvives
  exact absurd (hnone true (by decide)) (by decide)

theorem negative_literal_negates_iff_oneWord :
    ∃ filterModule', setupFilterModule unconfigured 0 1
        (parameters [notEqualHeader [9]]) = .ok filterModule' ∧
      ∀ truth, SurvivesComparison filterModule'.writes truth
          (notEqualHeader [9]) 0 (notEqual [9]) 0 ↔
        ¬∀ outcome ∈ (notEqualHeader [9]).outcomes truth 0 (notEqual [9]),
          outcome = true := by
  obtain ⟨filterModule', hrun, -, hsingle⟩ := negative_literal_negates_iff
    (@wellFormed_notEqual [9] (by decide)) List.mem_cons_self
    (show (notEqualHeader [9]).comparisons[0]? = some (notEqual [9]) from rfl)
    (literals_notEqual [9]) (by decide) unconfigured 0 1
  exact ⟨filterModule', hrun, hsingle.mpr rfl⟩

end Orkhestra.Ports.NegativeLiterals
