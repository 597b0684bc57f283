import Orkhestra.Verified.Lane
import Mathlib.Data.List.Induction
import Mathlib.Data.List.Nodup

/-!
# A machine that works in place on lanes

The machine has a register for each label and runs stages one after the other.
A stage reads the registers of some points and overwrites those of others, so
that a value stays in its register until a later point of the same lane is
written.

When the points with one label are in one lane and the stages are run in an
order that the lanes agree with, a register holds the value of the point that
the lane has got to (`holds_of_ready`).  `Holds p v` says that `v` is the value
of `p`; it is a relation, so that a value need not be computed to be spoken of.
-/

namespace Orkhestra.Verified.LaneMachine

open Relation
open Orkhestra.Verified.Lane

/-! ## The machine -/

/-- The registers that a stage reads and writes; `kernel values k` is what it
writes to register `k` of the latter. -/
structure Stage (R V : Type) where
  reads : List R
  writes : List R
  kernel : List V → Nat → V

section Run

variable {R V : Type} [DecidableEq R]

def Stage.run (regs : R → V) (s : Stage R V) : R → V := fun r =>
  match s.writes.idxOf? r with
  | some k => s.kernel (s.reads.map regs) k
  | none => regs r

theorem Stage.run_of_not_mem {s : Stage R V} {r : R} (regs : R → V)
    (hr : r ∉ s.writes) : s.run regs r = regs r := by
  rw [Stage.run, List.idxOf?_eq_none_iff.mpr hr]

theorem Stage.run_of_getElem? {s : Stage R V} {r : R} {k : Nat} (regs : R → V)
    (hnodup : s.writes.Nodup) (hr : s.writes[k]? = some r) :
    s.run regs r = s.kernel (s.reads.map regs) k := by
  obtain ⟨hlt, rfl⟩ := List.getElem?_eq_some_iff.mp hr
  have hidx : s.writes.idxOf? s.writes[k] = some k := by
    rw [List.idxOf?_eq_some_iff]
    refine ⟨hlt, by simp, ?_⟩
    intro j hj heq
    exact absurd ((hnodup.getElem_inj_iff).mp heq) (by omega)
  rw [Stage.run, hidx]

end Run

/-! ## The points of a run -/

section Points

variable {α σ R V : Type} {step : α → α → Prop} {valid : α → Prop}
  {label : α → R} {stage : σ → Stage R V} {ins outs : σ → List α}
  {source : α → Prop} {Holds : α → V → Prop} {regs : R → V} {order : List σ}

/-- The stages `order` work on points with one label for each lane. -/
structure InLanes (step : α → α → Prop) (valid : α → Prop) (label : α → R)
    (stage : σ → Stage R V) (ins outs : σ → List α) (source : α → Prop)
    (order : List σ) : Prop where
  nodup : order.Nodup
  reads : ∀ s ∈ order, (stage s).reads = (ins s).map label
  writes : ∀ s ∈ order, (stage s).writes = (outs s).map label
  writes_nodup : ∀ s ∈ order, (stage s).writes.Nodup
  ins_valid : ∀ s ∈ order, ∀ q ∈ ins s, valid q
  outs_valid : ∀ s ∈ order, ∀ q ∈ outs s, valid q
  acyclic : ∀ p, ¬TransGen step p p
  keep : ∀ p q, step p q → label p = label q
  same : ∀ p q, valid p → valid q → label p = label q → SameLane step p q
  ins_fed : ∀ s ∈ order, ∀ q ∈ ins s, ∃ r,
    (source r ∨ ∃ s' ∈ order, r ∈ outs s') ∧ ReflTransGen step r q
  ins_behind : ∀ before s after, order = before ++ s :: after →
    ∀ q ∈ ins s, ∀ s' ∈ order, ∀ q' ∈ outs s',
      (ReflTransGen step q' q → s' ∈ before) ∧
        (ReflTransGen step q q' → s' ∉ before)
  outs_ahead : ∀ before s after, order = before ++ s :: after →
    ∀ q ∈ outs s, ∀ s' ∈ before, ∀ q' ∈ outs s', ¬ReflTransGen step q q'

/-- The values are those of the points of the machine. -/
structure Computes (step : α → α → Prop) (label : α → R)
    (stage : σ → Stage R V) (ins outs : σ → List α) (source : α → Prop)
    (Holds : α → V → Prop) (regs : R → V) (order : List σ) : Prop where
  source : ∀ r, source r → Holds r (regs (label r))
  pass : ∀ p q v, step p q → (∀ s ∈ order, q ∉ outs s) → Holds p v → Holds q v
  kernel : ∀ s ∈ order, ∀ values : List V,
    (∀ (i : Nat) q, (ins s)[i]? = some q →
      ∃ v, values[i]? = some v ∧ Holds q v) →
    values.length = (ins s).length →
    ∀ (k : Nat) p, (outs s)[k]? = some p → Holds p ((stage s).kernel values k)

/-- After the stages `before` the lane of `p` has got to `p`. -/
structure Ready (step : α → α → Prop) (outs : σ → List α) (order : List σ)
    (before : List σ) (p : α) : Prop where
  written : ∀ s ∈ order, ∀ q ∈ outs s, ReflTransGen step q p → s ∈ before
  kept : ∀ s ∈ before, ∀ q ∈ outs s, ReflTransGen step p q → p = q

/-- The value of a point stays the value until a stage writes. -/
theorem holds_of_reaches
    (hc : Computes step label stage ins outs source Holds regs order)
    {p q : α} {v : V} (hpath : ReflTransGen step p q)
    (hfree : ∀ r, TransGen step p r → ReflTransGen step r q →
      ∀ s ∈ order, r ∉ outs s)
    (hp : Holds p v) : Holds q v := by
  induction hpath with
  | refl => exact hp
  | tail hpath hstep ih =>
      refine hc.pass _ _ v hstep ?_ (ih ?_)
      · exact hfree _ (TransGen.tail' hpath hstep) .refl
      · exact fun r hpr hrq => hfree r hpr (hrq.tail hstep)

variable [DecidableEq R]

/-- The register of a point that its lane has got to holds the value of the
point. -/
theorem holds_of_ready
    (hm : InLanes step valid label stage ins outs source order)
    (hc : Computes step label stage ins outs source Holds regs order)
    (before : List σ) {after : List σ} (hsplit : order = before ++ after)
    {p : α} (hvalid : valid p) (hready : Ready step outs order before p)
    (hfed : ∃ r, (source r ∨ ∃ s ∈ order, r ∈ outs s) ∧
      ReflTransGen step r p) :
    Holds p ((before.map stage).foldl Stage.run regs (label p)) := by
  induction before using List.reverseRecOn generalizing p after with
  | nil =>
      obtain ⟨r, hr, hpath⟩ := hfed
      have hnone : ∀ q, ReflTransGen step q p → ∀ s ∈ order, q ∉ outs s :=
        fun q hq s hs hmem => List.not_mem_nil (hready.written s hs q hmem hq)
      rcases hr with hr | ⟨s, hs, hr⟩
      · rw [← label_eq_of_reaches hm.keep hpath]
        exact holds_of_reaches hc hpath (fun q _ hq => hnone q hq)
          (hc.source r hr)
      · exact absurd hr (hnone r hpath s hs)
  | append_singleton before s ih =>
      have hsplit' : order = before ++ s :: after := by simpa using hsplit
      have hs : s ∈ order := by simp [hsplit']
      rw [List.map_append, List.foldl_append, List.map_singleton,
        List.foldl_cons, List.foldl_nil]
      by_cases hwrites : label p ∈ (stage s).writes
      · obtain ⟨k, hk⟩ := List.mem_iff_getElem?.mp hwrites
        rw [Stage.run_of_getElem? _ (hm.writes_nodup s hs) hk]
        rw [hm.writes s hs, List.getElem?_map, Option.map_eq_some_iff] at hk
        obtain ⟨q, hq, hlabel⟩ := hk
        have hmem := List.mem_of_getElem? hq
        -- The stage has read the values of its inputs.
        have hvalue : Holds q ((stage s).kernel ((stage s).reads.map
            ((before.map stage).foldl Stage.run regs)) k) := by
          refine hc.kernel s hs _ ?_ (by simp [hm.reads s hs]) k q hq
          intro i r hr
          have hin := List.mem_of_getElem? hr
          refine ⟨(before.map stage).foldl Stage.run regs (label r),
            by simp [hm.reads s hs, hr], ?_⟩
          have hbehind := hm.ins_behind before s after hsplit' r hin
          refine ih hsplit' (hm.ins_valid s hs r hin) ⟨?_, ?_⟩
            (hm.ins_fed s hs r hin)
          · exact fun s' hs' q' hq' hpath => (hbehind s' hs' q' hq').1 hpath
          · intro s' hs' q' hq' hpath
            exact absurd hs' ((hbehind s' (by simp [hsplit', hs']) q' hq').2
              hpath)
        rcases hm.same q p (hm.outs_valid s hs q hmem) hvalid hlabel with
          hpath | hpath
        · refine holds_of_reaches hc hpath ?_ hvalue
          intro r hqr hrp s' hs' hr
          rcases List.mem_append.mp (hready.written s' hs' r hr hrp) with
            hbefore | hlast
          · exact hm.outs_ahead before s after hsplit' q hmem s' hbefore r hr
              hqr.to_reflTransGen
          · -- Two outputs of the stage would be in one lane.
            obtain rfl := List.mem_singleton.mp hlast
            have heq : r = q := by
              have hnodup := hm.writes_nodup s' hs'
              rw [hm.writes s' hs'] at hnodup
              exact (List.inj_on_of_nodup_map hnodup hmem hr
                (label_eq_of_reaches hm.keep hqr.to_reflTransGen)).symm
            exact hm.acyclic q (heq ▸ hqr)
        · obtain rfl := hready.kept s (by simp) q hmem hpath
          exact hvalue
      · rw [Stage.run_of_not_mem _ hwrites]
        refine ih hsplit' hvalid ⟨?_, ?_⟩ hfed
        · intro s' hs' q hq hpath
          rcases List.mem_append.mp (hready.written s' hs' q hq hpath) with
            hbefore | hlast
          · exact hbefore
          · obtain rfl := List.mem_singleton.mp hlast
            refine absurd ?_ hwrites
            rw [← label_eq_of_reaches hm.keep hpath, hm.writes s' hs']
            exact List.mem_map_of_mem hq
        · exact fun s' hs' => hready.kept s' (by simp [hs'])

/-- When all stages have run, the register at the end of a lane holds the value
of that end. -/
theorem holds_of_end
    (hm : InLanes step valid label stage ins outs source order)
    (hc : Computes step label stage ins outs source Holds regs order) {p : α}
    (hvalid : valid p) (hend : ∀ q, ¬step p q)
    (hfed : ∃ r, (source r ∨ ∃ s ∈ order, r ∈ outs s) ∧
      ReflTransGen step r p) :
    Holds p ((order.map stage).foldl Stage.run regs (label p)) := by
  refine holds_of_ready hm hc order (List.append_nil order).symm hvalid ?_ hfed
  refine ⟨fun s hs q _ _ => hs, ?_⟩
  intro s _ q _ hpath
  rcases ReflTransGen.cases_head hpath with heq | ⟨r, hstep, -⟩
  · exact heq
  · exact absurd hstep (hend r)

end Points

end Orkhestra.Verified.LaneMachine
