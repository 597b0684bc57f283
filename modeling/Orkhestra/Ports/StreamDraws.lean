import Orkhestra.Ports.IDManager

/-!
# Draws of a run

Nothing is assumed here of the edges of a run: an input takes over the id of the
output that the search by value finds.  Ids are drawn in the order of the nodes,
so the id of a stream is the number of the draw that its lane begins with.
-/

namespace Orkhestra.Ports.StreamDraws

open Relation
open Orkhestra.Verified.Checked
open Orkhestra.Verified.VectorMap
open Orkhestra.Ports.QuerySchedulingData
open Orkhestra.Ports.IDManager

/-! ## Lanes, backwards -/

/-- The streams that draw an id, in the order of the draws. -/
def draws (h : Heap) (nodes : List NodeId) : List Port :=
  nodes.flatMap (heads h)

/-- The stream that hands its id to the given one. -/
def source (h : Heap) : Port → Option Port
  | .input n m =>
      match (h n).previousNodes[m]? with
      | some (some a) =>
          match findStreamIndex h (h a).nextNodes (h n) with
          | .ok k => some (.output a k)
          | .error _ => none
      | _ => none
  | .output n k =>
      if k < (h n).inputDataDefinitionFiles.length then some (.input n k)
      else none

/-- The lane of `p` begins with `r`. -/
def BeginsWith (h : Heap) (p r : Port) : Prop :=
  ReflTransGen (fun p q => source h p = some q) p r ∧ source h r = none

section Lanes

variable {h : Heap} {nodes : List NodeId} {p q r r' : Port}

theorem source_rightUnique (h : Heap) :
    Relator.RightUnique fun p q => source h p = some q := by
  intro p q r hq hr
  rw [hq, Option.some.injEq] at hr
  exact hr

theorem BeginsWith.unique (hr : BeginsWith h p r) (hr' : BeginsWith h p r') :
    r = r' := by
  have hend : ∀ {r r'}, ReflTransGen (fun p q => source h p = some q) r r' →
      source h r = none → r = r' := by
    intro r r' hpath hnone
    rcases ReflTransGen.cases_head hpath with heq | ⟨q, hstep, -⟩
    · exact heq
    · rw [hnone] at hstep
      cases hstep
  rcases ReflTransGen.total_of_right_unique (source_rightUnique h) hr.1 hr'.1
    with hpath | hpath
  · exact hend hpath hr.2
  · exact (hend hpath hr'.2).symm

theorem BeginsWith.head (hstep : source h p = some q)
    (hr : BeginsWith h q r) : BeginsWith h p r :=
  ⟨hr.1.head hstep, hr.2⟩

/-- A stream that draws its id begins its lane. -/
theorem beginsWith_self {n : NodeId} (hp : p ∈ heads h n) :
    BeginsWith h p p := by
  refine ⟨.refl, ?_⟩
  simp only [heads, List.mem_append, List.mem_map] at hp
  rcases hp with ⟨m, hm, rfl⟩ | ⟨k, hk, rfl⟩
  · simp only [freeInputs, List.mem_filter, beq_iff_eq] at hm
    simp only [source, hm.2]
  · rw [leftoverOutputs, List.mem_range'_1] at hk
    rw [source, if_neg (by omega)]

end Lanes

/-! ## One node -/

section Node

variable {h : Heap} {n : NodeId} {outputIds : IdMap} {c : Nat} {s s' : NodeIds}

/-- One input: its pointer is there, and it draws an id if the pointer is
null. -/
theorem inputsDrawn_step {i : Nat} (hs : InputsDrawn h n c i s)
    (hrun : allocateInputID h (h n) outputIds s i = .ok s') :
    InputsDrawn h n c (i + 1) s' ∧ (h n).previousNodes[i]? ≠ none := by
  obtain ⟨pointer, id, availableIds, hpointer, hid, rfl⟩ :=
    (allocateInputID_eq_ok hs.length).mp hrun
  have hentry : (h n).previousNodes[i]? ≠ none := by simp [hpointer]
  refine ⟨?_, hentry⟩
  cases pointer with
  | none =>
      have hsucc := freeInputs_succ_free hpointer
      rw [inputID, hs.available] at hid
      rcases takeID_cases hs.bound with ⟨htake, hlt⟩ | ⟨htake, -⟩
      · rw [htake, Except.ok.injEq, Prod.mk.injEq] at hid
        obtain ⟨rfl, rfl⟩ := hid
        refine hs.push ?_ ?_ (fun _ => rfl) hentry
        · rw [hsucc, List.length_append]
          exact hlt
        · rw [hsucc, List.length_append]
          rfl
      · rw [htake] at hid
        cases hid
  | some a =>
      have hsucc := freeInputs_succ_fed hpointer
      simp only [inputID, bind_eq_ok, Except.ok.injEq, Prod.mk.injEq] at hid
      obtain ⟨-, -, -, -, -, rfl⟩ := hid
      refine hs.push ?_ ?_ ?_ hentry
      · rw [hsucc]
        exact hs.bound
      · rw [hsucc]
        exact hs.available
      · intro hnone
        rw [hpointer] at hnone
        cases hnone

/-- Both loops over a node. -/
theorem nodeDrawn_of_run (hc : c ≤ 16) (havailable :
      s.availableIds = (List.range 16).drop c) {first : NodeIds}
    (hinputs : allocateInputIDs h (h n) outputIds s.availableIds = .ok first)
    (hleftover : allocateLeftoverOutputIDs (h n) first = .ok s') :
    NodeDrawn h n c s' ∧
      (∀ m < (h n).inputDataDefinitionFiles.length,
        (h n).previousNodes[m]? ≠ none) ∧
      Inherited h (h n) outputIds (h n).inputDataDefinitionFiles.length
        s'.inputIds := by
  rw [havailable] at hinputs
  have hfirst := forRange_invariant (fun i (r : NodeIds) =>
    InputsDrawn h n c i r ∧ (∀ m < i, (h n).previousNodes[m]? ≠ none) ∧
      Inherited h (h n) outputIds i r.inputIds) _ ?_ ?_ hinputs
  · obtain ⟨hdrawn, hprevious, hinherited⟩ := hfirst
    rcases allocateLeftoverOutputIDs_cases (h := h) (n := n) hdrawn.bound
      hdrawn.available with ⟨hbound, hrest⟩ | ⟨hrest, -⟩
    · rw [hrest, Except.ok.injEq] at hleftover
      subst hleftover
      exact ⟨hdrawn.leftover hbound, hprevious, hinherited⟩
    · rw [hrest] at hleftover
      cases hleftover
  · refine ⟨⟨rfl, by simp, by simpa [freeInputs] using hc,
      by simp [freeInputs], by simp [freeInputs]⟩, by simp, ⟨rfl, by simp⟩⟩
  · rintro i r r' - ⟨hdrawn, hprevious, hinherited⟩ hbody
    obtain ⟨hstep, hentry⟩ := inputsDrawn_step hdrawn hbody
    refine ⟨hstep, ?_, hinherited.allocateInputID hbody⟩
    intro m hm
    rcases Nat.lt_succ_iff_lt_or_eq.mp hm with hm | rfl
    · exact hprevious m hm
    · exact hentry

end Node

/-! ## All nodes of a run -/

/-- The lanes of the streams of the nodes `done` begin with draws, and have
their ids. -/
structure Traced (h : Heap) (done : List NodeId) (s : StreamIds) : Prop where
  drawn : Drawn h done s
  traced : ∀ p : Port, p.Valid h done → ∃ r ∈ draws h done,
    BeginsWith h p r ∧ s.id h p = s.id h r

section Run

variable {h : Heap} {nodes done : List NodeId} {n : NodeId} {s : StreamIds}
  {ids : NodeIds}

theorem node_mem_of_valid {p : Port} (hp : p.Valid h done) : p.node ∈ done := by
  cases p with
  | input n m => exact hp.1
  | output n k => exact hp.1

theorem node_mem_of_mem_draws {r : Port} (hr : r ∈ draws h done) :
    r.node ∈ done := by
  obtain ⟨b, hb, hr⟩ := List.mem_flatMap.mp hr
  rwa [heads_node hr]

/-- One more node, behind the nodes whose ids its inputs take over. -/
theorem Traced.step (hs : Traced h done s)
    (hnew : ∀ b ∈ done, (h b).nodeName ≠ (h n).nodeName)
    (hproducers : ∀ a, some a ∈ (h n).previousNodes →
      ∀ b ∈ done, (h a).nodeName = (h b).nodeName → a = b)
    (hids : NodeDrawn h n (draws h done).length ids)
    (hprevious : ∀ m < (h n).inputDataDefinitionFiles.length,
      (h n).previousNodes[m]? ≠ none)
    (hinherited : Inherited h (h n) s.outputIds
      (h n).inputDataDefinitionFiles.length ids.inputIds) :
    Traced h (done ++ [n]) (s.push h n ids) := by
  obtain ⟨hinput, houtput, hkept⟩ := hs.drawn.push_id ids hnew
  have hold : ∀ p : Port, p.Valid h done → ∃ r ∈ draws h (done ++ [n]),
      BeginsWith h p r ∧
        (s.push h n ids).id h p = (s.push h n ids).id h r := by
    intro p hp
    obtain ⟨r, hr, hbegins, hid⟩ := hs.traced p hp
    refine ⟨r, ?_, hbegins, ?_⟩
    · rw [draws, List.flatMap_append]
      exact List.mem_append_left _ hr
    · rw [hkept p (node_mem_of_valid hp), hkept r (node_mem_of_mem_draws hr), hid]
  have hown : ∀ p ∈ heads h n, ∃ r ∈ draws h (done ++ [n]), BeginsWith h p r ∧
      (s.push h n ids).id h p = (s.push h n ids).id h r := by
    intro p hp
    refine ⟨p, ?_, beginsWith_self hp, rfl⟩
    rw [draws, List.flatMap_append]
    exact List.mem_append_right _ (by simpa using hp)
  have hinputs : ∀ m < (h n).inputDataDefinitionFiles.length,
      ∃ r ∈ draws h (done ++ [n]), BeginsWith h (.input n m) r ∧
        (s.push h n ids).id h (.input n m) = (s.push h n ids).id h r := by
    intro m hm
    obtain ⟨pointer, hpointer⟩ :=
      Option.ne_none_iff_exists'.mp (hprevious m hm)
    cases pointer with
    | none =>
        refine hown _ (List.mem_append_left _ (List.mem_map_of_mem ?_))
        simp [freeInputs, hm, hpointer]
    | some a =>
        obtain ⟨k, id, hfound, hout, hin⟩ := hinherited.inherited m hm a hpointer
        -- The producer has an id, so it is one of the nodes before.
        have ha : a ∈ done := by
          by_contra hnot
          rw [entry_eq_none (hs.drawn.fresh (h a).nodeName ?_).2] at hout
          · cases hout
          · intro b hb heq
            exact hnot (hproducers a (List.mem_of_getElem? hpointer) b hb heq ▸
              hb)
        obtain ⟨outs, houts, hlen⟩ := hs.drawn.outputs a ha
        have hk : k < (h a).outputDataDefinitionFiles.length := by
          rw [entry_eq houts] at hout
          rw [← hlen]
          exact (List.getElem?_eq_some_iff.mp hout).1
        obtain ⟨r, hr, hbegins, hid⟩ := hold (.output a k) ⟨ha, hk⟩
        refine ⟨r, hr, hbegins.head ?_, ?_⟩
        · simp only [source, hpointer, hfound]
        · rw [hinput, hin, ← hid, hkept (.output a k) ha]
          exact hout.symm
  refine ⟨hs.drawn.step hnew hids, ?_⟩
  intro p hp
  by_cases hmem : p.node ∈ done
  · refine hold p ?_
    cases p with
    | input b m => exact ⟨hmem, hp.2⟩
    | output b k => exact ⟨hmem, hp.2⟩
  · have hlast : p.node = n := by
      have hin := node_mem_of_valid hp
      rw [List.mem_append, List.mem_singleton] at hin
      exact hin.resolve_left hmem
    cases p with
    | input b m =>
        obtain rfl : b = n := hlast
        exact hinputs m hp.2
    | output b k =>
        obtain rfl : b = n := hlast
        by_cases hk : k < (h b).inputDataDefinitionFiles.length
        · obtain ⟨r, hr, hbegins, hid⟩ := hinputs k hk
          refine ⟨r, hr, hbegins.head (if_pos hk), ?_⟩
          rw [← hid, hinput, houtput]
          exact hids.passed k hk hp.2
        · refine hown _ (List.mem_append_right _ (List.mem_map_of_mem ?_))
          rw [leftoverOutputs, List.mem_range'_1]
          have hlt : k < (h b).outputDataDefinitionFiles.length := hp.2
          omega

/-- The whole allocation. -/
theorem traced_of_run {inputIds outputIds : IdMap}
    (hnames : (nodes.map fun n => (h n).nodeName).Nodup)
    (hprevious : ∀ n ∈ nodes, ∀ a, some a ∈ (h n).previousNodes → a ∈ nodes)
    (hrun : allocateStreamIDs h (createReferenceVector h nodes) ∅ ∅ =
      .ok (inputIds, outputIds)) :
    ∃ s : StreamIds, s.inputIds = inputIds ∧ s.outputIds = outputIds ∧
      Traced h nodes s := by
  obtain ⟨s, hloop, rfl, rfl⟩ := exists_streamIds hrun
  refine ⟨s, rfl, rfl, foldlM_invariant (Traced h) nodes ?_ ?_ hloop⟩
  · refine ⟨(Allocated.initial h).toDrawn, ?_⟩
    intro p hp
    exact absurd (node_mem_of_valid hp) List.not_mem_nil
  · intro before n after r r' hsplit hr hbody
    simp only [allocateNodeIDs, bind_eq_ok, Except.ok.injEq] at hbody
    obtain ⟨first, hinputs, last, hleftover, rfl⟩ := hbody
    obtain ⟨hids, hentry, hinherited⟩ := nodeDrawn_of_run
      (s := ⟨[], [], r.availableIds⟩) hr.drawn.bound hr.drawn.available hinputs
      hleftover
    have hinjective : ∀ a ∈ nodes, ∀ b ∈ nodes,
        (h a).nodeName = (h b).nodeName → a = b :=
      fun a ha b hb heq => List.inj_on_of_nodup_map hnames ha hb heq
    refine hr.step ?_ ?_ hids hentry hinherited
    · intro b hb heq
      rw [hsplit, List.map_append, List.nodup_append] at hnames
      exact hnames.2.2 _ (List.mem_map_of_mem hb) _ (by simp) heq
    · intro a ha b hb heq
      exact hinjective a (hprevious n (by simp [hsplit]) a ha) b
        (by simp [hsplit, hb]) heq

/-- The id of a stream is the number of the draw that its lane begins with. -/
theorem Traced.id_eq_some_iff (hs : Traced h nodes s) {p : Port}
    (hp : p.Valid h nodes) {i : Nat} : s.id h p = some i ↔
      ∃ r, (draws h nodes)[i]? = some r ∧ BeginsWith h p r := by
  obtain ⟨r, hr, hbegins, hid⟩ := hs.traced p hp
  obtain ⟨j, hj⟩ := List.mem_iff_getElem?.mp hr
  constructor
  · intro hi
    rw [hid, hs.drawn.head_id hj, Option.some.injEq] at hi
    exact ⟨r, hi ▸ hj, hbegins⟩
  · rintro ⟨r', hr', hbegins'⟩
    rw [hid, hbegins.unique hbegins', hs.drawn.head_id hr']

end Run

end Orkhestra.Ports.StreamDraws
