import Orkhestra.Ports.NodeScheduler
import Mathlib.Data.List.Perm.Basic
import Mathlib.Tactic.Linarith

/-!
# The schedule is a partition of the plan

The starting nodes are at every point exactly the nodes that are not scheduled
and whose producers all are (`Frontier`).  That is what one placement keeps,
and it gives the order, the absence of duplicates and, because an unscheduled
part of an acyclic plan has a minimal node, completeness.

The recursion of a run is measured by the nodes that are left and the starting
nodes that have not been tried since the last placement.
-/

namespace Orkhestra.Ports.SchedulePartition

open Orkhestra.Verified.Checked
open Orkhestra.Verified.Loop
open Orkhestra.Ports.QuerySchedulingData
open Orkhestra.Ports.NodeScheduler

/-! ## The frontier of a plan -/

/-- All producers of `n` are scheduled and `n` is not. -/
def Ready (P : Plan) (scheduled : List NodeId) (n : NodeId) : Prop :=
  n ∈ P.nodes ∧ n ∉ scheduled ∧ ∀ a, P.Edge a n → a ∈ scheduled

/-- Every node comes after all of its producers. -/
def Ordered (P : Plan) (scheduled : List NodeId) : Prop :=
  ∀ before n after, scheduled = before ++ n :: after →
    ∀ a, P.Edge a n → a ∈ before

/-- A producer-closed sequence of nodes and exactly the nodes that can follow
it. -/
structure Frontier (P : Plan) (scheduled starting : List NodeId) : Prop where
  nodup : scheduled.Nodup
  mem_nodes : ∀ n ∈ scheduled, n ∈ P.nodes
  ordered : Ordered P scheduled
  starting_nodup : starting.Nodup
  mem_starting : ∀ n, n ∈ starting ↔ Ready P scheduled n

variable {P : Plan}

theorem Frontier.initial (P : Plan) : Frontier P [] P.roots where
  nodup := List.nodup_nil
  mem_nodes := by simp
  ordered := by
    intro before n after h
    simp at h
  starting_nodup := P.roots_nodup
  mem_starting := by
    intro n
    rw [P.mem_roots]
    constructor
    · rintro ⟨hn, hroot⟩
      refine ⟨hn, List.not_mem_nil, ?_⟩
      intro a ha
      exact absurd ((Plan.edge_iff_previous hn).mp ha) (hroot a)
    · rintro ⟨hn, -, hall⟩
      refine ⟨hn, ?_⟩
      intro a ha
      exact absurd (hall a ((Plan.edge_iff_previous hn).mpr ha))
        List.not_mem_nil

theorem Ordered.mem_of_edge {scheduled : List NodeId} (h : Ordered P scheduled)
    {a n : NodeId} (hn : n ∈ scheduled) (ha : P.Edge a n) : a ∈ scheduled := by
  obtain ⟨before, after, rfl⟩ := List.append_of_mem hn
  exact List.mem_append_left _ (h before n after rfl a ha)

theorem Ordered.concat {scheduled : List NodeId} (h : Ordered P scheduled)
    {n : NodeId} (hn : ∀ a, P.Edge a n → a ∈ scheduled) :
    Ordered P (scheduled ++ [n]) := by
  intro before m after hsplit a ha
  rcases List.append_eq_append_iff.mp hsplit with
    ⟨rest, rfl, hrest⟩ | ⟨rest, rfl, hrest⟩
  · cases rest with
    | nil =>
        simp only [List.nil_append, List.cons.injEq] at hrest
        rw [List.append_nil]
        exact hn a (hrest.1 ▸ ha)
    | cons x rest =>
        simp only [List.cons_append, List.cons.injEq, List.append_eq_nil_iff,
          List.nil_eq, reduceCtorEq, and_false] at hrest
  · cases rest with
    | nil =>
        simp only [List.nil_append, List.cons.injEq] at hrest
        rw [List.append_nil] at hn
        exact hn a (hrest.1 ▸ ha)
    | cons x rest =>
        simp only [List.cons_append, List.cons.injEq] at hrest
        exact h before m rest (by rw [hrest.1]) a ha

/-- Scheduling a starting node and adding the nodes that become ready. -/
theorem Frontier.place {scheduled starting starting' : List NodeId}
    (h : Frontier P scheduled starting) {n : NodeId} (hn : n ∈ starting)
    (hnodup : starting'.Nodup)
    (hmem : ∀ m, m ∈ starting' ↔ m ≠ n ∧ (m ∈ starting ∨ P.Edge n m ∧
      ∀ a, P.Edge a m → a ∈ scheduled ++ [n])) :
    Frontier P (scheduled ++ [n]) starting' := by
  obtain ⟨hnode, hnew, hready⟩ := (h.mem_starting n).mp hn
  refine ⟨?_, ?_, h.ordered.concat hready, hnodup, ?_⟩
  · rw [← List.concat_eq_append]
    exact h.nodup.concat hnew
  · exact forall_mem_concat h.mem_nodes hnode
  · intro m
    rw [hmem]
    constructor
    · rintro ⟨hne, hm | ⟨hedge, hall⟩⟩
      · obtain ⟨hmnode, hmnew, hmready⟩ := (h.mem_starting m).mp hm
        refine ⟨hmnode, ?_, fun a ha => List.mem_append_left _ (hmready a ha)⟩
        simp [hmnew, hne]
      · refine ⟨hedge.right, ?_, hall⟩
        -- A scheduled consumer would have had `n` scheduled before it.
        intro hm
        rcases List.mem_append.mp hm with hm | hm
        · exact hnew (h.ordered.mem_of_edge hm hedge)
        · exact hne (List.mem_singleton.mp hm)
    · rintro ⟨hmnode, hmnew, hmready⟩
      have hne : m ≠ n := by
        rintro rfl
        exact hmnew (by simp)
      refine ⟨hne, ?_⟩
      by_cases hedge : P.Edge n m
      · exact .inr ⟨hedge, hmready⟩
      · refine .inl ((h.mem_starting m).mpr ⟨hmnode, ?_, ?_⟩)
        · intro hm
          exact hmnew (List.mem_append_left _ hm)
        · intro a ha
          rcases List.mem_append.mp (hmready a ha) with hm | hm
          · exact hm
          · rw [List.mem_singleton.mp hm] at ha
            exact absurd ha hedge

/-- When no node is ready, all of them are scheduled. -/
theorem Frontier.complete {scheduled : List NodeId}
    (h : Frontier P scheduled []) {n : NodeId} (hn : n ∈ P.nodes) :
    n ∈ scheduled := by
  by_contra hnew
  obtain ⟨m, hm, hmnew, hmin⟩ :=
    P.exists_minimal (fun n => n ∉ scheduled) hn hnew
  have hready : m ∈ ([] : List NodeId) :=
    (h.mem_starting m).mpr ⟨hm, hmnew, fun a ha => not_not.mp (hmin a ha)⟩
  exact absurd hready List.not_mem_nil

theorem Frontier.length_le {scheduled starting : List NodeId}
    (h : Frontier P scheduled starting) :
    scheduled.length ≤ P.nodes.length ∧ starting.length ≤ P.nodes.length := by
  constructor
  · exact (List.subperm_of_subset h.nodup h.mem_nodes).length_le
  · refine (List.subperm_of_subset h.starting_nodup ?_).length_le
    intro n hn
    exact ((h.mem_starting n).mp hn).1

/-! ## The nodes in the heap -/

/-- The heap of a schedule in progress: operations are those of the plan, and
nodes that are not scheduled still have the edges of the plan. -/
structure Tracks (P : Plan) (scheduled : List NodeId) (h : Heap) : Prop where
  nodeName : ∀ n, (h n).nodeName = (P.heap n).nodeName
  operationType : ∀ n, (h n).operationType = (P.heap n).operationType
  operationParameters : ∀ n,
    (h n).operationParameters = (P.heap n).operationParameters
  isChecked : ∀ n, (h n).isChecked = (P.heap n).isChecked
  nextNodes : ∀ n, n ∉ scheduled → (h n).nextNodes = (P.heap n).nextNodes
  previousNodes : ∀ n, n ∉ scheduled →
    (h n).previousNodes = (P.heap n).previousNodes

theorem Tracks.initial (P : Plan) : Tracks P [] P.heap := by
  constructor <;> simp

section Tracks

variable {scheduled : List NodeId} {h : Heap}

/-- Nodes of the plan that are equal as values are one node. -/
theorem Tracks.eq_of_value (ht : Tracks P scheduled h) {a b : NodeId}
    (ha : a ∈ P.nodes) (hb : b ∈ P.nodes) (heq : h a = h b) : a = b := by
  refine P.nameInjective a ha b hb ?_
  rw [← ht.nodeName a, ← ht.nodeName b, heq]

theorem Tracks.isNodeIncluded_iff (ht : Tracks P scheduled h)
    {pointers : List NodeId} (hp : ∀ m ∈ pointers, m ∈ P.nodes) {n : NodeId}
    (hn : n ∈ P.nodes) :
    isNodeIncluded (createReferenceVector h pointers) (h n) = true ↔
      n ∈ pointers := by
  simp only [isNodeIncluded, createReferenceVector, List.any_map,
    List.any_eq_true, Function.comp_apply, beq_iff_eq]
  constructor
  · rintro ⟨m, hm, heq⟩
    exact ht.eq_of_value (hp m hm) hn heq ▸ hm
  · intro hmem
    exact ⟨n, hmem, rfl⟩

theorem Tracks.edge_iff (ht : Tracks P scheduled h) {n m : NodeId}
    (hn : n ∈ P.nodes) (hnew : n ∉ scheduled) :
    P.Edge n m ↔ some m ∈ (h n).nextNodes := by
  rw [ht.nextNodes n hnew]
  exact ⟨fun hedge => hedge.2, fun hnext => ⟨hn, hnext⟩⟩

theorem Tracks.isNodeAvailable_iff (ht : Tracks P scheduled h)
    {pointers : List NodeId} (hp : ∀ m ∈ pointers, m ∈ P.nodes) {n : NodeId}
    (hn : n ∈ P.nodes) (hnew : n ∉ scheduled) :
    isNodeAvailable h (createReferenceVector h pointers) (h n) = true ↔
      ∀ a, P.Edge a n → a ∈ pointers := by
  rw [isNodeAvailable, ht.previousNodes n hnew, List.all_eq_true]
  constructor
  · intro hall a ha
    have hnode := hall (some a) ((Plan.edge_iff_previous hn).mp ha)
    exact (ht.isNodeIncluded_iff hp ha.left).mp hnode
  · intro hall pointer hpointer
    cases pointer with
    | none => rfl
    | some a =>
        have hedge := (Plan.edge_iff_previous hn).mpr hpointer
        exact (ht.isNodeIncluded_iff hp hedge.left).mpr (hall a hedge)

/-- The nodes added behind the starting nodes: those of `next` that were not
there and are available. -/
theorem Tracks.foldl_addStartingNode (ht : Tracks P scheduled h)
    {done starting : List NodeId} (hdone : ∀ m ∈ done, m ∈ P.nodes)
    (hnodup : starting.Nodup) (hstarting : ∀ m ∈ starting, m ∈ P.nodes)
    (next : List (Option NodeId))
    (hnext : ∀ m, some m ∈ next → m ∈ P.nodes ∧ m ∉ scheduled) :
    ∃ added, next.foldl (addStartingNode h done) starting =
        starting ++ added ∧ (starting ++ added).Nodup ∧
      ∀ m, m ∈ starting ++ added ↔ m ∈ starting ∨
        some m ∈ next ∧ ∀ a, P.Edge a m → a ∈ done := by
  induction next generalizing starting with
  | nil => exact ⟨[], by simp, by simpa using hnodup, by simp⟩
  | cons pointer next ih =>
      rw [List.foldl_cons]
      cases pointer with
      | none =>
          obtain ⟨added, hfold, hadded, hmem⟩ := ih hnodup hstarting
            fun m hm => hnext m (List.mem_cons_of_mem _ hm)
          refine ⟨added, hfold, hadded, ?_⟩
          intro m
          rw [hmem]
          simp
      | some n =>
          obtain ⟨hn, hnew⟩ := hnext n List.mem_cons_self
          have hincluded := ht.isNodeIncluded_iff hstarting hn
          have havailable := ht.isNodeAvailable_iff hdone hn hnew
          have hrest : ∀ m, some m ∈ next → m ∈ P.nodes ∧ m ∉ scheduled :=
            fun m hm => hnext m (List.mem_cons_of_mem _ hm)
          by_cases hadd : n ∉ starting ∧ ∀ a, P.Edge a n → a ∈ done
          · have hstep : addStartingNode h done starting (some n) =
                starting ++ [n] := by
              have hnot : isNodeIncluded (createReferenceVector h starting)
                  (h n) = false := by
                rw [Bool.eq_false_iff, ne_eq, hincluded]
                exact hadd.1
              rw [addStartingNode, hnot, havailable.mpr hadd.2]
              rfl
            obtain ⟨added, hfold, hadded, hmem⟩ := ih
              (show (starting ++ [n]).Nodup by
                rw [← List.concat_eq_append]
                exact hnodup.concat hadd.1)
              (forall_mem_concat hstarting hn) hrest
            rw [List.append_assoc] at hfold hadded hmem
            refine ⟨[n] ++ added, by rw [hstep, hfold], hadded, ?_⟩
            intro m
            rw [hmem, List.mem_append, List.mem_singleton, List.mem_cons,
              Option.some.injEq]
            constructor
            · rintro ((hm | rfl) | ⟨hm, hall⟩)
              · exact .inl hm
              · exact .inr ⟨.inl rfl, hadd.2⟩
              · exact .inr ⟨.inr hm, hall⟩
            · rintro (hm | ⟨rfl | hm, hall⟩)
              · exact .inl (.inl hm)
              · exact .inl (.inr rfl)
              · exact .inr ⟨hm, hall⟩
          · have hstep : addStartingNode h done starting (some n) =
                starting := by
              rw [addStartingNode, if_neg]
              simp only [Bool.and_eq_true, Bool.not_eq_true',
                Bool.eq_false_iff, ne_eq, hincluded, havailable]
              exact hadd
            obtain ⟨added, hfold, hadded, hmem⟩ := ih hnodup hstarting hrest
            refine ⟨added, by rw [hstep, hfold], hadded, ?_⟩
            intro m
            rw [hmem, List.mem_cons, Option.some.injEq]
            constructor
            · rintro (hm | ⟨hm, hall⟩)
              · exact .inl hm
              · exact .inr ⟨.inr hm, hall⟩
            · rintro (hm | ⟨rfl | hm, hall⟩)
              · exact .inl hm
              · by_contra hnot
                exact hadd ⟨fun hmem => hnot (.inl hmem), hall⟩
              · exact .inr ⟨hm, hall⟩

end Tracks

theorem mem_eraseIdx_iff {xs : List NodeId} (hnodup : xs.Nodup) {i : Nat}
    {n : NodeId} (hi : xs[i]? = some n) (m : NodeId) :
    m ∈ xs.eraseIdx i ↔ m ≠ n ∧ m ∈ xs := by
  obtain ⟨hlt, rfl⟩ := List.getElem?_eq_some_iff.mp hi
  rw [← hnodup.erase_getElem i hlt, hnodup.mem_erase_iff]

/-! ## One run -/

theorem Tracks.of_eq_but_location {scheduled : List NodeId} {h h' : Heap}
    (ht : Tracks P scheduled h)
    (heq : ∀ m, h' m = { h m with moduleLocation := (h' m).moduleLocation }) :
    Tracks P scheduled h' where
  nodeName n := by rw [heq n]; exact ht.nodeName n
  operationType n := by rw [heq n]; exact ht.operationType n
  operationParameters n := by rw [heq n]; exact ht.operationParameters n
  isChecked n := by rw [heq n]; exact ht.isChecked n
  nextNodes n hn := by rw [heq n]; exact ht.nextNodes n hn
  previousNodes n hn := by rw [heq n]; exact ht.previousNodes n hn

/-- Operation types of the nodes that need a module. -/
def moduleTypes (P : Plan) (nodes : List NodeId) : List QueryOperationType :=
  (nodes.map fun n => (P.heap n).operationType).filter (· ≠ .kPassThrough)

/-- A run that grows behind the nodes of the earlier runs.  Since its `start`
the heap has only changed in the locations of the nodes of the run. -/
structure Growing (P : Plan) (lib : AcceleratorLibrary) (start : Heap)
    (earlier : List NodeId) (s : SchedulerState) : Prop where
  tracks : Tracks P earlier s.heap
  located : ∀ n,
    s.heap n = { start n with moduleLocation := (s.heap n).moduleLocation }
  untouched : ∀ n, n ∉ s.currentQueryNodes → s.heap n = start n
  scheduled : s.scheduledQueries = earlier ++ s.currentQueryNodes
  frontier : Frontier P s.scheduledQueries s.startingNodes
  types : (s.currentModulesVector.map (·.operationType)).Perm
    (moduleTypes P s.currentQueryNodes)
  supported : s.currentModulesVector ≠ [] ∧
      isModuleSetSupported s.currentModulesVector lib = true ∨
    s.currentQueryNodes = [] ∧ s.currentModulesVector = []

section Run

variable {lib : AcceleratorLibrary} {start : Heap} {earlier : List NodeId}
  {s s' : SchedulerState}

/-- The node a call looks at has not been scheduled. -/
theorem Growing.current (h : Growing P lib start earlier s) {n : NodeId} {i : Nat}
    (hn : s.startingNodes[i]? = some n) :
    n ∈ P.nodes ∧ n ∉ s.scheduledQueries ∧ n ∉ earlier ∧
      n ∉ s.currentQueryNodes ∧ ∀ a, P.Edge a n → a ∈ s.scheduledQueries := by
  obtain ⟨hnode, hnew, hready⟩ :=
    (h.frontier.mem_starting n).mp (List.mem_of_getElem? hn)
  have hsplit := hnew
  rw [h.scheduled, List.mem_append, not_or] at hsplit
  exact ⟨hnode, hnew, hsplit.1, hsplit.2, hready⟩

/-- Nodes of a run are not in an earlier one. -/
theorem Growing.not_earlier (hs : Growing P lib start earlier s) {a : NodeId}
    (ha : a ∈ s.currentQueryNodes) : a ∉ earlier ∧ a ∈ P.nodes := by
  have hnodup := hs.frontier.nodup
  rw [hs.scheduled] at hnodup
  refine ⟨fun hmem => (List.nodup_append.mp hnodup).2.2 a hmem a ha rfl, ?_⟩
  refine hs.frontier.mem_nodes a ?_
  rw [hs.scheduled]
  exact List.mem_append_right _ ha

/-- Consumers of a node of the run are not in an earlier run. -/
theorem Growing.consumer_not_earlier (hs : Growing P lib start earlier s)
    (hearlier : Ordered P earlier) {a n : NodeId}
    (ha : a ∈ s.currentQueryNodes) (hedge : P.Edge a n) : n ∉ earlier :=
  fun hn => (hs.not_earlier ha).1 (hearlier.mem_of_edge hn hedge)

/-- The nodes of a run in progress still have their edges. -/
theorem Growing.next_of_mem (hs : Growing P lib start earlier s) {a : NodeId}
    (ha : a ∈ s.currentQueryNodes) :
    (s.heap a).nextNodes = (P.heap a).nextNodes :=
  hs.tracks.nextNodes a (hs.not_earlier ha).1

/-- Starting nodes after a placement. -/
theorem Growing.starting_place (h : Growing P lib start earlier s) {n : NodeId}
    (hn : s.startingNodes[s.previousNodeIndex]? = some n) {heap : Heap}
    (ht : Tracks P earlier heap) :
    ∃ added, (heap n).nextNodes.foldl
        (addStartingNode heap (s.scheduledQueries ++ [n])) s.startingNodes =
          s.startingNodes ++ added ∧
      (s.startingNodes ++ added).Nodup ∧
      ∀ m, m ∈ s.startingNodes ++ added ↔ m ∈ s.startingNodes ∨
        P.Edge n m ∧ ∀ a, P.Edge a m → a ∈ s.scheduledQueries ++ [n] := by
  obtain ⟨hnode, hnew, hearlier, -, -⟩ := h.current hn
  have hedge : ∀ m, P.Edge n m ↔ some m ∈ (heap n).nextNodes :=
    fun m => ht.edge_iff hnode hearlier
  obtain ⟨added, hfold, hnodup, hmem⟩ := ht.foldl_addStartingNode
    (show ∀ m ∈ s.scheduledQueries ++ [n], m ∈ P.nodes from
      forall_mem_concat h.frontier.mem_nodes hnode)
    h.frontier.starting_nodup
    (fun m hm => ((h.frontier.mem_starting m).mp hm).1)
    (heap n).nextNodes
    (by
      intro m hm
      have hnm := (hedge m).mpr hm
      refine ⟨hnm.right, ?_⟩
      intro hmem
      refine hnew (h.frontier.ordered.mem_of_edge ?_ hnm)
      rw [h.scheduled]
      exact List.mem_append_left _ hmem)
  refine ⟨added, hfold, hnodup, ?_⟩
  intro m
  rw [hmem, hedge]

theorem Growing.step (h : Growing P lib start earlier s) (hs : NodeStep lib s s') :
    Growing P lib start earlier s' := by
  cases hs with
  | skip n hn hsuitable =>
      exact ⟨h.tracks, h.located, h.untouched, h.scheduled, h.frontier, h.types,
        h.supported⟩
  | place n heap modules hn hne hsuitable =>
      have ht := h.tracks.of_eq_but_location hsuitable.eq_but_location
      obtain ⟨hnode, hnew, hearlier, -, -⟩ := h.current hn
      obtain ⟨added, hfold, hnodup, hmem⟩ := h.starting_place hn ht
      have hindex : (s.startingNodes ++ added)[s.previousNodeIndex]? =
          some n := by
        rw [List.getElem?_append_left (List.getElem?_eq_some_iff.mp hn).1, hn]
      refine ⟨ht, ?_, ?_, ?_, ?_, ?_, ?_⟩
      · intro m
        show heap m = _
        rw [hsuitable.eq_but_location m, h.located m]
        rfl
      · intro m hm
        simp only [SchedulerState.place, List.mem_append, List.mem_singleton,
          not_or] at hm
        show heap m = _
        rw [hsuitable.eq_of_ne hm.2, h.untouched m hm.1]
      · simp [SchedulerState.place, h.scheduled]
      · refine h.frontier.place (List.mem_of_getElem? hn) ?_ ?_
        · rw [SchedulerState.place, hfold]
          exact hnodup.eraseIdx _
        · intro m
          rw [SchedulerState.place, hfold, mem_eraseIdx_iff hnodup hindex,
            hmem]
      · have hsame := h.tracks.operationType n
        have htypes := h.types
        simp only [SchedulerState.place, moduleTypes, List.map_append,
          List.filter_append, List.map_cons, List.map_nil] at htypes ⊢
        cases hsuitable with
        | passed hpass =>
            rw [hsame] at hpass
            simpa [hpass] using htypes
        | notPlaced _ _ => exact absurd rfl hne
        | placed p q options params hop =>
            rw [hsame] at hop ⊢
            simp only [insertModule, List.map_append, List.map_cons]
            refine List.perm_middle.trans ?_
            rw [← List.map_append, List.take_append_drop]
            refine (htypes.cons _).trans ?_
            simp only [hop, ne_eq, not_false_eq_true, decide_true,
              List.filter_cons_of_pos, List.filter_nil]
            exact (List.perm_append_singleton _ _).symm
      · left
        refine ⟨hne, ?_⟩
        cases hsuitable with
        | passed _ =>
            rcases h.supported with hsupported | ⟨-, hnil⟩
            · exact hsupported.2
            · exact absurd hnil hne
        | notPlaced _ _ => exact absurd rfl hne
        | placed p q options params _ _ _ _ _ _ _ hsupported =>
            exact hsupported

/-! ### Termination of a run -/

/-- Nodes that are left, then starting nodes that have not been tried. -/
def runMeasure (P : Plan) (s : SchedulerState) : Nat :=
  (P.nodes.length - s.scheduledQueries.length) * (P.nodes.length + 1) +
    (P.nodes.length - s.previousNodeIndex)

theorem Growing.measure_lt (h : Growing P lib start earlier s)
    (hs : NodeStep lib s s') : runMeasure P s' < runMeasure P s := by
  have h' := h.step hs
  have hle := h'.frontier.length_le
  cases hs with
  | skip n hn hsuitable =>
      have hlt := (List.getElem?_eq_some_iff.mp hn).1
      simp only [runMeasure] at hle ⊢
      omega
  | place n heap modules hn hne hsuitable =>
      simp only [runMeasure, SchedulerState.place, List.length_append,
        List.length_singleton] at hle ⊢
      have hleft : P.nodes.length - s.scheduledQueries.length =
          (P.nodes.length - (s.scheduledQueries.length + 1)) + 1 := by omega
      rw [hleft, Nat.add_mul]
      omega

theorem runMeasure_le (P : Plan) (s : SchedulerState) :
    runMeasure P s < (P.nodes.length + 1) * (P.nodes.length + 1) := by
  have hle : (P.nodes.length - s.scheduledQueries.length) *
      (P.nodes.length + 1) ≤ P.nodes.length * (P.nodes.length + 1) :=
    Nat.mul_le_mul_right _ (Nat.sub_le _ _)
  have hsq : (P.nodes.length + 1) * (P.nodes.length + 1) =
      P.nodes.length * (P.nodes.length + 1) + (P.nodes.length + 1) := by
    rw [Nat.add_mul, Nat.one_mul]
  simp only [runMeasure]
  omega

end Run

/-! ### No function of a call runs out of fuel -/

theorem stops_findLocation (pointers : List (Option NodeId)) (n : NodeId) :
    Stops (findLocation pointers n) := by
  unfold findLocation
  split
  · exact stops_ok _
  · exact stops_error (by simp)

theorem stops_isProjectionOperationDefined (current previous : QueryNode)
    (i k : Nat) : Stops (isProjectionOperationDefined current previous i k) := by
  unfold isProjectionOperationDefined
  refine (stops_readAt _ _).bind fun outputs _ => ?_
  split
  · exact stops_ok _
  · exact (stops_readAt _ _).bind fun inputs _ => stops_ok _

theorem stops_findMinPosition (h : Heap) (n : NodeId) (nodes : List QueryNode)
    (modules : ConfigurableModulesVector) :
    Stops (findMinPosition h n nodes modules) := by
  suffices key : ∀ pointers i lowest,
      Stops (findMinPositionFrom h n nodes modules i pointers lowest) from
    key _ 0 0
  intro pointers
  induction pointers with
  | nil =>
      intro i lowest
      exact stops_ok _
  | cons pointer rest ih =>
      intro i lowest
      cases pointer with
      | none => exact ih _ _
      | some observed =>
          rw [findMinPositionFrom]
          split
          · refine (stops_findLocation _ _).bind fun k _ => ?_
            refine (stops_isProjectionOperationDefined _ _ _ _).bind ?_
            intro isProjected _
            split
            · exact stops_ok _
            · refine (stops_readAt _ _).bind fun isChecked _ => ?_
              split
              · exact stops_ok _
              · split
                · exact stops_error (by simp)
                · exact ih _ _
          · exact ih _ _

theorem stops_firstNonEmpty {α β : Type} {f : α → Outcome (List β)}
    (hf : ∀ x, Stops (f x)) (xs : List α) : Stops (firstNonEmpty f xs) := by
  induction xs with
  | nil => exact stops_ok _
  | cons x xs ih =>
      rw [firstNonEmpty]
      refine (hf x).bind fun r _ => ?_
      split
      · exact stops_ok _
      · exact ih

theorem stops_checkModuleParameterSupport (lib : AcceleratorLibrary)
    (op : QueryOperationType) (p : Nat) (modules : ConfigurableModulesVector)
    (options : List (List Int)) (i : Nat) (params : List Int) :
    Stops (checkModuleParameterSupport lib op p modules options i params) := by
  induction options generalizing i params with
  | nil => exact stops_error (by decide)
  | cons values rest ih =>
      rw [checkModuleParameterSupport]
      refine stops_firstNonEmpty (fun value => ?_) _
      refine (stops_writeAt _ _ _).bind fun params' _ => ?_
      split
      · exact stops_ok _
      · exact ih _ _

theorem stops_findModulePosition (lib : AcceleratorLibrary)
    (op : QueryOperationType) (modules : ConfigurableModulesVector)
    (options : List (List Int)) (count p : Nat) :
    Stops (findModulePosition lib op modules options count p) := by
  induction count generalizing p with
  | zero => exact stops_ok _
  | succ count ih =>
      rw [findModulePosition]
      refine Stops.bind ?_ fun r _ => ?_
      · unfold checkModulePosition
        dsimp only
        split
        · exact stops_checkModuleParameterSupport _ _ _ _ _ _ _
        · exact stops_ok _
      · split
        · exact stops_ok _
        · exact ih _

theorem stops_body (lib : AcceleratorLibrary) (s : SchedulerState) :
    Stops (checkNodeForModuleSetBody lib s) := by
  refine (stops_readAt _ _).bind fun n _ => Stops.bind ?_ fun r _ => ?_
  · unfold findSuitableModuleCombination
    split
    · exact stops_ok _
    · refine (stops_findMinPosition _ _ _ _).bind fun position _ => ?_
      split
      · exact stops_ok _
      · split
        · exact stops_error (by simp)
        · refine (stops_findModulePosition _ _ _ _ _ _).bind fun found _ => ?_
          split
          · exact stops_ok _
          · exact stops_ok _
  · dsimp only
    split
    · exact stops_ok _
    · exact stops_ok _

theorem stops_checkNextNode (nodes : List NodeId) (n : NodeId)
    (s : Heap × TargetMaps) (i : Nat) : Stops (checkNextNode nodes n s i) := by
  have hset : ∀ h m k file, Stops (setOutputFile h m k file) := fun h m k file =>
    (stops_writeAt _ _ _).bind fun _ _ => stops_ok _
  have hinput : ∀ h m k file, Stops (setInputFile h m k file) := fun h m k file =>
    (stops_writeAt _ _ _).bind fun _ _ => stops_ok _
  have hclear : ∀ h m k, Stops (clearNextNode h m k) := fun h m k =>
    (stops_writeAt _ _ _).bind fun _ _ => stops_ok _
  refine (stops_readAt _ _).bind fun next _ => ?_
  cases next with
  | none =>
      refine (stops_readAt _ _).bind fun file _ => ?_
      split
      · exact (hset _ _ _ _).bind fun _ _ => stops_ok _
      · exact stops_ok _
  | some next =>
      dsimp only
      split
      · refine (stops_findLocation _ _).bind fun location _ => ?_
        refine (stops_readAt _ _).bind fun file _ => ?_
        split
        · exact stops_ok _
        · split
          · exact (hset _ _ _ _).bind fun _ _ => (hinput _ _ _ _).bind
              fun _ _ => (hclear _ _ _).bind fun _ _ => stops_ok _
          · exact (hinput _ _ _ _).bind fun _ _ =>
              (hclear _ _ _).bind fun _ _ => stops_ok _
      · exact stops_ok _

theorem stops_checkExternalLinks (h : Heap) (nodes : List NodeId)
    (links : LinkedNodes) : Stops (checkExternalLinks h nodes links) := by
  refine stops_foldlM (fun s n => ?_) _ _
  exact (stops_foldlM (stops_checkNextNode nodes n) _ _).bind
    fun r _ => stops_ok _

/-- The restarts of a run come to an end. -/
theorem Growing.run_stops {lib : AcceleratorLibrary} {start : Heap}
    {earlier : List NodeId} {s : SchedulerState} (h : Growing P lib start earlier s) {fuel : Nat}
    (hfuel : (P.nodes.length + 1) * (P.nodes.length + 1) ≤ fuel) :
    Stops (checkNodeForModuleSet lib fuel s) := by
  refine iterate_stops (Growing P lib start earlier) (runMeasure P)
    (fun s _ => stops_body lib s) ?_ h
    (Nat.lt_of_lt_of_le (runMeasure_le P s) hfuel)
  intro s s' hs hbody
  have hstep := (body_again hbody).1
  exact ⟨hs.step hstep, hs.measure_lt hstep⟩

theorem Growing.run {lib : AcceleratorLibrary} {start : Heap}
    {earlier : List NodeId} {s s' : SchedulerState} (h : Growing P lib start earlier s) {fuel : Nat}
    (hrun : checkNodeForModuleSet lib fuel s = .ok s') :
    Growing P lib start earlier s' := by
  refine iterate_invariant (Growing P lib start earlier)
    (Growing P lib start earlier) ?_ ?_ h hrun
  · intro s s' hs hbody
    exact hs.step (body_again hbody).1
  · intro s s' hs hbody
    rcases body_done hbody with ⟨n, -, -, rfl⟩ | ⟨hstep, -⟩
    · exact hs
    · exact hs.step hstep

/-! ## The edges that leave a run -/

/-- What `CheckExternalLinks` can change: files and pointers of the nodes of the
run and the input files of other nodes. -/
structure LinksOnly (nodes : List NodeId) (h h' : Heap) : Prop where
  scheduled : ∀ n, h' n = { h n with
    inputDataDefinitionFiles := (h' n).inputDataDefinitionFiles
    outputDataDefinitionFiles := (h' n).outputDataDefinitionFiles
    nextNodes := (h' n).nextNodes
    previousNodes := (h' n).previousNodes }
  others : ∀ n, n ∉ nodes → h' n = { h n with
    inputDataDefinitionFiles := (h' n).inputDataDefinitionFiles }

section Links

variable {nodes : List NodeId} {h h' h'' : Heap} {n : NodeId}

theorem LinksOnly.refl (nodes : List NodeId) (h : Heap) :
    LinksOnly nodes h h := ⟨fun _ => rfl, fun _ _ => rfl⟩

theorem LinksOnly.trans (h₁ : LinksOnly nodes h h')
    (h₂ : LinksOnly nodes h' h'') : LinksOnly nodes h h'' := by
  constructor
  · intro n
    rw [h₂.scheduled n, h₁.scheduled n]
  · intro n hn
    rw [h₂.others n hn, h₁.others n hn]

theorem LinksOnly.setInputFile {i : Nat} {file : String}
    (hrun : setInputFile h n i file = .ok h') : LinksOnly nodes h h' := by
  simp only [NodeScheduler.setInputFile, bind_eq_ok, Except.ok.injEq] at hrun
  obtain ⟨files, -, rfl⟩ := hrun
  constructor
  · intro m
    by_cases hm : m = n
    · subst hm
      simp
    · simp [hm]
  · intro m _
    by_cases hm : m = n
    · subst hm
      simp
    · simp [hm]

theorem LinksOnly.setOutputFile {i : Nat} {file : String} (hn : n ∈ nodes)
    (hrun : setOutputFile h n i file = .ok h') : LinksOnly nodes h h' := by
  simp only [NodeScheduler.setOutputFile, bind_eq_ok, Except.ok.injEq] at hrun
  obtain ⟨files, -, rfl⟩ := hrun
  constructor
  · intro m
    by_cases hm : m = n
    · subst hm
      simp
    · simp [hm]
  · intro m hm
    have hne : m ≠ n := fun heq => hm (heq ▸ hn)
    simp [hne]

theorem LinksOnly.clearNextNode {i : Nat} (hn : n ∈ nodes)
    (hrun : clearNextNode h n i = .ok h') : LinksOnly nodes h h' := by
  simp only [NodeScheduler.clearNextNode, bind_eq_ok, Except.ok.injEq] at hrun
  obtain ⟨next, -, rfl⟩ := hrun
  constructor
  · intro m
    by_cases hm : m = n
    · subst hm
      simp
    · simp [hm]
  · intro m hm
    have hne : m ≠ n := fun heq => hm (heq ▸ hn)
    simp [hne]

theorem LinksOnly.clearPreviousNodes (hn : n ∈ nodes) :
    LinksOnly nodes h (h.modify n (clearPreviousNodes nodes)) := by
  constructor
  · intro m
    by_cases hm : m = n
    · subst hm
      simp [NodeScheduler.clearPreviousNodes]
    · simp [hm]
  · intro m hm
    have hne : m ≠ n := fun heq => hm (heq ▸ hn)
    simp [hne]

theorem LinksOnly.checkNextNode {s s' : Heap × TargetMaps} {i : Nat}
    (hn : n ∈ nodes) (hrun : checkNextNode nodes n s i = .ok s') :
    LinksOnly nodes s.1 s'.1 := by
  rw [NodeScheduler.checkNextNode, bind_eq_ok] at hrun
  obtain ⟨next, -, hrun⟩ := hrun
  cases next with
  | none =>
      simp only [bind_eq_ok] at hrun
      obtain ⟨file, -, hrun⟩ := hrun
      split at hrun
      · obtain ⟨h', hh', hrun⟩ := bind_eq_ok.mp hrun
        rw [Except.ok.injEq] at hrun
        subst hrun
        exact .setOutputFile hn hh'
      · rw [Except.ok.injEq] at hrun
        subst hrun
        exact .refl _ _
  | some next =>
      simp only at hrun
      split at hrun
      · obtain ⟨location, -, hrun⟩ := bind_eq_ok.mp hrun
        obtain ⟨file, -, hrun⟩ := bind_eq_ok.mp hrun
        split at hrun
        · rw [Except.ok.injEq] at hrun
          subst hrun
          exact .refl _ _
        · split at hrun
          · obtain ⟨h₁, hh₁, hrun⟩ := bind_eq_ok.mp hrun
            obtain ⟨h₂, hh₂, hrun⟩ := bind_eq_ok.mp hrun
            obtain ⟨h₃, hh₃, hrun⟩ := bind_eq_ok.mp hrun
            rw [Except.ok.injEq] at hrun
            subst hrun
            exact ((LinksOnly.setOutputFile hn hh₁).trans
              (.setInputFile hh₂)).trans (.clearNextNode hn hh₃)
          · obtain ⟨h₂, hh₂, hrun⟩ := bind_eq_ok.mp hrun
            obtain ⟨h₃, hh₃, hrun⟩ := bind_eq_ok.mp hrun
            rw [Except.ok.injEq] at hrun
            subst hrun
            exact (LinksOnly.setInputFile hh₂).trans (.clearNextNode hn hh₃)
      · rw [Except.ok.injEq] at hrun
        subst hrun
        exact .refl _ _

theorem LinksOnly.checkExternalLinks {links links' : LinkedNodes}
    (hrun : checkExternalLinks h nodes links = .ok (h', links')) :
    LinksOnly nodes h h' := by
  refine foldlM_invariant (fun _ s => LinksOnly nodes h s.1) nodes
    (LinksOnly.refl nodes h) ?_ hrun
  intro before n after s s' hsplit hs hbody
  have hn : n ∈ nodes := by simp [hsplit]
  simp only [checkExternalLinksOf, bind_eq_ok, Except.ok.injEq] at hbody
  obtain ⟨⟨h₁, targets⟩, hnext, rfl⟩ := hbody
  have hlinks := foldlM_invariant (fun _ t => LinksOnly nodes s.1 t.1) _
    (LinksOnly.refl nodes s.1)
    (fun _ i _ t t' _ ht hstep => ht.trans (.checkNextNode hn hstep)) hnext
  exact (hs.trans hlinks).trans (.clearPreviousNodes hn)

/-- The nodes that are left are still those of the plan. -/
theorem Tracks.links {earlier : List NodeId} (ht : Tracks P earlier h)
    (hl : LinksOnly nodes h h') : Tracks P (earlier ++ nodes) h' where
  nodeName n := by rw [hl.scheduled n]; exact ht.nodeName n
  operationType n := by rw [hl.scheduled n]; exact ht.operationType n
  operationParameters n := by
    rw [hl.scheduled n]
    exact ht.operationParameters n
  isChecked n := by rw [hl.scheduled n]; exact ht.isChecked n
  nextNodes n hn := by
    rw [List.mem_append, not_or] at hn
    rw [hl.others n hn.2]
    exact ht.nextNodes n hn.1
  previousNodes n hn := by
    rw [List.mem_append, not_or] at hn
    rw [hl.others n hn.2]
    exact ht.previousNodes n hn.1

end Links

/-! ## All runs -/

/-- Modules and nodes of one run belong together. -/
structure ValidRun (P : Plan) (lib : AcceleratorLibrary) (run : QueryNodeRun) :
    Prop where
  nonempty : run.2 ≠ []
  supported : isModuleSetSupported run.1 lib = true
  types : (run.1.map (·.operationType)).Perm (moduleTypes P run.2)

/-- Nodes of all runs, in order. -/
def runNodes (runs : List QueryNodeRun) : List NodeId := runs.flatMap (·.2)

/-- The runs that have been found so far. -/
structure Scheduled (P : Plan) (lib : AcceleratorLibrary) (o : RunsState) :
    Prop where
  tracks : Tracks P o.scheduledQueries o.heap
  frontier : Frontier P o.scheduledQueries o.startingNodes
  runs : o.scheduledQueries = runNodes o.queryNodeRunsQueue
  valid : ∀ run ∈ o.queryNodeRunsQueue, ValidRun P lib run

theorem Scheduled.initial (P : Plan) (lib : AcceleratorLibrary)
    (links : LinkedNodes) :
    Scheduled P lib (RunsState.initial P.heap P.roots links) :=
  ⟨.initial P, .initial P, rfl, by simp [RunsState.initial]⟩

section Outer

variable {lib : AcceleratorLibrary} {fuel : Nat} {o o' : RunsState}

theorem Scheduled.firstCall (h : Scheduled P lib o) :
    Growing P lib o.heap o.scheduledQueries o.firstCall where
  tracks := h.tracks
  located := fun _ => rfl
  untouched := fun _ _ => rfl
  scheduled := (List.append_nil _).symm
  frontier := h.frontier
  types := .nil
  supported := .inr ⟨rfl, rfl⟩

/-- The parts of an iteration that finds a run. -/
theorem findNextRun_again (h : findNextRun lib fuel o = .ok (.again o')) :
    o.startingNodes ≠ [] ∧ ∃ s heap links,
      checkNodeForModuleSet lib fuel o.firstCall = .ok s ∧
      s.currentQueryNodes ≠ [] ∧
      checkExternalLinks s.heap s.currentQueryNodes o.linkedNodes =
        .ok (heap, links) ∧
      o' = ⟨heap, s.startingNodes, s.scheduledQueries, links,
        o.queryNodeRunsQueue ++
          [(s.currentModulesVector, s.currentQueryNodes)]⟩ := by
  rw [findNextRun] at h
  split at h
  · cases h
  · next hmore =>
      refine ⟨hmore, ?_⟩
      obtain ⟨s, hs, h⟩ := bind_eq_ok.mp h
      split at h
      · cases h
      · next hne =>
          obtain ⟨⟨heap, links⟩, hlinks, h⟩ := bind_eq_ok.mp h
          cases h
          exact ⟨s, heap, links, hs, hne, hlinks, rfl⟩

theorem findNextRun_done (h : findNextRun lib fuel o = .ok (.done o')) :
    o.startingNodes = [] ∧ o' = o := by
  rw [findNextRun] at h
  split at h
  · next hnil =>
      cases h
      exact ⟨hnil, rfl⟩
  · obtain ⟨s, hs, h⟩ := bind_eq_ok.mp h
    split at h
    · cases h
    · obtain ⟨r, hlinks, h⟩ := bind_eq_ok.mp h
      cases h

theorem Scheduled.run_of_step (h : Scheduled P lib o)
    (hs : findNextRun lib fuel o = .ok (.again o')) :
    ∃ s, checkNodeForModuleSet lib fuel o.firstCall = .ok s ∧
      Growing P lib o.heap o.scheduledQueries s ∧
      s.currentQueryNodes ≠ [] ∧
      checkExternalLinks s.heap s.currentQueryNodes o.linkedNodes =
        .ok (o'.heap, o'.linkedNodes) ∧
      o'.startingNodes = s.startingNodes ∧
      o'.scheduledQueries = s.scheduledQueries ∧
      o'.queryNodeRunsQueue = o.queryNodeRunsQueue ++
        [(s.currentModulesVector, s.currentQueryNodes)] := by
  obtain ⟨-, s, heap, links, hrun, hne, hlinks, rfl⟩ := findNextRun_again hs
  exact ⟨s, hrun, h.firstCall.run hrun, hne, hlinks, rfl, rfl, rfl⟩

theorem Scheduled.step (h : Scheduled P lib o)
    (hs : findNextRun lib fuel o = .ok (.again o')) :
    Scheduled P lib o' ∧
      o.scheduledQueries.length < o'.scheduledQueries.length := by
  obtain ⟨s, hrun, hgrown, hne, hlinks, hstarting, hscheduled, hqueue⟩ :=
    h.run_of_step hs
  have hsplit := hgrown.scheduled
  refine ⟨⟨?_, ?_, ?_, ?_⟩, ?_⟩
  · have htracks := hgrown.tracks.links (LinksOnly.checkExternalLinks hlinks)
    rwa [← hsplit, ← hscheduled] at htracks
  · rw [hscheduled, hstarting]
    exact hgrown.frontier
  · rw [hscheduled, hqueue, hsplit, h.runs]
    simp [runNodes]
  · rw [hqueue]
    refine forall_mem_concat h.valid ⟨hne, ?_, hgrown.types⟩
    rcases hgrown.supported with hsupported | hempty
    · exact hsupported.2
    · exact absurd hempty.1 hne
  · rw [hscheduled, hsplit, List.length_append]
    have := List.length_pos_of_ne_nil hne
    omega

theorem scheduled_of_run {links : LinkedNodes}
    (hrun : findAcceleratedQueryNodeSets lib fuel P.heap P.roots links =
      .ok o) : Scheduled P lib o ∧ o.startingNodes = [] := by
  refine iterate_invariant (Scheduled P lib)
    (fun o => Scheduled P lib o ∧ o.startingNodes = []) ?_ ?_
    (Scheduled.initial P lib links) hrun
  · intro o o' ho hbody
    exact (ho.step hbody).1
  · intro o o' ho hbody
    obtain ⟨hnil, rfl⟩ := findNextRun_done hbody
    exact ⟨ho, hnil⟩

end Outer

/-! ## Properties of finished runs

A property of the runs is settled run by run: later runs do not move the modules
of earlier ones.  `schedulingCalls` are the calls of `CheckNodeForModuleSet` in
the order in which they are made.
-/

def schedulingCalls (lib : AcceleratorLibrary) (fuel : Nat) (o : RunsState) :
    List SchedulerState :=
  (visited (findNextRun lib fuel) fuel o).flatMap fun o =>
    if o.startingNodes = [] then []
    else visited (checkNodeForModuleSetBody lib) fuel o.firstCall

section Calls

variable {lib : AcceleratorLibrary} {fuel : Nat} {o : RunsState}
  {links : LinkedNodes}

/-- Every call finds a run that grows. -/
theorem growing_of_mem_schedulingCalls {t : SchedulerState}
    (ht : t ∈ schedulingCalls lib fuel
      (RunsState.initial P.heap P.roots links)) :
    ∃ start earlier, Growing P lib start earlier t := by
  obtain ⟨o, ho, ht⟩ := List.mem_flatMap.mp ht
  have hscheduled : Scheduled P lib o := by
    refine visited_invariant (Scheduled P lib) ?_
      (Scheduled.initial P lib links) o ho
    intro o o' ho hbody
    exact (ho.step hbody).1
  split at ht
  · exact absurd ht List.not_mem_nil
  · refine ⟨o.heap, o.scheduledQueries, ?_⟩
    refine visited_invariant (Growing P lib o.heap o.scheduledQueries) ?_
      hscheduled.firstCall t ht
    intro s s' hs hbody
    exact hs.step (body_again hbody).1

/-- An iteration does not move the modules of earlier runs. -/
theorem Scheduled.location_of_step {o o' : RunsState} (h : Scheduled P lib o)
    (hs : findNextRun lib fuel o = .ok (.again o')) {n : NodeId}
    (hn : n ∈ o.scheduledQueries) :
    (o'.heap n).moduleLocation = (o.heap n).moduleLocation := by
  obtain ⟨s, -, hgrown, -, hlinks, -⟩ := h.run_of_step hs
  have hnew : n ∉ s.currentQueryNodes := by
    have hnodup := hgrown.frontier.nodup
    rw [hgrown.scheduled] at hnodup
    exact fun hmem => (List.nodup_append.mp hnodup).2.2 n hn n hmem rfl
  rw [(LinksOnly.checkExternalLinks hlinks).scheduled n,
    hgrown.untouched n hnew]

/-- If a run has a property of its modules and locations exactly when all of
its calls meet a condition, then so do all runs together. -/
theorem runs_good_iff (good : Heap → QueryNodeRun → Prop)
    (cond : SchedulerState → Prop)
    (hlocation : ∀ h h' run,
      (∀ n ∈ run.2, (h n).moduleLocation = (h' n).moduleLocation) →
      good h run → good h' run)
    (hcalls : ∀ o s, Scheduled P lib o →
      checkNodeForModuleSet lib fuel o.firstCall = .ok s →
      (good s.heap (s.currentModulesVector, s.currentQueryNodes) ↔
        ∀ t ∈ visited (checkNodeForModuleSetBody lib) fuel o.firstCall,
          cond t))
    (hrun : findAcceleratedQueryNodeSets lib fuel P.heap P.roots links =
      .ok o) :
    (∀ run ∈ o.queryNodeRunsQueue, good o.heap run) ↔
      ∀ t ∈ schedulingCalls lib fuel
        (RunsState.initial P.heap P.roots links), cond t := by
  let condOfRun : RunsState → Prop := fun o =>
    ∀ t ∈ if o.startingNodes = [] then []
      else visited (checkNodeForModuleSetBody lib) fuel o.firstCall, cond t
  let inv : RunsState → Prop := fun o =>
    Scheduled P lib o ∧ ∀ run ∈ o.queryNodeRunsQueue, good o.heap run
  let bad : RunsState → Prop := fun o =>
    Scheduled P lib o ∧ ∃ run ∈ o.queryNodeRunsQueue, ¬good o.heap run
  -- The runs that are in the queue keep or lack the property.
  have hkeep : ∀ o o', Scheduled P lib o →
      findNextRun lib fuel o = .ok (.again o') →
      ∀ run ∈ o.queryNodeRunsQueue, (good o.heap run ↔ good o'.heap run) := by
    intro o o' ho hbody run hmem
    have hsame : ∀ n ∈ run.2,
        (o'.heap n).moduleLocation = (o.heap n).moduleLocation := by
      intro n hn
      refine ho.location_of_step hbody ?_
      rw [ho.runs]
      exact List.mem_flatMap.mpr ⟨run, hmem, hn⟩
    exact ⟨hlocation _ _ run fun n hn => (hsame n hn).symm,
      hlocation _ _ run hsame⟩
  have hnew : ∀ o o', Scheduled P lib o →
      findNextRun lib fuel o = .ok (.again o') →
      ∃ run, o'.queryNodeRunsQueue = o.queryNodeRunsQueue ++ [run] ∧
        (good o'.heap run ↔ condOfRun o) := by
    intro o o' ho hbody
    obtain ⟨s, hs, hgrown, -, hlinks, -, -, hqueue⟩ := ho.run_of_step hbody
    refine ⟨_, hqueue, ?_⟩
    have hmore := (findNextRun_again hbody).1
    have hsame : ∀ n, (o'.heap n).moduleLocation =
        (s.heap n).moduleLocation := by
      intro n
      rw [(LinksOnly.checkExternalLinks hlinks).scheduled n]
    show good o'.heap _ ↔ ∀ t ∈ if o.startingNodes = [] then [] else _, cond t
    rw [if_neg hmore, ← hcalls o s ho hs]
    exact ⟨hlocation _ _ _ fun n _ => hsame n,
      hlocation _ _ _ fun n _ => (hsame n).symm⟩
  have key := iterate_good_iff inv bad condOfRun
    (fun o => ∀ run ∈ o.queryNodeRunsQueue, good o.heap run) ?_ ?_ ?_ ?_
    (s := RunsState.initial P.heap P.roots links)
    ⟨Scheduled.initial P lib links, by simp [RunsState.initial]⟩ hrun
  · rw [key]
    simp only [schedulingCalls, List.mem_flatMap, forall_exists_index, and_imp]
    exact ⟨fun h t o ho ht => h o ho t ht, fun h o ho t ht => h t o ho ht⟩
  · intro o o' ho hbody
    obtain ⟨run, hqueue, hrun⟩ := hnew o o' ho.1 hbody
    refine ⟨fun hcond => ⟨(ho.1.step hbody).1, ?_⟩,
      fun hcond => ⟨(ho.1.step hbody).1, run, by simp [hqueue], ?_⟩⟩
    · rw [hqueue]
      exact forall_mem_concat
        (fun run' hmem => (hkeep o o' ho.1 hbody run' hmem).mp (ho.2 run' hmem))
        (hrun.mpr hcond)
    · exact mt hrun.mp hcond
  · intro o o' ho hbody
    obtain ⟨hnil, rfl⟩ := findNextRun_done hbody
    refine ⟨fun _ => ?_, fun _ => ho.2⟩
    show ∀ t ∈ if o'.startingNodes = [] then [] else _, cond t
    rw [if_pos hnil]
    simp
  · intro o o' ho hbody
    obtain ⟨hscheduled, run, hmem, hbad⟩ := ho
    obtain ⟨run', hqueue, -⟩ := hnew o o' hscheduled hbody
    refine ⟨(hscheduled.step hbody).1, run, ?_, ?_⟩
    · rw [hqueue]
      exact List.mem_append_left _ hmem
    · exact mt (hkeep o o' hscheduled hbody run hmem).mpr hbad
  · intro o o' ho hbody
    obtain ⟨-, rfl⟩ := findNextRun_done hbody
    obtain ⟨-, run, hmem, hbad⟩ := ho
    exact fun hall => hbad (hall run hmem)

/-- The rule for a property of one run: `strong` is kept by the calls that meet
the condition, `bad` holds from the first one on that does not. -/
theorem calls_good_iff (strong bad good : Heap → QueryNodeRun → Prop)
    (cond : SchedulerState → Prop) {start : Heap}
    {earlier : List NodeId} {s r : SchedulerState}
    (hgood : ∀ h run, strong h run → good h run)
    (hbad : ∀ h run, bad h run → ¬good h run)
    (hskip : ∀ s n, Growing P lib start earlier s →
      s.startingNodes[s.previousNodeIndex]? = some n →
      Suitable lib s.heap n (createReferenceVector s.heap s.currentQueryNodes)
        s.currentModulesVector s.heap [] → cond s)
    (hplace : ∀ s n h modules, Growing P lib start earlier s →
      s.startingNodes[s.previousNodeIndex]? = some n →
      Suitable lib s.heap n (createReferenceVector s.heap s.currentQueryNodes)
        s.currentModulesVector h modules → modules ≠ [] →
      strong s.heap (s.currentModulesVector, s.currentQueryNodes) →
      (cond s → strong h (modules, s.currentQueryNodes ++ [n])) ∧
        (¬cond s → bad h (modules, s.currentQueryNodes ++ [n])))
    (hkeep : ∀ s n h modules, Growing P lib start earlier s →
      s.startingNodes[s.previousNodeIndex]? = some n →
      Suitable lib s.heap n (createReferenceVector s.heap s.currentQueryNodes)
        s.currentModulesVector h modules →
      bad s.heap (s.currentModulesVector, s.currentQueryNodes) →
      bad h (modules, s.currentQueryNodes ++ [n]))
    (hgrowing : Growing P lib start earlier s)
    (hstart : strong s.heap (s.currentModulesVector, s.currentQueryNodes))
    (hrun : checkNodeForModuleSet lib fuel s = .ok r) :
    good r.heap (r.currentModulesVector, r.currentQueryNodes) ↔
      ∀ t ∈ visited (checkNodeForModuleSetBody lib) fuel s, cond t := by
  let holds : (Heap → QueryNodeRun → Prop) → SchedulerState → Prop :=
    fun p s => p s.heap (s.currentModulesVector, s.currentQueryNodes)
  have hstep : ∀ s s', Growing P lib start earlier s → NodeStep lib s s' →
      holds strong s → (cond s → holds strong s') ∧
        (¬cond s → holds bad s') := by
    intro s s' hs hstep hstrong
    cases hstep with
    | skip n hn hsuitable =>
        exact ⟨fun _ => hstrong,
          fun hnot => absurd (hskip s n hs hn hsuitable) hnot⟩
    | place n h modules hn hne hsuitable =>
        exact hplace s n h modules hs hn hsuitable hne hstrong
  have hstay : ∀ s s', Growing P lib start earlier s → NodeStep lib s s' →
      holds bad s → holds bad s' := by
    intro s s' hs hstep hsbad
    cases hstep with
    | skip n hn hsuitable => exact hsbad
    | place n h modules hn hne hsuitable =>
        exact hkeep s n h modules hs hn hsuitable hsbad
  refine iterate_good_iff
    (fun s => Growing P lib start earlier s ∧ holds strong s)
    (fun s => Growing P lib start earlier s ∧ holds bad s) cond (holds good)
    ?_ ?_ ?_ ?_ ⟨hgrowing, hstart⟩ hrun
  · intro s s' hs hbody
    have hnode := (body_again hbody).1
    obtain ⟨hif, helse⟩ := hstep s s' hs.1 hnode hs.2
    exact ⟨fun hc => ⟨hs.1.step hnode, hif hc⟩,
      fun hc => ⟨hs.1.step hnode, helse hc⟩⟩
  · intro s s' hs hbody
    rcases body_done hbody with ⟨n, hn, hsuitable, rfl⟩ | ⟨hnode, -⟩
    · exact ⟨fun _ => hskip _ n hs.1 hn hsuitable, fun _ => hgood _ _ hs.2⟩
    · obtain ⟨hif, helse⟩ := hstep s s' hs.1 hnode hs.2
      constructor
      · intro hg
        by_contra hc
        exact hbad _ _ (helse hc) hg
      · intro hc
        exact hgood _ _ (hif hc)
  · intro s s' hs hbody
    have hnode := (body_again hbody).1
    exact ⟨hs.1.step hnode, hstay s s' hs.1 hnode hs.2⟩
  · intro s s' hs hbody
    rcases body_done hbody with ⟨n, -, -, rfl⟩ | ⟨hnode, -⟩
    · exact hbad _ _ hs.2
    · exact hbad _ _ (hstay s s' hs.1 hnode hs.2)

end Calls

/-! ## The partition -/

/-- `a` is in an earlier run than `b`, or before `b` in the same run. -/
def Precedes (runs : List QueryNodeRun) (a b : NodeId) : Prop :=
  (∃ before run after, runs = before ++ run :: after ∧
    a ∈ runNodes before ∧ b ∈ run.2) ∨
  ∃ run ∈ runs, ∃ before after, run.2 = before ++ b :: after ∧ a ∈ before

theorem precedes_of_split {runs : List QueryNodeRun} {a b : NodeId}
    {before after : List NodeId} (hsplit : runNodes runs = before ++ b :: after)
    (ha : a ∈ before) : Precedes runs a b := by
  suffices key : ∀ earlier rest, runs = earlier ++ rest →
      ∀ before, runNodes rest = before ++ b :: after →
        a ∈ runNodes earlier ++ before → Precedes runs a b from
    key [] runs rfl before hsplit ha
  intro earlier rest
  induction rest generalizing earlier with
  | nil =>
      intro _ before hrest
      simp [runNodes] at hrest
  | cons run rest ih =>
      intro hruns before hrest ha
      have hcons : runNodes (run :: rest) = run.2 ++ runNodes rest := rfl
      have hsnoc : runNodes (earlier ++ [run]) = runNodes earlier ++ run.2 := by
        simp [runNodes]
      rw [hcons] at hrest
      rcases List.append_eq_append_iff.mp hrest with
        ⟨tail, rfl, htail⟩ | ⟨tail, hrun, htail⟩
      · refine ih (earlier ++ [run]) (by simpa using hruns) tail htail ?_
        rwa [hsnoc, List.append_assoc]
      · cases tail with
        | nil =>
            refine ih (earlier ++ [run]) (by simpa using hruns) [] ?_ ?_
            · simpa using htail.symm
            · rw [List.append_nil] at hrun
              rwa [List.append_nil, hsnoc, hrun]
        | cons x tail =>
            simp only [List.cons_append, List.cons.injEq] at htail
            obtain ⟨rfl, -⟩ := htail
            rcases List.mem_append.mp ha with ha | ha
            · exact .inl ⟨earlier, run, rest, hruns, ha, by simp [hrun]⟩
            · exact .inr ⟨run, by simp [hruns], before, tail, hrun, ha⟩

/-- A schedule that is returned is a partition of the nodes reachable from the
roots into nonempty, supported runs, in an order that respects the edges; and
with fuel quadratic in the plan the scheduler always stops. -/
theorem schedule_partitions_plan (P : Plan) (lib : AcceleratorLibrary)
    (links : LinkedNodes) :
    (∀ fuel, (P.nodes.length + 1) * (P.nodes.length + 1) ≤ fuel →
      findAcceleratedQueryNodeSets lib fuel P.heap P.roots links ≠
        .error .outOfFuel) ∧
    ∀ fuel o,
      findAcceleratedQueryNodeSets lib fuel P.heap P.roots links = .ok o →
      (∀ n, P.Reachable n →
        (runNodes o.queryNodeRunsQueue).count n = 1) ∧
      (∀ n ∈ runNodes o.queryNodeRunsQueue, n ∈ P.nodes) ∧
      (∀ a b, P.Edge a b → Precedes o.queryNodeRunsQueue a b) ∧
      ∀ run ∈ o.queryNodeRunsQueue, run.2 ≠ [] ∧
        run.1 ∈ lib.supportedAcceleratorBitstreams.map Prod.fst ∧
        (run.1.map (·.operationType)).Perm
          ((run.2.map fun n => (P.heap n).operationType).filter
            (· ≠ .kPassThrough)) := by
  refine ⟨?_, ?_⟩
  · intro fuel hfuel
    refine iterate_stops (Scheduled P lib)
      (fun o => P.nodes.length - o.scheduledQueries.length) ?_ ?_
      (Scheduled.initial P lib links) ?_
    · intro o ho
      unfold findNextRun
      split
      · exact stops_ok _
      · refine (ho.firstCall.run_stops hfuel).bind fun s _ => ?_
        split
        · exact stops_error (by simp)
        · refine Stops.bind ?_ fun r _ => stops_ok _
          exact stops_checkExternalLinks _ _ _
    · intro o o' ho hbody
      obtain ⟨ho', hlt⟩ := ho.step hbody
      have hle := ho'.frontier.length_le.1
      exact ⟨ho', by omega⟩
    · have hsq : P.nodes.length < (P.nodes.length + 1) * (P.nodes.length + 1) :=
        by nlinarith
      simp only [RunsState.initial, List.length_nil]
      omega
  · intro fuel o hrun
    obtain ⟨ho, hnil⟩ := scheduled_of_run hrun
    have hfrontier := ho.frontier
    rw [hnil] at hfrontier
    rw [ho.runs] at hfrontier
    refine ⟨?_, hfrontier.mem_nodes, ?_, ?_⟩
    · intro n hn
      exact List.count_eq_one_of_mem hfrontier.nodup
        (hfrontier.complete hn.mem)
    · intro a b hedge
      obtain ⟨before, after, hsplit⟩ :=
        List.append_of_mem (hfrontier.complete hedge.right)
      exact precedes_of_split hsplit (hfrontier.ordered before b after hsplit a
        hedge)
    · intro run hmem
      have hvalid := ho.valid run hmem
      refine ⟨hvalid.nonempty, ?_, hvalid.types⟩
      have hsupported := hvalid.supported
      rw [isModuleSetSupported, List.lookup_isSome_iff] at hsupported
      obtain ⟨entry, hentry, hkey⟩ := hsupported
      exact List.mem_map.mpr ⟨entry, hentry, (beq_iff_eq.mp hkey).symm⟩

/-! ## Schedules that are evaluated -/

/-- Bitstreams for the given modules; no module has parameters. -/
def libraryOf (moduleSets : List (List QueryOperationType)) :
    AcceleratorLibrary where
  supportedAcceleratorBitstreams := moduleSets.map fun types =>
    (types.map fun op => ⟨op, []⟩, "bitstream")
  existingModulesLibrary :=
    [(.kFilter, [[]]), (.kJoin, [[]]), (.kLinearSort, [[]])]

/-- Runs of a schedule and the locations of the first `n` nodes. -/
def placements (n : Nat) (r : Outcome RunsState) :
    Option (List QueryNodeRun × List Int) :=
  match r with
  | .ok o => some (o.queryNodeRunsQueue,
      (List.range n).map fun i => (o.heap i).moduleLocation)
  | .error _ => none

theorem placements_eq_some {n : Nat} {r : Outcome RunsState}
    {runs : List QueryNodeRun} {locations : List Int}
    (h : placements n r = some (runs, locations)) :
    ∃ o, r = .ok o ∧ o.queryNodeRunsQueue = runs ∧
      ∀ i < n, locations[i]? = some (o.heap i).moduleLocation := by
  cases r with
  | error e => cases h
  | ok o =>
      simp only [placements, Option.some.injEq, Prod.mk.injEq] at h
      obtain ⟨rfl, rfl⟩ := h
      refine ⟨o, rfl, rfl, ?_⟩
      intro i hi
      simp [hi]

end Orkhestra.Ports.SchedulePartition
