import Orkhestra.Ports.SchedulePartition

/-!
# Where the modules of a run end up

A node learns its module location when it is placed and never again, while a
later node may insert its module in front of it.  So locations stay consistent
exactly as long as every module is put at the end, and they follow the data flow
exactly as long as no module is put in front of that of a producer.

Both results are iffs between the finished runs and the calls of
`CheckNodeForModuleSet`, each with a condition on the state before a call.
-/

namespace Orkhestra.Ports.ModulePlacement

open Orkhestra.Verified.Checked
open Orkhestra.Verified.Loop
open Orkhestra.Ports.QuerySchedulingData
open Orkhestra.Ports.NodeScheduler
open Orkhestra.Ports.SchedulePartition

variable {P : Plan} {lib : AcceleratorLibrary}

/-- Nodes that need a module. -/
def moduleNodes (P : Plan) (nodes : List NodeId) : List NodeId :=
  nodes.filter fun n => (P.heap n).operationType ≠ .kPassThrough

theorem mem_moduleNodes {nodes : List NodeId} {n : NodeId} :
    n ∈ moduleNodes P nodes ↔
      n ∈ nodes ∧ (P.heap n).operationType ≠ .kPassThrough := by
  simp [moduleNodes]

theorem moduleTypes_eq (P : Plan) (nodes : List NodeId) :
    moduleTypes P nodes =
      (moduleNodes P nodes).map fun n => (P.heap n).operationType := by
  rw [moduleTypes, List.filter_map]
  rfl

theorem moduleNodes_concat_passed {n : NodeId}
    (hop : (P.heap n).operationType = .kPassThrough) (nodes : List NodeId) :
    moduleNodes P (nodes ++ [n]) = moduleNodes P nodes := by
  simp [moduleNodes, hop]

theorem moduleNodes_concat {n : NodeId}
    (hop : (P.heap n).operationType ≠ .kPassThrough) (nodes : List NodeId) :
    moduleNodes P (nodes ++ [n]) = moduleNodes P nodes ++ [n] := by
  simp [moduleNodes, hop]

/-! ## Locations in the final vector -/

/-- Every node of the run that needs a module finds one of its own type at its
location, and no two nodes share a location. -/
def LocationsConsistent (P : Plan) (h : Heap) (run : QueryNodeRun) : Prop :=
  (∀ n ∈ run.2, (P.heap n).operationType ≠ .kPassThrough →
    ∃ (i : Nat) (operation : QueryOperation),
      (h n).moduleLocation - 1 = i ∧ run.1[i]? = some operation ∧
        operation.operationType = (P.heap n).operationType) ∧
  ∀ a ∈ run.2, ∀ b ∈ run.2, (P.heap a).operationType ≠ .kPassThrough →
    (P.heap b).operationType ≠ .kPassThrough →
    (h a).moduleLocation = (h b).moduleLocation → a = b

/-- Modules and nodes are in the same order. -/
structure Appended (P : Plan) (h : Heap) (run : QueryNodeRun) : Prop where
  types : run.1.map (·.operationType) = moduleTypes P run.2
  location : ∀ (i : Nat) n, (moduleNodes P run.2)[i]? = some n →
    (h n).moduleLocation = i + 1

theorem Appended.length {h : Heap} {run : QueryNodeRun}
    (ha : Appended P h run) : (moduleNodes P run.2).length = run.1.length := by
  have hlen := congrArg List.length ha.types
  rw [moduleTypes_eq, List.length_map, List.length_map] at hlen
  exact hlen.symm

theorem Appended.consistent {h : Heap} {run : QueryNodeRun}
    (ha : Appended P h run) : LocationsConsistent P h run := by
  have hindex : ∀ n ∈ run.2, (P.heap n).operationType ≠ .kPassThrough →
      ∃ i : Nat, (moduleNodes P run.2)[i]? = some n ∧
        (h n).moduleLocation = i + 1 := by
    intro n hn hop
    obtain ⟨i, hi⟩ := List.mem_iff_getElem?.mp (mem_moduleNodes.mpr ⟨hn, hop⟩)
    exact ⟨i, hi, ha.location i n hi⟩
  constructor
  · intro n hn hop
    obtain ⟨i, hi, hlocation⟩ := hindex n hn hop
    have hlt : i < run.1.length := by
      rw [← ha.length]
      exact (List.getElem?_eq_some_iff.mp hi).1
    refine ⟨i, run.1[i], by omega, List.getElem?_eq_getElem hlt, ?_⟩
    have htype := congrArg (fun xs => xs[i]?) ha.types
    simp only [moduleTypes_eq, List.getElem?_map, hi,
      List.getElem?_eq_getElem hlt, Option.map_some, Option.some.injEq] at htype
    exact htype
  · intro a ha' b hb' hopa hopb hsame
    obtain ⟨i, hi, hla⟩ := hindex a ha' hopa
    obtain ⟨k, hk, hlb⟩ := hindex b hb' hopb
    have hik : i = k := by omega
    subst hik
    rw [hi, Option.some.injEq] at hk
    exact hk

section Concat

variable {g h : Heap} {modules : ConfigurableModulesVector}
  {nodes : List NodeId} {n : NodeId} {operation : QueryOperation}

/-- A module at the end of the modules goes to the last node. -/
theorem Appended.concat (ha : Appended P g (modules, nodes))
    (hop : (P.heap n).operationType ≠ .kPassThrough)
    (hold : ∀ a ∈ nodes, h a = g a)
    (hlast : (h n).moduleLocation = modules.length + 1)
    (htype : operation.operationType = (P.heap n).operationType) :
    Appended P h (modules ++ [operation], nodes ++ [n]) := by
  have hnodes := moduleNodes_concat hop nodes
  have hlength : (moduleNodes P nodes).length = modules.length := ha.length
  constructor
  · have htypes := ha.types
    simp only [moduleTypes_eq] at htypes
    simp only [moduleTypes_eq, hnodes, List.map_append, htypes, List.map_cons,
      List.map_nil, htype]
  · intro i a hi
    rw [hnodes] at hi
    rcases Nat.lt_or_ge i (moduleNodes P nodes).length with hlt | hge
    · rw [List.getElem?_append_left hlt] at hi
      rw [hold a (mem_moduleNodes.mp (List.mem_of_getElem? hi)).1]
      exact ha.location i a hi
    · rw [List.getElem?_append_right hge, List.getElem?_singleton] at hi
      split at hi
      · cases hi
        rw [hlast]
        omega
      · cases hi

end Concat

/-- Two nodes that need modules have the same location. -/
def Collides (P : Plan) (h : Heap) (run : QueryNodeRun) : Prop :=
  ∃ a ∈ moduleNodes P run.2, ∃ b ∈ moduleNodes P run.2, a ≠ b ∧
    (h a).moduleLocation = (h b).moduleLocation

theorem Collides.not_consistent {h : Heap} {run : QueryNodeRun}
    (hc : Collides P h run) : ¬LocationsConsistent P h run := by
  obtain ⟨a, ha, b, hb, hne, hsame⟩ := hc
  intro hconsistent
  obtain ⟨ha, hopa⟩ := mem_moduleNodes.mp ha
  obtain ⟨hb, hopb⟩ := mem_moduleNodes.mp hb
  exact hne (hconsistent.2 a ha b hb hopa hopb hsame)

/-- A module before the end of the modules gets the location of an earlier
node. -/
theorem Appended.collides {g h : Heap} {modules : ConfigurableModulesVector}
    {nodes : List NodeId} {n : NodeId} {q : Nat}
    (ha : Appended P g (modules, nodes))
    (hop : (P.heap n).operationType ≠ .kPassThrough)
    (hold : ∀ a ∈ nodes, h a = g a) (hnew : n ∉ nodes)
    (hlast : (h n).moduleLocation = q + 1) (hlt : q < modules.length)
    (modules' : ConfigurableModulesVector) :
    Collides P h (modules', nodes ++ [n]) := by
  have hnodes := moduleNodes_concat hop nodes
  have hlength : (moduleNodes P nodes).length = modules.length := ha.length
  have hat := List.getElem?_eq_getElem (hlength ▸ hlt)
  have hmem := List.mem_of_getElem? hat
  generalize (moduleNodes P nodes)[q] = a at hat hmem
  have hrun := (mem_moduleNodes.mp hmem).1
  refine ⟨a, ?_, n, ?_, fun heq => hnew (heq ▸ hrun), ?_⟩
  · rw [hnodes]
    exact List.mem_append_left _ hmem
  · rw [hnodes]
    simp
  · rw [hold a hrun, ha.location q a hat, hlast]

/-- Before the end, no position from the minimum position on is supported for
the node that is looked at. -/
def AppendsOnly (lib : AcceleratorLibrary) (s : SchedulerState) : Prop :=
  ∀ n p options q, s.startingNodes[s.previousNodeIndex]? = some n →
    (s.heap n).operationType ≠ .kPassThrough →
    findMinPosition s.heap n (createReferenceVector s.heap s.currentQueryNodes)
      s.currentModulesVector = .ok (some p) →
    lib.existingModulesLibrary.lookup (s.heap n).operationType = some options →
    p ≤ q → q < s.currentModulesVector.length →
    checkModulePosition lib (s.heap n).operationType s.currentModulesVector
      options q = .ok []

section Step

variable {start : Heap} {earlier : List NodeId} {s : SchedulerState}
  {n : NodeId} {h : Heap} {modules : ConfigurableModulesVector}

/-- A placement does not move the modules of the run so far. -/
theorem location_of_mem (hs : Growing P lib start earlier s)
    (hn : s.startingNodes[s.previousNodeIndex]? = some n)
    (hsuitable : Suitable lib s.heap n
      (createReferenceVector s.heap s.currentQueryNodes)
      s.currentModulesVector h modules) {a : NodeId}
    (ha : a ∈ s.currentQueryNodes) : h a = s.heap a := by
  obtain ⟨-, -, -, hnew, -⟩ := hs.current hn
  exact hsuitable.eq_of_ne fun heq => hnew (heq ▸ ha)

theorem Appended.place (ha : Appended P s.heap
      (s.currentModulesVector, s.currentQueryNodes))
    (hs : Growing P lib start earlier s)
    (hn : s.startingNodes[s.previousNodeIndex]? = some n)
    (hsuitable : Suitable lib s.heap n
      (createReferenceVector s.heap s.currentQueryNodes)
      s.currentModulesVector h modules) (hne : modules ≠ []) :
    (AppendsOnly lib s →
      Appended P h (modules, s.currentQueryNodes ++ [n])) ∧
    (¬AppendsOnly lib s →
      Collides P h (modules, s.currentQueryNodes ++ [n])) := by
  have hold : ∀ a ∈ s.currentQueryNodes, h a = s.heap a :=
    fun a hmem => location_of_mem hs hn hsuitable hmem
  have hoptype := hs.tracks.operationType n
  cases hsuitable with
  | passed hpass =>
      have hnodes : moduleNodes P (s.currentQueryNodes ++ [n]) =
          moduleNodes P s.currentQueryNodes :=
        moduleNodes_concat_passed (hoptype ▸ hpass) _
      constructor
      · intro _
        refine ⟨?_, ?_⟩
        · rw [moduleTypes_eq, hnodes, ← moduleTypes_eq]
          exact ha.types
        · intro i a hi
          rw [hnodes] at hi
          exact ha.location i a hi
      · intro hnot
        refine absurd ?_ hnot
        intro m p options q hm hop
        rw [hn, Option.some.injEq] at hm
        exact absurd (hm ▸ hpass) hop
  | notPlaced _ _ => exact absurd rfl hne
  | placed p q options params hop hmin hoptions hpq hq hbefore hcheck _ =>
      have hop' : (P.heap n).operationType ≠ .kPassThrough := hoptype ▸ hop
      constructor
      · intro hcond
        have hend : q = s.currentModulesVector.length := by
          by_contra hlt
          have hnone := hcond n p options q hn hop hmin hoptions hpq (by omega)
          rw [hcheck, Except.ok.injEq] at hnone
          exact insertModule_ne_nil _ _ _ hnone
        subst hend
        rw [insertModule, List.take_length, List.drop_length]
        refine ha.concat hop' hold ?_ hoptype
        rw [Heap.modify_same]
      · intro hnot
        -- Some earlier position is supported, so the module goes before the end.
        have hlt : q < s.currentModulesVector.length := by
          by_contra hge
          refine hnot ?_
          intro m p' options' k hm hop' hmin' hoptions' hk hkl
          rw [hn, Option.some.injEq] at hm
          subst hm
          rw [hmin, Except.ok.injEq, Option.some.injEq] at hmin'
          rw [hoptions, Option.some.injEq] at hoptions'
          subst hmin'
          subst hoptions'
          exact hbefore k hk (by omega)
        obtain ⟨-, -, -, hnew, -⟩ := hs.current hn
        refine ha.collides hop' hold hnew ?_ hlt _
        rw [Heap.modify_same]

theorem Collides.place (hc : Collides P s.heap
      (s.currentModulesVector, s.currentQueryNodes))
    (hs : Growing P lib start earlier s)
    (hn : s.startingNodes[s.previousNodeIndex]? = some n)
    (hsuitable : Suitable lib s.heap n
      (createReferenceVector s.heap s.currentQueryNodes)
      s.currentModulesVector h modules) :
    Collides P h (modules, s.currentQueryNodes ++ [n]) := by
  obtain ⟨a, ha, b, hb, hne, hsame⟩ := hc
  have hmono : ∀ c ∈ moduleNodes P s.currentQueryNodes,
      c ∈ moduleNodes P (s.currentQueryNodes ++ [n]) ∧
        h c = s.heap c := by
    intro c hc
    obtain ⟨hmem, hop⟩ := mem_moduleNodes.mp hc
    exact ⟨mem_moduleNodes.mpr ⟨List.mem_append_left _ hmem, hop⟩,
      location_of_mem hs hn hsuitable hmem⟩
  refine ⟨a, (hmono a ha).1, b, (hmono b hb).1, hne, ?_⟩
  rw [(hmono a ha).2, (hmono b hb).2]
  exact hsame

end Step

/-- All runs of a schedule have consistent locations exactly when every call
finds its module supported at the end of the current modules or nowhere. -/
theorem locations_consistent_iff_appendsOnly {fuel : Nat} {links : LinkedNodes}
    {o : RunsState}
    (hrun : findAcceleratedQueryNodeSets lib fuel P.heap P.roots links =
      .ok o) :
    (∀ run ∈ o.queryNodeRunsQueue, LocationsConsistent P o.heap run) ↔
      ∀ t ∈ schedulingCalls lib fuel
        (RunsState.initial P.heap P.roots links), AppendsOnly lib t := by
  refine runs_good_iff (LocationsConsistent P) (AppendsOnly lib) ?_ ?_ hrun
  · intro h h' run hsame hgood
    refine ⟨?_, ?_⟩
    · intro n hn hop
      obtain ⟨i, operation, hi, hrest⟩ := hgood.1 n hn hop
      exact ⟨i, operation, by rw [← hsame n hn]; exact hi, hrest⟩
    · intro a ha b hb hopa hopb heq
      exact hgood.2 a ha b hb hopa hopb (by rw [hsame a ha, hsame b hb, heq])
  · intro o s ho hs
    refine calls_good_iff (Appended P) (Collides P) (LocationsConsistent P)
      (AppendsOnly lib) (fun h run ha => ha.consistent)
      (fun h run hc => hc.not_consistent) ?_ ?_ ?_ ho.firstCall ?_ hs
    · intro s n hs hn hsuitable m p options q hm hop hmin hoptions hpq hlt
      rw [hn, Option.some.injEq] at hm
      subst hm
      exact hsuitable.not_supported rfl hop hmin hoptions hpq
        (Nat.le_of_lt hlt)
    · intro s n h modules hs hn hsuitable hne ha
      exact ha.place hs hn hsuitable hne
    · intro s n h modules hs hn hsuitable hc
      exact hc.place hs hn hsuitable
    · exact ⟨rfl, by simp [RunsState.firstCall, moduleNodes]⟩

/-! ### Two roots of different types

The library supports a filter, a join, and the join in front of the filter.
The filter is placed first and the join is inserted before it, so both nodes
have location 1.
-/

def filterAndJoin : List QueryNode :=
  [{ inputDataDefinitionFiles := ["a.csv"]
     outputDataDefinitionFiles := [""]
     operationType := .kFilter
     nextNodes := [none]
     previousNodes := [none]
     operationParameters := ⟨[], [], []⟩
     nodeName := "filter"
     isChecked := [false] },
   { inputDataDefinitionFiles := ["b.csv", "c.csv"]
     outputDataDefinitionFiles := [""]
     operationType := .kJoin
     nextNodes := [none]
     previousNodes := [none, none]
     operationParameters := ⟨[], [], []⟩
     nodeName := "join"
     isChecked := [false] }]

def filterAndJoinPlan : Plan := .ofTable filterAndJoin (by decide)

def joinBeforeFilter : AcceleratorLibrary :=
  libraryOf [[.kFilter], [.kJoin], [.kJoin, .kFilter]]

def joinBehindFilter : AcceleratorLibrary :=
  libraryOf [[.kFilter], [.kJoin], [.kFilter, .kJoin]]

/-- The locations of a run are not consistent for every plan and library. -/
theorem locations_not_always_consistent :
    ¬∀ (P : Plan) (lib : AcceleratorLibrary) (fuel : Nat) (links : LinkedNodes)
      (o : RunsState),
      findAcceleratedQueryNodeSets lib fuel P.heap P.roots links = .ok o →
      ∀ run ∈ o.queryNodeRunsQueue, LocationsConsistent P o.heap run := by
  intro h
  obtain ⟨o, hrun, hqueue, hlocation⟩ := placements_eq_some
    (n := 2) (show placements 2 (findAcceleratedQueryNodeSets joinBeforeFilter 9
        filterAndJoinPlan.heap filterAndJoinPlan.roots ∅) =
      some ([([⟨.kJoin, []⟩, ⟨.kFilter, []⟩], [0, 1])], [1, 1]) by
        decide +kernel)
  have hconsistent := h filterAndJoinPlan joinBeforeFilter 9 ∅ o hrun
    ([⟨.kJoin, []⟩, ⟨.kFilter, []⟩], [0, 1]) (by simp [hqueue])
  have h0 := hlocation 0 (by decide)
  have h1 := hlocation 1 (by decide)
  simp only [List.getElem?_cons_zero, List.getElem?_cons_succ,
    Option.some.injEq] at h0 h1
  have hsame := hconsistent.2 0 (by simp) 1 (by simp) (by decide) (by decide)
    (by rw [← h0, ← h1])
  exact absurd hsame (by decide)

/-- The same plan where the join can only be put behind the filter. -/
theorem locations_consistent_filterAndJoin :
    ∃ o, findAcceleratedQueryNodeSets joinBehindFilter 9
        filterAndJoinPlan.heap filterAndJoinPlan.roots ∅ = .ok o ∧
      (∀ run ∈ o.queryNodeRunsQueue,
        LocationsConsistent filterAndJoinPlan o.heap run) ∧
      ∀ t ∈ schedulingCalls joinBehindFilter 9
        (RunsState.initial filterAndJoinPlan.heap filterAndJoinPlan.roots ∅),
        AppendsOnly joinBehindFilter t := by
  obtain ⟨o, hrun, hqueue, hlocation⟩ := placements_eq_some (n := 2)
    (show placements 2 (findAcceleratedQueryNodeSets joinBehindFilter 9
        filterAndJoinPlan.heap filterAndJoinPlan.roots ∅) =
      some ([([⟨.kFilter, []⟩, ⟨.kJoin, []⟩], [0, 1])], [1, 2]) by
        decide +kernel)
  have h0 := hlocation 0 (by decide)
  have h1 := hlocation 1 (by decide)
  simp only [List.getElem?_cons_zero, List.getElem?_cons_succ,
    Option.some.injEq] at h0 h1
  have hconsistent : ∀ run ∈ o.queryNodeRunsQueue,
      LocationsConsistent filterAndJoinPlan o.heap run := by
    intro run hmem
    rw [hqueue, List.mem_singleton] at hmem
    subst hmem
    constructor
    · intro n hn _
      rcases List.mem_pair.mp hn with rfl | rfl
      · exact ⟨0, ⟨.kFilter, []⟩, by omega, rfl, rfl⟩
      · exact ⟨1, ⟨.kJoin, []⟩, by omega, rfl, rfl⟩
    · intro a ha b hb _ _ hsame
      rcases List.mem_pair.mp ha with rfl | rfl <;>
        rcases List.mem_pair.mp hb with rfl | rfl
      · rfl
      · omega
      · omega
      · rfl
  exact ⟨o, hrun, hconsistent,
    (locations_consistent_iff_appendsOnly hrun).mp hconsistent⟩

/-! ## Locations along the data flow -/

/-- An edge between nodes of one run. -/
def RunEdge (P : Plan) (nodes : List NodeId) (a b : NodeId) : Prop :=
  P.Edge a b ∧ a ∈ nodes ∧ b ∈ nodes

/-- A module is behind those of the nodes that its node is reached from. -/
def FollowsDataFlow (P : Plan) (h : Heap) (run : QueryNodeRun) : Prop :=
  ∀ a ∈ moduleNodes P run.2, ∀ b ∈ moduleNodes P run.2,
    Relation.TransGen (RunEdge P run.2) a b →
    (h a).moduleLocation < (h b).moduleLocation

/-- No position from the minimum position on that is in front of the module of
an ancestor in the run is supported for the node that is looked at. -/
def StaysBehindAncestors (P : Plan) (lib : AcceleratorLibrary)
    (s : SchedulerState) : Prop :=
  ∀ n p options, ∀ q : Nat, ∀ a ∈ moduleNodes P s.currentQueryNodes,
    s.startingNodes[s.previousNodeIndex]? = some n →
    (s.heap n).operationType ≠ .kPassThrough →
    findMinPosition s.heap n (createReferenceVector s.heap s.currentQueryNodes)
      s.currentModulesVector = .ok (some p) →
    lib.existingModulesLibrary.lookup (s.heap n).operationType = some options →
    Relation.TransGen (RunEdge P (s.currentQueryNodes ++ [n])) a n →
    p ≤ q → q ≤ s.currentModulesVector.length →
    (q : Int) < (s.heap a).moduleLocation →
    checkModulePosition lib (s.heap n).operationType s.currentModulesVector
      options q = .ok []

theorem RunEdge.mono {nodes nodes' : List NodeId}
    (hsub : ∀ n ∈ nodes, n ∈ nodes') {a b : NodeId}
    (hpath : Relation.TransGen (RunEdge P nodes) a b) :
    Relation.TransGen (RunEdge P nodes') a b :=
  Relation.TransGen.mono
    (fun _ _ hedge => ⟨hedge.1, hsub _ hedge.2.1, hsub _ hedge.2.2⟩) _ _ hpath

section Flow

variable {start : Heap} {earlier : List NodeId} {s : SchedulerState}
  {n : NodeId} {h : Heap} {modules : ConfigurableModulesVector}

/-- The node that is looked at feeds no node of the run. -/
theorem not_feeds_run (hs : Growing P lib start earlier s)
    (hn : s.startingNodes[s.previousNodeIndex]? = some n) {b : NodeId}
    (hb : b ∈ s.currentQueryNodes) : ¬P.Edge n b := by
  obtain ⟨-, hnew, -⟩ := hs.current hn
  intro hedge
  refine hnew (hs.frontier.ordered.mem_of_edge ?_ hedge)
  rw [hs.scheduled]
  exact List.mem_append_right _ hb

/-- Paths between nodes of the run do not use the node that is looked at. -/
theorem path_within_run (hs : Growing P lib start earlier s)
    (hn : s.startingNodes[s.previousNodeIndex]? = some n) {a b : NodeId}
    (hpath : Relation.TransGen (RunEdge P (s.currentQueryNodes ++ [n])) a b)
    (hb : b ∈ s.currentQueryNodes) :
    a ∈ s.currentQueryNodes ∧
      Relation.TransGen (RunEdge P s.currentQueryNodes) a b := by
  have hsource : ∀ c d, RunEdge P (s.currentQueryNodes ++ [n]) c d →
      d ∈ s.currentQueryNodes → c ∈ s.currentQueryNodes := by
    intro c d hedge hd
    rcases List.mem_append.mp hedge.2.1 with hc | hc
    · exact hc
    · rw [List.mem_singleton.mp hc] at hedge
      exact absurd hedge.1 (not_feeds_run hs hn hd)
  induction hpath with
  | single hedge =>
      have ha := hsource _ _ hedge hb
      exact ⟨ha, .single ⟨hedge.1, ha, hb⟩⟩
  | tail _ hedge ih =>
      have hc := hsource _ _ hedge hb
      obtain ⟨ha, hpath⟩ := ih hc
      exact ⟨ha, hpath.tail ⟨hedge.1, hc, hb⟩⟩

theorem FollowsDataFlow.place
    (hf : FollowsDataFlow P s.heap
      (s.currentModulesVector, s.currentQueryNodes))
    (hs : Growing P lib start earlier s)
    (hn : s.startingNodes[s.previousNodeIndex]? = some n)
    (hsuitable : Suitable lib s.heap n
      (createReferenceVector s.heap s.currentQueryNodes)
      s.currentModulesVector h modules) (hne : modules ≠ []) :
    (StaysBehindAncestors P lib s →
      FollowsDataFlow P h (modules, s.currentQueryNodes ++ [n])) ∧
    (¬StaysBehindAncestors P lib s →
      ¬FollowsDataFlow P h (modules, s.currentQueryNodes ++ [n])) := by
  have hold : ∀ a ∈ s.currentQueryNodes, h a = s.heap a :=
    fun a hmem => location_of_mem hs hn hsuitable hmem
  have hoptype := hs.tracks.operationType n
  have hnode := (hs.current hn).1
  constructor
  · intro hcond a ha b hb hpath
    obtain ⟨hamem, haop⟩ := mem_moduleNodes.mp ha
    obtain ⟨hbmem, hbop⟩ := mem_moduleNodes.mp hb
    rcases List.mem_append.mp hbmem with hbmem | hbmem
    · obtain ⟨hamem, hpath⟩ := path_within_run hs hn hpath hbmem
      rw [hold a hamem, hold b hbmem]
      exact hf a (mem_moduleNodes.mpr ⟨hamem, haop⟩) b
        (mem_moduleNodes.mpr ⟨hbmem, hbop⟩) hpath
    · rw [List.mem_singleton.mp hbmem] at hpath hbop ⊢
      have hrun : a ∈ s.currentQueryNodes := by
        rcases List.mem_append.mp hamem with hmem | hmem
        · exact hmem
        · rw [List.mem_singleton.mp hmem] at hpath
          exact absurd (Relation.TransGen.mono
            (fun _ _ hedge => hedge.1) _ _ hpath) (P.acyclic n hnode)
      rw [hold a hrun]
      cases hsuitable with
      | passed hpass =>
          rw [hoptype] at hpass
          exact absurd hpass hbop
      | notPlaced _ _ => exact absurd rfl hne
      | placed p q options params hop hmin hoptions hpq hq _ hcheck _ =>
          rw [Heap.modify_same]
          show (s.heap a).moduleLocation < (q : Int) + 1
          by_contra hge
          have hnone := hcond n p options q a
            (mem_moduleNodes.mpr ⟨hrun, haop⟩) hn hop hmin hoptions hpath hpq hq
            (by omega)
          rw [hcheck, Except.ok.injEq] at hnone
          exact insertModule_ne_nil _ _ _ hnone
  · intro hnot hflow
    refine hnot ?_
    intro m p options q a ha hm hop hmin hoptions hpath hpq hq hlt
    rw [hn, Option.some.injEq] at hm
    subst hm
    obtain ⟨hrun, haop⟩ := mem_moduleNodes.mp ha
    cases hsuitable with
    | passed hpass => exact absurd hpass hop
    | notPlaced _ _ => exact absurd rfl hne
    | placed p' q' options' params _ hmin' hoptions' _ _ hbefore _ _ =>
        rw [hmin, Except.ok.injEq, Option.some.injEq] at hmin'
        rw [hoptions, Option.some.injEq] at hoptions'
        subst hmin'
        subst hoptions'
        refine hbefore q hpq ?_
        -- The location that the data flow asks for is behind `q`.
        have hlocation := hflow a
          (mem_moduleNodes.mpr ⟨List.mem_append_left _ hrun, haop⟩) n
          (mem_moduleNodes.mpr ⟨by simp, by rwa [← hoptype]⟩) hpath
        rw [hold a hrun, Heap.modify_same] at hlocation
        have hlocation' : (s.heap a).moduleLocation < (q' : Int) + 1 :=
          hlocation
        omega

theorem not_followsDataFlow_place
    (hf : ¬FollowsDataFlow P s.heap
      (s.currentModulesVector, s.currentQueryNodes))
    (hs : Growing P lib start earlier s)
    (hn : s.startingNodes[s.previousNodeIndex]? = some n)
    (hsuitable : Suitable lib s.heap n
      (createReferenceVector s.heap s.currentQueryNodes)
      s.currentModulesVector h modules) :
    ¬FollowsDataFlow P h (modules, s.currentQueryNodes ++ [n]) := by
  intro hflow
  refine hf ?_
  intro a ha b hb hpath
  obtain ⟨hamem, haop⟩ := mem_moduleNodes.mp ha
  obtain ⟨hbmem, hbop⟩ := mem_moduleNodes.mp hb
  rw [← location_of_mem hs hn hsuitable hamem,
    ← location_of_mem hs hn hsuitable hbmem]
  exact hflow a (mem_moduleNodes.mpr ⟨List.mem_append_left _ hamem, haop⟩) b
    (mem_moduleNodes.mpr ⟨List.mem_append_left _ hbmem, hbop⟩)
    (RunEdge.mono (fun _ hmem => List.mem_append_left _ hmem) hpath)

end Flow

/-- The modules of all runs follow the data flow exactly when no call finds its
module supported between the minimum position and the module of an ancestor in
the run. -/
theorem dataFlow_iff_staysBehindAncestors {fuel : Nat} {links : LinkedNodes}
    {o : RunsState}
    (hrun : findAcceleratedQueryNodeSets lib fuel P.heap P.roots links =
      .ok o) :
    (∀ run ∈ o.queryNodeRunsQueue, FollowsDataFlow P o.heap run) ↔
      ∀ t ∈ schedulingCalls lib fuel
        (RunsState.initial P.heap P.roots links),
        StaysBehindAncestors P lib t := by
  refine runs_good_iff (FollowsDataFlow P) (StaysBehindAncestors P lib) ?_ ?_
    hrun
  · intro h h' run hsame hgood a ha b hb hpath
    rw [← hsame a (mem_moduleNodes.mp ha).1,
      ← hsame b (mem_moduleNodes.mp hb).1]
    exact hgood a ha b hb hpath
  · intro o s ho hs
    refine calls_good_iff (FollowsDataFlow P)
      (fun h run => ¬FollowsDataFlow P h run) (FollowsDataFlow P)
      (StaysBehindAncestors P lib) (fun h run hf => hf)
      (fun h run hf => hf) ?_ ?_ ?_ ho.firstCall ?_ hs
    · intro s n hs hn hsuitable m p options q a _ hm hop hmin hoptions _ hpq hq _
      rw [hn, Option.some.injEq] at hm
      subst hm
      exact hsuitable.not_supported rfl hop hmin hoptions hpq hq
    · intro s n h modules hs hn hsuitable hne hf
      exact hf.place hs hn hsuitable hne
    · intro s n h modules hs hn hsuitable hf
      exact not_followsDataFlow_place hf hs hn hsuitable
    · intro a ha
      exact absurd ha (by simp [RunsState.firstCall, moduleNodes])

/-! ### A repeated operation type

The join takes its minimum position from the first filter, although it is fed by
the second one.
-/

def filterFilterJoin : List QueryNode :=
  [{ inputDataDefinitionFiles := ["a.csv"]
     outputDataDefinitionFiles := [""]
     operationType := .kFilter
     nextNodes := [some 1]
     previousNodes := [none]
     operationParameters := ⟨[[], [], [], []], [[], [], [], []], []⟩
     nodeName := "first"
     isChecked := [false] },
   { inputDataDefinitionFiles := [""]
     outputDataDefinitionFiles := [""]
     operationType := .kFilter
     nextNodes := [some 2]
     previousNodes := [some 0]
     operationParameters := ⟨[[], [], [], []], [[], [], [], []], []⟩
     nodeName := "second"
     isChecked := [false] },
   { inputDataDefinitionFiles := ["", "b.csv"]
     outputDataDefinitionFiles := [""]
     operationType := .kJoin
     nextNodes := [none]
     previousNodes := [some 1, none]
     operationParameters := ⟨[[], [], [], [], [], [], [], []], [[], [], [], []],
       []⟩
     nodeName := "join"
     isChecked := [false] }]

def filterFilterJoinPlan : Plan := .ofTable filterFilterJoin (by decide)

def joinBetweenFilters : AcceleratorLibrary :=
  libraryOf [[.kFilter], [.kFilter, .kFilter], [.kFilter, .kJoin, .kFilter]]

def joinBehindFilters : AcceleratorLibrary :=
  libraryOf [[.kFilter], [.kFilter, .kFilter], [.kFilter, .kFilter, .kJoin]]

/-- The modules of a run do not follow the data flow for every plan and
library. -/
theorem dataFlow_not_always_followed :
    ¬∀ (P : Plan) (lib : AcceleratorLibrary) (fuel : Nat) (links : LinkedNodes)
      (o : RunsState),
      findAcceleratedQueryNodeSets lib fuel P.heap P.roots links = .ok o →
      ∀ run ∈ o.queryNodeRunsQueue, FollowsDataFlow P o.heap run := by
  intro h
  obtain ⟨o, hrun, hqueue, hlocation⟩ := placements_eq_some (n := 3)
    (show placements 3 (findAcceleratedQueryNodeSets joinBetweenFilters 16
        filterFilterJoinPlan.heap filterFilterJoinPlan.roots ∅) =
      some ([([⟨.kFilter, []⟩, ⟨.kJoin, []⟩, ⟨.kFilter, []⟩], [0, 1, 2])],
        [1, 2, 2]) by decide +kernel)
  have hflow := h filterFilterJoinPlan joinBetweenFilters 16 ∅ o hrun
    ([⟨.kFilter, []⟩, ⟨.kJoin, []⟩, ⟨.kFilter, []⟩], [0, 1, 2])
    (by simp [hqueue])
  have hedge : filterFilterJoinPlan.Edge 1 2 := ⟨by decide, by decide⟩
  have hlt := hflow 1 (mem_moduleNodes.mpr ⟨by simp, by decide⟩) 2
    (mem_moduleNodes.mpr ⟨by simp, by decide⟩)
    (.single ⟨hedge, by simp, by simp⟩)
  have h1 := hlocation 1 (by decide)
  have h2 := hlocation 2 (by decide)
  simp only [List.getElem?_cons_zero, List.getElem?_cons_succ,
    Option.some.injEq] at h1 h2
  omega

/-- The same plan where the join can only be put behind both filters. -/
theorem dataFlow_followed_filterFilterJoin :
    ∃ o, findAcceleratedQueryNodeSets joinBehindFilters 16
        filterFilterJoinPlan.heap filterFilterJoinPlan.roots ∅ = .ok o ∧
      (∀ run ∈ o.queryNodeRunsQueue,
        FollowsDataFlow filterFilterJoinPlan o.heap run) ∧
      ∀ t ∈ schedulingCalls joinBehindFilters 16
        (RunsState.initial filterFilterJoinPlan.heap
          filterFilterJoinPlan.roots ∅),
        StaysBehindAncestors filterFilterJoinPlan joinBehindFilters t := by
  obtain ⟨o, hrun, hqueue, hlocation⟩ := placements_eq_some (n := 3)
    (show placements 3 (findAcceleratedQueryNodeSets joinBehindFilters 16
        filterFilterJoinPlan.heap filterFilterJoinPlan.roots ∅) =
      some ([([⟨.kFilter, []⟩, ⟨.kFilter, []⟩, ⟨.kJoin, []⟩], [0, 1, 2])],
        [1, 2, 3]) by decide +kernel)
  have hnodes : ∀ n ∈ [0, 1, 2], (o.heap n).moduleLocation = n + 1 := by
    intro n hn
    simp only [List.mem_cons, List.not_mem_nil, or_false] at hn
    rcases hn with rfl | rfl | rfl
    · exact (Option.some.inj (hlocation 0 (by decide))).symm
    · exact (Option.some.inj (hlocation 1 (by decide))).symm
    · exact (Option.some.inj (hlocation 2 (by decide))).symm
  -- Every edge leads from a node to a later one.
  have hedges : ∀ a ∈ [0, 1, 2], ∀ b ∈ [0, 1, 2],
      some b ∈ (filterFilterJoinPlan.heap a).nextNodes → a < b := by decide
  have hpath : ∀ a b, Relation.TransGen
      (RunEdge filterFilterJoinPlan [0, 1, 2]) a b → a < b := by
    intro a b hpath
    induction hpath with
    | single hedge => exact hedges _ hedge.2.1 _ hedge.2.2 hedge.1.2
    | tail _ hedge ih =>
        exact Nat.lt_trans ih (hedges _ hedge.2.1 _ hedge.2.2 hedge.1.2)
  have hfollows : ∀ run ∈ o.queryNodeRunsQueue,
      FollowsDataFlow filterFilterJoinPlan o.heap run := by
    intro run hmem
    rw [hqueue, List.mem_singleton] at hmem
    subst hmem
    intro a ha b hb hflow
    rw [hnodes a (mem_moduleNodes.mp ha).1, hnodes b (mem_moduleNodes.mp hb).1]
    exact Int.add_lt_add_right (Int.ofNat_lt.mpr (hpath a b hflow)) 1
  exact ⟨o, hrun, hfollows,
    (dataFlow_iff_staysBehindAncestors hrun).mp hfollows⟩

end Orkhestra.Ports.ModulePlacement
