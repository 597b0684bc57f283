import Orkhestra.Ports.MinimumPosition

/-!
# Checked and projected streams within a run

A stream whose result is checked or projected has to go through memory, so its
consumer must not join the run of its producer.  `FindMinPosition` decides this
for a consumer that needs a module, and looks up `is_checked` of the producer
with the input index of the consumer; a consumer that is passed through is not
looked at.

So an observed stream stays out of the run exactly when some entry that is
looked up keeps the consumer out, be it that of another stream, or the
consumer's module has no place.
-/

namespace Orkhestra.Ports.IntermediateStreams

open Orkhestra.Verified.Checked
open Orkhestra.Verified.Loop
open Orkhestra.Ports.QuerySchedulingData
open Orkhestra.Ports.NodeScheduler
open Orkhestra.Ports.SchedulePartition
open Orkhestra.Ports.MinimumPosition

variable {P : Plan} {lib : AcceleratorLibrary}

/-- The result of the stream is neither checked nor projected. -/
structure Unobserved (h : Heap) (a : NodeId) (k : Nat) (n : NodeId) (m : Nat) :
    Prop where
  notChecked : (h a).isChecked[k]? = some false
  outputNotProjected :
    projection (h a).operationParameters.outputStreamParameters k = some []
  inputNotProjected :
    projection (h n).operationParameters.inputStreamParameters m = some []

/-- Every stream between two nodes of the run is unobserved. -/
def ObservedGoThroughMemory (P : Plan) (run : QueryNodeRun) : Prop :=
  ∀ a ∈ run.2, ∀ n ∈ run.2, (P.heap a).operationType ≠ .kPassThrough →
    ∀ k m, Stream P.heap a k n m → Unobserved P.heap a k n m

/-! ## Conditions on a call -/

/-- The search leaves none of its vectors. -/
def SearchInRange (s : SchedulerState) : Prop :=
  ∀ n, s.startingNodes[s.previousNodeIndex]? = some n →
    (s.heap n).operationType ≠ .kPassThrough →
    findMinPosition s.heap n (createReferenceVector s.heap s.currentQueryNodes)
      s.currentModulesVector ≠ .error .undefined

/-- A node that an observed stream connects with the run stays out of it. -/
def KeepsObservedOut (P : Plan) (lib : AcceleratorLibrary) (s : SchedulerState) :
    Prop :=
  ∀ n, s.startingNodes[s.previousNodeIndex]? = some n →
    ∀ a ∈ s.currentQueryNodes, (P.heap a).operationType ≠ .kPassThrough →
    ∀ k m, Stream P.heap a k n m → ¬Unobserved P.heap a k n m →
      StaysOut lib s.heap n (createReferenceVector s.heap s.currentQueryNodes)
        s.currentModulesVector

section Run

variable {start : Heap} {earlier : List NodeId} {s : SchedulerState} {n : NodeId}
  {h : Heap} {modules : ConfigurableModulesVector}

theorem searchInRange_iff (hs : Growing P lib start earlier s) :
    SearchInRange s ↔ EntriesThere s :=
  forall₃_congr fun _ hn _ => findMinPosition_in_range_iff
    (fun _ ha => moduleIndex_ne_none hs ha)
    (fun _ ha hlook => next_of_previous hs hn ha hlook)

/-- A run with a node that needs a module has modules. -/
theorem modules_ne_nil (hs : Growing P lib start earlier s) {a : NodeId}
    (ha : a ∈ s.currentQueryNodes) : s.currentModulesVector ≠ [] := by
  rcases hs.supported with ⟨hne, -⟩ | ⟨hnil, -⟩
  · exact hne
  · rw [hnil] at ha
    exact absurd ha List.not_mem_nil

/-- A call that does not place its node meets the condition. -/
theorem keepsObservedOut_of_skip (hs : Growing P lib start earlier s)
    (hn : s.startingNodes[s.previousNodeIndex]? = some n)
    (hsuitable : Suitable lib s.heap n
      (createReferenceVector s.heap s.currentQueryNodes)
      s.currentModulesVector s.heap []) : KeepsObservedOut P lib s := by
  intro b hb a ha _ k m _ _
  obtain rfl := Option.some.inj (hn.symm.trans hb)
  exact staysOut_of_suitable hsuitable rfl (modules_ne_nil hs ha)

/-- A call that places its node keeps the observed streams out of the run exactly
when it meets the condition. -/
theorem observed_place_iff (hs : Growing P lib start earlier s)
    (hn : s.startingNodes[s.previousNodeIndex]? = some n)
    (hsuitable : Suitable lib s.heap n
      (createReferenceVector s.heap s.currentQueryNodes)
      s.currentModulesVector h modules) (hne : modules ≠ [])
    (hrun : ObservedGoThroughMemory P
      (s.currentModulesVector, s.currentQueryNodes)) :
    ObservedGoThroughMemory P (modules, s.currentQueryNodes ++ [n]) ↔
      KeepsObservedOut P lib s := by
  obtain ⟨hnode, hnew, -⟩ := hs.current hn
  have hplaced := not_staysOut_of_suitable hsuitable hne
  constructor
  · intro hobserved b hb a ha hop k m hstream hnot
    obtain rfl := Option.some.inj (hn.symm.trans hb)
    exact absurd (hobserved a (List.mem_append_left _ ha) n (by simp) hop k m
      hstream) hnot
  · intro hcond a hamem b hbmem hop k m hstream
    -- No stream leads from the new node back into the run.
    have hsource : a ∈ s.currentQueryNodes := by
      rcases List.mem_append.mp hamem with ha | ha
      · exact ha
      · rw [List.mem_singleton] at ha
        subst ha
        have hedge : P.Edge a b := ⟨hnode, List.mem_of_getElem? hstream.1⟩
        rcases List.mem_append.mp hbmem with hb | hb
        · refine absurd (hs.frontier.ordered.mem_of_edge ?_ hedge) hnew
          rw [hs.scheduled]
          exact List.mem_append_right _ hb
        · rw [List.mem_singleton.mp hb] at hedge
          exact absurd hedge Plan.not_edge_self
    rcases List.mem_append.mp hbmem with hb | hb
    · exact hrun a hsource b hb hop k m hstream
    · rw [List.mem_singleton] at hb
      subst hb
      by_contra hnot
      exact hplaced (hcond b hn a hsource hop k m hstream hnot)

theorem ObservedGoThroughMemory.of_append {nodes : List NodeId}
    (hobserved : ObservedGoThroughMemory P (modules, nodes ++ [n]))
    (modules' : ConfigurableModulesVector) :
    ObservedGoThroughMemory P (modules', nodes) :=
  fun a ha b hb => hobserved a (List.mem_append_left _ ha) b
    (List.mem_append_left _ hb)

end Run

/-- The search for the minimum position stays within its vectors exactly when
the entries that it looks up are there, and no checked or projected stream
connects two nodes of one run exactly when every call keeps the consumers of such
streams out. -/
theorem observed_streams_go_through_memory_iff {fuel : Nat}
    {links : LinkedNodes} :
    ((∀ t ∈ schedulingCalls lib fuel
        (RunsState.initial P.heap P.roots links), SearchInRange t) ↔
      ∀ t ∈ schedulingCalls lib fuel
        (RunsState.initial P.heap P.roots links), EntriesThere t) ∧
    ∀ o, findAcceleratedQueryNodeSets lib fuel P.heap P.roots links = .ok o →
      ((∀ run ∈ o.queryNodeRunsQueue, ObservedGoThroughMemory P run) ↔
        ∀ t ∈ schedulingCalls lib fuel
          (RunsState.initial P.heap P.roots links),
          KeepsObservedOut P lib t) := by
  constructor
  · refine forall₂_congr fun t ht => ?_
    obtain ⟨start, earlier, hs⟩ := growing_of_mem_schedulingCalls ht
    exact searchInRange_iff hs
  · intro o hrun
    refine runs_good_iff (fun _ run => ObservedGoThroughMemory P run)
      (KeepsObservedOut P lib) (fun _ _ _ _ hgood => hgood) ?_ hrun
    intro o s ho hs
    refine calls_good_iff (fun _ run => ObservedGoThroughMemory P run)
      (fun _ run => ¬ObservedGoThroughMemory P run)
      (fun _ run => ObservedGoThroughMemory P run) (KeepsObservedOut P lib)
      (fun _ _ hgood => hgood) (fun _ _ hbad => hbad) ?_ ?_ ?_ ho.firstCall ?_ hs
    · intro s n hs hn hsuitable
      exact keepsObservedOut_of_skip hs hn hsuitable
    · intro s n h modules hs hn hsuitable hne hobserved
      have hiff := observed_place_iff hs hn hsuitable hne hobserved
      exact ⟨hiff.mpr, mt hiff.mp⟩
    · intro s n h modules hs hn hsuitable hbad hobserved
      exact hbad (hobserved.of_append _)
    · intro a ha
      exact absurd ha List.not_mem_nil

/-! ### A checked second output

The sort is fed by the second output of the filter, whose result is checked, but
the flag of the first output is looked up.
-/

def filterAndSort (firstFile : String) : List QueryNode :=
  [{ inputDataDefinitionFiles := ["a.csv"]
     outputDataDefinitionFiles := [firstFile, "second.csv"]
     operationType := .kFilter
     nextNodes := [none, some 1]
     previousNodes := [none]
     operationParameters :=
       ⟨[[], [], [], []], [[], [], [], [], [], [], [], []], []⟩
     nodeName := "filter"
     isChecked := [firstFile != "", true] },
   { inputDataDefinitionFiles := [""]
     outputDataDefinitionFiles := [""]
     operationType := .kLinearSort
     nextNodes := [none]
     previousNodes := [some 0]
     operationParameters := ⟨[[], [], [], []], [[], [], [], []], []⟩
     nodeName := "sort"
     isChecked := [false] }]

def filterAndSortPlan (firstFile : String) : Plan :=
  .ofTable (filterAndSort firstFile) rfl

def sortBehindFilter : AcceleratorLibrary :=
  libraryOf [[.kFilter], [.kLinearSort], [.kFilter, .kLinearSort]]

/-- Checked streams within a run exist for some plan and library. -/
theorem observed_streams_not_always_through_memory :
    ¬∀ (P : Plan) (lib : AcceleratorLibrary) (fuel : Nat) (links : LinkedNodes)
      (o : RunsState),
      findAcceleratedQueryNodeSets lib fuel P.heap P.roots links = .ok o →
      ∀ run ∈ o.queryNodeRunsQueue, ObservedGoThroughMemory P run := by
  intro h
  obtain ⟨o, hrun, hqueue, -⟩ := placements_eq_some (n := 2)
    (show placements 2 (findAcceleratedQueryNodeSets sortBehindFilter 9
        (filterAndSortPlan "").heap (filterAndSortPlan "").roots ∅) =
      some ([([⟨.kFilter, []⟩, ⟨.kLinearSort, []⟩], [0, 1])], [1, 2]) by
        decide +kernel)
  have hobserved := h (filterAndSortPlan "") sortBehindFilter 9 ∅ o hrun
    ([⟨.kFilter, []⟩, ⟨.kLinearSort, []⟩], [0, 1]) (by simp [hqueue])
  have hstream : Stream (filterAndSortPlan "").heap 0 1 1 0 := by decide
  have hflag := (hobserved 0 (by simp) 1 (by simp) (by decide) 1 0
    hstream).notChecked
  exact absurd hflag (by decide)

/-- With both outputs checked the sort goes to a run of its own. -/
theorem observed_streams_go_through_memory_filterAndSort :
    ∃ o, findAcceleratedQueryNodeSets sortBehindFilter 9
        (filterAndSortPlan "first.csv").heap
        (filterAndSortPlan "first.csv").roots ∅ = .ok o ∧
      (∀ run ∈ o.queryNodeRunsQueue,
        ObservedGoThroughMemory (filterAndSortPlan "first.csv") run) ∧
      ∀ t ∈ schedulingCalls sortBehindFilter 9
        (RunsState.initial (filterAndSortPlan "first.csv").heap
          (filterAndSortPlan "first.csv").roots ∅),
        KeepsObservedOut (filterAndSortPlan "first.csv") sortBehindFilter t := by
  obtain ⟨o, hrun, hqueue, -⟩ := placements_eq_some (n := 2)
    (show placements 2 (findAcceleratedQueryNodeSets sortBehindFilter 9
        (filterAndSortPlan "first.csv").heap
        (filterAndSortPlan "first.csv").roots ∅) =
      some ([([⟨.kFilter, []⟩], [0]), ([⟨.kLinearSort, []⟩], [1])], [1, 1]) by
        decide +kernel)
  have hobserved : ∀ run ∈ o.queryNodeRunsQueue,
      ObservedGoThroughMemory (filterAndSortPlan "first.csv") run := by
    -- No node of a run of one node feeds itself.
    intro run hmem a ha n hn _ k m hstream
    have hsame : a ∈ (filterAndSortPlan "first.csv").nodes ∧ a = n := by
      rw [hqueue, List.mem_pair] at hmem
      rcases hmem with rfl | rfl
      · rw [List.mem_singleton.mp ha, List.mem_singleton.mp hn]
        decide
      · rw [List.mem_singleton.mp ha, List.mem_singleton.mp hn]
        decide
    obtain ⟨hnode, rfl⟩ := hsame
    exact absurd (Plan.edge_of_stream hnode hstream) Plan.not_edge_self
  exact ⟨o, hrun, hobserved,
    ((observed_streams_go_through_memory_iff).2 o hrun).mp hobserved⟩

end Orkhestra.Ports.IntermediateStreams
