import Orkhestra.Ports.SchedulePartition

/-!
# Runs are greedily maximal

`CheckNodeForModuleSet` begins again with the first starting node after every
placement, so whatever has been rejected since the last placement has been
rejected against the modules and the nodes that the run has now (`Rejected`).
When the outermost call returns, that is all of the starting nodes.
-/

namespace Orkhestra.Ports.GreedyRuns

open Orkhestra.Verified.Checked
open Orkhestra.Verified.Loop
open Orkhestra.Ports.QuerySchedulingData
open Orkhestra.Ports.NodeScheduler
open Orkhestra.Ports.SchedulePartition

/-- The search finds no combination of modules for `n` in the run as it is. -/
def CannotJoin (lib : AcceleratorLibrary) (s : SchedulerState) (n : NodeId) :
    Prop :=
  findSuitableModuleCombination s.heap n
    (createReferenceVector s.heap s.currentQueryNodes) s.currentModulesVector
    lib = .ok (s.heap, [])

/-- The starting nodes in front of the one to be tried cannot join the run. -/
def Rejected (lib : AcceleratorLibrary) (s : SchedulerState) : Prop :=
  ∀ i < s.previousNodeIndex, ∀ n, s.startingNodes[i]? = some n →
    CannotJoin lib s n

section Run

variable {lib : AcceleratorLibrary} {s s' : SchedulerState}

theorem rejected_of_zero (h : s.previousNodeIndex = 0) : Rejected lib s := by
  intro i hi
  omega

/-- A call that rejects a node has not changed the heap. -/
theorem cannotJoin_of_nil {n : NodeId} {heap : Heap}
    (hfind : findSuitableModuleCombination s.heap n
      (createReferenceVector s.heap s.currentQueryNodes) s.currentModulesVector
      lib = .ok (heap, [])) : heap = s.heap ∧ CannotJoin lib s n := by
  have hheap :=
    (findSuitableModuleCombination_cases hfind).heap_eq_of_nil rfl
  subst hheap
  exact ⟨rfl, hfind⟩

/-- The node that was tried is the next one of those that cannot join. -/
theorem Rejected.skip (h : Rejected lib s) {n : NodeId}
    (hn : s.startingNodes[s.previousNodeIndex]? = some n)
    (hjoin : CannotJoin lib s n) :
    ∀ i ≤ s.previousNodeIndex, ∀ m, s.startingNodes[i]? = some m →
      CannotJoin lib s m := by
  intro i hi m hm
  rcases Nat.lt_or_eq_of_le hi with hlt | rfl
  · exact h i hlt m hm
  · rwa [Option.some.inj (hm.symm.trans hn)]

theorem Rejected.step (h : Rejected lib s)
    (hbody : checkNodeForModuleSetBody lib s = .ok (.again s')) :
    Rejected lib s' := by
  obtain ⟨n, heap, modules, hn, hfind, hnext⟩ := body_eq_ok hbody
  split at hnext
  · -- After a placement the starting nodes are tried from the first one on.
    split at hnext
    · cases hnext
      exact rejected_of_zero rfl
    · cases hnext
  · next hnil =>
      rw [not_not] at hnil
      subst hnil
      obtain ⟨rfl, hjoin⟩ := cannotJoin_of_nil hfind
      split at hnext
      · cases hnext
        intro i hi m hm
        exact h.skip hn hjoin i (Nat.le_of_lt_succ hi) m hm
      · cases hnext

/-- The last call rejects the last starting node, or leaves none. -/
theorem Rejected.done (h : Rejected lib s)
    (hbody : checkNodeForModuleSetBody lib s = .ok (.done s')) :
    ∀ n ∈ s'.startingNodes, CannotJoin lib s' n := by
  obtain ⟨n, heap, modules, hn, hfind, hnext⟩ := body_eq_ok hbody
  split at hnext
  · split at hnext
    · cases hnext
    · next hempty =>
        cases hnext
        rw [not_not] at hempty
        intro m hm
        rw [hempty] at hm
        exact absurd hm List.not_mem_nil
  · next hnil =>
      rw [not_not] at hnil
      subst hnil
      obtain ⟨rfl, hjoin⟩ := cannotJoin_of_nil hfind
      split at hnext
      · cases hnext
      · next hlast =>
          cases hnext
          intro m hm
          obtain ⟨i, hi⟩ : ∃ i : Nat, s.startingNodes[i]? = some m :=
            List.mem_iff_getElem?.mp hm
          have hlt := (List.getElem?_eq_some_iff.mp hi).1
          exact h.skip hn hjoin i (by omega) m hi

/-- Nothing that is left over when a run is closed can join it. -/
theorem cannotJoin_of_run {fuel : Nat} (hzero : s.previousNodeIndex = 0)
    (hrun : checkNodeForModuleSet lib fuel s = .ok s') :
    ∀ n ∈ s'.startingNodes, CannotJoin lib s' n :=
  iterate_invariant (Rejected lib)
    (fun s' => ∀ n ∈ s'.startingNodes, CannotJoin lib s' n)
    (fun _ _ h hbody => h.step hbody) (fun _ _ h hbody => h.done hbody)
    (rejected_of_zero hzero) hrun

end Run

/-- Every run of a schedule is maximal when it is closed: the starting nodes are
all nodes that could be executed next, and none of them can join the run. -/
theorem runs_greedily_maximal (P : Plan) (lib : AcceleratorLibrary)
    (links : LinkedNodes) (fuel : Nat) :
    ∀ o ∈ visited (findNextRun lib fuel) fuel
        (RunsState.initial P.heap P.roots links),
      ∀ s, checkNodeForModuleSet lib fuel o.firstCall = .ok s →
        (∀ n ∈ s.startingNodes, CannotJoin lib s n) ∧
        ∀ n, Ready P s.scheduledQueries n → n ∈ s.startingNodes := by
  intro o ho s hrun
  have hscheduled : Scheduled P lib o := by
    refine visited_invariant (Scheduled P lib) ?_
      (Scheduled.initial P lib links) o ho
    intro o o' ho hbody
    exact (ho.step hbody).1
  refine ⟨cannotJoin_of_run rfl hrun, ?_⟩
  intro n hn
  exact ((hscheduled.firstCall.run hrun).frontier.mem_starting n).mpr hn

/-! ### A chain of two filters

The library has no bitstream with two filters, so the second one is left over.
-/

def filterThenFilter : List QueryNode :=
  [{ inputDataDefinitionFiles := ["a.csv"]
     outputDataDefinitionFiles := [""]
     operationType := .kFilter
     nextNodes := [some 1]
     previousNodes := [none]
     operationParameters := ⟨[[], [], [], []], [[], [], [], []], []⟩
     nodeName := "first"
     isChecked := [false] },
   { inputDataDefinitionFiles := [""]
     outputDataDefinitionFiles := [""]
     operationType := .kFilter
     nextNodes := [none]
     previousNodes := [some 0]
     operationParameters := ⟨[[], [], [], []], [[], [], [], []], []⟩
     nodeName := "second"
     isChecked := [false] }]

def filterThenFilterPlan : Plan := .ofTable filterThenFilter (by decide)

theorem runs_greedily_maximal_filterThenFilter :
    ∃ s, checkNodeForModuleSet (libraryOf [[.kFilter]]) 16
        (RunsState.initial filterThenFilterPlan.heap filterThenFilterPlan.roots
          ∅).firstCall = .ok s ∧
      s.currentQueryNodes = [0] ∧ CannotJoin (libraryOf [[.kFilter]]) s 1 := by
  let o := RunsState.initial filterThenFilterPlan.heap
    filterThenFilterPlan.roots ∅
  have hrun : (checkNodeForModuleSet (libraryOf [[.kFilter]]) 16 o.firstCall >>=
      fun s => Except.ok (s.currentQueryNodes, s.startingNodes)).toOption =
      some ([0], [1]) := by decide +kernel
  rw [toOption_eq_some, bind_eq_ok] at hrun
  obtain ⟨s, hs, hparts⟩ := hrun
  have hmaximal := (runs_greedily_maximal filterThenFilterPlan
    (libraryOf [[.kFilter]]) ∅ 16 o List.mem_cons_self s hs).1
  obtain ⟨hnodes, hstarting⟩ := Prod.mk.inj (Except.ok.inj hparts)
  exact ⟨s, hs, hnodes, hmaximal 1 (by rw [hstarting]; decide)⟩

end Orkhestra.Ports.GreedyRuns
