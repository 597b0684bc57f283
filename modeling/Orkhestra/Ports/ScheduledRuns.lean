import Orkhestra.Ports.HandOver
import Mathlib.Data.List.Pairwise

/-!
# One run of a schedule

A run of a finished schedule, seen from the nodes `done` of the runs before it:
the nodes of both are all different, producers come first, and being in the same
run is membership.
-/

namespace Orkhestra.Ports.ScheduledRuns

open Orkhestra.Ports.QuerySchedulingData
open Orkhestra.Ports.NodeScheduler
open Orkhestra.Ports.SchedulePartition
open Orkhestra.Ports.HandOver

variable {P : Plan} {lib : AcceleratorLibrary} {fuel : Nat} {o : RunsState}

/-- `o` is a schedule of the plan. -/
structure Finished (P : Plan) (o : RunsState) : Prop where
  single : P.SingleEdges
  handedOver : HandedOver P o
  mem_iff : ∀ n, n ∈ o.scheduledQueries ↔ n ∈ P.nodes
  nodeName : ∀ n, (o.heap n).nodeName = (P.heap n).nodeName
  operationParameters : ∀ n,
    (o.heap n).operationParameters = (P.heap n).operationParameters

theorem finished_of_run (hsingle : P.SingleEdges)
    (hrun : findAcceleratedQueryNodeSets lib fuel P.heap P.roots ∅ = .ok o) :
    Finished P o := by
  obtain ⟨ho, -⟩ := scheduled_of_run hrun
  obtain ⟨hs, hall⟩ := handedOver_of_run hsingle hrun
  exact ⟨hsingle, hs, fun n => ⟨ho.frontier.mem_nodes n, hall n⟩,
    ho.tracks.nodeName, ho.tracks.operationParameters⟩

/-- The nodes `run` are run after the nodes `done`. -/
structure RunOf (P : Plan) (o : RunsState) (done run : List NodeId) :
    Prop where
  nodup : (done ++ run).Nodup
  mem_nodes : ∀ n ∈ done ++ run, n ∈ P.nodes
  same_run_iff : ∀ a ∈ run, ∀ b, SameRun o.queryNodeRunsQueue a b ↔ b ∈ run
  same_run_done : ∀ a ∈ done, ∀ b, SameRun o.queryNodeRunsQueue a b → b ∈ done
  producers : ∀ before n after, run = before ++ n :: after →
    ∀ a, P.Edge a n → a ∈ done ++ before
  producers_done : ∀ n ∈ done, ∀ a, P.Edge a n → a ∈ done

section RunOf

variable {done run : List NodeId}

/-- A node is in one run. -/
theorem run_unique {runs : List QueryNodeRun} (hnodup : (runNodes runs).Nodup)
    {r r' : QueryNodeRun} (hr : r ∈ runs) (hr' : r' ∈ runs) {a : NodeId}
    (ha : a ∈ r.2) (ha' : a ∈ r'.2) : r = r' := by
  by_contra hne
  have hpairwise := (List.nodup_flatMap.mp hnodup).2
  have hsymm : Std.Symm (Function.onFun List.Disjoint
      fun r : QueryNodeRun => r.2) := ⟨fun _ _ h => List.Disjoint.symm h⟩
  have hdisjoint := hpairwise.forall hr hr' hne
  exact hdisjoint ha ha'

theorem runOf_of_run
    (hrun : findAcceleratedQueryNodeSets lib fuel P.heap P.roots ∅ = .ok o)
    {before after : List QueryNodeRun} {run : QueryNodeRun}
    (hsplit : o.queryNodeRunsQueue = before ++ run :: after) :
    RunOf P o (runNodes before) run.2 := by
  obtain ⟨ho, hnil⟩ := scheduled_of_run hrun
  have hfrontier := ho.frontier
  rw [hnil] at hfrontier
  have hnodup := hfrontier.nodup
  rw [ho.runs] at hnodup
  have hnodes : o.scheduledQueries =
      runNodes before ++ (run.2 ++ runNodes after) := by
    rw [ho.runs, hsplit]
    simp [runNodes]
  have hmem : run ∈ o.queryNodeRunsQueue := by simp [hsplit]
  have hunique : ∀ a, ∀ r ∈ o.queryNodeRunsQueue, ∀ r' ∈ o.queryNodeRunsQueue,
      a ∈ r.2 → a ∈ r'.2 → r = r' :=
    fun a r hr r' hr' => run_unique hnodup hr hr'
  refine ⟨?_, ?_, ?_, ?_, ?_, ?_⟩
  · have hall := hfrontier.nodup
    rw [hnodes, ← List.append_assoc] at hall
    exact (List.nodup_append.mp hall).1
  · intro n hn
    refine hfrontier.mem_nodes n ?_
    rw [hnodes, ← List.append_assoc]
    exact List.mem_append_left _ hn
  · intro a ha b
    constructor
    · rintro ⟨r, hr, har, hbr⟩
      rwa [hunique a run hmem r hr ha har]
    · exact fun hb => ⟨run, hmem, ha, hb⟩
  · rintro a ha b ⟨r, hr, har, hbr⟩
    obtain ⟨r', hr', har'⟩ := List.mem_flatMap.mp ha
    have heq := hunique a r' (by simp [hsplit, hr']) r hr har' har
    exact List.mem_flatMap.mpr ⟨r', hr', heq ▸ hbr⟩
  · intro earlier n later hrunSplit a hedge
    refine hfrontier.ordered (runNodes before ++ earlier) n
      (later ++ runNodes after) ?_ a hedge
    rw [hnodes, hrunSplit]
    simp
  · intro n hn a hedge
    obtain ⟨earlier, later, hdone⟩ := List.append_of_mem hn
    have ha := hfrontier.ordered earlier n (later ++ (run.2 ++ runNodes after))
      (by rw [hnodes, hdone]; simp) a hedge
    rw [hdone]
    exact List.mem_append_left _ ha

theorem RunOf.run_nodup (h : RunOf P o done run) : run.Nodup :=
  (List.nodup_append.mp h.nodup).2.1

theorem RunOf.not_done (h : RunOf P o done run) {n : NodeId} (hn : n ∈ run) :
    n ∉ done :=
  fun hdone => (List.nodup_append.mp h.nodup).2.2 n hdone n hn rfl

theorem RunOf.run_mem (h : RunOf P o done run) {n : NodeId} (hn : n ∈ run) :
    n ∈ P.nodes :=
  h.mem_nodes n (List.mem_append_right _ hn)

theorem RunOf.done_mem (h : RunOf P o done run) {n : NodeId} (hn : n ∈ done) :
    n ∈ P.nodes :=
  h.mem_nodes n (List.mem_append_left _ hn)

/-- The pointers to producers that the schedule keeps stay in the run, and
point backwards. -/
theorem RunOf.ordered (h : RunOf P o done run) (hf : Finished P o)
    {before after : List NodeId} {n a : NodeId}
    (hsplit : run = before ++ n :: after)
    (ha : some a ∈ (o.heap n).previousNodes) : a ∈ before := by
  have hn : n ∈ run := by simp [hsplit]
  have hnode := h.run_mem hn
  obtain ⟨m, hm⟩ := List.mem_iff_getElem?.mp ha
  obtain ⟨hplan, hsame⟩ :=
    hf.handedOver.cleared n ((hf.mem_iff n).mpr hnode) m a hm
  have hrun : a ∈ run := (h.same_run_iff n hn a).mp hsame.symm
  have hedge := (Plan.edge_iff_previous hnode).mpr (List.mem_of_getElem? hplan)
  rcases List.mem_append.mp (h.producers before n after hsplit a hedge) with
    hdone | hbefore
  · exact absurd hdone (h.not_done hrun)
  · exact hbefore

end RunOf

end Orkhestra.Ports.ScheduledRuns
