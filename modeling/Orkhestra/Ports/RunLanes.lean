import Orkhestra.Ports.ModulePlacement
import Orkhestra.Ports.ScheduledPorts
import Orkhestra.Verified.LaneMachine

/-!
# The lanes of a run

The modules of a run work in the order of their positions.  When each node finds
its module at its location and modules are behind those of the nodes they are
fed by, this order agrees with the lanes of the streams, so that the run is a
lane machine (`inLanes_of_run`).
-/

namespace Orkhestra.Ports.RunLanes

open Relation
open Orkhestra.Verified.Lane
open Orkhestra.Verified.LaneMachine
open Orkhestra.Verified.VectorMap
open Orkhestra.Ports.QuerySchedulingData
open Orkhestra.Ports.NodeScheduler
open Orkhestra.Ports.ModulePlacement
open Orkhestra.Ports.ScheduledRuns
open Orkhestra.Ports.IDManager
open Orkhestra.Ports.ScheduledPorts

/-! ## Lanes and edges -/

section Lanes

variable {h : Heap} {nodes : List NodeId} {p q : Port} {a n : NodeId}
  {k m : Nat}

/-- Streams in the order of the nodes, inputs of a node before its outputs. -/
def rank (nodes : List NodeId) : Port → Nat
  | .input n _ => 2 * nodes.idxOf n
  | .output n _ => 2 * nodes.idxOf n + 1

theorem rank_lt_of_laneStep (hp : Pipeline h nodes)
    (hstep : LaneStep h nodes p q) : rank nodes p < rank nodes q := by
  cases hstep with
  | through n i => exact Nat.lt_succ_self _
  | along a k n m ha hn hstream =>
      obtain ⟨before, after, hsplit⟩ := List.append_of_mem hn
      have hbefore := hp.ordered before n after hsplit a
        (List.mem_of_getElem? hstream.2)
      have hnot : n ∉ before := fun hmem =>
        (List.nodup_append.mp (hsplit ▸ hp.nodup)).2.2 n hmem n (by simp) rfl
      have hlt : nodes.idxOf a < nodes.idxOf n := by
        rw [hsplit, List.idxOf_append_of_mem hbefore,
          List.idxOf_append_of_notMem hnot, List.idxOf_cons_self]
        have := List.idxOf_lt_length_iff.mpr hbefore
        omega
      simp only [rank]
      omega

theorem rank_lt_of_transGen (hp : Pipeline h nodes)
    (hpath : TransGen (LaneStep h nodes) p q) :
    rank nodes p < rank nodes q := by
  induction hpath with
  | single hstep => exact rank_lt_of_laneStep hp hstep
  | tail _ hstep ih => exact ih.trans (rank_lt_of_laneStep hp hstep)

theorem not_transGen_self (hp : Pipeline h nodes) (p : Port) :
    ¬TransGen (LaneStep h nodes) p p :=
  fun hpath => Nat.lt_irrefl _ (rank_lt_of_transGen hp hpath)

/-- Two outputs of one node are in one lane only when they are the same. -/
theorem output_eq_of_sameLane (hp : Pipeline h nodes)
    (hlane : SameLane (LaneStep h nodes) (.output n k) (.output n m)) :
    k = m := by
  have hboth : ∀ i j, ReflTransGen (LaneStep h nodes) (.output n i)
      (.output n j) → i = j := by
    intro i j hpath
    rcases reflTransGen_iff_eq_or_transGen.mp hpath with heq | htrans
    · cases heq
      rfl
    · exact absurd (rank_lt_of_transGen hp htrans) (Nat.lt_irrefl _)
  rcases hlane with hpath | hpath
  · exact hboth k m hpath
  · exact (hboth m k hpath).symm

end Lanes

section Edges

variable {P : Plan} {o : RunsState} {done nodes : List NodeId} {h : Heap}
  {p q : Port} {a n : NodeId} {k m : Nat}

/-- A lane leads along edges between nodes of the run. -/
theorem runEdges_of_reaches (hh : RunHeap P o nodes h) (hf : Finished P o)
    (hr : RunOf P o done nodes) (hpath : ReflTransGen (LaneStep h nodes) p q) :
    ReflTransGen (RunEdge P nodes) p.node q.node := by
  induction hpath with
  | refl => exact .refl
  | tail _ hstep ih =>
      cases hstep with
      | through n i => exact ih
      | along a k n m ha hn hstream =>
          have hplan := (hh.stream_iff hf hr ha hn).mp hstream
          exact ih.tail ⟨Plan.edge_of_stream (hr.run_mem ha) hplan, ha, hn⟩

theorem runEdges_of_output (hh : RunHeap P o nodes h) (hf : Finished P o)
    (hr : RunOf P o done nodes)
    (hpath : ReflTransGen (LaneStep h nodes) (.output a k) (.input n m)) :
    TransGen (RunEdge P nodes) a n := by
  rcases ReflTransGen.cases_head hpath with heq | ⟨r, hstep, hrest⟩
  · cases heq
  · cases hstep with
    | along _ _ b j ha hb hstream =>
        have hplan := (hh.stream_iff hf hr ha hb).mp hstream
        exact TransGen.head'
          ⟨Plan.edge_of_stream (hr.run_mem ha) hplan, ha, hb⟩
          (runEdges_of_reaches hh hf hr hrest)

end Edges

/-! ## The order of the modules -/

section Order

variable {P : Plan} {h : Heap} {run : QueryNodeRun} {n : NodeId} {i : Nat}

/-- The node of the run that the module at position `i` works for. -/
def nodeAt (P : Plan) (h : Heap) (nodes : List NodeId) (i : Nat) :
    Option NodeId :=
  (nodes.filter fun n => (P.heap n).operationType ≠ .kPassThrough ∧
    (h n).moduleLocation - 1 = (i : Int)).getLast?

/-- The nodes with a module in the order of the modules. -/
def nodeOrder (P : Plan) (h : Heap) (run : QueryNodeRun) : List NodeId :=
  (List.range run.1.length).filterMap (nodeAt P h run.2)

theorem nodeAt_eq_some_iff (hc : LocationsConsistent P h run) :
    nodeAt P h run.2 i = some n ↔
      n ∈ moduleNodes P run.2 ∧ (h n).moduleLocation - 1 = (i : Int) := by
  have hmem : ∀ n, n ∈ run.2.filter (fun n =>
      (P.heap n).operationType ≠ .kPassThrough ∧
        (h n).moduleLocation - 1 = (i : Int)) ↔
      n ∈ moduleNodes P run.2 ∧ (h n).moduleLocation - 1 = (i : Int) := by
    intro n
    rw [List.mem_filter, mem_moduleNodes, decide_eq_true_iff]
    exact and_assoc.symm
  constructor
  · intro hn
    exact (hmem n).mp (List.mem_of_getLast? hn)
  · intro hn
    have hne := List.ne_nil_of_mem ((hmem n).mpr hn)
    have hlast := (hmem _).mp (List.getLast_mem hne)
    -- No other node is at this position.
    have heq := hc.2 _ (mem_moduleNodes.mp hlast.1).1 n
      (mem_moduleNodes.mp hn.1).1 (mem_moduleNodes.mp hlast.1).2
      (mem_moduleNodes.mp hn.1).2 (by omega)
    rw [nodeAt, List.getLast?_eq_some_getLast hne, heq]

theorem mem_nodeOrder (hc : LocationsConsistent P h run) :
    n ∈ nodeOrder P h run ↔ n ∈ moduleNodes P run.2 := by
  rw [nodeOrder, List.mem_filterMap]
  constructor
  · rintro ⟨i, -, hi⟩
    exact ((nodeAt_eq_some_iff hc).mp hi).1
  · intro hn
    obtain ⟨i, operation, hlocation, hoperation, -⟩ :=
      hc.1 n (mem_moduleNodes.mp hn).1 (mem_moduleNodes.mp hn).2
    refine ⟨i, ?_, (nodeAt_eq_some_iff hc).mpr ⟨hn, hlocation⟩⟩
    exact List.mem_range.mpr (List.getElem?_eq_some_iff.mp hoperation).1

theorem nodeOrder_sorted (hc : LocationsConsistent P h run) :
    (nodeOrder P h run).Pairwise fun a b =>
      (h a).moduleLocation < (h b).moduleLocation := by
  refine List.Pairwise.filterMap _ ?_ List.pairwise_lt_range
  intro i j hij a ha b hb
  have hi := ((nodeAt_eq_some_iff hc).mp ha).2
  have hj := ((nodeAt_eq_some_iff hc).mp hb).2
  omega

/-- The nodes before a node are those with a lower location. -/
theorem mem_before_iff (hc : LocationsConsistent P h run)
    {before after : List NodeId} {a : NodeId}
    (hsplit : nodeOrder P h run = before ++ n :: after)
    (ha : a ∈ nodeOrder P h run) :
    a ∈ before ↔ (h a).moduleLocation < (h n).moduleLocation := by
  have hsorted := nodeOrder_sorted hc
  rw [hsplit, List.pairwise_append] at hsorted
  obtain ⟨-, hafter, hbefore⟩ := hsorted
  constructor
  · exact fun hmem => hbefore a hmem n List.mem_cons_self
  · intro hlt
    rw [hsplit, List.mem_append, List.mem_cons] at ha
    rcases ha with hmem | rfl | hmem
    · exact hmem
    · exact absurd hlt (lt_irrefl _)
    · have := (List.pairwise_cons.mp hafter).1 a hmem
      omega

end Order

/-! ## A run is a lane machine -/

section Run

variable {P : Plan} {o : RunsState} {done : List NodeId} {run : QueryNodeRun}
  {h : Heap} {ids : StreamIds} {V : Type}

/-- Register of a stream. -/
def streamLabel (h : Heap) (ids : StreamIds) (p : Port) : Nat :=
  (ids.id h p).getD 0

def inputPorts (h : Heap) (n : NodeId) : List Port :=
  (List.range (h n).previousNodes.length).map (.input n)

def outputPorts (h : Heap) (n : NodeId) : List Port :=
  (List.range (h n).nextNodes.length).map (.output n)

theorem mem_inputPorts {p : Port} {n : NodeId} : p ∈ inputPorts h n ↔
    ∃ m < (h n).previousNodes.length, p = .input n m := by
  simp [inputPorts, eq_comm]

theorem mem_outputPorts {p : Port} {n : NodeId} : p ∈ outputPorts h n ↔
    ∃ k < (h n).nextNodes.length, p = .output n k := by
  simp [outputPorts, eq_comm]

/-- An input of the run that is read from memory. -/
def FromMemory (h : Heap) (nodes : List NodeId) (p : Port) : Prop :=
  ∃ n ∈ nodes, ∃ m : Nat, p = .input n m ∧
    (h n).previousNodes[m]? = some none

theorem streamLabel_eq_iff (hp : Pipeline h run.2)
    (hs : Allocated h run.2 ids) {p q : Port} (hvp : p.Valid h run.2)
    (hvq : q.Valid h run.2) :
    streamLabel h ids p = streamLabel h ids q ↔
      SameLane (LaneStep h run.2) p q := by
  rw [← hs.id_eq_iff hp hvp hvq]
  obtain ⟨id, -, hid⟩ := hs.id_lt hp hvp
  obtain ⟨id', -, hid'⟩ := hs.id_lt hp hvq
  simp [streamLabel, hid, hid']

/-- Without more outputs than inputs, all lanes begin in memory. -/
theorem reached_from_memory (hp : Pipeline h run.2)
    (houtputs : ∀ n ∈ run.2,
      (h n).nextNodes.length ≤ (h n).previousNodes.length)
    {p : Port} (hvalid : p.Valid h run.2) :
    ∃ r, FromMemory h run.2 r ∧ ReflTransGen (LaneStep h run.2) r p := by
  obtain ⟨r, hr, hpath⟩ := reached_from_head hp hvalid
  refine ⟨r, ?_, hpath⟩
  obtain ⟨n, hn, hr⟩ := List.mem_flatMap.mp hr
  rcases List.mem_append.mp hr with hr | hr
  · obtain ⟨m, hm, rfl⟩ := List.mem_map.mp hr
    simp only [freeInputs, List.mem_filter, beq_iff_eq] at hm
    exact ⟨n, hn, m, rfl, hm.2⟩
  · have hle := houtputs n hn
    rw [hp.inputs n hn, hp.outputs n hn] at hle
    simp [leftoverOutputs, Nat.sub_eq_zero_of_le hle] at hr

theorem inLanes_of_run (hh : RunHeap P o run.2 h) (hf : Finished P o)
    (hr : RunOf P o done run.2) (hp : Pipeline h run.2)
    (hs : Allocated h run.2 ids)
    (houtputs : ∀ n ∈ run.2,
      (h n).nextNodes.length ≤ (h n).previousNodes.length)
    (hlocated : LocationsConsistent P h run) (hflow : FollowsDataFlow P h run)
    {stage : NodeId → Stage Nat V}
    (hreads : ∀ n ∈ run.2,
      (stage n).reads = (inputPorts h n).map (streamLabel h ids))
    (hwrites : ∀ n ∈ run.2,
      (stage n).writes = (outputPorts h n).map (streamLabel h ids)) :
    InLanes (LaneStep h run.2) (Port.Valid h run.2) (streamLabel h ids) stage
      (inputPorts h) (outputPorts h) (FromMemory h run.2)
      (nodeOrder P h run) := by
  have hmodule : ∀ n ∈ nodeOrder P h run, n ∈ run.2 := fun n hn =>
    (mem_moduleNodes.mp ((mem_nodeOrder hlocated).mp hn)).1
  have hin : ∀ n ∈ nodeOrder P h run, ∀ q ∈ inputPorts h n,
      q.Valid h run.2 := by
    intro n hn q hq
    obtain ⟨m, hm, rfl⟩ := mem_inputPorts.mp hq
    exact ⟨hmodule n hn, hp.inputs n (hmodule n hn) ▸ hm⟩
  have hout : ∀ n ∈ nodeOrder P h run, ∀ q ∈ outputPorts h n,
      q.Valid h run.2 := by
    intro n hn q hq
    obtain ⟨k, hk, rfl⟩ := mem_outputPorts.mp hq
    exact ⟨hmodule n hn, hp.outputs n (hmodule n hn) ▸ hk⟩
  have hsorted := nodeOrder_sorted hlocated
  -- Along the data flow the locations rise.
  have hlater : ∀ a ∈ nodeOrder P h run, ∀ n ∈ nodeOrder P h run,
      TransGen (RunEdge P run.2) a n →
        (h a).moduleLocation < (h n).moduleLocation := fun a ha n hn =>
    hflow a ((mem_nodeOrder hlocated).mp ha) n ((mem_nodeOrder hlocated).mp hn)
  refine ⟨?_, fun n hn => hreads n (hmodule n hn),
    fun n hn => hwrites n (hmodule n hn), ?_, hin, hout, not_transGen_self hp,
    ?_, ?_, ?_, ?_, ?_⟩
  · exact hsorted.imp fun hlt heq => absurd hlt (by rw [heq]; exact lt_irrefl _)
  · intro n hn
    rw [hwrites n (hmodule n hn), outputPorts, List.map_map]
    refine List.Nodup.map_on ?_ List.nodup_range
    intro i hi j hj heq
    refine output_eq_of_sameLane hp ((streamLabel_eq_iff hp hs ?_ ?_).mp heq)
    · exact hout n hn _
        (mem_outputPorts.mpr ⟨i, List.mem_range.mp hi, rfl⟩)
    · exact hout n hn _
        (mem_outputPorts.mpr ⟨j, List.mem_range.mp hj, rfl⟩)
  · intro p q hstep
    rw [streamLabel, streamLabel, hs.keep hp p q hstep]
  · intro p q hvp hvq heq
    exact (streamLabel_eq_iff hp hs hvp hvq).mp heq
  · intro n hn q hq
    obtain ⟨r, hmemory, hpath⟩ :=
      reached_from_memory hp houtputs (hin n hn q hq)
    exact ⟨r, .inl hmemory, hpath⟩
  · intro before n after hsplit q hq a ha q' hq'
    have hn : n ∈ nodeOrder P h run := by simp [hsplit]
    obtain ⟨m, -, rfl⟩ := mem_inputPorts.mp hq
    obtain ⟨k, -, rfl⟩ := mem_outputPorts.mp hq'
    rw [mem_before_iff hlocated hsplit ha, not_lt]
    constructor
    · intro hpath
      exact hlater a ha n hn (runEdges_of_output hh hf hr hpath)
    · intro hpath
      rcases reflTransGen_iff_eq_or_transGen.mp
        (runEdges_of_reaches hh hf hr hpath) with heq | htrans
      · exact le_of_eq (congrArg _ (congrArg h heq.symm))
      · exact (hlater n hn a ha htrans).le
  · intro before n after hsplit q hq a ha q' hq' hpath
    have hn : n ∈ nodeOrder P h run := by simp [hsplit]
    have ha' : a ∈ nodeOrder P h run := by simp [hsplit, ha]
    obtain ⟨k, -, rfl⟩ := mem_outputPorts.mp hq
    obtain ⟨j, -, rfl⟩ := mem_outputPorts.mp hq'
    have hlt := (mem_before_iff hlocated hsplit ha').mp ha
    rcases reflTransGen_iff_eq_or_transGen.mp
      (runEdges_of_reaches hh hf hr hpath) with heq | htrans
    · rw [show a = n from heq] at hlt
      exact absurd hlt (lt_irrefl _)
    · exact absurd hlt (hlater n hn a ha' htrans).asymm

end Run

end Orkhestra.Ports.RunLanes
