import Orkhestra.Verified.Checked
import Orkhestra.Verified.Occurrence
import Mathlib.Logic.Relation
import Mathlib.Logic.Function.Basic
import Mathlib.Data.List.Nodup
import Mathlib.Data.Set.Finite.Basic
import Mathlib.Order.WellFounded

/-!
# Query nodes and plans

`query_scheduling_data.hpp`: the nodes of a query plan.  Nodes are shared and
mutated through pointers, so a pointer is a `NodeId` and the nodes live in a
`Heap`; a null pointer is `none`.  Every node that a weak pointer refers to is
also held by a shared pointer for as long as the plan is scheduled and run, so
weak pointers are pointers here.

`Plan` is a query plan as the graph creator hands it over: pointers stay within
the plan, names are unique, `next_nodes` and `previous_nodes` agree, there are
no cycles, and the roots are the nodes without a producer.
-/

namespace Orkhestra.Ports.QuerySchedulingData

open Orkhestra.Verified.Checked
open Orkhestra.Verified.Occurrence

/-! ## The data -/

inductive QueryOperationType where
  | kFilter
  | kJoin
  | kMergeSort
  | kPassThrough
  | kLinearSort
  | kAddition
  | kMultiplication
  | kAggregationSum
  deriving DecidableEq, Repr, Inhabited

/-- An operation type with the resource elasticity data that tells the modules
for one operation apart. -/
structure QueryOperation where
  operationType : QueryOperationType
  resourceElasticityData : List Int
  deriving DecidableEq, Repr

/-- Modules of an accelerator, in the order of the datapath. -/
abbrev ConfigurableModulesVector := List QueryOperation

structure NodeOperationParameters where
  inputStreamParameters : List (List Int)
  outputStreamParameters : List (List Int)
  operationParameters : List (List Int)
  deriving DecidableEq, Repr, Inhabited

/-- A pointer to a query node. -/
abbrev NodeId := Nat

structure QueryNode where
  inputDataDefinitionFiles : List String
  outputDataDefinitionFiles : List String
  operationType : QueryOperationType
  nextNodes : List (Option NodeId)
  previousNodes : List (Option NodeId)
  operationParameters : NodeOperationParameters
  moduleLocation : Int := -1
  nodeName : String
  isChecked : List Bool
  deriving DecidableEq, Repr, Inhabited

/-- The nodes that pointers refer to. -/
abbrev Heap := NodeId → QueryNode

/-- `pointer->field = value`, for any field. -/
def Heap.modify (h : Heap) (n : NodeId) (f : QueryNode → QueryNode) : Heap :=
  fun m => if m = n then f (h m) else h m

@[simp] theorem Heap.modify_same (h : Heap) (n : NodeId)
    (f : QueryNode → QueryNode) : h.modify n f n = f (h n) := by
  simp [Heap.modify]

@[simp] theorem Heap.modify_of_ne (h : Heap) {n m : NodeId} (hne : m ≠ n)
    (f : QueryNode → QueryNode) : h.modify n f m = h m := by
  simp [Heap.modify, hne]

theorem Heap.modify_modify (h : Heap) (n : NodeId)
    (f g : QueryNode → QueryNode) :
    (h.modify n f).modify n g = h.modify n fun node => g (f node) := by
  funext m
  by_cases hm : m = n
  · subst hm
    simp
  · simp [hm]

/-- Copies of the nodes that a vector of pointers refers to. -/
def createReferenceVector (h : Heap) (pointers : List NodeId) :
    List QueryNode :=
  pointers.map h

/-- Layout of the stream parameters: four vectors for each stream. -/
def kStreamParamCount : Nat := 4

def kProjectionOffset : Nat := 0

def kDataTypesOffset : Nat := 1

def kDataSizesOffset : Nat := 2

def kChunkCountOffset : Nat := 3

/-- Number of stream ids of the interface. -/
def kMaxIOStreamCount : Nat := 16

/-! ## Plans -/

/-- `a` feeds `b` through some output. -/
def Feeds (h : Heap) (a b : NodeId) : Prop := some b ∈ (h a).nextNodes

instance (h : Heap) (a b : NodeId) : Decidable (Feeds h a b) :=
  inferInstanceAs (Decidable (some b ∈ (h a).nextNodes))

/-- `a.k → n.m`: output `k` of `a` is input `m` of `n`. -/
def Stream (h : Heap) (a : NodeId) (k : Nat) (n : NodeId) (m : Nat) : Prop :=
  (h a).nextNodes[k]? = some (some n) ∧ (h n).previousNodes[m]? = some (some a)

instance (h : Heap) (a : NodeId) (k : Nat) (n : NodeId) (m : Nat) :
    Decidable (Stream h a k n m) :=
  inferInstanceAs (Decidable (_ ∧ _))

/-- No node is pointed to twice. -/
def Distinct (pointers : List (Option NodeId)) : Prop :=
  pointers.Pairwise fun p q => p ≠ none → p ≠ q

instance (pointers : List (Option NodeId)) : Decidable (Distinct pointers) :=
  inferInstanceAs (Decidable (List.Pairwise _ _))

theorem Distinct.count_le_one {pointers : List (Option NodeId)}
    (h : Distinct pointers) (n : NodeId) : pointers.count (some n) ≤ 1 := by
  induction pointers with
  | nil => simp
  | cons pointer rest ih =>
      obtain ⟨hhead, hrest⟩ := List.pairwise_cons.mp h
      rw [List.count_cons]
      split
      · next heq =>
          rw [beq_iff_eq] at heq
          subst heq
          have hnot : some n ∉ rest :=
            fun hmem => hhead (some n) hmem (by simp) rfl
          rw [List.count_eq_zero_of_not_mem hnot]
      · exact ih hrest

theorem distinct_of_count {pointers : List (Option NodeId)}
    (h : ∀ n, pointers.count (some n) ≤ 1) : Distinct pointers := by
  induction pointers with
  | nil => exact List.Pairwise.nil
  | cons pointer rest ih =>
      refine List.pairwise_cons.mpr ⟨?_, ih fun n => ?_⟩
      · intro q hq hsome heq
        subst heq
        obtain ⟨n, rfl⟩ := Option.ne_none_iff_exists'.mp hsome
        have hone := h n
        rw [List.count_cons_self] at hone
        have := List.count_pos_iff.mpr hq
        omega
      · exact (List.sublist_cons_self pointer rest).count_le _ |>.trans (h n)

theorem Distinct.index_unique {pointers : List (Option NodeId)}
    (h : Distinct pointers) {i j : Nat} {n : NodeId}
    (hi : pointers[i]? = some (some n)) (hj : pointers[j]? = some (some n)) :
    i = j :=
  index_unique_of_count (h.count_le_one n) hi hj

/-- Nodes of a query plan, well formed. -/
structure Plan where
  nodes : List NodeId
  heap : Heap
  roots : List NodeId
  nodup : nodes.Nodup
  nameInjective : ∀ a ∈ nodes, ∀ b ∈ nodes,
    (heap a).nodeName = (heap b).nodeName → a = b
  next_mem : ∀ a ∈ nodes, ∀ b, some b ∈ (heap a).nextNodes → b ∈ nodes
  previous_mem : ∀ b ∈ nodes, ∀ a, some a ∈ (heap b).previousNodes → a ∈ nodes
  consistent : ∀ a ∈ nodes, ∀ b ∈ nodes,
    some b ∈ (heap a).nextNodes ↔ some a ∈ (heap b).previousNodes
  acyclic : ∀ a ∈ nodes, ¬Relation.TransGen
    (fun a b => a ∈ nodes ∧ Feeds heap a b) a a
  roots_nodup : roots.Nodup
  mem_roots : ∀ n, n ∈ roots ↔
    n ∈ nodes ∧ ∀ a, some a ∉ (heap n).previousNodes

namespace Plan

variable (P : Plan)

/-- An edge of the plan. -/
def Edge (a b : NodeId) : Prop := a ∈ P.nodes ∧ Feeds P.heap a b

variable {P}

theorem Edge.left {a b : NodeId} (h : P.Edge a b) : a ∈ P.nodes := h.1

theorem Edge.right {a b : NodeId} (h : P.Edge a b) : b ∈ P.nodes :=
  P.next_mem a h.1 b h.2

theorem edge_iff_previous {a b : NodeId} (hb : b ∈ P.nodes) :
    P.Edge a b ↔ some a ∈ (P.heap b).previousNodes := by
  constructor
  · intro h
    exact (P.consistent a h.left b hb).mp h.2
  · intro h
    have ha := P.previous_mem b hb a h
    exact ⟨ha, (P.consistent a ha b hb).mpr h⟩

theorem not_edge_self {a : NodeId} : ¬P.Edge a a := by
  intro h
  exact P.acyclic a h.left (.single h)

/-- An edge is a stream between some output and some input. -/
theorem Edge.stream {a b : NodeId} (h : P.Edge a b) :
    ∃ k m, Stream P.heap a k b m := by
  obtain ⟨k, hk⟩ := List.mem_iff_getElem?.mp h.2
  obtain ⟨m, hm⟩ :=
    List.mem_iff_getElem?.mp ((Plan.edge_iff_previous h.right).mp h)
  exact ⟨k, m, hk, hm⟩

theorem edge_of_stream {a b : NodeId} {k m : Nat} (ha : a ∈ P.nodes)
    (h : Stream P.heap a k b m) : P.Edge a b :=
  ⟨ha, List.mem_of_getElem? h.1⟩

/-- The ends of a stream are in range, so that a concrete plan can be searched
for its streams. -/
theorem forall_stream {p : NodeId → Nat → NodeId → Nat → Prop}
    (hp : ∀ a ∈ P.nodes, ∀ b ∈ P.nodes, ∀ k < (P.heap a).nextNodes.length,
      ∀ m < (P.heap b).previousNodes.length,
        Stream P.heap a k b m → p a k b m)
    {a b : NodeId} {k m : Nat} (ha : a ∈ P.nodes)
    (h : Stream P.heap a k b m) : p a k b m := by
  have hb := (edge_of_stream ha h).right
  have hk := (List.getElem?_eq_some_iff.mp h.1).1
  have hm := (List.getElem?_eq_some_iff.mp h.2).1
  exact hp a ha b hb k hk m hm h

/-- At most one edge between any two nodes. -/
def SingleEdges (P : Plan) : Prop :=
  ∀ n ∈ P.nodes, Distinct (P.heap n).nextNodes ∧
    Distinct (P.heap n).previousNodes

instance (P : Plan) : Decidable P.SingleEdges :=
  inferInstanceAs (Decidable (∀ n ∈ P.nodes, _))

/-- In a nonempty set of nodes some node has all of its producers outside. -/
theorem exists_minimal (p : NodeId → Prop) {n : NodeId} (hn : n ∈ P.nodes)
    (hp : p n) :
    ∃ m ∈ P.nodes, p m ∧ ∀ a, P.Edge a m → ¬p a := by
  let R : {n // n ∈ P.nodes} → {n // n ∈ P.nodes} → Prop :=
    fun a b => Relation.TransGen P.Edge a.val b.val
  have hirrefl : Std.Irrefl R := ⟨fun a h => P.acyclic a.val a.property h⟩
  have htrans : IsTrans _ R := ⟨fun _ _ _ hab hbc => hab.trans hbc⟩
  have hfinite : Finite {n // n ∈ P.nodes} :=
    (List.finite_toSet P.nodes).to_subtype
  have hwf : WellFounded R := Finite.wellFounded_of_trans_of_irrefl R
  obtain ⟨m, hm, hmin⟩ := hwf.has_min {m | p m.val} ⟨⟨n, hn⟩, hp⟩
  refine ⟨m.val, m.property, hm, ?_⟩
  intro a ha hpa
  exact hmin ⟨a, ha.left⟩ hpa (.single ha)

/-- Reachable from the roots along edges. -/
def Reachable (P : Plan) (n : NodeId) : Prop :=
  ∃ r ∈ P.roots, Relation.ReflTransGen P.Edge r n

theorem Reachable.mem {n : NodeId} (h : P.Reachable n) : n ∈ P.nodes := by
  obtain ⟨r, hr, hpath⟩ := h
  induction hpath with
  | refl => exact ((P.mem_roots r).mp hr).1
  | tail _ hedge _ => exact hedge.right

end Plan

/-! ## Plans from tables

A table that lists every node behind its producers is checked by evaluation.
-/

def tableHeap (table : List QueryNode) : Heap := fun n => table[n]?.getD default

def isWellFormedTable (table : List QueryNode) : Bool :=
  decide (table.map (·.nodeName)).Nodup &&
    (List.range table.length).all fun n =>
      ((tableHeap table n).nextNodes.all fun pointer =>
        match pointer with
        | none => true
        | some b => n < b && b < table.length &&
            (tableHeap table b).previousNodes.contains (some n)) &&
      (tableHeap table n).previousNodes.all fun pointer =>
        match pointer with
        | none => true
        | some a => a < n && (tableHeap table a).nextNodes.contains (some n)

section Table

variable {table : List QueryNode}

theorem table_next (h : isWellFormedTable table = true) {a b : NodeId}
    (ha : a < table.length) (hb : some b ∈ (tableHeap table a).nextNodes) :
    a < b ∧ b < table.length ∧
      some a ∈ (tableHeap table b).previousNodes := by
  rw [isWellFormedTable, Bool.and_eq_true, List.all_eq_true] at h
  have hnode := h.2 a (List.mem_range.mpr ha)
  rw [Bool.and_eq_true, List.all_eq_true] at hnode
  simpa [and_assoc] using hnode.1 (some b) hb

theorem table_previous (h : isWellFormedTable table = true) {a b : NodeId}
    (hb : b < table.length)
    (ha : some a ∈ (tableHeap table b).previousNodes) :
    a < b ∧ some b ∈ (tableHeap table a).nextNodes := by
  rw [isWellFormedTable, Bool.and_eq_true, List.all_eq_true] at h
  have hnode := h.2 b (List.mem_range.mpr hb)
  rw [Bool.and_eq_true, List.all_eq_true, List.all_eq_true] at hnode
  simpa using hnode.2 (some a) ha

/-- The plan of a well-formed table. -/
def Plan.ofTable (table : List QueryNode)
    (h : isWellFormedTable table = true) : Plan where
  nodes := List.range table.length
  heap := tableHeap table
  roots := (List.range table.length).filter fun n =>
    (tableHeap table n).previousNodes.all (·.isNone)
  nodup := List.nodup_range
  nameInjective := by
    intro a ha b hb hname
    rw [List.mem_range] at ha hb
    rw [isWellFormedTable, Bool.and_eq_true, decide_eq_true_iff] at h
    refine (List.getElem?_inj (by simpa using ha) h.1).mp ?_
    simp only [tableHeap, List.getElem?_eq_getElem ha,
      List.getElem?_eq_getElem hb, Option.getD_some] at hname
    simp only [List.getElem?_map, List.getElem?_eq_getElem ha,
      List.getElem?_eq_getElem hb, Option.map_some, hname]
  next_mem := by
    intro a ha b hb
    rw [List.mem_range] at ha ⊢
    exact (table_next h ha hb).2.1
  previous_mem := by
    intro b hb a ha
    rw [List.mem_range] at hb ⊢
    exact Nat.lt_trans (table_previous h hb ha).1 hb
  consistent := by
    intro a ha b hb
    rw [List.mem_range] at ha hb
    exact ⟨fun hnext => (table_next h ha hnext).2.2,
      fun hprevious => (table_previous h hb hprevious).2⟩
  acyclic := by
    intro a _ hcycle
    have hlt : ∀ b, Relation.TransGen (fun a b => a ∈ List.range table.length ∧
        Feeds (tableHeap table) a b) a b → a < b := by
      intro b hpath
      induction hpath with
      | single hedge =>
          exact (table_next h (List.mem_range.mp hedge.1) hedge.2).1
      | tail _ hedge ih =>
          exact Nat.lt_trans ih
            (table_next h (List.mem_range.mp hedge.1) hedge.2).1
    exact Nat.lt_irrefl a (hlt a hcycle)
  roots_nodup := List.nodup_range.filter _
  mem_roots := by
    intro n
    rw [List.mem_filter, List.all_eq_true]
    constructor
    · rintro ⟨hn, hall⟩
      exact ⟨hn, fun a ha => absurd (hall (some a) ha) (by simp)⟩
    · rintro ⟨hn, hall⟩
      refine ⟨hn, ?_⟩
      intro pointer hpointer
      cases pointer with
      | none => rfl
      | some a => exact absurd hpointer (hall a)

end Table

end Orkhestra.Ports.QuerySchedulingData
