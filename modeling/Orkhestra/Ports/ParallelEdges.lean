import Orkhestra.Ports.QueryManager
import Orkhestra.Ports.ScheduledRuns

/-!
# Parallel edges

A node can feed another one through several outputs.  The plan keeps the two
ends of an edge but not its output and its input: the `i`-th pointer from `a` to
`n` belongs to the `i`-th pointer from `n` back to `a` (`OwnStream`).

The scheduler, the id manager and the query manager search for the first pointer
to the node at the other end, so they only find the output or the input of an
edge when there is no second edge between its nodes.  The search of the query
manager also reads through the pointers before the one it finds.
-/

namespace Orkhestra.Ports.ParallelEdges

open Orkhestra.Verified.Checked
open Orkhestra.Verified.Occurrence
open Orkhestra.Verified.VectorMap
open Orkhestra.Ports.QuerySchedulingData
open Orkhestra.Ports.NodeScheduler
open Orkhestra.Ports.SchedulePartition
open Orkhestra.Ports.ScheduleLinks
open Orkhestra.Ports.HandOver
open Orkhestra.Ports.ScheduledRuns
open Orkhestra.Ports.IDManager
open Orkhestra.Ports.QueryManager

/-! ## Own streams -/

/-- Output `k` of `a` and input `m` of `n` are the two ends of one edge. -/
def OwnStream (h : Heap) (a : NodeId) (k : Nat) (n : NodeId) (m : Nat) : Prop :=
  Stream h a k n m ∧
    occurrencesBefore (h a).nextNodes (some n) k =
      occurrencesBefore (h n).previousNodes (some a) m

instance (h : Heap) (a : NodeId) (k : Nat) (n : NodeId) (m : Nat) :
    Decidable (OwnStream h a k n m) :=
  inferInstanceAs (Decidable (_ ∧ _))

/-- Every edge is stored at both of its ends. -/
def EdgesPaired (P : Plan) : Prop :=
  ∀ a ∈ P.nodes, ∀ b ∈ P.nodes, (P.heap a).nextNodes.count (some b) =
    (P.heap b).previousNodes.count (some a)

instance (P : Plan) : Decidable (EdgesPaired P) :=
  inferInstanceAs (Decidable (∀ a ∈ P.nodes, ∀ b ∈ P.nodes, _))

/-- The graph creator refuses a file for an input that has a producer. -/
def InputFilesNotRequired (P : Plan) : Prop :=
  ∀ n ∈ P.nodes, ∀ m < (P.heap n).previousNodes.length,
    (P.heap n).previousNodes[m]? ≠ some none →
    (P.heap n).inputDataDefinitionFiles[m]? = some ""

instance (P : Plan) : Decidable (InputFilesNotRequired P) :=
  inferInstanceAs (Decidable (∀ n ∈ P.nodes, ∀ m < _, _ → _))

section Own

variable {P : Plan} {a n : NodeId} {k m m' : Nat}

theorem InputFilesNotRequired.file (h : InputFilesNotRequired P)
    (hn : n ∈ P.nodes) (hm : (P.heap n).previousNodes[m]? = some (some a)) :
    (P.heap n).inputDataDefinitionFiles[m]? = some "" :=
  h n hn m (List.getElem?_eq_some_iff.mp hm).1 (by simp [hm])

/-- An output has one input. -/
theorem OwnStream.input_unique {h : Heap} (hm : OwnStream h a k n m)
    (hm' : OwnStream h a k n m') : m = m' :=
  index_unique hm.1.2 hm'.1.2 (hm.2.symm.trans hm'.2)

/-- Without parallel edges there is only one way to match the ends. -/
theorem ownStream_of_single (hsingle : P.SingleEdges) (ha : a ∈ P.nodes)
    (h : Stream P.heap a k n m) : OwnStream P.heap a k n m := by
  have hn := (Plan.edge_of_stream ha h).right
  refine ⟨h, ?_⟩
  rw [occurrencesBefore_eq_zero ((hsingle a ha).1.count_le_one n) h.1,
    occurrencesBefore_eq_zero ((hsingle n hn).2.count_le_one a) h.2]

/-- The own output of an input. -/
theorem exists_ownStream (hsingle : P.SingleEdges) (hn : n ∈ P.nodes)
    (hm : (P.heap n).previousNodes[m]? = some (some a)) :
    ∃ k, a ∈ P.nodes ∧ OwnStream P.heap a k n m := by
  have hedge := (Plan.edge_iff_previous hn).mpr (List.mem_of_getElem? hm)
  obtain ⟨k, hk⟩ := List.mem_iff_getElem?.mp hedge.2
  exact ⟨k, hedge.1, ownStream_of_single hsingle hedge.1 ⟨hk, hm⟩⟩

/-- A plan has no parallel edges when no input has a second one of its
producer. -/
theorem singleEdges_of_previous (hpaired : EdgesPaired P)
    (hunique : ∀ n ∈ P.nodes, ∀ (m m' : Nat) a,
      (P.heap n).previousNodes[m]? = some (some a) →
      (P.heap n).previousNodes[m']? = some (some a) → m = m') :
    P.SingleEdges := by
  have hprevious : ∀ n ∈ P.nodes, ∀ a,
      (P.heap n).previousNodes.count (some a) ≤ 1 :=
    fun n hn a => count_le_one_of_index_unique
      fun m m' hm hm' => hunique n hn m m' a hm hm'
  intro n hn
  refine ⟨distinct_of_count fun b => ?_, distinct_of_count (hprevious n hn)⟩
  by_cases hb : some b ∈ (P.heap n).nextNodes
  · have hmem := P.next_mem n hn b hb
    rw [hpaired n hn b hmem]
    exact hprevious b hmem n
  · rw [List.count_eq_zero_of_not_mem hb]
    exact Nat.zero_le 1

end Own

/-! ## The searches -/

section Search

variable {h : Heap} {pointers : List (Option NodeId)} {n : NodeId} {k i : Nat}

/-- The query manager finds the only pointer to a node when no pointer before it
is null. -/
theorem findConsumer_eq
    (hname : ∀ b, some b ∈ pointers → (h b).nodeName = (h n).nodeName → b = n)
    (hsingle : pointers.count (some n) ≤ 1)
    (hk : pointers[k]? = some (some n))
    (hbefore : ∀ j < k, pointers[j]? ≠ some none) :
    findConsumer h (h n) pointers i = .ok (some (i + k)) := by
  induction pointers generalizing k i with
  | nil => cases hk
  | cons pointer rest ih =>
      cases k with
      | zero =>
          rw [List.getElem?_cons_zero, Option.some.injEq] at hk
          subst hk
          simp [findConsumer]
      | succ k =>
          have hrest := hk
          rw [List.getElem?_cons_succ] at hrest
          cases pointer with
          | none => exact absurd rfl (hbefore 0 (Nat.succ_pos k))
          | some b =>
              have hne : h n ≠ h b := by
                intro heq
                have hbn := hname b List.mem_cons_self (by rw [heq])
                subst hbn
                have := index_unique_of_count hsingle
                  (List.getElem?_cons_zero) hk
                omega
              rw [findConsumer, if_neg (by simpa using hne), ih
                (fun b hb => hname b (List.mem_cons_of_mem _ hb))
                ((List.sublist_cons_self _ _).count_le _ |>.trans hsingle)
                hrest ?_]
              · rw [Nat.add_assoc, Nat.add_comm 1 k]
              · intro j hj
                have := hbefore (j + 1) (Nat.succ_lt_succ hj)
                rwa [List.getElem?_cons_succ] at this

/-- It reads through all pointers before the one it finds. -/
theorem findConsumer_before {node : QueryNode} {j : Nat}
    (hfound : findConsumer h node pointers i = .ok (some (i + k))) (hj : j < k) :
    pointers[j]? ≠ some none := by
  induction pointers generalizing k i j with
  | nil => simp
  | cons pointer rest ih =>
      cases pointer with
      | none => cases hfound
      | some b =>
          rw [findConsumer] at hfound
          split at hfound
          · rw [Except.ok.injEq, Option.some.injEq] at hfound
            omega
          · cases j with
            | zero => simp
            | succ j =>
                rw [List.getElem?_cons_succ]
                refine ih (i := i + 1) (k := k - 1) ?_ (by omega)
                rwa [show i + 1 + (k - 1) = i + k by omega]

end Search

end Orkhestra.Ports.ParallelEdges
