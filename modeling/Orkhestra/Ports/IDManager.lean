import Orkhestra.Ports.NodeScheduler
import Orkhestra.Verified.Lane
import Orkhestra.Verified.VectorMap

/-!
# Stream ids

`IDManager`: an input that is fed within the run takes over the id of the output
that feeds it, and output `i` of a node shares the id of input `i`; only inputs
without a producer and outputs without an input of their index draw an id from
the stack of free ids.

The ids that are drawn are `0, 1, …` in the order of the draws, so after any
part of the allocation the ids of the drawing streams (`heads`) are the first
numbers, and the remaining stack is what follows.
-/

namespace Orkhestra.Ports.IDManager

open Orkhestra.Verified.Checked
open Orkhestra.Verified.Lane
open Orkhestra.Verified.Occurrence
open Orkhestra.Verified.VectorMap
open Orkhestra.Ports.QuerySchedulingData
open Orkhestra.Ports.NodeScheduler

/-! ## The program -/

/-- Ids of the streams of each node, by node name. -/
abbrev IdMap := Std.TreeMap String (List Nat)

/-- Index of the first pointer to a node that is equal as a value. -/
def findStreamIndex (h : Heap) (streamVector : List (Option NodeId))
    (node : QueryNode) : Outcome Nat :=
  match streamVector.findIdx? (fun pointer =>
    match pointer with
    | some n => h n == node
    | none => false) with
  | some i => .ok i
  | none => .error (.runtimeError "Something went wrong!")

/-- The stack of free ids, the top first. -/
def setUpAvailableIDs : List Nat :=
  (List.range kMaxIOStreamCount).reverse.foldl
    (fun availableIds availableIndex => availableIndex :: availableIds) []

/-- `top` and `pop`. -/
def takeID (availableIds : List Nat) : Outcome (Nat × List Nat) :=
  match availableIds with
  | [] => .error (.runtimeError "Out of IDs!")
  | id :: rest => .ok (id, rest)

/-- Ids of the current node. -/
structure NodeIds where
  inputIds : List Nat
  outputIds : List Nat
  availableIds : List Nat

/-- Id of one input and the ids that remain. -/
def inputID (h : Heap) (currentNode : QueryNode) (outputIds : IdMap)
    (availableIds : List Nat) (previousNode : Option NodeId) :
    Outcome (Nat × List Nat) :=
  match previousNode with
  | some n => do
      let previousStreamIndex ← findStreamIndex h (h n).nextNodes currentNode
      let id ← readAt (outputIds[(h n).nodeName]?.getD []) previousStreamIndex
      .ok (id, availableIds)
  | none => takeID availableIds

def allocateInputID (h : Heap) (currentNode : QueryNode) (outputIds : IdMap)
    (s : NodeIds) (currentStreamIndex : Nat) : Outcome NodeIds := do
  let previousNode ← readAt currentNode.previousNodes currentStreamIndex
  let (id, availableIds) ←
    inputID h currentNode outputIds s.availableIds previousNode
  let inputIds := s.inputIds ++ [id]
  if currentStreamIndex < currentNode.outputDataDefinitionFiles.length then do
    let id ← readAt inputIds currentStreamIndex
    .ok ⟨inputIds, s.outputIds ++ [id], availableIds⟩
  else .ok ⟨inputIds, s.outputIds, availableIds⟩

/-- Ids which the input and output streams share. -/
def allocateInputIDs (h : Heap) (currentNode : QueryNode) (outputIds : IdMap)
    (availableIds : List Nat) : Outcome NodeIds :=
  (List.range currentNode.inputDataDefinitionFiles.length).foldlM
    (allocateInputID h currentNode outputIds) ⟨[], [], availableIds⟩

def allocateLeftoverOutputID (s : NodeIds) (_currentStreamIndex : Nat) :
    Outcome NodeIds := do
  let (id, availableIds) ← takeID s.availableIds
  .ok ⟨s.inputIds, s.outputIds ++ [id], availableIds⟩

/-- Indices of the outputs behind the last input. -/
def leftoverOutputs (node : QueryNode) : List Nat :=
  List.range' node.inputDataDefinitionFiles.length
    (node.outputDataDefinitionFiles.length -
      node.inputDataDefinitionFiles.length)

/-- Ids of output streams without ids yet. -/
def allocateLeftoverOutputIDs (currentNode : QueryNode) (s : NodeIds) :
    Outcome NodeIds :=
  (leftoverOutputs currentNode).foldlM allocateLeftoverOutputID s

/-- What the loop over the nodes updates. -/
structure StreamIds where
  inputIds : IdMap
  outputIds : IdMap
  availableIds : List Nat

def allocateNodeIDs (h : Heap) (s : StreamIds) (currentNode : QueryNode) :
    Outcome StreamIds := do
  let ids ← allocateInputIDs h currentNode s.outputIds s.availableIds
  let ids ← allocateLeftoverOutputIDs currentNode ids
  .ok
    { inputIds := s.inputIds.insertIfNew currentNode.nodeName ids.inputIds
      outputIds := s.outputIds.insertIfNew currentNode.nodeName ids.outputIds
      availableIds := ids.availableIds }

def allocateStreamIDs (h : Heap) (allNodes : List QueryNode)
    (inputIds outputIds : IdMap) : Outcome (IdMap × IdMap) := do
  let s ← allNodes.foldlM (allocateNodeIDs h)
    ⟨inputIds, outputIds, setUpAvailableIDs⟩
  .ok (s.inputIds, s.outputIds)

theorem setUpAvailableIDs_eq : setUpAvailableIDs = List.range 16 := rfl

/-- The ids of a run are drawn node by node. -/
theorem exists_streamIds {h : Heap} {nodes : List NodeId}
    {inputIds outputIds : IdMap}
    (hrun : allocateStreamIDs h (createReferenceVector h nodes) ∅ ∅ =
      .ok (inputIds, outputIds)) :
    ∃ s, nodes.foldlM (fun s n => allocateNodeIDs h s (h n))
        ⟨∅, ∅, setUpAvailableIDs⟩ = .ok s ∧
      s.inputIds = inputIds ∧ s.outputIds = outputIds := by
  rw [allocateStreamIDs, createReferenceVector, List.foldlM_map,
    bind_eq_ok] at hrun
  obtain ⟨s, hrun, heq⟩ := hrun
  exact ⟨s, hrun, Prod.mk.inj (Except.ok.inj heq)⟩

/-! ## Runs -/

/-- The nodes of a run: names are unique, producers come first, edges are
mutually consistent, no node feeds a consumer twice, and a stream has one entry
in the files and one in the pointers. -/
structure Pipeline (h : Heap) (nodes : List NodeId) : Prop where
  names : (nodes.map fun n => (h n).nodeName).Nodup
  consumer_names : ∀ a ∈ nodes, ∀ b, some b ∈ (h a).nextNodes → ∀ c ∈ nodes,
    (h b).nodeName = (h c).nodeName → b = c
  ordered : ∀ before n after, nodes = before ++ n :: after →
    ∀ a, some a ∈ (h n).previousNodes → a ∈ before
  consistent : ∀ a ∈ nodes, ∀ b ∈ nodes,
    (h a).nextNodes.count (some b) = (h b).previousNodes.count (some a)
  single : ∀ a ∈ nodes, ∀ b ∈ nodes, (h a).nextNodes.count (some b) ≤ 1
  inputs : ∀ n ∈ nodes,
    (h n).previousNodes.length = (h n).inputDataDefinitionFiles.length
  outputs : ∀ n ∈ nodes,
    (h n).nextNodes.length = (h n).outputDataDefinitionFiles.length

section Pipeline

variable {h : Heap} {nodes : List NodeId}

theorem Pipeline.name_injective (hp : Pipeline h nodes) {a b : NodeId}
    (ha : a ∈ nodes) (hb : b ∈ nodes)
    (heq : (h a).nodeName = (h b).nodeName) : a = b :=
  List.inj_on_of_nodup_map hp.names ha hb heq

theorem Pipeline.nodup (hp : Pipeline h nodes) : nodes.Nodup :=
  hp.names.of_map _

theorem Pipeline.previous_mem (hp : Pipeline h nodes) {n a : NodeId}
    (hn : n ∈ nodes) (ha : some a ∈ (h n).previousNodes) : a ∈ nodes := by
  obtain ⟨before, after, rfl⟩ := List.append_of_mem hn
  exact List.mem_append_left _ (hp.ordered before n after rfl a ha)

/-- A node is fed once by each of its producers. -/
theorem Pipeline.previous_single (hp : Pipeline h nodes) {a n : NodeId}
    (hn : n ∈ nodes) : (h n).previousNodes.count (some a) ≤ 1 := by
  by_cases ha : some a ∈ (h n).previousNodes
  · have hmem := hp.previous_mem hn ha
    rw [← hp.consistent a hmem n hn]
    exact hp.single a hmem n hn
  · rw [List.count_eq_zero_of_not_mem ha]
    exact Nat.zero_le 1

/-- The producer of an input feeds it through some output. -/
theorem Pipeline.stream_of_previous (hp : Pipeline h nodes) {a n : NodeId}
    {m : Nat} (hn : n ∈ nodes) (hm : (h n).previousNodes[m]? = some (some a)) :
    ∃ k, Stream h a k n m := by
  have hprevious := List.mem_of_getElem? hm
  have ha := hp.previous_mem hn hprevious
  have hcount : 0 < (h a).nextNodes.count (some n) := by
    rw [hp.consistent a ha n hn]
    exact List.count_pos_iff.mpr hprevious
  obtain ⟨k, hk⟩ := List.mem_iff_getElem?.mp (List.count_pos_iff.mp hcount)
  exact ⟨k, hk, hm⟩

/-- The search by value finds the only pointer to a node. -/
theorem findStreamIndex_eq {pointers : List (Option NodeId)} {n : NodeId}
    {k : Nat}
    (hname : ∀ b, some b ∈ pointers → (h b).nodeName = (h n).nodeName → b = n)
    (hsingle : pointers.count (some n) ≤ 1)
    (hk : pointers[k]? = some (some n)) :
    findStreamIndex h pointers (h n) = .ok k := by
  obtain ⟨hlt, hget⟩ := List.getElem?_eq_some_iff.mp hk
  have hfound : pointers.findIdx? (fun pointer =>
      match pointer with
      | some b => h b == h n
      | none => false) = some k := by
    rw [List.findIdx?_eq_some_iff_getElem]
    refine ⟨hlt, by simp [hget], ?_⟩
    intro j hj
    cases hpointer : pointers[j] with
    | none => simp
    | some b =>
        have hb : pointers[j]? = some (some b) := by
          rw [List.getElem?_eq_getElem (by omega), hpointer]
        simp only [Bool.not_eq_true, beq_eq_false_iff_ne, ne_eq]
        intro heq
        have hbn := hname b (List.mem_of_getElem? hb) (by rw [heq])
        subst hbn
        have := index_unique_of_count hsingle hb hk
        omega
  rw [findStreamIndex, hfound]

theorem Pipeline.findStreamIndex_eq (hp : Pipeline h nodes) {a n : NodeId}
    {k : Nat} (ha : a ∈ nodes) (hn : n ∈ nodes)
    (hk : (h a).nextNodes[k]? = some (some n)) :
    findStreamIndex h (h a).nextNodes (h n) = .ok k :=
  IDManager.findStreamIndex_eq
    (fun b hb => hp.consumer_names a ha b hb n hn) (hp.single a ha n hn) hk

end Pipeline

/-! ## The ids of one node -/

/-- A stream at one of the nodes of a run. -/
inductive Port where
  | input (n : NodeId) (m : Nat)
  | output (n : NodeId) (k : Nat)
  deriving DecidableEq, Repr

/-- Inputs before `i` without a producer. -/
def freeInputs (node : QueryNode) (i : Nat) : List Nat :=
  (List.range i).filter fun m => node.previousNodes[m]? == some none

theorem freeInputs_succ_free {node : QueryNode} {i : Nat}
    (hi : node.previousNodes[i]? = some none) :
    freeInputs node (i + 1) = freeInputs node i ++ [i] := by
  simp [freeInputs, List.range_succ, List.filter_append, hi]

theorem freeInputs_succ_fed {node : QueryNode} {i : Nat} {a : NodeId}
    (hi : node.previousNodes[i]? = some (some a)) :
    freeInputs node (i + 1) = freeInputs node i := by
  simp [freeInputs, List.range_succ, List.filter_append, hi]

theorem freeInputs_length_le (node : QueryNode) {i j : Nat} (hij : i ≤ j) :
    (freeInputs node i).length ≤ (freeInputs node j).length :=
  ((List.range_sublist.mpr hij).filter _).length_le

/-- Streams of a node that draw an id, in the order of the draws. -/
def heads (h : Heap) (n : NodeId) : List Port :=
  (freeInputs (h n) (h n).inputDataDefinitionFiles.length).map (.input n) ++
    (leftoverOutputs (h n)).map (.output n)

def outOfIDs : Fault := .runtimeError "Out of IDs!"

theorem takeID_cases {c : Nat} (hc : c ≤ 16) :
    takeID ((List.range 16).drop c) = .ok (c, (List.range 16).drop (c + 1)) ∧
      c < 16 ∨
    takeID ((List.range 16).drop c) = .error outOfIDs ∧ c = 16 := by
  rcases Nat.lt_or_eq_of_le hc with hlt | rfl
  · refine .inl ⟨?_, hlt⟩
    rw [List.drop_eq_getElem_cons (by simpa using hlt)]
    simp [takeID]
  · exact .inr ⟨rfl, rfl⟩

/-- One input: the output of the same index takes over its id. -/
theorem allocateInputID_eq_ok {h : Heap} {node : QueryNode} {outputIds : IdMap}
    {s s' : NodeIds} {i : Nat} (hlength : s.inputIds.length = i) :
    allocateInputID h node outputIds s i = .ok s' ↔
      ∃ previous id availableIds, node.previousNodes[i]? = some previous ∧
        inputID h node outputIds s.availableIds previous =
          .ok (id, availableIds) ∧
        s' = ⟨s.inputIds ++ [id],
          if i < node.outputDataDefinitionFiles.length then s.outputIds ++ [id]
          else s.outputIds, availableIds⟩ := by
  have hlast : ∀ id, readAt (s.inputIds ++ [id]) i = .ok id := by
    intro id
    rw [readAt_eq_ok, ← hlength]
    simp
  simp only [allocateInputID, bind_eq_ok, readAt_eq_ok, Prod.exists]
  constructor
  · rintro ⟨previous, hprevious, id, availableIds, hid, hrun⟩
    refine ⟨previous, id, availableIds, hprevious, hid, ?_⟩
    split at hrun
    · next hlt =>
        rw [hlast, ok_bind, Except.ok.injEq] at hrun
        rw [← hrun, if_pos hlt]
    · next hge =>
        rw [← Except.ok.inj hrun, if_neg hge]
  · rintro ⟨previous, id, availableIds, hprevious, hid, rfl⟩
    refine ⟨previous, hprevious, id, availableIds, hid, ?_⟩
    split
    · rw [hlast, ok_bind]
    · rfl

section Node

variable {h : Heap} {nodes : List NodeId} {n : NodeId} {outputIds : IdMap}
  {c : Nat}

/-- Inputs before `i` have ids, and those without a producer have drawn theirs;
`c` ids had been drawn before. -/
structure InputsDrawn (h : Heap) (n : NodeId) (c i : Nat) (s : NodeIds) :
    Prop where
  length : s.inputIds.length = i
  shared : s.outputIds =
    s.inputIds.take (h n).outputDataDefinitionFiles.length
  bound : c + (freeInputs (h n) i).length ≤ 16
  available :
    s.availableIds = (List.range 16).drop (c + (freeInputs (h n) i).length)
  drawn : (freeInputs (h n) i).map (fun m => s.inputIds[m]?) =
    (List.range' c (freeInputs (h n) i).length).map some

/-- An input that is given the id `id`. -/
theorem InputsDrawn.push {i : Nat} {s : NodeIds} (hs : InputsDrawn h n c i s)
    {id : Nat} {availableIds : List Nat}
    (hbound : c + (freeInputs (h n) (i + 1)).length ≤ 16)
    (havailable : availableIds =
      (List.range 16).drop (c + (freeInputs (h n) (i + 1)).length))
    (hdrawn : (h n).previousNodes[i]? = some none →
      id = c + (freeInputs (h n) i).length)
    (hentry : (h n).previousNodes[i]? ≠ none) :
    InputsDrawn h n c (i + 1)
      ⟨s.inputIds ++ [id],
        if i < (h n).outputDataDefinitionFiles.length then s.outputIds ++ [id]
        else s.outputIds, availableIds⟩ := by
  have hlast : (s.inputIds ++ [id])[i]? = some id := by
    rw [← hs.length]
    simp
  have hbefore : ∀ m < i, (s.inputIds ++ [id])[m]? = s.inputIds[m]? := by
    intro m hm
    exact List.getElem?_append_left (by rw [hs.length]; exact hm)
  refine ⟨by simp [hs.length], ?_, hbound, havailable, ?_⟩
  · simp only [hs.shared]
    have hlen := hs.length
    split
    · rw [List.take_of_length_le (by omega), List.take_of_length_le (by simp; omega)]
    · rw [List.take_append_of_le_length (by omega)]
  · have hold : (freeInputs (h n) i).map (fun m => (s.inputIds ++ [id])[m]?) =
        (freeInputs (h n) i).map (fun m => s.inputIds[m]?) := by
      refine List.map_congr_left fun m hm => hbefore m ?_
      simpa using (List.mem_filter.mp hm).1
    cases hpointer : (h n).previousNodes[i]? with
    | none => exact absurd hpointer hentry
    | some pointer =>
        cases pointer with
        | none =>
            rw [freeInputs_succ_free hpointer, List.map_append, hold, hs.drawn,
              List.length_append, List.length_singleton,
              List.range'_1_concat, List.map_append]
            rw [← hdrawn hpointer]
            simp [hlast]
        | some a => rw [freeInputs_succ_fed hpointer, hold, hs.drawn]

/-- Inputs before `i` have ids; `c` ids had been drawn before. -/
structure InputsAllocated (h : Heap) (n : NodeId) (outputIds : IdMap)
    (c i : Nat) (s : NodeIds) : Prop extends InputsDrawn h n c i s where
  fed : ∀ m < i, ∀ a k, Stream h a k n m → ∃ id,
    (outputIds[(h a).nodeName]?.getD [])[k]? = some id ∧
      s.inputIds[m]? = some id

theorem InputsAllocated.push {i : Nat} {s : NodeIds}
    (hs : InputsAllocated h n outputIds c i s) {id : Nat}
    {availableIds : List Nat}
    (hbound : c + (freeInputs (h n) (i + 1)).length ≤ 16)
    (havailable : availableIds =
      (List.range 16).drop (c + (freeInputs (h n) (i + 1)).length))
    (hdrawn : (h n).previousNodes[i]? = some none →
      id = c + (freeInputs (h n) i).length)
    (hentry : (h n).previousNodes[i]? ≠ none)
    (hfed : ∀ a k, Stream h a k n i →
      (outputIds[(h a).nodeName]?.getD [])[k]? = some id) :
    InputsAllocated h n outputIds c (i + 1)
      ⟨s.inputIds ++ [id],
        if i < (h n).outputDataDefinitionFiles.length then s.outputIds ++ [id]
        else s.outputIds, availableIds⟩ := by
  refine ⟨hs.toInputsDrawn.push hbound havailable hdrawn hentry, ?_⟩
  intro m hm a k hstream
  rcases Nat.lt_succ_iff_lt_or_eq.mp hm with hlt | rfl
  · obtain ⟨id', hid, hget⟩ := hs.fed m hlt a k hstream
    refine ⟨id', hid, ?_⟩
    rw [List.getElem?_append_left (by rw [hs.length]; exact hlt)]
    exact hget
  · refine ⟨id, hfed a k hstream, ?_⟩
    simp [← hs.length]

/-- The loop over the inputs: it draws an id for each input without a producer,
or stops when there are none left. -/
theorem allocateInputIDs_cases (hp : Pipeline h nodes) (hn : n ∈ nodes)
    (hc : c ≤ 16)
    (hproducers : ∀ a k m, Stream h a k n m → ∃ id,
      (outputIds[(h a).nodeName]?.getD [])[k]? = some id) :
    (∃ s, allocateInputIDs h (h n) outputIds ((List.range 16).drop c) = .ok s ∧
      InputsAllocated h n outputIds c
        (h n).inputDataDefinitionFiles.length s) ∨
    allocateInputIDs h (h n) outputIds ((List.range 16).drop c) =
        .error outOfIDs ∧
      16 < c + (freeInputs (h n) (h n).inputDataDefinitionFiles.length).length := by
  refine forRange_cases (InputsAllocated h n outputIds c) outOfIDs _ _ ?_ ?_
  · refine ⟨⟨rfl, by simp, by simpa [freeInputs] using hc,
      by simp [freeInputs], by simp [freeInputs]⟩, ?_⟩
    intro m hm
    exact absurd hm (Nat.not_lt_zero m)
  · intro i s hi hs
    have hlt : i < (h n).previousNodes.length := by
      rw [hp.inputs n hn]
      exact hi
    have hget := List.getElem?_eq_getElem hlt
    cases hpointer : (h n).previousNodes[i] with
    | none =>
        rw [hpointer] at hget
        have hsucc := freeInputs_succ_free hget
        rcases takeID_cases hs.bound with ⟨htake, hless⟩ | ⟨htake, hfull⟩
        · left
          rw [← hs.available] at htake
          refine ⟨_, (allocateInputID_eq_ok hs.length).mpr
            ⟨none, _, _, hget, htake, rfl⟩, hs.push ?_ ?_ ?_ ?_ ?_⟩
          · rw [hsucc, List.length_append]
            exact hless
          · rw [hsucc, List.length_append]
            rfl
          · exact fun _ => rfl
          · simp [hget]
          · rintro a k ⟨-, hstream⟩
            rw [hget] at hstream
            cases hstream
        · right
          rw [← hs.available] at htake
          refine ⟨?_, ?_⟩
          · have hread : readAt (h n).previousNodes i = .ok none := by
              rw [readAt_eq_ok, hget]
            rw [allocateInputID, hread, ok_bind, inputID, htake]
            rfl
          · have hle := freeInputs_length_le (h n) (Nat.succ_le_of_lt hi)
            rw [hsucc, List.length_append, List.length_singleton] at hle
            omega
    | some a =>
        rw [hpointer] at hget
        left
        obtain ⟨k, hstream⟩ := hp.stream_of_previous hn hget
        obtain ⟨id, hid⟩ := hproducers a k i hstream
        have ha := hp.previous_mem hn (List.mem_of_getElem? hget)
        have hsucc := freeInputs_succ_fed hget
        refine ⟨_, (allocateInputID_eq_ok hs.length).mpr
          ⟨some a, id, s.availableIds, hget, ?_, rfl⟩, hs.push ?_ ?_ ?_ ?_ ?_⟩
        · rw [inputID, hp.findStreamIndex_eq ha hn hstream.1, ok_bind,
            readAt_eq_ok.mpr hid]
          rfl
        · rw [hsucc]
          exact hs.bound
        · rw [hsucc]
          exact hs.available
        · intro hnone
          rw [hget] at hnone
          cases hnone
        · simp [hget]
        · rintro b k' ⟨hk', hm⟩
          rw [hget, Option.some.injEq, Option.some.injEq] at hm
          subst hm
          rw [index_unique_of_count (hp.single a ha n hn) hk' hstream.1]
          exact hid

/-- The id of a stream of the node. -/
def NodeIds.id (s : NodeIds) : Port → Option Nat
  | .input _ m => s.inputIds[m]?
  | .output _ k => s.outputIds[k]?

/-- The streams of the node have ids, and its heads have drawn theirs; `c` ids
had been drawn before. -/
structure NodeDrawn (h : Heap) (n : NodeId) (c : Nat) (s : NodeIds) :
    Prop where
  inputs : s.inputIds.length = (h n).inputDataDefinitionFiles.length
  outputs : s.outputIds.length = (h n).outputDataDefinitionFiles.length
  bound : c + (heads h n).length ≤ 16
  available : s.availableIds = (List.range 16).drop (c + (heads h n).length)
  drawn : (heads h n).map s.id = (List.range' c (heads h n).length).map some
  passed : ∀ i < (h n).inputDataDefinitionFiles.length,
    i < (h n).outputDataDefinitionFiles.length →
    s.outputIds[i]? = s.inputIds[i]?

/-- All streams of the node have ids; `c` ids had been drawn before. -/
structure NodeAllocated (h : Heap) (n : NodeId) (outputIds : IdMap) (c : Nat)
    (s : NodeIds) : Prop extends NodeDrawn h n c s where
  fed : ∀ a k m, m < (h n).inputDataDefinitionFiles.length →
    Stream h a k n m → ∃ id,
      (outputIds[(h a).nodeName]?.getD [])[k]? = some id ∧
        s.inputIds[m]? = some id

/-- The loop over the outputs behind the last input: each draws an id. -/
theorem allocateLeftoverOutputIDs_cases {s : NodeIds} {d : Nat}
    (hd : d ≤ 16) (havailable : s.availableIds = (List.range 16).drop d) :
    (d + (leftoverOutputs (h n)).length ≤ 16 ∧
      allocateLeftoverOutputIDs (h n) s = .ok
        ⟨s.inputIds,
          s.outputIds ++ List.range' d (leftoverOutputs (h n)).length,
          (List.range 16).drop (d + (leftoverOutputs (h n)).length)⟩) ∨
    allocateLeftoverOutputIDs (h n) s = .error outOfIDs ∧
      16 < d + (leftoverOutputs (h n)).length := by
  have key := foldlM_cases
    (fun done r => d + done.length ≤ 16 ∧ r = (⟨s.inputIds,
      s.outputIds ++ List.range' d done.length,
      (List.range 16).drop (d + done.length)⟩ : NodeIds)) outOfIDs
    (16 < d + (leftoverOutputs (h n)).length) (leftoverOutputs (h n))
    (show d + 0 ≤ 16 ∧ s = ⟨s.inputIds, s.outputIds ++ [],
        (List.range 16).drop (d + 0)⟩ by
      refine ⟨hd, ?_⟩
      rw [Nat.add_zero, List.append_nil, ← havailable])
    (show ∀ before x after r, leftoverOutputs (h n) = before ++ x :: after →
        _ → (∃ r', allocateLeftoverOutputID r x = .ok r' ∧ _) ∨
          allocateLeftoverOutputID r x = .error outOfIDs ∧ _ by
      rintro before x after r hsplit ⟨hbound, rfl⟩
      rcases takeID_cases hbound with ⟨htake, hlt⟩ | ⟨htake, hfull⟩
      · left
        refine ⟨_, by rw [allocateLeftoverOutputID, htake]; rfl, ?_, ?_⟩
        · simp only [List.length_append, List.length_singleton]
          omega
        · simp only [List.length_append, List.length_singleton,
            List.range'_1_concat, List.append_assoc]
          rfl
      · right
        refine ⟨by rw [allocateLeftoverOutputID, htake]; rfl, ?_⟩
        rw [hsplit, List.length_append, List.length_cons]
        omega)
  rcases key with ⟨r, hrun, hbound, rfl⟩ | hfull
  · exact .inl ⟨hbound, hrun⟩
  · exact .inr hfull

theorem heads_length (h : Heap) (n : NodeId) : (heads h n).length =
    (freeInputs (h n) (h n).inputDataDefinitionFiles.length).length +
      (leftoverOutputs (h n)).length := by
  simp [heads]

/-- The outputs behind the last input follow its draws. -/
theorem InputsDrawn.leftover {s : NodeIds}
    (hs : InputsDrawn h n c (h n).inputDataDefinitionFiles.length s)
    (hbound : c +
      (freeInputs (h n) (h n).inputDataDefinitionFiles.length).length +
        (leftoverOutputs (h n)).length ≤ 16) :
    NodeDrawn h n c
      ⟨s.inputIds,
        s.outputIds ++ List.range' (c +
          (freeInputs (h n) (h n).inputDataDefinitionFiles.length).length)
          (leftoverOutputs (h n)).length,
        (List.range 16).drop (c +
          (freeInputs (h n) (h n).inputDataDefinitionFiles.length).length +
            (leftoverOutputs (h n)).length)⟩ := by
  have hlen := hs.length
  have hcount : (leftoverOutputs (h n)).length =
      (h n).outputDataDefinitionFiles.length -
        (h n).inputDataDefinitionFiles.length := List.length_range'
  have hshared : s.outputIds.length =
      min (h n).outputDataDefinitionFiles.length
        (h n).inputDataDefinitionFiles.length := by
    rw [hs.shared, List.length_take, hlen]
  refine ⟨hlen, ?_, ?_, ?_, ?_, ?_⟩
  · rw [List.length_append, List.length_range', hshared, hcount]
    omega
  · rw [heads_length, ← Nat.add_assoc]
    exact hbound
  · rw [heads_length, ← Nat.add_assoc]
  · rw [heads_length, heads, List.map_append, List.map_map, List.map_map,
      List.range'_append_1.symm, List.map_append]
    congr 1
    · exact hs.drawn
    · refine List.ext_getElem (by simp) ?_
      intro j hj _
      simp only [List.length_map, hcount] at hj
      simp only [leftoverOutputs, List.getElem_map, List.getElem_range',
        Function.comp_apply, NodeIds.id]
      rw [List.getElem?_append_right (by omega), List.getElem?_range']
      · congr 1
        omega
      · rw [hshared, List.length_range']
        omega
  · intro i hi hio
    rw [List.getElem?_append_left (by omega), hs.shared,
      List.getElem?_take_of_lt hio]

/-- Both loops over a node. -/
theorem allocateNode_cases (hp : Pipeline h nodes) (hn : n ∈ nodes)
    (hc : c ≤ 16)
    (hproducers : ∀ a k m, Stream h a k n m → ∃ id,
      (outputIds[(h a).nodeName]?.getD [])[k]? = some id) :
    (∃ s, (allocateInputIDs h (h n) outputIds ((List.range 16).drop c) >>=
        allocateLeftoverOutputIDs (h n)) = .ok s ∧
      NodeAllocated h n outputIds c s) ∨
    (allocateInputIDs h (h n) outputIds ((List.range 16).drop c) >>=
        allocateLeftoverOutputIDs (h n)) = .error outOfIDs ∧
      16 < c + (heads h n).length := by
  rw [heads_length, ← Nat.add_assoc]
  rcases allocateInputIDs_cases hp hn hc hproducers with
    ⟨s, hrun, hs⟩ | ⟨hrun, hless⟩
  · rw [hrun, ok_bind]
    rcases allocateLeftoverOutputIDs_cases (h := h) (n := n) hs.bound
      hs.available with ⟨hbound, hrest⟩ | hrest
    · left
      exact ⟨_, hrest, hs.toInputsDrawn.leftover hbound,
        fun a k m hm hstream => hs.fed m hm a k hstream⟩
    · exact .inr hrest
  · right
    rw [hrun]
    refine ⟨rfl, ?_⟩
    omega

end Node

/-! ## The ids of a run -/

/-- The id of a stream. -/
def StreamIds.id (h : Heap) (s : StreamIds) : Port → Option Nat
  | .input n m => entry s.inputIds (h n).nodeName m
  | .output n k => entry s.outputIds (h n).nodeName k

/-- The streams of the nodes `done` have ids, and their heads have drawn
theirs. -/
structure Drawn (h : Heap) (done : List NodeId) (s : StreamIds) : Prop where
  inputs : ∀ n ∈ done, ∃ ids, s.inputIds[(h n).nodeName]? = some ids ∧
    ids.length = (h n).inputDataDefinitionFiles.length
  outputs : ∀ n ∈ done, ∃ ids, s.outputIds[(h n).nodeName]? = some ids ∧
    ids.length = (h n).outputDataDefinitionFiles.length
  fresh : ∀ name, (∀ n ∈ done, name ≠ (h n).nodeName) →
    s.inputIds[name]? = none ∧ s.outputIds[name]? = none
  bound : (done.flatMap (heads h)).length ≤ 16
  available :
    s.availableIds = (List.range 16).drop (done.flatMap (heads h)).length
  drawn : (done.flatMap (heads h)).map (s.id h) =
    (List.range (done.flatMap (heads h)).length).map some
  passed : ∀ n ∈ done, ∀ i < (h n).inputDataDefinitionFiles.length,
    i < (h n).outputDataDefinitionFiles.length →
    s.id h (.output n i) = s.id h (.input n i)

/-- All streams of the nodes `done` have ids. -/
structure Allocated (h : Heap) (done : List NodeId) (s : StreamIds) : Prop
    extends Drawn h done s where
  fed : ∀ n ∈ done, ∀ a k m, m < (h n).inputDataDefinitionFiles.length →
    Stream h a k n m → s.id h (.output a k) = s.id h (.input n m)

section Run

variable {h : Heap} {nodes : List NodeId}

theorem Allocated.initial (h : Heap) :
    Allocated h [] ⟨∅, ∅, setUpAvailableIDs⟩ := by
  rw [setUpAvailableIDs_eq]
  exact ⟨by constructor <;> simp, by simp⟩

/-- Ports of a node. -/
def Port.node : Port → NodeId
  | .input n _ => n
  | .output n _ => n

theorem heads_node {n : NodeId} {p : Port} (hp : p ∈ heads h n) :
    p.node = n := by
  simp only [heads, List.mem_append, List.mem_map] at hp
  rcases hp with ⟨m, -, rfl⟩ | ⟨k, -, rfl⟩ <;> rfl

/-- The ids after one more node. -/
def StreamIds.push (h : Heap) (s : StreamIds) (n : NodeId) (ids : NodeIds) :
    StreamIds where
  inputIds := s.inputIds.insertIfNew (h n).nodeName ids.inputIds
  outputIds := s.outputIds.insertIfNew (h n).nodeName ids.outputIds
  availableIds := ids.availableIds

section Push

variable {done : List NodeId} {n : NodeId} {s : StreamIds} {ids : NodeIds}

variable (ids) in
/-- The ids of the node, and those of the nodes before. -/
theorem Drawn.push_id (hs : Drawn h done s)
    (hnew : ∀ b ∈ done, (h b).nodeName ≠ (h n).nodeName) :
    (∀ m, (s.push h n ids).id h (.input n m) = ids.inputIds[m]?) ∧
    (∀ k, (s.push h n ids).id h (.output n k) = ids.outputIds[k]?) ∧
    ∀ p : Port, p.node ∈ done → (s.push h n ids).id h p = s.id h p := by
  obtain ⟨hfreshIn, hfreshOut⟩ :=
    hs.fresh (h n).nodeName fun b hb heq => hnew b hb heq.symm
  refine ⟨?_, ?_, ?_⟩
  · intro m
    exact entry_eq ((getElem?_insertIfNew hfreshIn _ _).trans (if_pos rfl)) m
  · intro k
    exact entry_eq ((getElem?_insertIfNew hfreshOut _ _).trans (if_pos rfl)) k
  · intro p hp
    cases p with
    | input b m =>
        simp only [StreamIds.id, StreamIds.push, entry,
          getElem?_insertIfNew_of_ne _ (hnew b hp)]
    | output b k =>
        simp only [StreamIds.id, StreamIds.push, entry,
          getElem?_insertIfNew_of_ne _ (hnew b hp)]

/-- One more node. -/
theorem Drawn.step (hs : Drawn h done s)
    (hnew : ∀ b ∈ done, (h b).nodeName ≠ (h n).nodeName)
    (hids : NodeDrawn h n (done.flatMap (heads h)).length ids) :
    Drawn h (done ++ [n]) (s.push h n ids) := by
  obtain ⟨hinput, houtput, hkept⟩ := hs.push_id ids hnew
  obtain ⟨hfreshIn, hfreshOut⟩ :=
    hs.fresh (h n).nodeName fun b hb heq => hnew b hb heq.symm
  have hotherIn : ∀ name, name ≠ (h n).nodeName →
      (s.push h n ids).inputIds[name]? = s.inputIds[name]? :=
    fun name hne => getElem?_insertIfNew_of_ne _ hne _
  have hotherOut : ∀ name, name ≠ (h n).nodeName →
      (s.push h n ids).outputIds[name]? = s.outputIds[name]? :=
    fun name hne => getElem?_insertIfNew_of_ne _ hne _
  have hheads : ((done ++ [n]).flatMap (heads h)).length =
      (done.flatMap (heads h)).length + (heads h n).length := by
    simp
  refine ⟨?_, ?_, ?_, ?_, ?_, ?_, ?_⟩
  · refine forall_mem_concat (fun b hb => ?_)
      ⟨_, (getElem?_insertIfNew hfreshIn _ _).trans (if_pos rfl), hids.inputs⟩
    rw [hotherIn _ (hnew b hb)]
    exact hs.inputs b hb
  · refine forall_mem_concat (fun b hb => ?_)
      ⟨_, (getElem?_insertIfNew hfreshOut _ _).trans (if_pos rfl), hids.outputs⟩
    rw [hotherOut _ (hnew b hb)]
    exact hs.outputs b hb
  · intro name hall
    have hne := hall n (by simp)
    rw [hotherIn _ hne, hotherOut _ hne]
    exact hs.fresh name fun b hb => hall b (List.mem_append_left _ hb)
  · rw [hheads]
    exact hids.bound
  · rw [hheads]
    exact hids.available
  · have hold : (done.flatMap (heads h)).map ((s.push h n ids).id h) =
        (done.flatMap (heads h)).map (s.id h) := by
      refine List.map_congr_left fun p hp => hkept p ?_
      obtain ⟨b, hb, hp⟩ := List.mem_flatMap.mp hp
      rwa [heads_node hp]
    have hown : (heads h n).map ((s.push h n ids).id h) =
        (heads h n).map ids.id := by
      refine List.map_congr_left fun p hp => ?_
      simp only [heads, List.mem_append, List.mem_map] at hp
      rcases hp with ⟨m, -, rfl⟩ | ⟨k, -, rfl⟩
      · exact hinput m
      · exact houtput k
    have hrange := List.range'_append_1 (s := 0)
      (m := (done.flatMap (heads h)).length) (n := (heads h n).length)
    rw [Nat.zero_add] at hrange
    rw [hheads, List.flatMap_append, List.map_append, hold, hs.drawn,
      List.flatMap_singleton, hown, hids.drawn, ← List.map_append,
      List.range_eq_range', List.range_eq_range', hrange]
  · refine forall_mem_concat (fun b hb i hi hio => ?_) fun i hi hio => ?_
    · rw [hkept (.output b i) hb, hkept (.input b i) hb]
      exact hs.passed b hb i hi hio
    · rw [hinput, houtput]
      exact hids.passed i hi hio

/-- One more node, behind all of its producers. -/
theorem Allocated.step (hs : Allocated h done s)
    (hproducers : ∀ b ∈ done ++ [n], ∀ a k m, Stream h a k b m → a ∈ done)
    (hnew : ∀ b ∈ done, (h b).nodeName ≠ (h n).nodeName)
    (hids : NodeAllocated h n s.outputIds (done.flatMap (heads h)).length
      ids) :
    Allocated h (done ++ [n]) (s.push h n ids) := by
  obtain ⟨hinput, -, hkept⟩ := hs.toDrawn.push_id ids hnew
  refine ⟨hs.toDrawn.step hnew hids.toNodeDrawn, ?_⟩
  intro b hb a k m hm hstream
  rcases List.mem_append.mp hb with hb | hb
  · have ha := hproducers b (List.mem_append_left _ hb) a k m hstream
    rw [hkept (.output a k) ha, hkept (.input b m) hb]
    exact hs.fed b hb a k m hm hstream
  · rw [List.mem_singleton.mp hb] at hm hstream ⊢
    obtain ⟨id, hid, hget⟩ := hids.fed a k m hm hstream
    have ha := hproducers n (by simp) a k m hstream
    rw [hinput, hget, hkept (.output a k) ha]
    exact hid

end Push

/-- The allocation gives an id to every stream, or runs out of ids because the
streams that draw one are more than 16. -/
theorem allocateStreamIDs_cases (hp : Pipeline h nodes) :
    (∃ s, allocateStreamIDs h (createReferenceVector h nodes) ∅ ∅ =
        .ok (s.inputIds, s.outputIds) ∧ Allocated h nodes s) ∨
      allocateStreamIDs h (createReferenceVector h nodes) ∅ ∅ =
          .error outOfIDs ∧
        16 < (nodes.flatMap (heads h)).length := by
  rw [allocateStreamIDs, createReferenceVector, List.foldlM_map]
  suffices key : (∃ s, nodes.foldlM (fun s n => allocateNodeIDs h s (h n))
      ⟨∅, ∅, setUpAvailableIDs⟩ = .ok s ∧ Allocated h nodes s) ∨
      nodes.foldlM (fun s n => allocateNodeIDs h s (h n))
        ⟨∅, ∅, setUpAvailableIDs⟩ = .error outOfIDs ∧
        16 < (nodes.flatMap (heads h)).length by
    rcases key with ⟨s, hrun, hs⟩ | ⟨hrun, hless⟩
    · exact .inl ⟨s, by rw [hrun]; rfl, hs⟩
    · exact .inr ⟨by rw [hrun]; rfl, hless⟩
  refine foldlM_cases (Allocated h) outOfIDs _ nodes (Allocated.initial h) ?_
  intro before n after s hsplit hs
  have hn : n ∈ nodes := by simp [hsplit]
  have hproducers : ∀ b ∈ before ++ [n], ∀ a k m, Stream h a k b m →
      a ∈ before := by
    intro b hb a k m hstream
    have ha := List.mem_of_getElem? hstream.2
    rcases List.mem_append.mp hb with hb | hb
    · obtain ⟨earlier, later, rfl⟩ := List.append_of_mem hb
      exact List.mem_append_left _
        (hp.ordered earlier b (later ++ n :: after) (by simp [hsplit]) a ha)
    · rw [List.mem_singleton.mp hb] at ha
      exact hp.ordered before n after hsplit a ha
  have hnew : ∀ b ∈ before, (h b).nodeName ≠ (h n).nodeName := by
    intro b hb heq
    have hnames := hp.names
    rw [hsplit, List.map_append, List.nodup_append] at hnames
    exact hnames.2.2 _ (List.mem_map_of_mem hb) _ (by simp) heq
  have hready : ∀ a k m, Stream h a k n m → ∃ id,
      (s.outputIds[(h a).nodeName]?.getD [])[k]? = some id := by
    intro a k m hstream
    have ha := hproducers n (by simp) a k m hstream
    obtain ⟨ids, hids, hlen⟩ := hs.outputs a ha
    have hlt := (List.getElem?_eq_some_iff.mp hstream.1).1
    have hmem : a ∈ nodes := by
      rw [hsplit]
      exact List.mem_append_left _ ha
    rw [hp.outputs a hmem, ← hlen] at hlt
    rw [hids]
    exact ⟨_, List.getElem?_eq_getElem hlt⟩
  rcases allocateNode_cases hp hn hs.bound hready with
    ⟨ids, hrun, hids⟩ | ⟨hrun, hless⟩
  · left
    refine ⟨_, ?_, hs.step hproducers hnew hids⟩
    rw [← hs.available, bind_eq_ok] at hrun
    obtain ⟨r, hr, hrun⟩ := hrun
    rw [allocateNodeIDs, hr, ok_bind, hrun]
    rfl
  · right
    refine ⟨?_, ?_⟩
    · rw [← hs.available, bind_eq_error] at hrun
      rcases hrun with hr | ⟨r, hr, hrun⟩
      · rw [allocateNodeIDs, hr]
        rfl
      · rw [allocateNodeIDs, hr, ok_bind, hrun]
        rfl
    · rw [hsplit, List.flatMap_append, List.length_append, List.flatMap_cons,
        List.length_append]
      omega

/-! ## Lanes of a run -/

/-- From input `i` to output `i` of a node, and along an edge. -/
inductive LaneStep (h : Heap) (nodes : List NodeId) : Port → Port → Prop where
  | through (n : NodeId) (i : Nat) : n ∈ nodes →
      i < (h n).inputDataDefinitionFiles.length →
      i < (h n).outputDataDefinitionFiles.length →
      LaneStep h nodes (.input n i) (.output n i)
  | along (a : NodeId) (k : Nat) (n : NodeId) (m : Nat) : a ∈ nodes →
      n ∈ nodes → Stream h a k n m →
      LaneStep h nodes (.output a k) (.input n m)

/-- The streams of the run. -/
def Port.Valid (h : Heap) (nodes : List NodeId) : Port → Prop
  | .input n m => n ∈ nodes ∧ m < (h n).inputDataDefinitionFiles.length
  | .output n k => n ∈ nodes ∧ k < (h n).outputDataDefinitionFiles.length

theorem laneStep_rightUnique (hp : Pipeline h nodes) :
    Relator.RightUnique (LaneStep h nodes) := by
  intro p q r hq hr
  cases hq with
  | through n i _ _ _ =>
      cases hr with
      | through _ _ _ _ _ => rfl
  | along a k n m _ hn hstream =>
      cases hr with
      | along _ _ n' m' _ _ hstream' =>
          have heq := hstream.1
          rw [hstream'.1, Option.some.injEq, Option.some.injEq] at heq
          subst heq
          rw [index_unique_of_count (hp.previous_single hn) hstream.2
            hstream'.2]

theorem Allocated.keep {s : StreamIds} (hp : Pipeline h nodes)
    (hs : Allocated h nodes s) (p q : Port) (hstep : LaneStep h nodes p q) :
    s.id h p = s.id h q := by
  cases hstep with
  | through n i hn hi hio => exact (hs.passed n hn i hi hio).symm
  | along a k n m ha hn hstream =>
      refine hs.fed n hn a k m ?_ hstream
      rw [← hp.inputs n hn]
      exact (List.getElem?_eq_some_iff.mp hstream.2).1

theorem Drawn.head_id {s : StreamIds} (hs : Drawn h nodes s) {i : Nat}
    {p : Port} (hp : (nodes.flatMap (heads h))[i]? = some p) :
    s.id h p = some i := by
  have hdrawn := congrArg (fun ids => ids[i]?) hs.drawn
  have hlt := (List.getElem?_eq_some_iff.mp hp).1
  simp only [List.getElem?_map, hp, Option.map_some,
    List.getElem?_range hlt] at hdrawn
  exact Option.some.inj hdrawn

theorem Allocated.head_id {s : StreamIds} (hs : Allocated h nodes s) {i : Nat}
    {p : Port} (hp : (nodes.flatMap (heads h))[i]? = some p) :
    s.id h p = some i :=
  hs.toDrawn.head_id hp

theorem Allocated.head_unique {s : StreamIds} (hs : Allocated h nodes s)
    {p q : Port} (hp : p ∈ nodes.flatMap (heads h))
    (hq : q ∈ nodes.flatMap (heads h)) (heq : s.id h p = s.id h q) : p = q := by
  obtain ⟨i, hi⟩ := List.mem_iff_getElem?.mp hp
  obtain ⟨j, hj⟩ := List.mem_iff_getElem?.mp hq
  rw [hs.head_id hi, hs.head_id hj, Option.some.injEq] at heq
  rw [heq, hj, Option.some.injEq] at hi
  exact hi.symm

/-- Every stream is reached from one that draws an id. -/
theorem reached_from_head (hp : Pipeline h nodes) {p : Port}
    (hvalid : p.Valid h nodes) : ∃ r ∈ nodes.flatMap (heads h),
      Relation.ReflTransGen (LaneStep h nodes) r p := by
  -- Outputs of the nodes before follow from their inputs.
  have houtput : ∀ n ∈ nodes, (∀ m < (h n).inputDataDefinitionFiles.length,
      ∃ r ∈ nodes.flatMap (heads h),
        Relation.ReflTransGen (LaneStep h nodes) r (.input n m)) →
      ∀ k < (h n).outputDataDefinitionFiles.length,
        ∃ r ∈ nodes.flatMap (heads h),
          Relation.ReflTransGen (LaneStep h nodes) r (.output n k) := by
    intro n hn hinput k hk
    by_cases hki : k < (h n).inputDataDefinitionFiles.length
    · obtain ⟨r, hr, hpath⟩ := hinput k hki
      exact ⟨r, hr, hpath.tail (.through n k hn hki hk)⟩
    · refine ⟨.output n k, List.mem_flatMap.mpr ⟨n, hn, ?_⟩, .refl⟩
      refine List.mem_append_right _ (List.mem_map_of_mem ?_)
      rw [leftoverOutputs, List.mem_range'_1]
      omega
  have hinputs : ∀ before after, nodes = before ++ after → ∀ n ∈ before,
      ∀ m < (h n).inputDataDefinitionFiles.length,
        ∃ r ∈ nodes.flatMap (heads h),
          Relation.ReflTransGen (LaneStep h nodes) r (.input n m) := by
    intro before
    induction before using List.reverseRecOn with
    | nil =>
        intro after _ n hn
        exact absurd hn List.not_mem_nil
    | append_singleton before x ih =>
        intro after hsplit n hn m hm
        have ih := ih (x :: after) (by simp [hsplit])
        rcases List.mem_append.mp hn with hn | hn
        · exact ih n hn m hm
        · rw [List.mem_singleton.mp hn] at hm ⊢
          have hx : x ∈ nodes := by simp [hsplit]
          have hlt : m < (h x).previousNodes.length := by
            rw [hp.inputs x hx]
            exact hm
          have hget := List.getElem?_eq_getElem hlt
          cases hpointer : (h x).previousNodes[m] with
          | none =>
              rw [hpointer] at hget
              refine ⟨.input x m, List.mem_flatMap.mpr ⟨x, hx, ?_⟩, .refl⟩
              refine List.mem_append_left _ (List.mem_map_of_mem ?_)
              simp [freeInputs, hm, hget]
          | some a =>
              rw [hpointer] at hget
              obtain ⟨k, hstream⟩ := hp.stream_of_previous hx hget
              have ha := hp.ordered before x after (by simp [hsplit]) a
                (List.mem_of_getElem? hget)
              have hmem : a ∈ nodes := by simp [hsplit, ha]
              have hk : k < (h a).outputDataDefinitionFiles.length := by
                rw [← hp.outputs a hmem]
                exact (List.getElem?_eq_some_iff.mp hstream.1).1
              obtain ⟨r, hr, hpath⟩ := houtput a hmem (ih a ha) k hk
              exact ⟨r, hr, hpath.tail (.along a k x m hmem hx hstream)⟩
  cases p with
  | input n m => exact hinputs nodes [] (by simp) n hvalid.1 m hvalid.2
  | output n k =>
      exact houtput n hvalid.1 (hinputs nodes [] (by simp) n hvalid.1) k hvalid.2

/-- Two streams of the run have the same id exactly when one of them is reached
from the other. -/
theorem Allocated.id_eq_iff {s : StreamIds} (hp : Pipeline h nodes)
    (hs : Allocated h nodes s) {p q : Port} (hvp : p.Valid h nodes)
    (hvq : q.Valid h nodes) :
    s.id h p = s.id h q ↔ SameLane (LaneStep h nodes) p q :=
  label_eq_iff_sameLane (fun r => r ∈ nodes.flatMap (heads h))
    (laneStep_rightUnique hp) (hs.keep hp)
    (fun _ _ hp hq heq => hs.head_unique hp hq heq)
    (reached_from_head hp hvp) (reached_from_head hp hvq)

/-- The ids are ids of the interface. -/
theorem Allocated.id_lt {s : StreamIds} (hp : Pipeline h nodes)
    (hs : Allocated h nodes s) {p : Port} (hvp : p.Valid h nodes) :
    ∃ id < 16, s.id h p = some id := by
  obtain ⟨r, hr, hpath⟩ := reached_from_head hp hvp
  rw [← label_eq_of_reaches (hs.keep hp) hpath]
  obtain ⟨i, hi⟩ := List.mem_iff_getElem?.mp hr
  have hlt := (List.getElem?_eq_some_iff.mp hi).1
  exact ⟨i, Nat.lt_of_lt_of_le hlt hs.bound, hs.head_id hi⟩

end Run

/-! ## Ids of any run

Without assumptions on the edges, an allocation that returns still gives each
output of each node an id of the interface.
-/

/-- All ids are ids of the interface, and there are `k` ids of outputs. -/
structure InRange (k : Nat) (s : NodeIds) : Prop where
  inputs : ∀ id ∈ s.inputIds, id < 16
  outputs : ∀ id ∈ s.outputIds, id < 16
  available : ∀ id ∈ s.availableIds, id < 16
  length : s.outputIds.length = k

section InRange

variable {h : Heap} {node : QueryNode} {outputIds : IdMap}
  {availableIds availableIds' : List Nat} {id : Nat} {s s' : NodeIds}

theorem takeID_lt (havailable : ∀ id ∈ availableIds, id < 16)
    (hrun : takeID availableIds = .ok (id, availableIds')) :
    id < 16 ∧ ∀ id ∈ availableIds', id < 16 := by
  unfold takeID at hrun
  split at hrun
  · cases hrun
  · cases hrun
    exact ⟨havailable _ List.mem_cons_self,
      fun id hid => havailable id (List.mem_cons_of_mem _ hid)⟩

theorem inputID_lt (hids : ∀ name k id, entry outputIds name k = some id →
      id < 16)
    (havailable : ∀ id ∈ availableIds, id < 16) {previous : Option NodeId}
    (hrun : inputID h node outputIds availableIds previous =
      .ok (id, availableIds')) :
    id < 16 ∧ ∀ id ∈ availableIds', id < 16 := by
  unfold inputID at hrun
  split at hrun
  · simp only [bind_eq_ok, readAt_eq_ok, Except.ok.injEq, Prod.mk.injEq] at hrun
    obtain ⟨k, -, id', hid, rfl, rfl⟩ := hrun
    exact ⟨hids _ k _ hid, havailable⟩
  · exact takeID_lt havailable hrun

theorem InRange.allocateInputID {i : Nat}
    (hids : ∀ name k id, entry outputIds name k = some id → id < 16)
    (hs : InRange (min i node.outputDataDefinitionFiles.length) s)
    (hlength : s.inputIds.length = i)
    (hrun : allocateInputID h node outputIds s i = .ok s') :
    InRange (min (i + 1) node.outputDataDefinitionFiles.length) s' := by
  obtain ⟨previous, id, availableIds, -, hid, rfl⟩ :=
    (allocateInputID_eq_ok hlength).mp hrun
  obtain ⟨hlt, havailable⟩ := inputID_lt hids hs.available hid
  have hcount := hs.length
  refine ⟨forall_mem_concat hs.inputs hlt, ?_, havailable, ?_⟩
  · dsimp only
    split
    · exact forall_mem_concat hs.outputs hlt
    · exact hs.outputs
  · dsimp only
    split
    · rw [List.length_append, List.length_singleton]
      omega
    · rw [hcount]
      omega

theorem InRange.allocateLeftoverOutputID {i k : Nat} (hs : InRange k s)
    (hrun : allocateLeftoverOutputID s i = .ok s') : InRange (k + 1) s' := by
  simp only [IDManager.allocateLeftoverOutputID, bind_eq_ok,
    Except.ok.injEq] at hrun
  obtain ⟨⟨id, availableIds⟩, hid, rfl⟩ := hrun
  obtain ⟨hlt, havailable⟩ := takeID_lt hs.available hid
  exact ⟨hs.inputs, forall_mem_concat hs.outputs hlt, havailable,
    by simp [hs.length]⟩

/-- Both loops over a node. -/
theorem inRange_of_run
    (hids : ∀ name k id, entry outputIds name k = some id → id < 16)
    (havailable : ∀ id ∈ availableIds, id < 16)
    (hinputs : allocateInputIDs h node outputIds availableIds = .ok s)
    (hleftover : allocateLeftoverOutputIDs node s = .ok s') :
    InRange node.outputDataDefinitionFiles.length s' := by
  have hs : InRange (min node.inputDataDefinitionFiles.length
      node.outputDataDefinitionFiles.length) s := by
    refine (forRange_invariant (fun i (s : NodeIds) => s.inputIds.length = i ∧
      InRange (min i node.outputDataDefinitionFiles.length) s) _
      ⟨rfl, by simp, by simp, havailable, by simp⟩ ?_ hinputs).2
    rintro i s s' - ⟨hlength, hs⟩ hbody
    refine ⟨?_, hs.allocateInputID hids hlength hbody⟩
    obtain ⟨-, -, -, -, -, rfl⟩ := (allocateInputID_eq_ok hlength).mp hbody
    simp [hlength]
  have key := foldlM_invariant
    (fun done s => InRange (min node.inputDataDefinitionFiles.length
      node.outputDataDefinitionFiles.length + done.length) s)
    (leftoverOutputs node) hs ?_ hleftover
  · have hcount : (leftoverOutputs node).length =
        node.outputDataDefinitionFiles.length -
          node.inputDataDefinitionFiles.length := List.length_range'
    rw [hcount] at key
    rwa [show min node.inputDataDefinitionFiles.length
        node.outputDataDefinitionFiles.length +
          (node.outputDataDefinitionFiles.length -
            node.inputDataDefinitionFiles.length) =
        node.outputDataDefinitionFiles.length by omega] at key
  · intro before i after s s' _ hs hbody
    rw [List.length_append, List.length_singleton, ← Nat.add_assoc]
    exact hs.allocateLeftoverOutputID hbody

/-- Every output of the run has an id, and all ids are in range. -/
theorem outputIds_of_run {nodes : List NodeId} {inputIds outputIds : IdMap}
    (hnames : (nodes.map fun n => (h n).nodeName).Nodup)
    (hrun : allocateStreamIDs h (createReferenceVector h nodes) ∅ ∅ =
      .ok (inputIds, outputIds)) :
    (∀ n ∈ nodes, ∀ k < (h n).outputDataDefinitionFiles.length,
      ∃ id, entry outputIds (h n).nodeName k = some id) ∧
    ∀ name k id, entry outputIds name k = some id → id < 16 := by
  obtain ⟨s, hloop, rfl, rfl⟩ := exists_streamIds hrun
  have key := foldlM_invariant
    (fun done (s : StreamIds) =>
      (∀ n ∈ done, ∃ ids, s.outputIds[(h n).nodeName]? = some ids ∧
        ids.length = (h n).outputDataDefinitionFiles.length) ∧
      (∀ name, (∀ n ∈ done, name ≠ (h n).nodeName) →
        s.outputIds[name]? = none) ∧
      (∀ name k id, entry s.outputIds name k = some id → id < 16) ∧
      ∀ id ∈ s.availableIds, id < 16) nodes ?_ ?_ hloop
  · refine ⟨?_, key.2.2.1⟩
    intro n hn k hk
    obtain ⟨ids, hids, hlen⟩ := key.1 n hn
    rw [← hlen] at hk
    exact ⟨_, (entry_eq hids k).trans (List.getElem?_eq_getElem hk)⟩
  · refine ⟨by simp, by simp, ?_, ?_⟩
    · intro name k id hid
      rw [entry_eq_none (by simp)] at hid
      cases hid
    · rw [setUpAvailableIDs_eq]
      simp
  · rintro before n after s s' hsplit ⟨hlength, hfresh, hids, havailable⟩ hbody
    simp only [allocateNodeIDs, bind_eq_ok, Except.ok.injEq] at hbody
    obtain ⟨r, hinputs, r', hleftover, rfl⟩ := hbody
    have hr := inRange_of_run hids havailable hinputs hleftover
    have hnew : ∀ b ∈ before, (h b).nodeName ≠ (h n).nodeName := by
      intro b hb heq
      rw [hsplit, List.map_append, List.nodup_append] at hnames
      exact hnames.2.2 _ (List.mem_map_of_mem hb) _ (by simp) heq
    have hnone := hfresh (h n).nodeName fun b hb heq => hnew b hb heq.symm
    refine ⟨?_, ?_, ?_, hr.available⟩
    · refine forall_mem_concat (fun b hb => ?_) ?_
      · rw [getElem?_insertIfNew_of_ne _ (hnew b hb)]
        exact hlength b hb
      · rw [getElem?_insertIfNew hnone, if_pos rfl]
        exact ⟨_, rfl, hr.length⟩
    · intro name hall
      rw [getElem?_insertIfNew_of_ne _ (hall n (by simp))]
      exact hfresh name fun b hb => hall b (List.mem_append_left _ hb)
    · intro name k id hid
      rw [entry_insertIfNew hnone] at hid
      split at hid
      · exact hr.outputs id (List.mem_of_getElem? hid)
      · exact hids name k id hid

/-- Inputs before `i` that have a producer have taken over the id of the output
that the search has found. -/
structure Inherited (h : Heap) (node : QueryNode) (outputIds : IdMap) (i : Nat)
    (inputIds : List Nat) : Prop where
  length : inputIds.length = i
  inherited : ∀ m < i, ∀ a, node.previousNodes[m]? = some (some a) →
    ∃ k id, findStreamIndex h (h a).nextNodes node = .ok k ∧
      entry outputIds (h a).nodeName k = some id ∧ inputIds[m]? = some id

theorem Inherited.allocateInputID {i : Nat}
    (hs : Inherited h node outputIds i s.inputIds)
    (hrun : allocateInputID h node outputIds s i = .ok s') :
    Inherited h node outputIds (i + 1) s'.inputIds := by
  obtain ⟨previous, id, availableIds, hprevious, hid, rfl⟩ :=
    (allocateInputID_eq_ok hs.length).mp hrun
  refine ⟨by simp [hs.length], ?_⟩
  intro m hm a ha
  rcases Nat.lt_succ_iff_lt_or_eq.mp hm with hlt | rfl
  · obtain ⟨k, id', hfound, hout, hget⟩ := hs.inherited m hlt a ha
    refine ⟨k, id', hfound, hout, ?_⟩
    rw [List.getElem?_append_left (by rw [hs.length]; exact hlt), hget]
  · rw [hprevious, Option.some.injEq] at ha
    subst ha
    simp only [inputID, bind_eq_ok, readAt_eq_ok, Except.ok.injEq,
      Prod.mk.injEq] at hid
    obtain ⟨k, hfound, id', hout, rfl, -⟩ := hid
    refine ⟨k, id', hfound, hout, ?_⟩
    rw [List.getElem?_append_right (by rw [hs.length]), hs.length]
    simp

theorem allocateLeftoverOutputIDs_inputIds
    (hrun : allocateLeftoverOutputIDs node s = .ok s') :
    s'.inputIds = s.inputIds := by
  refine foldlM_invariant (fun _ r => r.inputIds = s.inputIds)
    (leftoverOutputs node) rfl ?_ hrun
  intro before i after r r' _ hr hbody
  simp only [allocateLeftoverOutputID, bind_eq_ok, Except.ok.injEq] at hbody
  obtain ⟨⟨id, availableIds⟩, -, rfl⟩ := hbody
  exact hr

/-- Every input of the run that has a producer has the id of the output that the
search has found. -/
theorem inherited_of_run {nodes : List NodeId} {inputIds outputIds : IdMap}
    (hnames : (nodes.map fun n => (h n).nodeName).Nodup)
    (hrun : allocateStreamIDs h (createReferenceVector h nodes) ∅ ∅ =
      .ok (inputIds, outputIds)) :
    ∀ n ∈ nodes, ∀ m < (h n).inputDataDefinitionFiles.length, ∀ a,
      (h n).previousNodes[m]? = some (some a) → ∃ k id,
        findStreamIndex h (h a).nextNodes (h n) = .ok k ∧
        entry outputIds (h a).nodeName k = some id ∧
        entry inputIds (h n).nodeName m = some id := by
  obtain ⟨s, hloop, rfl, rfl⟩ := exists_streamIds hrun
  have key := foldlM_invariant
    (fun done (s : StreamIds) =>
      (∀ name, (∀ n ∈ done, name ≠ (h n).nodeName) →
        s.inputIds[name]? = none ∧ s.outputIds[name]? = none) ∧
      ∀ n ∈ done, ∀ m < (h n).inputDataDefinitionFiles.length, ∀ a,
        (h n).previousNodes[m]? = some (some a) → ∃ k id,
          findStreamIndex h (h a).nextNodes (h n) = .ok k ∧
          entry s.outputIds (h a).nodeName k = some id ∧
          entry s.inputIds (h n).nodeName m = some id) nodes ?_ ?_ hloop
  · exact key.2
  · simp
  · rintro before n after s s' hsplit ⟨hfresh, hold⟩ hbody
    simp only [allocateNodeIDs, bind_eq_ok, Except.ok.injEq] at hbody
    obtain ⟨r, hinputs, r', hleftover, rfl⟩ := hbody
    have hr : Inherited h (h n) s.outputIds
        (h n).inputDataDefinitionFiles.length r.inputIds := by
      refine forRange_invariant
        (fun i r => Inherited h (h n) s.outputIds i r.inputIds) _
        ⟨rfl, by simp⟩ ?_ hinputs
      intro i r r' _ hr hbody
      exact hr.allocateInputID hbody
    rw [← allocateLeftoverOutputIDs_inputIds hleftover] at hr
    have hnew : ∀ b ∈ before, (h b).nodeName ≠ (h n).nodeName := by
      intro b hb heq
      rw [hsplit, List.map_append, List.nodup_append] at hnames
      exact hnames.2.2 _ (List.mem_map_of_mem hb) _ (by simp) heq
    obtain ⟨hnoneIn, hnoneOut⟩ :=
      hfresh (h n).nodeName fun b hb heq => hnew b hb heq.symm
    -- Ids that have been given out stay.
    have hkept : ∀ {name : String} {k id : Nat},
        entry s.outputIds name k = some id →
        entry (s.outputIds.insertIfNew (h n).nodeName r'.outputIds) name k =
          some id := by
      intro name k id hid
      rw [entry_insertIfNew hnoneOut, if_neg]
      · exact hid
      · rintro rfl
        rw [entry_eq_none hnoneOut] at hid
        cases hid
    refine ⟨?_, ?_⟩
    · intro name hall
      have hne := hall n (by simp)
      rw [getElem?_insertIfNew_of_ne _ hne, getElem?_insertIfNew_of_ne _ hne]
      exact hfresh name fun b hb => hall b (List.mem_append_left _ hb)
    · refine forall_mem_concat (fun b hb m hm a ha => ?_) fun m hm a ha => ?_
      · obtain ⟨k, id, hfound, hout, hin⟩ := hold b hb m hm a ha
        refine ⟨k, id, hfound, hkept hout, ?_⟩
        rw [entry_insertIfNew hnoneIn, if_neg (hnew b hb)]
        exact hin
      · obtain ⟨k, id, hfound, hout, hin⟩ := hr.inherited m hm a ha
        refine ⟨k, id, hfound, hkept hout, ?_⟩
        rw [entry_insertIfNew hnoneIn, if_pos rfl]
        exact hin

end InRange

end Orkhestra.Ports.IDManager
