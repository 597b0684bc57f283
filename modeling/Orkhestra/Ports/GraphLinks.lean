import Orkhestra.Ports.GraphCreator

/-!
# Consistent graphs

The streams of a graph are looked up by the counts and the pointers of its
nodes.  `LinkDependentNodes` compares the previous nodes of a description with
its input files; it takes the next nodes as they are, and a description without
previous nodes with whatever input files it has.

`linkDependentNode_eq_ok_iff` says what an iteration does: it returns when the
lists of the description are accepted, and appends their pointers.
-/

namespace Orkhestra.Ports.GraphLinks

open Orkhestra.Verified.Checked
open Orkhestra.Verified.OwnException
open Orkhestra.Verified.VectorMap
open Orkhestra.Ports.QuerySchedulingData
open Orkhestra.Ports.ConfigCreator (supportedFunction)
open Orkhestra.Ports.QueryManager (mapAt mapAt_eq_ok)
open Orkhestra.Ports.GraphCreator

/-! ## Accepted descriptions -/

section Accepted

variable {β : Type} (named : Std.TreeMap String β)

/-- A name that is looked up is in the map; an empty one stands for no node. -/
def Known (name : String) : Prop := name ≠ "" → name ∈ named

/-- An input has a previous node that is known, or a file. -/
structure InputAccepted (name inputFile : String) : Prop where
  known : Known named name
  fed : name ≠ "" ↔ inputFile = ""

/-- Previous nodes are listed for all inputs, and each of them is accepted. -/
structure PreviousAccepted (inputFilenames names : List String) : Prop where
  sameLength : names.length = inputFilenames.length
  inputs : ∀ (i : Nat) (name inputFile : String), names[i]? = some name →
    inputFilenames[i]? = some inputFile → InputAccepted named name inputFile

/-- The lists of a description are accepted, as far as they are given. -/
structure Accepted (description : NodeDescription) : Prop where
  previous : ∀ names, description.previousNodes = some names →
    PreviousAccepted named description.inputFilenames names
  next : ∀ names, description.nextNodes = some names →
    ∀ name ∈ names, Known named name

variable {named}

theorem known_empty : Known named "" := fun hne => absurd rfl hne

/-- Only the names of a map matter. -/
theorem Accepted.of_mem_iff {γ : Type} {named' : Std.TreeMap String γ}
    (hmem : ∀ name, name ∈ named ↔ name ∈ named') {description : NodeDescription}
    (h : Accepted named description) : Accepted named' description where
  previous := by
    intro names hnames
    obtain ⟨hlength, hinputs⟩ := h.previous names hnames
    refine ⟨hlength, ?_⟩
    intro i name inputFile hname hfile
    obtain ⟨hknown, hfed⟩ := hinputs i name inputFile hname hfile
    exact ⟨fun hne => (hmem name).mp (hknown hne), hfed⟩
  next := fun names hnames name hname hne =>
    (hmem name).mp (h.next names hnames name hname hne)

end Accepted

/-! ## Linking a node -/

section Linking

variable (graphNodesMap : Std.TreeMap String NodeId)

/-- The pointer of a name; an empty one stands for no node. -/
def pointer (name : String) : Option NodeId :=
  if name = "" then none else graphNodesMap[name]?

/-- The two lists of pointers of a node. -/
inductive Side where
  | previous
  | next

/-- The node with pointers behind those of a side. -/
def Side.append (pointers : List (Option NodeId)) (n : QueryNode) :
    Side → QueryNode
  | .previous => { n with previousNodes := n.previousNodes ++ pointers }
  | .next => { n with nextNodes := n.nextNodes ++ pointers }

/-- The heap with pointers behind those of a side of a node. -/
def push (heap : Heap) (node : NodeId) (side : Side)
    (pointers : List (Option NodeId)) : Heap :=
  heap.modify node fun n => side.append pointers n

variable {graphNodesMap} {heap : Heap} {node : NodeId}

theorem push_nil (heap : Heap) (node : NodeId) (side : Side) :
    push heap node side [] = heap := by
  funext m
  cases side <;> simp [push, Heap.modify, Side.append]

theorem push_push (heap : Heap) (node : NodeId) (side : Side)
    (pointers pointers' : List (Option NodeId)) :
    push (push heap node side pointers) node side pointers' =
      push heap node side (pointers ++ pointers') := by
  unfold push
  rw [Heap.modify_modify]
  cases side <;> simp [Side.append]

/-- A name is looked up, and the pointer that is found is used. -/
theorem mapAt_bind_eq_ok_iff {name : String} (hname : name ≠ "")
    (push : Option NodeId → Heap) {heap' : Heap} :
    (do
      let found ← mapAt graphNodesMap name
      .ok (push (some found))) = Except.ok heap' ↔
      Known graphNodesMap name ∧ heap' = push (pointer graphNodesMap name) := by
  rw [bind_eq_ok, pointer, if_neg hname]
  simp only [mapAt_eq_ok, Except.ok.injEq]
  constructor
  · rintro ⟨found, hfound, rfl⟩
    exact ⟨fun _ => mem_iff_exists.mpr ⟨found, hfound⟩, by rw [hfound]⟩
  · rintro ⟨hknown, rfl⟩
    obtain ⟨found, hfound⟩ := mem_iff_exists.mp (hknown hname)
    exact ⟨found, hfound, by rw [hfound]⟩

theorem linkNextNode_eq_ok_iff {name : String} {heap' : Heap} :
    linkNextNode graphNodesMap node heap name = .ok heap' ↔
      Known graphNodesMap name ∧
        heap' = push heap node .next [pointer graphNodesMap name] := by
  unfold linkNextNode
  by_cases hname : name = ""
  · subst hname
    rw [if_neg (not_not_intro rfl), and_iff_right known_empty, Except.ok.injEq]
    exact eq_comm
  · rw [if_pos hname]
    exact mapAt_bind_eq_ok_iff hname (pushNext heap node)

theorem linkNextNodes_eq_ok_iff {names : List String} {heap' : Heap} :
    linkNextNodes graphNodesMap heap node names = .ok heap' ↔
      (∀ name ∈ names, Known graphNodesMap name) ∧
        heap' = push heap node .next (names.map (pointer graphNodesMap)) := by
  unfold linkNextNodes
  induction names generalizing heap with
  | nil =>
      rw [List.foldlM_nil, pure_eq_ok, Except.ok.injEq, List.map_nil,
        push_nil]
      simp [eq_comm]
  | cons name names ih =>
      rw [List.foldlM_cons, bind_eq_ok, List.forall_mem_cons, List.map_cons]
      simp only [linkNextNode_eq_ok_iff, ih]
      constructor
      · rintro ⟨_, ⟨hname, rfl⟩, hnames, rfl⟩
        exact ⟨⟨hname, hnames⟩, push_push _ _ _ _ _⟩
      · rintro ⟨⟨hname, hnames⟩, rfl⟩
        exact ⟨_, ⟨hname, rfl⟩, hnames, (push_push heap node .next
          [pointer graphNodesMap name] _).symm⟩

theorem linkPreviousNode_eq_ok_iff {names : List String} {i : Nat}
    {name inputFile : String} {heap' : Heap} (hname : names[i]? = some name)
    (hfile : (heap node).inputDataDefinitionFiles[i]? = some inputFile) :
    linkPreviousNode graphNodesMap node names heap i = .ok heap' ↔
      InputAccepted graphNodesMap name inputFile ∧
        heap' = push heap node .previous [pointer graphNodesMap name] := by
  rw [linkPreviousNode, readAt_eq_ok.mpr hname, ok_bind, readAt_eq_ok.mpr hfile,
    ok_bind]
  by_cases hempty : name = ""
  · subst hempty
    rw [if_neg (not_not_intro rfl)]
    by_cases hrequired : inputFile = ""
    · rw [if_pos hrequired]
      refine iff_of_false (by simp) ?_
      rintro ⟨⟨-, hfed⟩, -⟩
      exact hfed.mpr hrequired rfl
    · have haccepted : InputAccepted graphNodesMap "" inputFile :=
        ⟨known_empty, iff_of_false (not_not_intro rfl) hrequired⟩
      rw [if_neg hrequired, and_iff_right haccepted, Except.ok.injEq]
      exact eq_comm
  · rw [if_pos hempty]
    by_cases hrequired : inputFile = ""
    · rw [if_neg (not_not_intro hrequired)]
      refine (mapAt_bind_eq_ok_iff hempty (pushPrevious heap node)).trans ?_
      refine and_congr_left fun _ => ⟨fun hknown => ?_, InputAccepted.known⟩
      exact ⟨hknown, iff_of_true hempty hrequired⟩
    · rw [if_pos hrequired]
      refine iff_of_false (by simp) ?_
      rintro ⟨⟨-, hfed⟩, -⟩
      exact hrequired (hfed.mp hempty)

/-- The heap in front of an iteration over the previous nodes. -/
def previousLinked (graphNodesMap : Std.TreeMap String NodeId) (heap : Heap)
    (node : NodeId) (names : List String) (i : Nat) : Heap :=
  push heap node .previous ((names.take i).map (pointer graphNodesMap))

theorem previousLinked_zero (names : List String) :
    previousLinked graphNodesMap heap node names 0 = heap :=
  push_nil heap node .previous

theorem previousLinked_succ {names : List String} {i : Nat} {name : String}
    (hname : names[i]? = some name) :
    push (previousLinked graphNodesMap heap node names i) node .previous
        [pointer graphNodesMap name] =
      previousLinked graphNodesMap heap node names (i + 1) := by
  rw [previousLinked, push_push, previousLinked,
    List.take_add_one, hname, List.map_append]
  rfl

/-- An iteration finds the files as they were. -/
theorem inputs_previousLinked (names : List String) (i : Nat) :
    (previousLinked graphNodesMap heap node names i
        node).inputDataDefinitionFiles =
      (heap node).inputDataDefinitionFiles := by
  rw [previousLinked, push, Heap.modify_same]
  rfl

theorem linkPreviousLoop_eq_ok_iff {names : List String} {heap' : Heap}
    (hlength : names.length = (heap node).inputDataDefinitionFiles.length) :
    (List.range names.length).foldlM (linkPreviousNode graphNodesMap node names)
        heap = .ok heap' ↔
      (∀ i < names.length, ∀ name inputFile : String, names[i]? = some name →
        (heap node).inputDataDefinitionFiles[i]? = some inputFile →
        InputAccepted graphNodesMap name inputFile) ∧
      heap' = previousLinked graphNodesMap heap node names names.length := by
  have hloop := @forRange_eq_ok_iff _
    (linkPreviousNode graphNodesMap node names)
    (previousLinked graphNodesMap heap node names)
    (fun i => ∀ name inputFile : String, names[i]? = some name →
      (heap node).inputDataDefinitionFiles[i]? = some inputFile →
      InputAccepted graphNodesMap name inputFile) names.length
  rw [previousLinked_zero] at hloop
  apply hloop
  intro i hi heap'
  have hname := List.getElem?_eq_getElem hi
  have hfile := List.getElem?_eq_getElem (hlength ▸ hi)
  rw [linkPreviousNode_eq_ok_iff hname
    ((congrArg (·[i]?) (inputs_previousLinked names i)).trans hfile),
    previousLinked_succ hname]
  refine and_congr_left fun _ => ⟨?_, fun h => h _ _ hname hfile⟩
  intro haccepted name inputFile hname' hfile'
  obtain rfl := Option.some.inj (hname.symm.trans hname')
  obtain rfl := Option.some.inj (hfile.symm.trans hfile')
  exact haccepted

theorem linkPreviousNodes_eq_ok_iff {names : List String} {heap' : Heap} :
    linkPreviousNodes graphNodesMap heap node names = .ok heap' ↔
      PreviousAccepted graphNodesMap (heap node).inputDataDefinitionFiles
          names ∧
        heap' =
          push heap node .previous (names.map (pointer graphNodesMap)) := by
  unfold linkPreviousNodes
  by_cases hlength : names.length = (heap node).inputDataDefinitionFiles.length
  · rw [if_neg (not_not_intro hlength), linkPreviousLoop_eq_ok_iff hlength,
      previousLinked, List.take_length]
    refine and_congr_left fun _ => ⟨fun hinputs => ⟨hlength, ?_⟩, ?_⟩
    · intro i name inputFile hname
      exact hinputs i (List.getElem?_eq_some_iff.mp hname).1 name inputFile hname
    · intro haccepted i _
      exact haccepted.inputs i
  · rw [if_pos hlength]
    exact iff_of_false (by simp) fun h => hlength h.1.sameLength

/-- A list that may be missing is linked like an empty one. -/
theorem linkGiven_eq_ok_iff {side : Side} {link : List String → Outcome Heap}
    {accepts : List String → Prop}
    (hlink : ∀ names heap', link names = .ok heap' ↔
      accepts names ∧
        heap' = push heap node side (names.map (pointer graphNodesMap)))
    {given : Option (List String)} {heap' : Heap} :
    (match given with
      | none => .ok heap
      | some names => link names) = Except.ok heap' ↔
      (∀ names, given = some names → accepts names) ∧
      heap' = push heap node side
        ((given.getD []).map (pointer graphNodesMap)) := by
  cases given with
  | none =>
      rw [Option.getD_none, List.map_nil, push_nil]
      simp [eq_comm]
  | some names =>
      refine (hlink names heap').trans (and_congr_left fun _ => ?_)
      simp

/-- The node of a description with its pointers. -/
def linked (graphNodesMap : Std.TreeMap String NodeId) (nodeName : String)
    (description : NodeDescription) : QueryNode :=
  { description.node nodeName with
    previousNodes :=
      (description.previousNodes.getD []).map (pointer graphNodesMap)
    nextNodes := (description.nextNodes.getD []).map (pointer graphNodesMap) }

/-- Linking a node returns when its description is accepted, and appends the
pointers of its lists. -/
theorem linkDependentNode_eq_ok_iff {s : GraphNodes} {nodeName : String}
    {description : NodeDescription}
    (hprevious : s.previousNodes[nodeName]? = description.previousNodes)
    (hnext : s.nextNodes[nodeName]? = description.nextNodes)
    (hnode : heap node = description.node nodeName) {heap' : Heap} :
    linkDependentNode s heap (nodeName, node) = .ok heap' ↔
      Accepted s.graphNodesMap description ∧
        heap' = heap.modify node fun _ =>
          linked s.graphNodesMap nodeName description := by
  have hinputs : (heap node).inputDataDefinitionFiles =
      description.inputFilenames := by
    rw [hnode]
    rfl
  have hlinked : push
        (push heap node .previous
          ((description.previousNodes.getD []).map (pointer s.graphNodesMap)))
        node .next
        ((description.nextNodes.getD []).map (pointer s.graphNodesMap)) =
      heap.modify node fun _ => linked s.graphNodesMap nodeName description := by
    unfold push
    rw [Heap.modify_modify]
    funext m
    unfold Heap.modify
    split
    · next hm =>
        rw [hm, hnode]
        rfl
    · rfl
  have hsequence : linkDependentNode s heap (nodeName, node) =
      (match description.previousNodes with
        | none => .ok heap
        | some names => linkPreviousNodes s.graphNodesMap heap node names) >>=
      fun heap => match description.nextNodes with
        | none => .ok heap
        | some names => linkNextNodes s.graphNodesMap heap node names := by
    rw [linkDependentNode, hprevious, hnext]
    cases description.previousNodes <;> rfl
  rw [← hlinked, hsequence, bind_eq_ok]
  simp only [linkGiven_eq_ok_iff fun _ _ => linkPreviousNodes_eq_ok_iff,
    linkGiven_eq_ok_iff fun _ _ => linkNextNodes_eq_ok_iff, hinputs]
  constructor
  · rintro ⟨_, ⟨hpreviousAccepted, rfl⟩, hnextAccepted, rfl⟩
    exact ⟨⟨hpreviousAccepted, hnextAccepted⟩, rfl⟩
  · rintro ⟨haccepted, rfl⟩
    exact ⟨_, ⟨haccepted.previous, rfl⟩, haccepted.next, rfl⟩

end Linking

/-! ## Linking all nodes -/

section Graph

variable {descriptions : List (String × NodeDescription)}

variable (descriptions) in
/-- The pointers by name. -/
def nodeMap : Std.TreeMap String NodeId :=
  (GraphNodes.ofDescriptions descriptions).graphNodesMap

theorem mem_nodeMap_toList (hnodup : (descriptions.map (·.1)).Nodup)
    {entry : String × NodeId} :
    entry ∈ (nodeMap descriptions).toList ↔
      ∃ description, descriptions[entry.2]? = some (entry.1, description) := by
  rw [← getElem?_graphNodesMap hnodup]
  exact Std.TreeMap.mem_toList_iff_getElem?_eq_some

/-- The nodes in front of an iteration: those of the entries behind it are as
they were made. -/
def LinkedBefore (descriptions : List (String × NodeDescription))
    (before : List (String × NodeId)) (heap : Heap) : Prop :=
  ∀ node nodeName description,
    descriptions[node]? = some (nodeName, description) →
    heap node = if (nodeName, node) ∈ before then
        linked (nodeMap descriptions) nodeName description
      else description.node nodeName

theorem linkedBefore_nil :
    LinkedBefore descriptions []
      (tableHeap (GraphNodes.ofDescriptions descriptions).nodes) := by
  intro node nodeName description h
  rw [if_neg List.not_mem_nil]
  exact tableHeap_nodes h

/-- The iteration of an entry whose node has not been linked. -/
theorem linkEntry_eq_ok_iff (hnodup : (descriptions.map (·.1)).Nodup)
    {before after : List (String × NodeId)} {entry : String × NodeId}
    {description : NodeDescription} {heap heap' : Heap}
    (hsplit : (nodeMap descriptions).toList = before ++ entry :: after)
    (hbefore : LinkedBefore descriptions before heap)
    (hdescription : descriptions[entry.2]? = some (entry.1, description)) :
    linkDependentNode (GraphNodes.ofDescriptions descriptions) heap entry =
        .ok heap' ↔
      Accepted (nodeMap descriptions) description ∧
        heap' = heap.modify entry.2 fun _ =>
          linked (nodeMap descriptions) entry.1 description := by
  have hmem := List.mem_of_getElem? hdescription
  have hfresh : entry ∉ before := by
    have hlist := (keys_nodup (nodeMap descriptions)).of_map
    rw [hsplit, List.nodup_append] at hlist
    intro hbefore
    exact hlist.2.2 entry hbefore entry List.mem_cons_self rfl
  have hnode := hbefore _ _ _ hdescription
  rw [if_neg hfresh] at hnode
  exact linkDependentNode_eq_ok_iff (previousNodes_of_mem hnodup hmem)
    (nextNodes_of_mem hnodup hmem) hnode

theorem LinkedBefore.step {before : List (String × NodeId)}
    {entry : String × NodeId}
    {description : NodeDescription} {heap : Heap}
    (hbefore : LinkedBefore descriptions before heap)
    (hdescription : descriptions[entry.2]? = some (entry.1, description)) :
    LinkedBefore descriptions (before ++ [entry]) (heap.modify entry.2 fun _ =>
      linked (nodeMap descriptions) entry.1 description) := by
  intro node nodeName other hother
  by_cases hnode : node = entry.2
  · subst hnode
    obtain ⟨rfl, rfl⟩ := Prod.mk.inj
      (Option.some.inj (hother.symm.trans hdescription))
    rw [Heap.modify_same, if_pos (by simp)]
  · have hne : (nodeName, node) ≠ entry :=
      fun heq => hnode (congrArg Prod.snd heq)
    have hiff : (nodeName, node) ∈ before ++ [entry] ↔
        (nodeName, node) ∈ before := by
      rw [List.mem_append, List.mem_singleton, or_iff_left hne]
    rw [Heap.modify_of_ne _ hnode, hbefore _ _ _ hother]
    simp only [hiff]

/-- Every entry of the map has its description. -/
theorem exists_description (hnodup : (descriptions.map (·.1)).Nodup)
    {before after : List (String × NodeId)} {entry : String × NodeId}
    (hsplit : (nodeMap descriptions).toList = before ++ entry :: after) :
    ∃ description, descriptions[entry.2]? = some (entry.1, description) := by
  rw [← mem_nodeMap_toList hnodup, hsplit]
  simp

theorem linkDependentNodes_returns_iff (hnodup : (descriptions.map (·.1)).Nodup) :
    (∃ heap, linkDependentNodes (GraphNodes.ofDescriptions descriptions) =
        .ok heap) ↔
      ∀ entry ∈ descriptions, Accepted (nodeMap descriptions) entry.2 := by
  unfold linkDependentNodes
  rw [foldlM_returns_iff (LinkedBefore descriptions)
    (fun entry => ∀ description,
      descriptions[entry.2]? = some (entry.1, description) →
      Accepted (nodeMap descriptions) description) _ linkedBefore_nil ?_ ?_]
  · constructor
    · rintro h ⟨nodeName, description⟩ hmem
      obtain ⟨node, hnode⟩ := List.mem_iff_getElem?.mp hmem
      have hentry : (nodeName, node) ∈ (nodeMap descriptions).toList :=
        (mem_nodeMap_toList hnodup).mpr ⟨_, hnode⟩
      exact h _ hentry description hnode
    · intro h entry _ description hdescription
      exact h _ (List.mem_of_getElem? hdescription)
  · intro before entry after heap hsplit hbefore
    obtain ⟨description, hdescription⟩ := exists_description hnodup hsplit
    simp only [linkEntry_eq_ok_iff hnodup hsplit hbefore hdescription,
      hdescription, Option.some.injEq, Prod.mk.injEq, true_and, forall_eq', exists_and_left,
      exists_eq, and_true]
  · intro before entry after heap heap' hsplit hbefore hbody
    obtain ⟨description, hdescription⟩ := exists_description hnodup hsplit
    obtain ⟨-, rfl⟩ :=
      (linkEntry_eq_ok_iff hnodup hsplit hbefore hdescription).mp hbody
    exact hbefore.step hdescription

/-- Behind the loop every node has its pointers. -/
theorem linkDependentNodes_linked (hnodup : (descriptions.map (·.1)).Nodup)
    {heap : Heap}
    (h : linkDependentNodes (GraphNodes.ofDescriptions descriptions) = .ok heap)
    {node : NodeId} {nodeName : String} {description : NodeDescription}
    (hnode : descriptions[node]? = some (nodeName, description)) :
    heap node = linked (nodeMap descriptions) nodeName description := by
  have hlinked : LinkedBefore descriptions (nodeMap descriptions).toList heap := by
    refine foldlM_invariant (LinkedBefore descriptions) _ linkedBefore_nil ?_ h
    intro before entry after heap heap' hsplit hbefore hbody
    obtain ⟨description, hdescription⟩ := exists_description hnodup hsplit
    obtain ⟨-, rfl⟩ :=
      (linkEntry_eq_ok_iff hnodup hsplit hbefore hdescription).mp hbody
    exact hbefore.step hdescription
  rw [hlinked _ _ _ hnode, if_pos ((mem_nodeMap_toList hnodup).mpr ⟨_, hnode⟩)]

end Graph

/-! ## Exceptions -/

section Exceptions

theorem rejects_mapAt {β : Type} (m : Std.TreeMap String β) (name : String) :
    Rejects (mapAt m name) := by
  unfold mapAt
  split
  · exact rejects_ok _
  · exact rejects_error .outOfRange

theorem rejects_getString (parameter : InputNodeParameter) :
    Rejects (getString parameter) := by
  unfold getString
  split
  · exact rejects_ok _
  · exact rejects_error (.logicError _)

theorem rejects_getStrings (parameter : InputNodeParameter) :
    Rejects (getStrings parameter) := by
  unfold getStrings
  split
  · exact rejects_ok _
  · exact rejects_error (.logicError _)

theorem rejects_getParams (parameter : InputNodeParameter) :
    Rejects (getParams parameter) := by
  unfold getParams
  split
  · exact rejects_ok _
  · exact rejects_error (.logicError _)

theorem rejects_supportedFunction (name : String) :
    Rejects (supportedFunction name) := by
  unfold supportedFunction
  split
  · exact rejects_ok _
  · exact rejects_error .outOfRange

theorem rejects_readNames (nodeParameters : InputNodeParameters)
    (field : String) : Rejects (readNames nodeParameters field) := by
  unfold readNames
  split
  · exact rejects_ok _
  · exact (rejects_getStrings _).bind fun _ _ => rejects_ok _

theorem rejects_readDescription (nodeParameters : InputNodeParameters) :
    Rejects (readDescription nodeParameters) := by
  unfold readDescription
  apply ((rejects_mapAt _ _).bind fun _ _ => rejects_getParams _).bind
  intro allOperationParametersMap _
  apply (rejects_mapAt _ _).bind
  intro inputStreamParameters _
  apply (rejects_mapAt _ _).bind
  intro outputStreamParameters _
  apply (rejects_mapAt _ _).bind
  intro operationParameters _
  apply ((rejects_mapAt _ _).bind fun _ _ => rejects_getStrings _).bind
  intro outputFilenames _
  apply ((rejects_mapAt _ _).bind fun _ _ => rejects_getStrings _).bind
  intro inputFilenames _
  apply ((rejects_mapAt _ _).bind fun _ _ => rejects_getString _).bind
  intro operation _
  apply (rejects_supportedFunction _).bind
  intro operationType _
  apply (rejects_readNames _ _).bind
  intro previousNodes _
  exact (rejects_readNames _ _).bind fun _ _ => rejects_ok _

theorem rejects_populate (data : Std.TreeMap String InputNodeParameters) :
    Rejects (populateGraphNodesMapWithJSONData data) := by
  refine rejects_foldlM (fun s entry => ?_) _ _
  rw [populateGraphNode_eq]
  refine Rejects.bind ?_ fun _ _ => rejects_ok _
  exact (rejects_readDescription _).bind fun _ _ => rejects_ok _

variable {graphNodesMap : Std.TreeMap String NodeId} {heap : Heap} {node : NodeId}

theorem rejects_linkNextNodes (names : List String) :
    Rejects (linkNextNodes graphNodesMap heap node names) := by
  refine rejects_foldlM (fun heap name => ?_) _ _
  unfold linkNextNode
  split
  · exact (rejects_mapAt _ _).bind fun _ _ => rejects_ok _
  · exact rejects_ok _

theorem rejects_linkPreviousNode {names : List String} {i : Nat}
    {name inputFile : String} (hname : names[i]? = some name)
    (hfile : (heap node).inputDataDefinitionFiles[i]? = some inputFile) :
    Rejects (linkPreviousNode graphNodesMap node names heap i) := by
  rw [linkPreviousNode, readAt_eq_ok.mpr hname, ok_bind, readAt_eq_ok.mpr hfile,
    ok_bind]
  split
  · split
    · exact rejects_error (.runtimeError _)
    · exact (rejects_mapAt _ _).bind fun _ _ => rejects_ok _
  · split
    · exact rejects_error (.runtimeError _)
    · exact rejects_ok _

/-- The counts are compared, so that no file is read behind the last one. -/
theorem rejects_linkPreviousNodes (names : List String) :
    Rejects (linkPreviousNodes graphNodesMap heap node names) := by
  unfold linkPreviousNodes
  split
  · exact rejects_error (.runtimeError _)
  · next hlength =>
      rw [not_not] at hlength
      have hfile : ∀ i (hi : i < names.length),
          (previousLinked graphNodesMap heap node names i
              node).inputDataDefinitionFiles[i]? =
            some (heap node).inputDataDefinitionFiles[i] := fun i hi =>
        (congrArg (·[i]?) (inputs_previousLinked names i)).trans
          (List.getElem?_eq_getElem (hlength ▸ hi))
      have hloop := @rejects_forRange _ (linkPreviousNode graphNodesMap node names)
        (previousLinked graphNodesMap heap node names) names.length
      rw [previousLinked_zero] at hloop
      apply hloop
      · intro i hi
        exact rejects_linkPreviousNode (List.getElem?_eq_getElem hi) (hfile i hi)
      · intro i hi heap' hbody
        have hname := List.getElem?_eq_getElem hi
        rw [((linkPreviousNode_eq_ok_iff hname (hfile i hi)).mp hbody).2,
          previousLinked_succ hname]

theorem rejects_linkDependentNodes (s : GraphNodes) :
    Rejects (linkDependentNodes s) := by
  refine rejects_foldlM ?_ _ _
  rintro heap ⟨nodeName, node⟩
  have hnext : ∀ heap, Rejects (match s.nextNodes[nodeName]? with
      | none => .ok heap
      | some names => linkNextNodes s.graphNodesMap heap node names) := by
    intro heap
    split
    · exact rejects_ok _
    · exact rejects_linkNextNodes _
  rw [linkDependentNode]
  cases s.previousNodes[nodeName]? with
  | none => exact hnext heap
  | some names =>
      exact (rejects_linkPreviousNodes names).bind fun heap _ => hnext heap

theorem rejects_makeGraph (data : Std.TreeMap String InputNodeParameters) :
    Rejects (makeGraph data) :=
  (rejects_populate data).bind fun s _ =>
    (rejects_linkDependentNodes s).bind fun _ _ => rejects_ok _

end Exceptions

/-! ## Consistent graphs -/

/-- The nodes of a graph. -/
def pointers (graph : Graph) : List NodeId :=
  graph.graphNodesMap.toList.map (·.2)

/-- The counts and the edges of the nodes agree, and each input has exactly one
of a file and a producer. -/
structure Consistent (graph : Graph) : Prop where
  previousCount : ∀ node ∈ pointers graph,
    (graph.heap node).previousNodes.length =
      (graph.heap node).inputDataDefinitionFiles.length
  nextCount : ∀ node ∈ pointers graph, (graph.heap node).nextNodes.length =
    (graph.heap node).outputDataDefinitionFiles.length
  checkedCount : ∀ node ∈ pointers graph, (graph.heap node).isChecked.length =
    (graph.heap node).outputDataDefinitionFiles.length
  edges : ∀ a ∈ pointers graph, ∀ b ∈ pointers graph,
    (graph.heap a).nextNodes.count (some b) =
      (graph.heap b).previousNodes.count (some a)
  inputs : ∀ node ∈ pointers graph, ∀ (i : Nat) (inputFile : String),
    (graph.heap node).inputDataDefinitionFiles[i]? = some inputFile →
      (inputFile ≠ "" ↔
        ¬∃ producer, (graph.heap node).previousNodes[i]? = some (some producer))

/-- How often a list names a node. -/
def mentions (names : Option (List String)) (nodeName : String) : Nat :=
  if nodeName = "" then 0 else (names.getD []).count nodeName

/-- Lists that agree: inputs come with previous nodes, there is a next node for
each output, and two nodes mention each other equally often. -/
structure Agree (descriptions : List (String × NodeDescription)) : Prop where
  previous : ∀ entry ∈ descriptions, entry.2.previousNodes = none →
    entry.2.inputFilenames = []
  next : ∀ entry ∈ descriptions,
    (entry.2.nextNodes.getD []).length = entry.2.outputFilenames.length
  edges : ∀ a ∈ descriptions, ∀ b ∈ descriptions,
    mentions a.2.nextNodes b.1 = mentions b.2.previousNodes a.1

section Consistency

variable {descriptions : List (String × NodeDescription)}

/-- The linked nodes of some descriptions. -/
structure IsGraphOf (graph : Graph)
    (descriptions : List (String × NodeDescription)) : Prop where
  names_nodup : (descriptions.map (·.1)).Nodup
  nodeMap_eq : graph.graphNodesMap = nodeMap descriptions
  heap_eq : ∀ node nodeName description,
    descriptions[node]? = some (nodeName, description) →
    graph.heap node = linked (nodeMap descriptions) nodeName description

variable {graph : Graph}

theorem IsGraphOf.mem_pointers (h : IsGraphOf graph descriptions)
    {node : NodeId} : node ∈ pointers graph ↔
      ∃ nodeName description,
        descriptions[node]? = some (nodeName, description) := by
  rw [pointers, h.nodeMap_eq, List.mem_map]
  constructor
  · rintro ⟨entry, hentry, rfl⟩
    exact ⟨entry.1, (mem_nodeMap_toList h.names_nodup).mp hentry⟩
  · rintro ⟨nodeName, hdescription⟩
    have hentry : (nodeName, node) ∈ (nodeMap descriptions).toList :=
      (mem_nodeMap_toList h.names_nodup).mpr hdescription
    exact ⟨_, hentry, rfl⟩

theorem IsGraphOf.exists_node (h : IsGraphOf graph descriptions)
    {entry : String × NodeDescription} (hentry : entry ∈ descriptions) :
    ∃ node ∈ pointers graph, descriptions[node]? = some entry ∧
      graph.heap node = linked (nodeMap descriptions) entry.1 entry.2 := by
  obtain ⟨node, hnode⟩ := List.mem_iff_getElem?.mp hentry
  exact ⟨node, h.mem_pointers.mpr ⟨_, _, hnode⟩, hnode, h.heap_eq _ _ _ hnode⟩

theorem IsGraphOf.exists_entry (h : IsGraphOf graph descriptions) {node : NodeId}
    (hnode : node ∈ pointers graph) :
    ∃ entry ∈ descriptions, descriptions[node]? = some entry ∧
      graph.heap node = linked (nodeMap descriptions) entry.1 entry.2 := by
  obtain ⟨nodeName, description, hd⟩ := h.mem_pointers.mp hnode
  exact ⟨_, List.mem_of_getElem? hd, hd, h.heap_eq _ _ _ hd⟩

/-- A node is pointed to as often as its name is listed. -/
theorem count_pointers (hnodup : (descriptions.map (·.1)).Nodup) {node : NodeId}
    {nodeName : String} {description : NodeDescription}
    (hnode : descriptions[node]? = some (nodeName, description))
    (names : Option (List String)) :
    ((names.getD []).map (pointer (nodeMap descriptions))).count (some node) =
      mentions names nodeName := by
  have hpointer : ∀ name, pointer (nodeMap descriptions) name = some node ↔
      nodeName ≠ "" ∧ name = nodeName := by
    intro name
    unfold pointer
    split
    · next hname =>
        rw [hname]
        exact iff_of_false (by simp) fun h => h.1 h.2.symm
    · next hname =>
        rw [nodeMap, getElem?_graphNodesMap hnodup, hnode]
        simp only [Option.some.injEq, Prod.mk.injEq, exists_and_left, exists_eq',
          and_true]
        exact ⟨fun h => ⟨h ▸ hname, h.symm⟩, fun h => h.2.symm⟩
  rw [mentions, List.count_eq_countP, List.countP_map]
  split
  · next hempty =>
      rw [List.countP_eq_zero]
      intro name _
      simp [hpointer, hempty]
  · next hnonempty =>
      rw [List.count_eq_countP]
      refine List.countP_congr fun name _ => ?_
      simp [hpointer, hnonempty]

/-- Linked descriptions have as many previous nodes as input files exactly when
inputs come with previous nodes. -/
theorem length_previous_iff {named : Std.TreeMap String NodeId}
    {description : NodeDescription} (h : Accepted named description) :
    (description.previousNodes.getD []).length =
        description.inputFilenames.length ↔
      (description.previousNodes = none → description.inputFilenames = []) := by
  cases hnames : description.previousNodes with
  | none =>
      simp [eq_comm, List.length_eq_zero_iff]
  | some names =>
      simp [(h.previous names hnames).sameLength]

/-- An accepted input has either a file or a producer. -/
theorem InputAccepted.exclusive {named : Std.TreeMap String NodeId}
    {name inputFile : String} (h : InputAccepted named name inputFile) :
    inputFile ≠ "" ↔ ¬∃ producer, pointer named name = some producer := by
  rw [pointer, ← not_iff_not, not_not, not_not, ← h.fed]
  by_cases hname : name = ""
  · simp [hname]
  · have hmem := mem_iff_exists.mp (h.known hname)
    simp [hname, hmem]

/-- Each input of a linked description has either a file or a producer. -/
theorem inputs_linked {named : Std.TreeMap String NodeId} {nodeName : String}
    {description : NodeDescription} (h : Accepted named description)
    (hprevious : description.previousNodes = none →
      description.inputFilenames = [])
    {i : Nat} {inputFile : String}
    (hfile : description.inputFilenames[i]? = some inputFile) :
    inputFile ≠ "" ↔ ¬∃ producer,
      (linked named nodeName description).previousNodes[i]? =
        some (some producer) := by
  cases hnames : description.previousNodes with
  | none =>
      rw [hprevious hnames, List.getElem?_nil] at hfile
      cases hfile
  | some names =>
      have haccepted := h.previous names hnames
      have hlt : i < names.length := by
        rw [haccepted.sameLength]
        exact (List.getElem?_eq_some_iff.mp hfile).1
      have hname := List.getElem?_eq_getElem hlt
      have hpointer : (linked named nodeName description).previousNodes[i]? =
          some (pointer named names[i]) := by
        rw [linked, hnames, Option.getD_some, List.getElem?_map, hname]
        rfl
      simp only [hpointer, Option.some.injEq]
      exact (haccepted.inputs i _ _ hname hfile).exclusive

theorem consistent_iff_agree (h : IsGraphOf graph descriptions)
    (haccepted : ∀ entry ∈ descriptions,
      Accepted (nodeMap descriptions) entry.2) :
    Consistent graph ↔ Agree descriptions := by
  constructor
  · intro hconsistent
    refine { previous := ?_, next := ?_, edges := ?_ }
    · intro entry hentry
      obtain ⟨node, hnode, -, hheap⟩ := h.exists_node hentry
      have hcount := hconsistent.previousCount node hnode
      rw [hheap] at hcount
      exact (length_previous_iff (haccepted entry hentry)).mp
        ((List.length_map _).symm.trans hcount)
    · intro entry hentry
      obtain ⟨node, hnode, -, hheap⟩ := h.exists_node hentry
      have hcount := hconsistent.nextCount node hnode
      rw [hheap] at hcount
      exact (List.length_map _).symm.trans hcount
    · intro a ha b hb
      obtain ⟨node, hnode, hnodeAt, hheap⟩ := h.exists_node ha
      obtain ⟨node', hnode', hnodeAt', hheap'⟩ := h.exists_node hb
      have hcount := hconsistent.edges node hnode node' hnode'
      rw [hheap, hheap'] at hcount
      exact (count_pointers h.names_nodup hnodeAt' _).symm.trans
        (hcount.trans (count_pointers h.names_nodup hnodeAt _))
  · intro hagree
    have hprevious : ∀ entry ∈ descriptions,
        (entry.2.previousNodes.getD []).length = entry.2.inputFilenames.length :=
      fun entry hentry => (length_previous_iff (haccepted entry hentry)).mpr
        (hagree.previous entry hentry)
    refine
      { previousCount := ?_, nextCount := ?_, checkedCount := ?_, edges := ?_
        inputs := ?_ }
    · intro node hnode
      obtain ⟨entry, hentry, -, hheap⟩ := h.exists_entry hnode
      rw [hheap]
      exact (List.length_map _).trans (hprevious entry hentry)
    · intro node hnode
      obtain ⟨entry, hentry, -, hheap⟩ := h.exists_entry hnode
      rw [hheap]
      exact (List.length_map _).trans (hagree.next entry hentry)
    · intro node hnode
      obtain ⟨entry, hentry, -, hheap⟩ := h.exists_entry hnode
      rw [hheap]
      exact List.length_map _
    · intro a ha b hb
      obtain ⟨entry, hentry, hat, hheap⟩ := h.exists_entry ha
      obtain ⟨entry', hentry', hat', hheap'⟩ := h.exists_entry hb
      rw [hheap, hheap']
      exact (count_pointers h.names_nodup hat' _).trans
        ((hagree.edges entry hentry entry' hentry').trans
          (count_pointers h.names_nodup hat _).symm)
    · intro node hnode i inputFile hfile
      obtain ⟨entry, hentry, -, hheap⟩ := h.exists_entry hnode
      rw [hheap] at hfile ⊢
      exact inputs_linked (haccepted entry hentry)
        (hagree.previous entry hentry) hfile

end Consistency

/-! ## The graph creator -/

section GraphCreator

variable (data : Std.TreeMap String InputNodeParameters)

/-- The graph creator yields only consistent graphs. -/
structure YieldsConsistent : Prop where
  rejects : Rejects (makeGraph data)
  consistent : ∀ graph, makeGraph data = .ok graph → Consistent graph

variable {data} {descriptions : List (String × NodeDescription)}

/-- The names of the nodes are those of the plan. -/
theorem mem_nodeMap_iff (h : readDescriptions data = .ok descriptions)
    (nodeName : String) : nodeName ∈ nodeMap descriptions ↔ nodeName ∈ data := by
  have hdata : nodeName ∈ data ↔ nodeName ∈ descriptions.map (·.1) := by
    rw [mem_iff_mem_keys, names_eq h]
  rw [hdata, mem_iff_exists, List.mem_map]
  simp only [nodeMap, getElem?_graphNodesMap (names_nodup h), Prod.exists,
    exists_and_right, exists_eq_right]
  constructor
  · rintro ⟨node, description, hd⟩
    exact ⟨description, List.mem_of_getElem? hd⟩
  · rintro ⟨description, hmem⟩
    obtain ⟨node, hnode⟩ := List.mem_iff_getElem?.mp hmem
    exact ⟨node, description, hnode⟩

theorem makeGraph_eq (h : readDescriptions data = .ok descriptions) :
    makeGraph data = (do
      let heap ← linkDependentNodes (.ofDescriptions descriptions)
      .ok ⟨nodeMap descriptions, heap⟩) := by
  rw [makeGraph, populate_eq, h]
  rfl

theorem exists_descriptions {graph : Graph} (h : makeGraph data = .ok graph) :
    ∃ descriptions, readDescriptions data = .ok descriptions := by
  rw [makeGraph, populate_eq] at h
  obtain ⟨_, hpopulate, -⟩ := bind_eq_ok.mp h
  obtain ⟨descriptions, hread, -⟩ := bind_eq_ok.mp hpopulate
  exact ⟨descriptions, hread⟩

/-- A plan that can be read is accepted with its descriptions. -/
theorem makeGraph_returns_iff (h : readDescriptions data = .ok descriptions) :
    (∃ graph, makeGraph data = .ok graph) ↔
      ∀ entry ∈ descriptions, Accepted (nodeMap descriptions) entry.2 := by
  rw [← linkDependentNodes_returns_iff (names_nodup h), makeGraph_eq h]
  simp only [bind_eq_ok, Except.ok.injEq]
  exact ⟨fun ⟨_, heap, hheap, _⟩ => ⟨heap, hheap⟩,
    fun ⟨heap, hheap⟩ => ⟨_, heap, hheap, rfl⟩⟩

theorem isGraphOf_of_makeGraph (h : readDescriptions data = .ok descriptions)
    {graph : Graph} (hmake : makeGraph data = .ok graph) :
    IsGraphOf graph descriptions := by
  rw [makeGraph_eq h] at hmake
  obtain ⟨heap, hheap, hgraph⟩ := bind_eq_ok.mp hmake
  obtain rfl := Except.ok.inj hgraph
  exact
    { names_nodup := names_nodup h
      nodeMap_eq := rfl
      heap_eq := fun _ _ _ hnode =>
        linkDependentNodes_linked (names_nodup h) hheap hnode }

theorem accepted_iff (h : readDescriptions data = .ok descriptions) :
    (∀ entry ∈ descriptions, Accepted (nodeMap descriptions) entry.2) ↔
      ∀ entry ∈ descriptions, Accepted data entry.2 := by
  constructor
  · intro haccepted entry hentry
    exact (haccepted entry hentry).of_mem_iff (mem_nodeMap_iff h)
  · intro haccepted entry hentry
    exact (haccepted entry hentry).of_mem_iff fun nodeName =>
      (mem_nodeMap_iff h nodeName).symm

/-- Graphs are consistent exactly when the lists of a plan that is accepted
agree. -/
theorem yieldsConsistent_iff_agree
    (data : Std.TreeMap String InputNodeParameters) :
    YieldsConsistent data ↔
      ∀ descriptions, readDescriptions data = .ok descriptions →
        (∀ entry ∈ descriptions, Accepted data entry.2) → Agree descriptions := by
  constructor
  · intro h descriptions hread haccepted
    rw [← accepted_iff hread] at haccepted
    obtain ⟨graph, hmake⟩ := (makeGraph_returns_iff hread).mpr haccepted
    have hgraph := isGraphOf_of_makeGraph hread hmake
    exact (consistent_iff_agree hgraph haccepted).mp (h.consistent graph hmake)
  · intro h
    refine ⟨rejects_makeGraph data, ?_⟩
    intro graph hmake
    obtain ⟨descriptions, hread⟩ := exists_descriptions hmake
    have haccepted := (makeGraph_returns_iff hread).mp ⟨graph, hmake⟩
    have hgraph := isGraphOf_of_makeGraph hread hmake
    exact (consistent_iff_agree hgraph haccepted).mpr
      (h descriptions hread ((accepted_iff hread).mp haccepted))

/-- Fields of a filter without parameters. -/
def filterFields (lists : List (String × List String)) : InputNodeParameters :=
  .ofList ([("operation", InputNodeParameter.string "kFilter"),
      ("operation_parameters", .params (.ofList [("input_stream_params", []),
        ("output_stream_params", []), ("operation_params", [])]))] ++
    lists.map fun list => (list.1, .strings list.2))

/-- A filter that reads a file and lists no previous nodes. -/
def withoutPreviousNodes : Std.TreeMap String InputNodeParameters :=
  .ofList [("filter", filterFields
    [("input", ["cars.csv"]), ("output", [""]), ("next_nodes", [""])])]

/-- A filter that names a next node, which does not name it. -/
def oneSided : Std.TreeMap String InputNodeParameters :=
  .ofList [("first", filterFields [("input", ["cars.csv"]), ("output", [""]),
      ("previous_nodes", [""]), ("next_nodes", ["second"])]),
    ("second", filterFields [("input", ["cars.csv"]), ("output", [""]),
      ("previous_nodes", [""]), ("next_nodes", [""])])]

theorem graphs_not_always_consistent :
    ¬YieldsConsistent withoutPreviousNodes ∧ ¬YieldsConsistent oneSided := by
  constructor
  · intro h
    have hrun : (makeGraph withoutPreviousNodes).toOption.any (fun graph =>
        decide (0 ∈ pointers graph ∧ (graph.heap 0).previousNodes.length ≠
          (graph.heap 0).inputDataDefinitionFiles.length)) = true := by
      decide +kernel
    obtain ⟨graph, hmake, hfails⟩ := (Option.any_eq_true _ _).mp hrun
    obtain ⟨hnode, hcount⟩ := of_decide_eq_true hfails
    exact hcount ((h.consistent graph (toOption_eq_some.mp hmake)).previousCount
      0 hnode)
  · intro h
    have hrun : (makeGraph oneSided).toOption.any (fun graph =>
        decide (0 ∈ pointers graph ∧ 1 ∈ pointers graph ∧
          (graph.heap 0).nextNodes.count (some 1) ≠
            (graph.heap 1).previousNodes.count (some 0))) = true := by
      decide +kernel
    obtain ⟨graph, hmake, hfails⟩ := (Option.any_eq_true _ _).mp hrun
    obtain ⟨hfirst, hsecond, hcount⟩ := of_decide_eq_true hfails
    exact hcount ((h.consistent graph (toOption_eq_some.mp hmake)).edges
      0 hfirst 1 hsecond)

end GraphCreator

end Orkhestra.Ports.GraphLinks
