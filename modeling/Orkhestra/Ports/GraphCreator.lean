import Orkhestra.Ports.ConfigCreator
import Orkhestra.Ports.QueryManager
import Orkhestra.Verified.OwnException

/-!
# From node descriptions to a graph

`GraphCreator`: the node descriptions of a plan become query nodes, which are
then linked by name.  The previous and the next nodes of a description are lists
of their own, either of which may be missing; an empty name stands for no node.

A pointer is the number of the `make_shared` that it comes from.
-/

namespace Orkhestra.Ports.GraphCreator

open Orkhestra.Verified.Checked
open Orkhestra.Verified.OwnException
open Orkhestra.Verified.VectorMap
open Orkhestra.Ports.QuerySchedulingData
open Orkhestra.Ports.ConfigCreator (supportedFunction)
open Orkhestra.Ports.QueryManager (mapAt)

/-! ## Node descriptions -/

/-- `std::map<std::string, std::vector<std::vector<int>>>`. -/
abbrev ParamsMap := Std.TreeMap String (List (List Int))

/-- A value of `InputNodeParameters`. -/
inductive InputNodeParameter where
  | string (value : String)
  | strings (values : List String)
  | params (values : ParamsMap)

abbrev InputNodeParameters := Std.TreeMap String InputNodeParameter

/-- A `std::get` of another alternative. -/
def badVariantAccess : Fault := .logicError "bad_variant_access"

/-- `std::get<std::string>`. -/
def getString : InputNodeParameter → Outcome String
  | .string value => .ok value
  | _ => .error badVariantAccess

/-- `std::get<std::vector<std::string>>`. -/
def getStrings : InputNodeParameter → Outcome (List String)
  | .strings values => .ok values
  | _ => .error badVariantAccess

/-- `std::get<ParamsMap>`. -/
def getParams : InputNodeParameter → Outcome ParamsMap
  | .params values => .ok values
  | _ => .error badVariantAccess

/-! ## The graph creator -/

/-- The maps that the functions share, and the nodes behind the pointers. -/
structure GraphNodes where
  graphNodesMap : Std.TreeMap String NodeId
  previousNodes : Std.TreeMap String (List String)
  nextNodes : Std.TreeMap String (List String)
  nodes : List QueryNode

/-- `std::make_shared<QueryNode>`, entered under its name. -/
def GraphNodes.insertNode (s : GraphNodes) (node : QueryNode) : GraphNodes :=
  { s with
    graphNodesMap := s.graphNodesMap.insertIfNew node.nodeName s.nodes.length
    nodes := s.nodes ++ [node] }

/-- An iteration of `PopulateGraphNodesMapWithJSONData`. -/
def populateGraphNode (s : GraphNodes) (entry : String × InputNodeParameters) :
    Outcome GraphNodes := do
  let (nodeName, nodeParameters) := entry
  let allOperationParametersMap ←
    mapAt nodeParameters "operation_parameters" >>= getParams
  let allOperationParameters ← do
    let inputStreamParameters ←
      mapAt allOperationParametersMap "input_stream_params"
    let outputStreamParameters ←
      mapAt allOperationParametersMap "output_stream_params"
    let operationParameters ← mapAt allOperationParametersMap "operation_params"
    .ok { inputStreamParameters, outputStreamParameters, operationParameters }
  let outputFilenames ← mapAt nodeParameters "output" >>= getStrings
  let isChecked := outputFilenames.map fun filename => !filename.isEmpty
  let inputFilenames ← mapAt nodeParameters "input" >>= getStrings
  let operation ← mapAt nodeParameters "operation" >>= getString
  let operationType ← supportedFunction operation
  let s := s.insertNode
    { inputDataDefinitionFiles := inputFilenames
      outputDataDefinitionFiles := outputFilenames
      operationType
      nextNodes := []
      previousNodes := []
      operationParameters := allOperationParameters
      nodeName
      isChecked }
  let s ← match nodeParameters["previous_nodes"]? with
    | none => .ok s
    | some parameter => do
        let names ← getStrings parameter
        .ok { s with
          previousNodes := s.previousNodes.insertIfNew nodeName names }
  match nodeParameters["next_nodes"]? with
    | none => .ok s
    | some parameter => do
        let names ← getStrings parameter
        .ok { s with nextNodes := s.nextNodes.insertIfNew nodeName names }

/-- The descriptions are walked in the order of their names. -/
def populateGraphNodesMapWithJSONData
    (data : Std.TreeMap String InputNodeParameters) : Outcome GraphNodes :=
  data.toList.foldlM populateGraphNode ⟨∅, ∅, ∅, []⟩

/-- `node->previous_nodes.push_back(pointer)`. -/
def pushPrevious (heap : Heap) (node : NodeId) (pointer : Option NodeId) :
    Heap :=
  heap.modify node fun n =>
    { n with previousNodes := n.previousNodes ++ [pointer] }

/-- `node->next_nodes.push_back(pointer)`. -/
def pushNext (heap : Heap) (node : NodeId) (pointer : Option NodeId) : Heap :=
  heap.modify node fun n => { n with nextNodes := n.nextNodes ++ [pointer] }

section Linking

variable (graphNodesMap : Std.TreeMap String NodeId)

def linkPreviousNode (node : NodeId) (previousNodes : List String) (heap : Heap)
    (i : Nat) : Outcome Heap := do
  let previousName ← readAt previousNodes i
  let inputFile ← readAt (heap node).inputDataDefinitionFiles i
  if previousName ≠ "" then
    if inputFile ≠ "" then .error (.runtimeError "Input file not required!")
    else do
      let previous ← mapAt graphNodesMap previousName
      .ok (pushPrevious heap node (some previous))
  else if inputFile = "" then .error (.runtimeError "Input file required!")
  else .ok (pushPrevious heap node none)

def linkPreviousNodes (heap : Heap) (node : NodeId)
    (previousNodes : List String) : Outcome Heap :=
  if previousNodes.length ≠ (heap node).inputDataDefinitionFiles.length then
    .error (.runtimeError "Incorrect number of input file definitions found!")
  else (List.range previousNodes.length).foldlM
    (linkPreviousNode graphNodesMap node previousNodes) heap

def linkNextNode (node : NodeId) (heap : Heap) (nextName : String) :
    Outcome Heap :=
  if nextName ≠ "" then do
    let next ← mapAt graphNodesMap nextName
    .ok (pushNext heap node (some next))
  else .ok (pushNext heap node none)

def linkNextNodes (heap : Heap) (node : NodeId) (nextNodes : List String) :
    Outcome Heap :=
  nextNodes.foldlM (linkNextNode graphNodesMap node) heap

end Linking

/-- An iteration of `LinkDependentNodes`. -/
def linkDependentNode (s : GraphNodes) (heap : Heap) (entry : String × NodeId) :
    Outcome Heap := do
  let (nodeName, node) := entry
  let heap ← match s.previousNodes[nodeName]? with
    | none => .ok heap
    | some previousNodes =>
        linkPreviousNodes s.graphNodesMap heap node previousNodes
  match s.nextNodes[nodeName]? with
    | none => .ok heap
    | some nextNodes => linkNextNodes s.graphNodesMap heap node nextNodes

def linkDependentNodes (s : GraphNodes) : Outcome Heap :=
  s.graphNodesMap.toList.foldlM (linkDependentNode s) (tableHeap s.nodes)

/-- A linked graph: its nodes by name, and the nodes behind the pointers. -/
structure Graph where
  graphNodesMap : Std.TreeMap String NodeId
  heap : Heap

/-- Nodes without a previous node. -/
def Graph.leafNodes (graph : Graph) : List NodeId :=
  (graph.graphNodesMap.toList.map (·.2)).filter fun node =>
    (graph.heap node).previousNodes.all (·.isNone)

/-- `MakeGraph` behind the JSON reader; the graph is handed over as its leaf
nodes. -/
def makeGraph (data : Std.TreeMap String InputNodeParameters) :
    Outcome Graph := do
  let s ← populateGraphNodesMapWithJSONData data
  let heap ← linkDependentNodes s
  .ok ⟨s.graphNodesMap, heap⟩

/-! ## What the descriptions say -/

/-- The fields of a node that the graph creator reads. -/
structure NodeDescription where
  inputFilenames : List String
  outputFilenames : List String
  operationType : QueryOperationType
  operationParameters : NodeOperationParameters
  previousNodes : Option (List String)
  nextNodes : Option (List String)

/-- A field that may be missing. -/
def readNames (nodeParameters : InputNodeParameters) (field : String) :
    Outcome (Option (List String)) :=
  match nodeParameters[field]? with
  | none => .ok none
  | some parameter => do
      let names ← getStrings parameter
      .ok (some names)

def readDescription (nodeParameters : InputNodeParameters) :
    Outcome NodeDescription := do
  let allOperationParametersMap ←
    mapAt nodeParameters "operation_parameters" >>= getParams
  let inputStreamParameters ←
    mapAt allOperationParametersMap "input_stream_params"
  let outputStreamParameters ←
    mapAt allOperationParametersMap "output_stream_params"
  let operationParameters ← mapAt allOperationParametersMap "operation_params"
  let outputFilenames ← mapAt nodeParameters "output" >>= getStrings
  let inputFilenames ← mapAt nodeParameters "input" >>= getStrings
  let operation ← mapAt nodeParameters "operation" >>= getString
  let operationType ← supportedFunction operation
  let previousNodes ← readNames nodeParameters "previous_nodes"
  let nextNodes ← readNames nodeParameters "next_nodes"
  .ok
    { inputFilenames, outputFilenames, operationType, previousNodes, nextNodes
      operationParameters :=
        ⟨inputStreamParameters, outputStreamParameters, operationParameters⟩ }

def readEntry (entry : String × InputNodeParameters) :
    Outcome (String × NodeDescription) := do
  let description ← readDescription entry.2
  .ok (entry.1, description)

/-- The descriptions of a plan by name. -/
def readDescriptions (data : Std.TreeMap String InputNodeParameters) :
    Outcome (List (String × NodeDescription)) :=
  data.toList.mapM readEntry

/-- The node of a description before it is linked. -/
def NodeDescription.node (description : NodeDescription) (nodeName : String) :
    QueryNode where
  inputDataDefinitionFiles := description.inputFilenames
  outputDataDefinitionFiles := description.outputFilenames
  operationType := description.operationType
  nextNodes := []
  previousNodes := []
  operationParameters := description.operationParameters
  nodeName := nodeName
  isChecked := description.outputFilenames.map fun filename => !filename.isEmpty

/-- `insert` of a vector that may be missing. -/
def insertNames (m : Std.TreeMap String (List String)) (nodeName : String) :
    Option (List String) → Std.TreeMap String (List String)
  | none => m
  | some names => m.insertIfNew nodeName names

def GraphNodes.add (s : GraphNodes) (entry : String × NodeDescription) :
    GraphNodes where
  graphNodesMap := s.graphNodesMap.insertIfNew entry.1 s.nodes.length
  previousNodes := insertNames s.previousNodes entry.1 entry.2.previousNodes
  nextNodes := insertNames s.nextNodes entry.1 entry.2.nextNodes
  nodes := s.nodes ++ [entry.2.node entry.1]

theorem populateGraphNode_eq (s : GraphNodes)
    (entry : String × InputNodeParameters) :
    populateGraphNode s entry = (do
      let described ← readEntry entry
      .ok (s.add described)) := by
  simp only [populateGraphNode, readEntry, readDescription, readNames, bind_assoc,
    ok_bind]
  repeat refine bind_congr fun _ => ?_
  cases entry.2["previous_nodes"]? with
  | none =>
      cases entry.2["next_nodes"]? with
      | none => rfl
      | some parameter =>
          simp only [bind_assoc, ok_bind]
          rfl
  | some parameter =>
      simp only [bind_assoc, ok_bind]
      refine bind_congr fun names => ?_
      cases entry.2["next_nodes"]? with
      | none => rfl
      | some parameter =>
          simp only [bind_assoc, ok_bind]
          rfl

/-! ## The nodes of the descriptions -/

/-- The maps and the nodes of the descriptions, in front of the links. -/
def GraphNodes.ofDescriptions (descriptions : List (String × NodeDescription)) :
    GraphNodes :=
  descriptions.foldl GraphNodes.add ⟨∅, ∅, ∅, []⟩

theorem populate_eq (data : Std.TreeMap String InputNodeParameters) :
    populateGraphNodesMapWithJSONData data = (do
      let descriptions ← readDescriptions data
      .ok (.ofDescriptions descriptions)) := by
  have hbody : populateGraphNode = fun s entry => (do
      let described ← readEntry entry
      .ok (s.add described)) := by
    funext s entry
    exact populateGraphNode_eq s entry
  rw [populateGraphNodesMapWithJSONData, hbody, foldlM_bind_eq_mapM]
  rfl

theorem names_eq {data : Std.TreeMap String InputNodeParameters}
    {descriptions : List (String × NodeDescription)}
    (h : readDescriptions data = .ok descriptions) :
    descriptions.map (·.1) = data.toList.map (·.1) := by
  refine map_of_mapM_eq_ok (·.1) (·.1) h fun entry described hentry => ?_
  obtain ⟨description, -, hdescribed⟩ := bind_eq_ok.mp hentry
  exact congrArg Prod.fst (Except.ok.inj hdescribed).symm

/-- Names of a map are unique. -/
theorem names_nodup {data : Std.TreeMap String InputNodeParameters}
    {descriptions : List (String × NodeDescription)}
    (h : readDescriptions data = .ok descriptions) :
    (descriptions.map (·.1)).Nodup := by
  rw [names_eq h]
  exact keys_nodup data

section Populated

variable {descriptions : List (String × NodeDescription)}

theorem description_unique (hnodup : (descriptions.map (·.1)).Nodup)
    {nodeName : String} {description description' : NodeDescription}
    (h : (nodeName, description) ∈ descriptions)
    (h' : (nodeName, description') ∈ descriptions) :
    description = description' :=
  congrArg Prod.snd (List.inj_on_of_nodup_map hnodup h h' rfl)

theorem foldl_add_nodes (s : GraphNodes) :
    (descriptions.foldl GraphNodes.add s).nodes =
      s.nodes ++ descriptions.map fun entry => entry.2.node entry.1 := by
  induction descriptions generalizing s with
  | nil => simp
  | cons entry descriptions ih =>
      rw [List.foldl_cons, ih, List.map_cons]
      simp [GraphNodes.add]

theorem foldl_add_graphNodesMap (s : GraphNodes) :
    (descriptions.foldl GraphNodes.add s).graphNodesMap =
      ((descriptions.zipIdx s.nodes.length).map fun entry =>
        (entry.1.1, entry.2)).foldl
        (fun m group => m.insertIfNew group.1 group.2) s.graphNodesMap := by
  induction descriptions generalizing s with
  | nil => rfl
  | cons entry descriptions ih =>
      rw [List.foldl_cons, ih, List.zipIdx_cons, List.map_cons, List.foldl_cons]
      simp [GraphNodes.add]

/-- The pointer of a name is the place of its description. -/
theorem getElem?_graphNodesMap (hnodup : (descriptions.map (·.1)).Nodup)
    {nodeName : String} {node : NodeId} :
    (GraphNodes.ofDescriptions descriptions).graphNodesMap[nodeName]? =
        some node ↔
      ∃ description, descriptions[node]? = some (nodeName, description) := by
  have hkeys : ((descriptions.zipIdx.map fun entry => (entry.1.1, entry.2)).map
      (·.1)).Nodup := by
    have hfst : (fun entry : (String × NodeDescription) × Nat => entry.1.1) =
      (·.1) ∘ (·.1) := rfl
    rw [List.map_map, Function.comp_def, hfst, ← List.map_map,
      List.zipIdx_map_fst]
    exact hnodup
  rw [GraphNodes.ofDescriptions, foldl_add_graphNodesMap]
  refine (getElem?_foldl_insertIfNew hkeys (by simp) _ _).trans ?_
  simp [List.mem_zipIdx_iff_getElem?]

/-- The lists that are given are filed under the names of their nodes. -/
theorem getElem?_insertNames (hnodup : (descriptions.map (·.1)).Nodup)
    (names : NodeDescription → Option (List String)) {nodeName : String}
    {listed : List String} :
    (descriptions.foldl (fun m entry => insertNames m entry.1 (names entry.2))
        (∅ : Std.TreeMap String (List String)))[nodeName]? = some listed ↔
      ∃ description, (nodeName, description) ∈ descriptions ∧
        names description = some listed := by
  have hgroups : descriptions.foldl
      (fun m entry => insertNames m entry.1 (names entry.2))
      (∅ : Std.TreeMap String (List String)) =
      (descriptions.filterMap fun entry =>
        (names entry.2).map fun listed => (entry.1, listed)).foldl
        (fun m group => m.insertIfNew group.1 group.2) ∅ := by
    rw [List.foldl_filterMap]
    congr 1
    funext m entry
    cases names entry.2 <;> rfl
  have hkeys : ((descriptions.filterMap fun entry =>
      (names entry.2).map fun listed => (entry.1, listed)).map (·.1)).Nodup := by
    rw [List.Nodup, List.pairwise_map] at hnodup ⊢
    refine hnodup.filterMap _ ?_
    intro a b hne x hx y hy
    obtain ⟨_, -, rfl⟩ := Option.map_eq_some_iff.mp hx
    obtain ⟨_, -, rfl⟩ := Option.map_eq_some_iff.mp hy
    exact hne
  rw [hgroups]
  refine (getElem?_foldl_insertIfNew hkeys (by simp) _ _).trans ?_
  simp 

theorem getElem?_insertNames_of_mem (hnodup : (descriptions.map (·.1)).Nodup)
    (names : NodeDescription → Option (List String)) {nodeName : String}
    {description : NodeDescription}
    (hmem : (nodeName, description) ∈ descriptions) :
    (descriptions.foldl (fun m entry => insertNames m entry.1 (names entry.2))
        (∅ : Std.TreeMap String (List String)))[nodeName]? =
      names description := by
  ext listed
  rw [getElem?_insertNames hnodup]
  constructor
  · rintro ⟨description', hmem', hlisted⟩
    obtain rfl := description_unique hnodup hmem hmem'
    exact hlisted
  · intro hlisted
    exact ⟨description, hmem, hlisted⟩

theorem previousNodes_of_mem (hnodup : (descriptions.map (·.1)).Nodup)
    {nodeName : String} {description : NodeDescription}
    (hmem : (nodeName, description) ∈ descriptions) :
    (GraphNodes.ofDescriptions descriptions).previousNodes[nodeName]? =
      description.previousNodes := by
  have hfold : (GraphNodes.ofDescriptions descriptions).previousNodes =
      descriptions.foldl
        (fun m entry => insertNames m entry.1 entry.2.previousNodes) ∅ :=
    (List.foldl_hom GraphNodes.previousNodes fun _ _ => rfl).symm
  rw [hfold]
  exact getElem?_insertNames_of_mem hnodup (·.previousNodes) hmem

theorem nextNodes_of_mem (hnodup : (descriptions.map (·.1)).Nodup)
    {nodeName : String} {description : NodeDescription}
    (hmem : (nodeName, description) ∈ descriptions) :
    (GraphNodes.ofDescriptions descriptions).nextNodes[nodeName]? =
      description.nextNodes := by
  have hfold : (GraphNodes.ofDescriptions descriptions).nextNodes =
      descriptions.foldl
        (fun m entry => insertNames m entry.1 entry.2.nextNodes) ∅ :=
    (List.foldl_hom GraphNodes.nextNodes fun _ _ => rfl).symm
  rw [hfold]
  exact getElem?_insertNames_of_mem hnodup (·.nextNodes) hmem

/-- The node behind the pointer of a description. -/
theorem tableHeap_nodes {node : NodeId} {nodeName : String}
    {description : NodeDescription}
    (h : descriptions[node]? = some (nodeName, description)) :
    tableHeap (GraphNodes.ofDescriptions descriptions).nodes node =
      description.node nodeName := by
  rw [GraphNodes.ofDescriptions, foldl_add_nodes, List.nil_append, tableHeap,
    List.getElem?_map, h]
  rfl

end Populated

end Orkhestra.Ports.GraphCreator
