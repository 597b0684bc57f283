import Orkhestra.Ports.GraphLinks
import Orkhestra.Ports.StoredExecution

/-!
# From descriptions to results

`Core::Run`: the libraries and the node descriptions are parsed, and the graph
that is made of them is executed.

Descriptions that are accepted, that agree with each other and whose next nodes
do not lead back are the nodes of a plan (`planOf`).  An output that has neither
a file nor a consumer is written to a file that is named after its node.
-/

namespace Orkhestra.Ports.CoreRun

open Orkhestra.Verified.Checked
open Orkhestra.Verified.VectorMap
open Orkhestra.Ports.QuerySchedulingData
open Orkhestra.Ports.ConfigCreator (AcceleratorLibraryData getConfig)
open Orkhestra.Ports.GraphCreator
open Orkhestra.Ports.GraphLinks
open Orkhestra.Ports.NodeScheduler
open Orkhestra.Ports.SchedulePartition (placements)
open Orkhestra.Ports.ModulePlacement
open Orkhestra.Ports.QueryManager (ExecutionState)
open Orkhestra.Ports.PortVectors
open Orkhestra.Ports.TableManager (Conversions Storage)
open Orkhestra.Ports.CSVReader (File)
open Orkhestra.Ports.Accelerator
open Orkhestra.Ports.PlanMeaning
open Orkhestra.Ports.PlanExecution
open Orkhestra.Ports.StoredExecution
open Orkhestra.Ports.ExecutionOrder (Config)

/-! ## Plans of descriptions -/

section Plans

variable {descriptions : List (String × NodeDescription)} {graph : Graph}

/-- `name` has `nextName` among its next nodes. -/
def NamesNext (descriptions : List (String × NodeDescription))
    (name nextName : String) : Prop :=
  nextName ≠ "" ∧ ∃ description, (name, description) ∈ descriptions ∧
    nextName ∈ description.nextNodes.getD []

/-- Descriptions of a plan. -/
structure DescribesPlan (descriptions : List (String × NodeDescription)) :
    Prop where
  accepted : ∀ entry ∈ descriptions, Accepted (nodeMap descriptions) entry.2
  agree : Agree descriptions
  acyclic : ∀ name,
    ¬Relation.TransGen (NamesNext descriptions) name name

theorem mem_pointers_of_pointer (h : IsGraphOf graph descriptions)
    {name : String} {node : NodeId}
    (hpointer : pointer (nodeMap descriptions) name = some node) :
    name ≠ "" ∧ ∃ description, descriptions[node]? = some (name, description) := by
  rw [pointer] at hpointer
  split at hpointer
  · cases hpointer
  · next hne =>
      exact ⟨hne, (getElem?_graphNodesMap h.names_nodup).mp hpointer⟩

theorem nodup_pointers (h : IsGraphOf graph descriptions) :
    (pointers graph).Nodup := by
  rw [pointers, h.nodeMap_eq]
  refine List.Nodup.map_on ?_ (keys_nodup (nodeMap descriptions)).of_map
  rintro ⟨name, node⟩ hentry ⟨name', node'⟩ hentry' heq
  dsimp only at heq
  subst heq
  obtain ⟨description, hnode⟩ := (mem_nodeMap_toList h.names_nodup).mp hentry
  obtain ⟨description', hnode'⟩ :=
    (mem_nodeMap_toList h.names_nodup).mp hentry'
  rw [hnode, Option.some.injEq, Prod.mk.injEq] at hnode'
  exact Prod.ext hnode'.1 rfl

/-- Edges of a graph are named. -/
theorem namesNext_of_feeds (h : IsGraphOf graph descriptions) {a b : NodeId}
    (ha : a ∈ pointers graph) (hfeeds : Feeds graph.heap a b) :
    b ∈ pointers graph ∧ NamesNext descriptions (graph.heap a).nodeName
      (graph.heap b).nodeName := by
  obtain ⟨⟨name, description⟩, hmem, -, hnode⟩ := h.exists_entry ha
  rw [Feeds, hnode] at hfeeds
  obtain ⟨nextName, hnext, hpointer⟩ := List.mem_map.mp hfeeds
  obtain ⟨hne, next, hb⟩ := mem_pointers_of_pointer h hpointer
  refine ⟨h.mem_pointers.mpr ⟨nextName, next, hb⟩, ?_⟩
  rw [hnode, h.heap_eq _ _ _ hb]
  exact ⟨hne, description, hmem, hnext⟩

theorem transGen_namesNext (h : IsGraphOf graph descriptions) {a b : NodeId}
    (hpath : Relation.TransGen
      (fun a b => a ∈ pointers graph ∧ Feeds graph.heap a b) a b) :
    Relation.TransGen (NamesNext descriptions) (graph.heap a).nodeName
      (graph.heap b).nodeName := by
  induction hpath with
  | single hedge => exact .single (namesNext_of_feeds h hedge.1 hedge.2).2
  | tail _ hedge ih => exact ih.tail (namesNext_of_feeds h hedge.1 hedge.2).2

/-- Distinct nodes have distinct names. -/
theorem eq_of_nodeName (h : IsGraphOf graph descriptions) {a b : NodeId}
    (ha : a ∈ pointers graph) (hb : b ∈ pointers graph)
    (heq : (graph.heap a).nodeName = (graph.heap b).nodeName) : a = b := by
  obtain ⟨entry, -, hentry, hnode⟩ := h.exists_entry ha
  obtain ⟨entry', -, hentry', hnode'⟩ := h.exists_entry hb
  rw [hnode, hnode'] at heq
  have hlt := (List.getElem?_eq_some_iff.mp hentry).1
  refine (List.getElem?_inj (by simpa using hlt) h.names_nodup).mp ?_
  rw [List.getElem?_map, List.getElem?_map, hentry, hentry']
  exact congrArg some heq

theorem previous_mem_pointers (h : IsGraphOf graph descriptions) {a b : NodeId}
    (hb : b ∈ pointers graph) (ha : some a ∈ (graph.heap b).previousNodes) :
    a ∈ pointers graph := by
  obtain ⟨entry, -, -, hnode⟩ := h.exists_entry hb
  rw [hnode] at ha
  obtain ⟨name, -, hpointer⟩ := List.mem_map.mp ha
  obtain ⟨-, description, hname⟩ := mem_pointers_of_pointer h hpointer
  exact h.mem_pointers.mpr ⟨name, description, hname⟩

theorem next_iff_previous (h : IsGraphOf graph descriptions)
    (hplan : DescribesPlan descriptions) {a b : NodeId}
    (ha : a ∈ pointers graph) (hb : b ∈ pointers graph) :
    some b ∈ (graph.heap a).nextNodes ↔
      some a ∈ (graph.heap b).previousNodes := by
  have hcount := ((consistent_iff_agree h hplan.accepted).mpr
    hplan.agree).edges a ha b hb
  rw [← List.count_pos_iff, ← List.count_pos_iff, hcount]

/-- The leaf nodes are those that no node precedes. -/
theorem mem_leafNodes {n : NodeId} :
    n ∈ graph.leafNodes ↔
      n ∈ pointers graph ∧ ∀ a, some a ∉ (graph.heap n).previousNodes := by
  rw [Graph.leafNodes, List.mem_filter, List.all_eq_true]
  refine and_congr_right fun _ => ⟨fun hall a ha => ?_, fun hnone => ?_⟩
  · have hsome := hall _ ha
    cases hsome
  · intro pointer hpointer
    cases pointer with
    | none => rfl
    | some a => exact absurd hpointer (hnone a)

/-- The plan of a graph. -/
def planOf (h : IsGraphOf graph descriptions)
    (hplan : DescribesPlan descriptions) : Plan where
  nodes := pointers graph
  heap := graph.heap
  roots := graph.leafNodes
  nodup := nodup_pointers h
  nameInjective := fun _ ha _ hb => eq_of_nodeName h ha hb
  next_mem := fun _ ha _ hb => (namesNext_of_feeds h ha hb).1
  previous_mem := fun _ hb _ ha => previous_mem_pointers h hb ha
  consistent := fun _ ha _ hb => next_iff_previous h hplan ha hb
  acyclic := fun _ _ hcycle => hplan.acyclic _ (transGen_namesNext h hcycle)
  roots_nodup := (nodup_pointers h).filter _
  mem_roots := fun _ => mem_leafNodes

theorem planOf_singleEdges (h : IsGraphOf graph descriptions)
    (hplan : DescribesPlan descriptions)
    (honce : ∀ entry ∈ descriptions, ∀ name,
      mentions entry.2.nextNodes name ≤ 1) : (planOf h hplan).SingleEdges := by
  have hnext : ∀ a ∈ pointers graph, ∀ b ∈ pointers graph,
      (graph.heap a).nextNodes.count (some b) ≤ 1 := by
    intro a ha b hb
    obtain ⟨entry, hentry, -, hnode⟩ := h.exists_entry ha
    obtain ⟨name, description, hb⟩ := h.mem_pointers.mp hb
    rw [hnode]
    exact (count_pointers h.names_nodup hb _).trans_le (honce entry hentry name)
  have hconsistent := (consistent_iff_agree h hplan.accepted).mpr hplan.agree
  refine fun a ha => ⟨distinct_of_count fun b => ?_,
    distinct_of_count fun b => ?_⟩
  · by_cases hb : some b ∈ (graph.heap a).nextNodes
    · exact hnext a ha b ((planOf h hplan).next_mem a ha b hb)
    · exact (List.count_eq_zero_of_not_mem hb).trans_le (Nat.zero_le 1)
  · by_cases hb : some b ∈ (graph.heap a).previousNodes
    · have hb := (planOf h hplan).previous_mem a ha b hb
      exact (hconsistent.edges b hb a ha).symm.trans_le (hnext b hb a ha)
    · exact (List.count_eq_zero_of_not_mem hb).trans_le (Nat.zero_le 1)

theorem planOf_filesMatchPorts (h : IsGraphOf graph descriptions)
    (hplan : DescribesPlan descriptions) :
    FilesMatchPorts (planOf h hplan).heap (planOf h hplan).nodes := by
  have hconsistent := (consistent_iff_agree h hplan.accepted).mpr hplan.agree
  exact fun n hn => ⟨(hconsistent.previousCount n hn).symm,
    (hconsistent.nextCount n hn).symm⟩

end Plans

/-! ## Files of results -/

def resultFile (name : String) (k : Nat) : String :=
  name ++ "_" ++ toString k ++ ".csv"

/-- Two texts are split at their last separators in the same way. -/
theorem eq_of_last_separator {α : Type} {c : α} {xs ys xs' ys' : List α}
    (hys : c ∉ ys) (hys' : c ∉ ys')
    (h : xs ++ c :: ys = xs' ++ c :: ys') : xs = xs' ∧ ys = ys' := by
  have key : ∀ {zs ys ys' : List α}, c ∉ ys → c :: ys = zs ++ c :: ys' →
      zs = [] := by
    intro zs ys ys' hys h
    cases zs with
    | nil => rfl
    | cons z zs =>
        rw [List.cons_append, List.cons.injEq] at h
        rw [h.2] at hys
        exact absurd (List.mem_append_right zs List.mem_cons_self) hys
  rcases List.append_eq_append_iff.mp h with ⟨zs, rfl, hzs⟩ | ⟨zs, rfl, hzs⟩
  · obtain rfl := key hys hzs
    simpa using hzs
  · obtain rfl := key hys' hzs
    simpa using hzs.symm

/-- The name and the number can be read off. -/
theorem resultFile_injective {name name' : String} {k k' : Nat}
    (h : resultFile name k = resultFile name' k') : name = name' ∧ k = k' := by
  have hlist : name.toList ++ '_' :: Nat.toDigits 10 k =
      name'.toList ++ '_' :: Nat.toDigits 10 k' := by
    have hchars := congrArg String.toList h
    simp only [resultFile, String.toList_append, Nat.toString_eq_repr,
      Nat.repr_eq_ofList_toDigits, String.toList_ofList] at hchars
    simpa using List.append_cancel_right hchars
  have hdigits : ∀ k : Nat, '_' ∉ Nat.toDigits 10 k := fun k hmem =>
    absurd (Nat.isDigit_of_mem_toDigits (by decide) (by decide) hmem) (by decide)
  obtain ⟨hname, hnumber⟩ := eq_of_last_separator (hdigits k) (hdigits k') hlist
  refine ⟨String.toList_injective hname, ?_⟩
  rw [← Nat.ofDigitChars_toDigits (n := k) (show 1 < 10 by decide) le_rfl,
    hnumber, Nat.ofDigitChars_toDigits (by decide) le_rfl]

section Results

variable {descriptions : List (String × NodeDescription)} {graph : Graph}

/-- Output `k` of a description has neither a file nor a consumer. -/
def ResultOutput (description : NodeDescription) (k : Nat) : Prop :=
  description.outputFilenames[k]? = some "" ∧
    (description.nextNodes.getD [])[k]? = some ""

theorem next_none_iff (h : IsGraphOf graph descriptions)
    (hplan : DescribesPlan descriptions) {a : NodeId} {name : String}
    {description : NodeDescription}
    (ha : descriptions[a]? = some (name, description)) {k : Nat} :
    (graph.heap a).nextNodes[k]? = some none ↔
      (description.nextNodes.getD [])[k]? = some "" := by
  rw [h.heap_eq _ _ _ ha, linked, List.getElem?_map, Option.map_eq_some_iff]
  constructor
  · rintro ⟨nextName, hnext, hpointer⟩
    by_contra hne
    have hempty : nextName ≠ "" := by
      rintro rfl
      exact hne hnext
    cases hnames : description.nextNodes with
    | none => simp [hnames] at hnext
    | some names =>
        rw [hnames, Option.getD_some] at hnext
        have hknown := (hplan.accepted _ (List.mem_of_getElem? ha)).next names
          hnames nextName (List.mem_of_getElem? hnext) hempty
        rw [pointer, if_neg hempty] at hpointer
        exact absurd hpointer (by simpa using hknown)
  · intro hnext
    exact ⟨"", hnext, rfl⟩

/-- Only results are written. -/
theorem writesTo_planOf_iff (h : IsGraphOf graph descriptions)
    (hplan : DescribesPlan descriptions) {a : NodeId} {name : String}
    {description : NodeDescription}
    (ha : descriptions[a]? = some (name, description)) {k : Nat} {f : String} :
    WritesTo (planOf h hplan) a k f ↔
      ResultOutput description k ∧ f = resultFile name k := by
  have hnode := h.heap_eq _ _ _ ha
  have hchecked : (graph.heap a).isChecked[k]? = some false ↔
      description.outputFilenames[k]? = some "" := by
    simp [hnode, linked, NodeDescription.node]
  have houtputs : (graph.heap a).outputDataDefinitionFiles =
      description.outputFilenames := by
    rw [hnode]
    rfl
  have hname : outputFilename (graph.heap a) k = resultFile name k := by
    rw [hnode]
    rfl
  show outputFile (planOf h hplan) a k = some f ∧ f ≠ "" ∧
    (graph.heap a).isChecked[k]? = some false ↔ _
  rw [hchecked, ResultOutput, ← next_none_iff h hplan ha, outputFile]
  show (if (graph.heap a).nextNodes[k]? = some none ∧
    (graph.heap a).outputDataDefinitionFiles[k]? = some "" then
      some (outputFilename (graph.heap a) k)
    else (graph.heap a).outputDataDefinitionFiles[k]?) = some f ∧ _ ↔ _
  rw [houtputs, hname]
  constructor
  · rintro ⟨hfile, hne, hempty⟩
    by_cases hnext : (graph.heap a).nextNodes[k]? = some none
    · rw [if_pos ⟨hnext, hempty⟩, Option.some.injEq] at hfile
      exact ⟨⟨hempty, hnext⟩, hfile.symm⟩
    · rw [if_neg fun hboth => hnext hboth.1, hempty, Option.some.injEq] at hfile
      exact absurd hfile.symm hne
  · rintro ⟨⟨hempty, hnext⟩, rfl⟩
    rw [if_pos ⟨hnext, hempty⟩]
    exact ⟨rfl, hname ▸ HandOver.outputFilename_ne _ k, hempty⟩

/-- No node reads a file that is written. -/
def ResultsApart (descriptions : List (String × NodeDescription)) : Prop :=
  ∀ entry ∈ descriptions, ∀ k, ResultOutput entry.2 k →
    ∀ entry' ∈ descriptions, resultFile entry.1 k ∉ entry'.2.inputFilenames

theorem planOf_filesApart (h : IsGraphOf graph descriptions)
    (hplan : DescribesPlan descriptions) (hapart : ResultsApart descriptions) :
    FilesApart (planOf h hplan) where
  once a ha k f hwrites a' ha' k' hwrites' := by
    obtain ⟨name, description, hnode⟩ := h.mem_pointers.mp ha
    obtain ⟨name', description', hnode'⟩ := h.mem_pointers.mp ha'
    obtain ⟨-, rfl⟩ := (writesTo_planOf_iff h hplan hnode).mp hwrites
    obtain ⟨-, heq⟩ := (writesTo_planOf_iff h hplan hnode').mp hwrites'
    obtain ⟨rfl, rfl⟩ := resultFile_injective heq
    refine ⟨(planOf h hplan).nameInjective a ha a' ha' ?_, rfl⟩
    show (graph.heap a).nodeName = (graph.heap a').nodeName
    rw [h.heap_eq _ _ _ hnode, h.heap_eq _ _ _ hnode']
    rfl
  sources a ha k f hwrites n hn m hm hfile := by
    obtain ⟨name, description, hnode⟩ := h.mem_pointers.mp ha
    obtain ⟨entry', hentry', -, hnode'⟩ := h.exists_entry hn
    obtain ⟨hresult, rfl⟩ := (writesTo_planOf_iff h hplan hnode).mp hwrites
    refine hapart _ (List.mem_of_getElem? hnode) k hresult entry' hentry' ?_
    have hread : (graph.heap n).inputDataDefinitionFiles[m]? =
        some (resultFile name k) := hfile
    rw [hnode'] at hread
    exact List.mem_of_getElem? hread

/-- Streams between nodes have no files. -/
def StreamsUnnamed (descriptions : List (String × NodeDescription)) : Prop :=
  ∀ entry ∈ descriptions, ∀ (k : Nat) nextName,
    (entry.2.nextNodes.getD [])[k]? = some nextName → nextName ≠ "" →
      entry.2.outputFilenames[k]? = some ""

/-- Streams that are handed over in memory are read back. -/
def ReadsBack {V : Type} (c : Conversions) (acc : Accelerator V) (P : Plan)
    (files : String → File) : Prop :=
  ∀ a ∈ P.nodes, ∀ k n m v shape, Stream P.heap a k n m →
    Carries c acc P files (.output a k) v → outputShape c P a k = .ok shape →
    acc.fetch (P.heap n).operationType
      (P.heap n).operationParameters.operationParameters
      (streamShape (P.heap n).operationParameters.inputStreamParameters m
        shape.recordSize)
      (acc.recordCount shape v) (acc.deposit shape v) = v

theorem transparent_of_unnamed {V : Type} {c : Conversions}
    {acc : Accelerator V} {files : String → File}
    (h : IsGraphOf graph descriptions) (hplan : DescribesPlan descriptions)
    (hunnamed : StreamsUnnamed descriptions)
    (hmemory : ReadsBack c acc (planOf h hplan) files)
    (o : RunsState) : Transparent c acc (planOf h hplan) o files := by
  have hempty : ∀ a ∈ (planOf h hplan).nodes, ∀ k n m f,
      Stream (planOf h hplan).heap a k n m →
      ((planOf h hplan).heap a).outputDataDefinitionFiles[k]? = some f →
      f = "" := by
    intro a ha k n m f hstream hf
    obtain ⟨entry, hentry, -, hnode⟩ := h.exists_entry ha
    have hnext : (graph.heap a).nextNodes[k]? = some (some n) := hstream.1
    have hfile : (graph.heap a).outputDataDefinitionFiles[k]? = some f := hf
    rw [hnode] at hnext hfile
    obtain ⟨nextName, hname, hpointer⟩ :=
      Option.map_eq_some_iff.mp (List.getElem?_map.symm.trans hnext)
    have hne := (mem_pointers_of_pointer h hpointer).1
    have := hunnamed entry hentry k nextName hname hne
    exact Option.some.inj (hfile.symm.trans this)
  refine ⟨?_, ?_, ?_, ?_⟩
  · intro a ha k n m v shape hstream _ _ hv hshape
    exact hmemory a ha k n m v shape hstream hv hshape
  · intro a ha k n m v f text size count words hstream _ hf hne
    exact absurd (hempty a ha k n m f hstream hf) hne
  · intro a ha k n m f columns hstream _ hf hne
    exact absurd (hempty a ha k n m f hstream hf) hne
  · intro a ha k n m f hstream _ hf hne
    exact absurd (hempty a ha k n m f hstream hf) hne

end Results

/-! ## Running a plan -/

/-- What the readers return for the files of a configuration and a plan. -/
structure Input where
  acceleratorLibrary : AcceleratorLibraryData
  requiredMemorySpace : List (String × Int)
  plan : Std.TreeMap String InputNodeParameters

/-- `InputManager::Parse`; the loops of the scheduler end after `schedulerFuel`
iterations. -/
def parse (input : Input) (schedulerFuel : Nat) : Outcome (Graph × Config) := do
  let library ← getConfig input.acceleratorLibrary
  let graph ← makeGraph input.plan
  .ok (graph, ⟨library, input.requiredMemorySpace, schedulerFuel⟩)

/-- `ExecutionManagerFactory::GetManager`. -/
def getManager (heap : Heap) (storage : Storage) : StoredManager where
  manager :=
    { unscheduledGraph := []
      busyFlag := false
      allReuseLinks := ∅
      currentReuseLinks := ∅
      run := (ExecutionState.initial heap).run
      queryNodeRunsQueue := []
      resultParameters := ∅
      queryNodes := []
      scheduledNodeNames := []
      calls := [] }
  storage := storage
  loaded := ⟨"", 0⟩

/-- `Core::Run`. -/
def run {V : Type} [Inhabited V] (d : Device V) (fuel schedulerFuel : Nat)
    (input : Input) (storage : Storage) : Outcome Progress := do
  let (graph, config) ← parse input schedulerFuel
  outcome (execute d config fuel graph.leafNodes .scheduleState
    (getManager graph.heap storage))

section Run

variable {V : Type} [Inhabited V] {d : Device V} {input : Input}
  {descriptions : List (String × NodeDescription)} {graph : Graph}
  {storage : Storage} {p : Progress} {fuel schedulerFuel : Nat}

/-- The results of a run are those of its descriptions: each output without a
file and a consumer is written to its file as the plan computes it, and no other
file changes. -/
theorem run_writes_results (hpos : 0 < schedulerFuel)
    (hread : readDescriptions input.plan = .ok descriptions)
    (hmake : makeGraph input.plan = .ok graph)
    (hplan : DescribesPlan descriptions)
    (honce : ∀ entry ∈ descriptions, ∀ name,
      mentions entry.2.nextNodes name ≤ 1)
    (hapart : ResultsApart descriptions)
    (hunnamed : StreamsUnnamed descriptions)
    (hmemory : ReadsBack d.conversions d.accelerator
      (planOf (isGraphOf_of_makeGraph hread hmake) hplan) storage.files)
    (hlibrary : ∀ library, getConfig input.acceleratorLibrary = .ok library →
      (∀ entry ∈ library.supportedAcceleratorBitstreams,
        d.modulesOf entry.2 = entry.1) ∧
      ∀ o, findAcceleratedQueryNodeSets library schedulerFuel graph.heap
          graph.leafNodes ∅ = .ok o → ∀ run ∈ o.queryNodeRunsQueue,
        LocationsConsistent
          (planOf (isGraphOf_of_makeGraph hread hmake) hplan) o.heap run ∧
        FollowsDataFlow
          (planOf (isGraphOf_of_makeGraph hread hmake) hplan) o.heap run)
    (hrun : run d fuel schedulerFuel input storage = .ok p) :
    (∀ a name description k,
      descriptions[a]? = some (name, description) →
      ResultOutput description k →
      ∃ v text, Carries d.conversions d.accelerator
          (planOf (isGraphOf_of_makeGraph hread hmake) hplan) storage.files
          (.output a k) v ∧
        TextOf d.conversions d.accelerator
          (planOf (isGraphOf_of_makeGraph hread hmake) hplan) a k v text ∧
        p.storage.files (resultFile name k) = some text) ∧
    ∀ f, (∀ entry ∈ descriptions, ∀ k, ResultOutput entry.2 k →
        f ≠ resultFile entry.1 k) → p.storage.files f = storage.files f := by
  have h := isGraphOf_of_makeGraph hread hmake
  simp only [run, parse, bind_eq_ok, hmake, Except.ok.injEq] at hrun
  obtain ⟨⟨graph', config⟩, ⟨library, hconfig, graph'', rfl, heq⟩, hrun⟩ := hrun
  obtain ⟨rfl, rfl⟩ := Prod.mk.inj heq
  obtain ⟨hmodules, hruns⟩ := hlibrary library hconfig
  cases hexecuted : execute d ⟨library, input.requiredMemorySpace, schedulerFuel⟩
      fuel graph.leafNodes .scheduleState
      (getManager graph.heap storage) with
  | error thrown =>
      rw [hexecuted] at hrun
      cases hrun
  | ok r =>
      obtain ⟨state, m'⟩ := r
      rw [hexecuted] at hrun
      obtain rfl := Except.ok.inj hrun
      obtain ⟨o, -, hm⟩ := @meant_of_execute V _ d
        ⟨library, input.requiredMemorySpace, schedulerFuel⟩ (planOf h hplan)
        (getManager graph.heap storage) m' state fuel
        (planOf_singleEdges h hplan honce) (planOf_filesMatchPorts h hplan)
        (planOf_filesApart h hplan hapart) hmodules hpos rfl
        (fun o ho => ⟨hruns o ho,
          transparent_of_unnamed h hplan hunnamed hmemory o⟩) hexecuted
      refine ⟨?_, ?_⟩
      · intro a name description k ha hresult
        have hnode : a ∈ (planOf h hplan).nodes :=
          h.mem_pointers.mpr ⟨name, description, ha⟩
        have hnone := (next_none_iff h hplan ha).mpr hresult.2
        refine hm.written a hnode k _
          ((writesTo_planOf_iff h hplan ha).mpr ⟨hresult, rfl⟩)
          ⟨(List.getElem?_eq_some_iff.mp hnone).1, fun n hn => ?_⟩
        rw [show (planOf h hplan).heap = graph.heap from rfl, hnone] at hn
        cases hn
      · intro f hf
        refine hm.kept f fun a ha k hwrites _ => ?_
        obtain ⟨name, description, hnode⟩ := h.mem_pointers.mp ha
        obtain ⟨hresult, rfl⟩ := (writesTo_planOf_iff h hplan hnode).mp hwrites
        exact hf _ (List.mem_of_getElem? hnode) k hresult rfl

end Run

theorem previousAccepted_singleton {named : Std.TreeMap String NodeId}
    {name inputFile : String} (h : InputAccepted named name inputFile) :
    PreviousAccepted named [inputFile] [name] where
  sameLength := rfl
  inputs i name' inputFile' hname hfile := by
    have hi : i = 0 := by
      have hlt := (List.getElem?_eq_some_iff.mp hname).1
      rwa [List.length_singleton, Nat.lt_one_iff] at hlt
    subst hi
    obtain rfl := Option.some.inj hname
    obtain rfl := Option.some.inj hfile
    exact h

/-! ### A filter and a sort

The result of the sort has no file and no consumer.
-/

def describedFields (operation : String) (description : NodeDescription) :
    InputNodeParameters :=
  .ofList [("operation", InputNodeParameter.string operation),
    ("operation_parameters", .params (.ofList
      [("input_stream_params",
          description.operationParameters.inputStreamParameters),
        ("output_stream_params",
          description.operationParameters.outputStreamParameters),
        ("operation_params",
          description.operationParameters.operationParameters)])),
    ("input", .strings description.inputFilenames),
    ("output", .strings description.outputFilenames),
    ("previous_nodes", .strings (description.previousNodes.getD [])),
    ("next_nodes", .strings (description.nextNodes.getD []))]

def wordParameters : NodeOperationParameters :=
  ⟨[[], [0], [1], [1]], [[], [0], [1], [1]], []⟩

def filterAndSortDescriptions : List (String × NodeDescription) :=
  [("filter", ⟨["cars.csv"], [""], .kFilter, wordParameters, some [""],
      some ["sort"]⟩),
    ("sort", ⟨[""], [""], .kLinearSort, wordParameters, some ["filter"],
      some [""]⟩)]

def filterAndSortInput : Input where
  acceleratorLibrary :=
    [([("kFilter", [])], "filter.bin"), ([("kLinearSort", [])], "sort.bin")]
  requiredMemorySpace := [("filter.bin", 4096), ("sort.bin", 4096)]
  plan := .ofList (filterAndSortDescriptions.map fun entry =>
    (entry.1, describedFields
      (if entry.1 = "filter" then "kFilter" else "kLinearSort") entry.2))

theorem read_filterAndSort : readDescriptions filterAndSortInput.plan =
    .ok filterAndSortDescriptions := by rfl

theorem namesNext_filterAndSort {name nextName : String}
    (h : NamesNext filterAndSortDescriptions name nextName) :
    name = "filter" ∧ nextName = "sort" := by
  obtain ⟨hne, description, hmem, hnext⟩ := h
  simp only [filterAndSortDescriptions, List.mem_cons, Prod.mk.injEq,
    List.not_mem_nil, or_false] at hmem
  rcases hmem with ⟨rfl, rfl⟩ | ⟨rfl, rfl⟩
  · exact ⟨rfl, List.mem_singleton.mp hnext⟩
  · exact absurd (List.mem_singleton.mp hnext) hne

theorem describesPlan_filterAndSort :
    DescribesPlan filterAndSortDescriptions where
  accepted := by
    have hfilter : Known (nodeMap filterAndSortDescriptions) "filter" :=
      fun _ => by decide +kernel
    have hsort : Known (nodeMap filterAndSortDescriptions) "sort" :=
      fun _ => by decide +kernel
    intro entry hentry
    simp only [filterAndSortDescriptions, List.mem_cons, List.not_mem_nil,
      or_false] at hentry
    rcases hentry with rfl | rfl
    · refine ⟨?_, ?_⟩
      · rintro names ⟨⟩
        exact previousAccepted_singleton ⟨known_empty, by decide⟩
      · rintro names ⟨⟩ name hname
        exact List.mem_singleton.mp hname ▸ hsort
    · refine ⟨?_, ?_⟩
      · rintro names ⟨⟩
        exact previousAccepted_singleton ⟨hfilter, by decide⟩
      · rintro names ⟨⟩ name hname
        exact List.mem_singleton.mp hname ▸ known_empty
  agree := ⟨by decide, by decide, by decide⟩
  acyclic := by
    intro name hcycle
    obtain ⟨first, hfirst, -⟩ := Relation.TransGen.head'_iff.mp hcycle
    obtain ⟨last, -, hlast⟩ := Relation.TransGen.tail'_iff.mp hcycle
    exact absurd ((namesNext_filterAndSort hfirst).1.symm.trans
      (namesNext_filterAndSort hlast).2) (by decide)

theorem resultOutput_filterAndSort {entry : String × NodeDescription}
    (hentry : entry ∈ filterAndSortDescriptions) {k : Nat}
    (h : ResultOutput entry.2 k) : entry.1 = "sort" ∧ k = 0 := by
  have hk := (List.getElem?_eq_some_iff.mp h.1).1
  have key : ∀ entry ∈ filterAndSortDescriptions,
      ∀ k < entry.2.outputFilenames.length,
        (entry.2.nextNodes.getD [])[k]? = some "" →
        entry.1 = "sort" ∧ k = 0 := by decide
  exact key entry hentry k hk h.2

theorem resultsApart_filterAndSort :
    ResultsApart filterAndSortDescriptions := by
  intro entry hentry k hresult entry' hentry'
  obtain ⟨hname, rfl⟩ := resultOutput_filterAndSort hentry hresult
  rw [hname]
  have key : ∀ entry' ∈ filterAndSortDescriptions,
      "sort_0.csv" ∉ entry'.2.inputFilenames := by decide
  exact key entry' hentry'

theorem streamsUnnamed_filterAndSort :
    StreamsUnnamed filterAndSortDescriptions := by
  intro entry hentry k nextName hnext _
  have hk := (List.getElem?_eq_some_iff.mp hnext).1
  have key : ∀ entry ∈ filterAndSortDescriptions,
      ∀ k < (entry.2.nextNodes.getD []).length,
        entry.2.outputFilenames[k]? = some "" := by decide
  exact key entry hentry k hk

section FilterAndSort

variable {graph : Graph} (h : IsGraphOf graph filterAndSortDescriptions)

theorem filterAndSort_edges (a b : NodeId)
    (hedge : (planOf h describesPlan_filterAndSort).Edge a b) : a < b := by
  obtain ⟨hb, hnames⟩ := namesNext_of_feeds h hedge.1 hedge.2
  obtain ⟨name, description, ha⟩ := h.mem_pointers.mp hedge.1
  obtain ⟨name', description', hb⟩ := h.mem_pointers.mp hb
  rw [h.heap_eq _ _ _ ha, h.heap_eq _ _ _ hb] at hnames
  obtain ⟨rfl, rfl⟩ : name = "filter" ∧ name' = "sort" :=
    namesNext_filterAndSort hnames
  have hlt := (List.getElem?_eq_some_iff.mp ha).1
  have hlt' := (List.getElem?_eq_some_iff.mp hb).1
  have key : ∀ a < filterAndSortDescriptions.length,
      ∀ b < filterAndSortDescriptions.length,
      (filterAndSortDescriptions[a]?.map (·.1)) = some "filter" →
      (filterAndSortDescriptions[b]?.map (·.1)) = some "sort" → a < b := by
    decide
  exact key a hlt b hlt' (by rw [ha]; rfl) (by rw [hb]; rfl)

theorem readsBack_filterAndSort : ReadsBack wordConversions wordSorter
    (planOf h describesPlan_filterAndSort) carsStorage.files := by
  intro a ha k n m v shape hstream _ hshape
  obtain ⟨entry, hentry, -, hnode⟩ := h.exists_entry ha
  have key : ∀ entry ∈ filterAndSortDescriptions,
      (entry.2.nextNodes.getD []).length = 1 ∧
        entry.2.operationParameters.outputStreamParameters =
          [[], [0], [1], [1]] := by decide
  obtain ⟨hlength, hparameters⟩ := key entry hentry
  have hk : k < (graph.heap a).nextNodes.length :=
    (List.getElem?_eq_some_iff.mp hstream.1).1
  rw [hnode, linked, List.length_map, hlength, Nat.lt_one_iff] at hk
  subst hk
  have hparameters' : ((planOf h describesPlan_filterAndSort).heap
      a).operationParameters.outputStreamParameters = [[], [0], [1], [1]] := by
    rw [← hparameters]
    exact congrArg (·.operationParameters.outputStreamParameters) hnode
  -- Records are single words.
  rw [outputShape, outputRecordSize, hparameters'] at hshape
  obtain rfl : shape = ⟨1, [], 1⟩ :=
    Except.ok.inj (hshape.symm.trans rfl)
  simp [wordSorter, wholeRecords]

theorem inNodeOrder_filterAndSort : ∀ run ∈
    [([⟨.kFilter, []⟩], [0]), ([⟨.kLinearSort, []⟩], [1])],
    InNodeOrder (planOf h describesPlan_filterAndSort) [1, 1] run := by
  have hfilter : ((planOf h describesPlan_filterAndSort).heap 0).operationType =
      .kFilter := congrArg (·.operationType) (h.heap_eq 0 _ _ rfl)
  have hsort : ((planOf h describesPlan_filterAndSort).heap 1).operationType =
      .kLinearSort := congrArg (·.operationType) (h.heap_eq 1 _ _ rfl)
  intro run hrun
  rw [List.mem_pair] at hrun
  rcases hrun with rfl | rfl
  · refine ⟨fun n hn => ?_, fun a ha b hb hlt => ?_⟩
    · obtain rfl := List.mem_singleton.mp hn
      exact ⟨0, by decide, rfl, congrArg some hfilter.symm⟩
    · rw [List.mem_singleton.mp ha, List.mem_singleton.mp hb] at hlt
      exact absurd hlt (Nat.lt_irrefl 0)
  · refine ⟨fun n hn => ?_, fun a ha b hb hlt => ?_⟩
    · obtain rfl := List.mem_singleton.mp hn
      exact ⟨0, by decide, rfl, congrArg some hsort.symm⟩
    · rw [List.mem_singleton.mp ha, List.mem_singleton.mp hb] at hlt
      exact absurd hlt (Nat.lt_irrefl 1)

end FilterAndSort

/-- The sorted results. -/
theorem run_writes_results_filterAndSort :
    ∃ p, run sortToFileDevice 8 16 filterAndSortInput carsStorage = .ok p ∧
      (∃ text, p.storage.files "sort_0.csv" = some text) ∧
      p.storage.files "cars.csv" = carsStorage.files "cars.csv" := by
  have hmade : (makeGraph filterAndSortInput.plan).isOk = true := by
    decide +kernel
  cases hmake : makeGraph filterAndSortInput.plan with
  | error fault =>
      rw [hmake] at hmade
      cases hmade
  | ok graph =>
  have hok : (run sortToFileDevice 8 16 filterAndSortInput
      carsStorage).isOk = true := by decide +kernel
  obtain ⟨p, hrun⟩ := exists_eq_ok hok
  have h := isGraphOf_of_makeGraph read_filterAndSort hmake
  have honce : ∀ entry ∈ filterAndSortDescriptions, ∀ name,
      mentions entry.2.nextNodes name ≤ 1 := by
    intro entry hentry name
    have key : ∀ entry ∈ filterAndSortDescriptions,
        (entry.2.nextNodes.getD []).length ≤ 1 := by decide
    rw [mentions]
    split
    · exact Nat.zero_le 1
    · exact List.count_le_length.trans (key entry hentry)
  have hlibrary : (getConfig filterAndSortInput.acceleratorLibrary).toOption.map
      (fun library => (library.supportedAcceleratorBitstreams,
        library.existingModulesLibrary)) =
      some (sortToFileConfig.library.supportedAcceleratorBitstreams,
        sortToFileConfig.library.existingModulesLibrary) := by decide +kernel
  have hplaced : (makeGraph filterAndSortInput.plan).toOption.map (fun graph =>
      placements 2 (findAcceleratedQueryNodeSets sortToFileConfig.library 16
        graph.heap graph.leafNodes ∅)) =
      some (some ([([⟨.kFilter, []⟩], [0]), ([⟨.kLinearSort, []⟩], [1])],
        [1, 1])) := by decide +kernel
  rw [hmake] at hplaced
  have hcount : ∀ n ∈ (planOf h describesPlan_filterAndSort).nodes, n < 2 := by
    intro n hn
    obtain ⟨name, description, hnode⟩ := h.mem_pointers.mp hn
    exact (List.getElem?_eq_some_iff.mp hnode).1
  have hresults := run_writes_results (by decide) read_filterAndSort hmake
    describesPlan_filterAndSort honce resultsApart_filterAndSort
    streamsUnnamed_filterAndSort (readsBack_filterAndSort _) (by
      intro library hconfig
      obtain rfl : library = sortToFileConfig.library := by
        rw [hconfig] at hlibrary
        obtain ⟨hbitstreams, hmodules⟩ :=
          Prod.mk.inj (Option.some.inj hlibrary)
        cases library
        exact congrArg₂ AcceleratorLibrary.mk hbitstreams hmodules
      refine ⟨by decide, fun o ho run hmem => ?_⟩
      exact runs_inNodeOrder (planOf_singleEdges h _ honce)
        (filterAndSort_edges h) hcount (Option.some.inj hplaced)
        (inNodeOrder_filterAndSort h) ho hmem) hrun
  obtain ⟨hwritten, hkept⟩ := hresults
  obtain ⟨v, text, -, -, hfile⟩ := hwritten 1 "sort" _ 0 rfl ⟨rfl, rfl⟩
  refine ⟨p, hrun, ⟨text, hfile⟩, hkept _ ?_⟩
  intro entry hentry k hresult
  obtain ⟨hname, rfl⟩ := resultOutput_filterAndSort hentry hresult
  rw [hname]
  decide

end Orkhestra.Ports.CoreRun
