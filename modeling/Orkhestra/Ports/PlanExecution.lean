import Orkhestra.Ports.AcceleratedSetup
import Orkhestra.Ports.ResultFiles

/-!
# Executing a plan

The runs of a schedule, executed one after the other with the data in files and
memory, compute what the plan computes: between runs the blocks that wait for
later nodes hold the values of their outputs, and the files that have been
written hold the texts of theirs (`Meant`).  What is written to the results of a
plan therefore does not depend on its schedule.

The accelerator is assumed to read back what has been written for a later run
(`Transparent`).
-/

namespace Orkhestra.Ports.PlanExecution

open Orkhestra.Verified.Checked
open Orkhestra.Verified.VectorMap
open Orkhestra.Ports.QuerySchedulingData
open Orkhestra.Ports.NodeScheduler
open Orkhestra.Ports.SchedulePartition
open Orkhestra.Ports.ModulePlacement
open Orkhestra.Ports.HandOver
open Orkhestra.Ports.ScheduledRuns
open Orkhestra.Ports.IDManager
open Orkhestra.Ports.CSVReader (File recordSize)
open Orkhestra.Ports.TableLoaders (wordManager noDecimals)
open Orkhestra.Ports.QueryManager
open Orkhestra.Ports.RunSetup
open Orkhestra.Ports.StreamLanes
open Orkhestra.Ports.MemoryRelease
open Orkhestra.Ports.MemoryConservation
open Orkhestra.Ports.PortVectors
open Orkhestra.Ports.ScheduledPorts
open Orkhestra.Ports.RunLanes
open Orkhestra.Ports.TableManager
open Orkhestra.Ports.Accelerator
open Orkhestra.Ports.PlanMeaning
open Orkhestra.Ports.PreparedRun
open Orkhestra.Ports.AcceleratedRun
open Orkhestra.Ports.AcceleratedSetup
open Orkhestra.Ports.ResultFiles

/-! ## Files of a plan -/

/-- The file of an output; an output without a consumer gets one. -/
def outputFile (P : Plan) (a : NodeId) (k : Nat) : Option String :=
  if (P.heap a).nextNodes[k]? = some none ∧
      (P.heap a).outputDataDefinitionFiles[k]? = some "" then
    some (outputFilename (P.heap a) k)
  else (P.heap a).outputDataDefinitionFiles[k]?

/-- Results of output `k` of `a` are written to the file `f`. -/
def WritesTo (P : Plan) (a : NodeId) (k : Nat) (f : String) : Prop :=
  outputFile P a k = some f ∧ f ≠ "" ∧ (P.heap a).isChecked[k]? = some false

instance (P : Plan) (a : NodeId) (k : Nat) (f : String) :
    Decidable (WritesTo P a k f) :=
  inferInstanceAs (Decidable (_ ∧ _ ∧ _))

/-- No consumer of output `k` of `a` is in the run of `a`. -/
def LeavesRun (P : Plan) (o : RunsState) (a : NodeId) (k : Nat) : Prop :=
  k < (P.heap a).nextNodes.length ∧ ∀ n,
    (P.heap a).nextNodes[k]? = some (some n) →
      ¬SameRun o.queryNodeRunsQueue a n

/-- Files are written once, and files that are read are not written. -/
structure FilesApart (P : Plan) : Prop where
  once : ∀ a ∈ P.nodes, ∀ k f, WritesTo P a k f → ∀ a' ∈ P.nodes, ∀ k',
    WritesTo P a' k' f → a = a' ∧ k = k'
  sources : ∀ a ∈ P.nodes, ∀ k f, WritesTo P a k f → ∀ n ∈ P.nodes,
    ∀ m : Nat, (P.heap n).previousNodes[m]? = some none →
      (P.heap n).inputDataDefinitionFiles[m]? ≠ some f

/-! ## Hand-overs -/

section Execution

variable {V : Type} {c : Conversions} {acc : Accelerator V} {P : Plan}
  {o : RunsState} {files : String → File}

/-- What is handed to a later run is read as it was before, from memory or from
the file that has been written. -/
structure Transparent (c : Conversions) (acc : Accelerator V) (P : Plan)
    (o : RunsState) (files : String → File) : Prop where
  memory : ∀ a ∈ P.nodes, ∀ k n m v shape, Stream P.heap a k n m →
    ¬SameRun o.queryNodeRunsQueue a n →
    (P.heap a).outputDataDefinitionFiles[k]? = some "" →
    Carries c acc P files (.output a k) v →
    outputShape c P a k = .ok shape →
    acc.fetch (P.heap n).operationType
      (P.heap n).operationParameters.operationParameters
      (streamShape (P.heap n).operationParameters.inputStreamParameters m
        shape.recordSize)
      (acc.recordCount shape v) (acc.deposit shape v) = v
  file : ∀ a ∈ P.nodes, ∀ k n m v f text size count words,
    Stream P.heap a k n m → ¬SameRun o.queryNodeRunsQueue a n →
    (P.heap a).outputDataDefinitionFiles[k]? = some f → f ≠ "" →
    Carries c acc P files (.output a k) v → TextOf c acc P a k v text →
    LoadsWords c (P.heap n).operationParameters.inputStreamParameters m f
      (some text) size count words →
    acc.fetch (P.heap n).operationType
      (P.heap n).operationParameters.operationParameters
      (streamShape (P.heap n).operationParameters.inputStreamParameters m size)
      count words = v
  sizes : FileSizesAgree c P o
  unchecked : ∀ a ∈ P.nodes, ∀ k n m f, Stream P.heap a k n m →
    ¬SameRun o.queryNodeRunsQueue a n →
    (P.heap a).outputDataDefinitionFiles[k]? = some f → f ≠ "" →
    (P.heap a).isChecked[k]? = some false

/-- The nodes `done` have been run on the files `files`. -/
structure Meant (c : Conversions) (acc : Accelerator V) (P : Plan)
    (o : RunsState) (files : String → File) (done : List NodeId)
    (e : ExecutionState) (s : Storage) : Prop where
  memory : ∀ a ∈ done, ∀ k n m, n ∉ done → Linked P o a k n m →
    ∃ b v shape, Carries c acc P files (.output a k) v ∧
      outputShape c P a k = .ok shape ∧
      entry e.run.inputMemoryBlocks (P.heap n).nodeName m = some (some b) ∧
      entry e.run.inputStreamSizes (P.heap n).nodeName m =
        some (shape.recordSize, acc.recordCount shape v) ∧
      acc.deposit shape v <+: (s.blocks b).words
  written : ∀ a ∈ done, ∀ k f, WritesTo P a k f → LeavesRun P o a k →
    ∃ v text, Carries c acc P files (.output a k) v ∧
      TextOf c acc P a k v text ∧ s.files f = some text
  kept : ∀ f, (∀ a ∈ done, ∀ k, WritesTo P a k f → ¬LeavesRun P o a k) →
    s.files f = files f

theorem Meant.initial (c : Conversions) (acc : Accelerator V) (P : Plan)
    (o : RunsState) (s : Storage) :
    Meant c acc P o s.files [] (ExecutionState.initial o.heap) s where
  memory _ ha := absurd ha List.not_mem_nil
  written _ ha := absurd ha List.not_mem_nil
  kept _ _ := rfl

theorem outputRecordSize_of_shape {a : NodeId} {k : Nat} {shape : StreamShape}
    (h : outputShape c P a k = .ok shape) :
    outputRecordSize c P a k = .ok shape.recordSize := by
  simp only [outputShape, bind_eq_ok, Except.ok.injEq] at h
  obtain ⟨size, hsize, rfl⟩ := h
  exact hsize

/-- The records of a value are read from the beginning of a block. -/
theorem words_of_deposit {shape : StreamShape} {v : V}
    {contents : CSVReader.MemoryBlock} {words : List Nat}
    (hfront : acc.deposit shape v <+: contents.words)
    (hrun : readWords contents (acc.recordCount shape v * shape.recordSize) =
      .ok words) : words = acc.deposit shape v := by
  obtain ⟨-, -, rfl⟩ := readWords_eq_ok.mp hrun
  obtain ⟨rest, hrest⟩ := hfront
  rw [← acc.whole, Int.toNat_natCast, ← hrest, List.take_left]

section Step

variable
  {written : NodeId → Nat → Block → RecordSizeAndCount → Prop}
  {done : List NodeId} {run : QueryNodeRun} {e : ExecutionState}
  {s s₁ : Storage} {t : SetupState} {ids : StreamIds} {a n : NodeId}
  {k m : Nat}

/-- The block that waits for an input holds the value of the output. -/
theorem Meant.handed (hm : Meant c acc P o files done e s)
    (he : Executed P o written done e) (hdone : ∀ a ∈ done, a ∈ P.nodes)
    (hn : n ∈ P.nodes) {b : Block}
    (hb : entry e.run.inputMemoryBlocks (P.heap n).nodeName m =
      some (some b)) :
    ∃ a ∈ done, ∃ k v shape, Linked P o a k n m ∧
      Carries c acc P files (.output a k) v ∧
      outputShape c P a k = .ok shape ∧
      entry e.run.inputStreamSizes (P.heap n).nodeName m =
        some (shape.recordSize, acc.recordCount shape v) ∧
      acc.deposit shape v <+: (s.blocks b).words := by
  obtain ⟨a, ha, k, n', hn', hname, hlinked⟩ := he.only _ m b hb
  obtain rfl := P.nameInjective n'
    (Plan.edge_of_stream (hdone a ha) hlinked.1).right n hn hname
  obtain ⟨b', v, shape, hv, hshape, hb', hsize, hfront⟩ :=
    hm.memory a ha k n' m hn' hlinked
  rw [hb, Option.some.injEq, Option.some.injEq] at hb'
  subst hb'
  exact ⟨a, ha, k, v, shape, hlinked, hv, hshape, hsize, hfront⟩

theorem Meant.handedSizes (hm : Meant c acc P o files done e s)
    (hx : Executable P o) (he : Executed P o written done e)
    (hdone : ∀ a ∈ done, a ∈ P.nodes) : HandedSizes c P e := by
  intro n hn m b size hb hsize
  obtain ⟨a, ha, k, v, shape, hlinked, -, hshape, hsize', -⟩ :=
    hm.handed he hdone hn hb
  rw [hsize, Option.some.injEq] at hsize'
  rw [inputRecordSize_of_stream hx.finished.single (hdone a ha) hlinked.1,
    hsize', outputRecordSize_of_shape hshape]

/-- The file of an input of the plan is still as it was. -/
theorem Meant.source_kept (hm : Meant c acc P o files done e s)
    (hapart : FilesApart P) (hdone : ∀ a ∈ done, a ∈ P.nodes)
    (hn : n ∈ P.nodes) (hprevious : (P.heap n).previousNodes[m]? = some none)
    {f : String}
    (hf : (P.heap n).inputDataDefinitionFiles[m]? = some f) :
    s.files f = files f := by
  refine hm.kept f fun a ha k hwrites _ => ?_
  exact hapart.sources a (hdone a ha) k f hwrites n hn m hprevious hf

/-- The inputs of the next run carry the values of the plan. -/
theorem Meant.sources (hm : Meant c acc P o files done e s)
    (hx : Executable P o) (he : Executed P o written done e)
    (hr : RunOf P o done run.2) (hapart : FilesApart P)
    (htransparent : Transparent c acc P o files)
    (hs : OnAccelerator c P o done run e s ids t s₁) :
    SourcesCarry c acc P files (initialiseVectorSizes run.2 e.run).heap run.2 t
      s₁ := by
  intro n hn m b size words hprevious hb hsize hwords
  have hmem := hr.run_mem hn
  have hname := hs.setUp.nodeName n
  have hdone : ∀ a ∈ done, a ∈ P.nodes := fun a ha => hr.done_mem ha
  rcases hs.input_source hx he hr hn hprevious with
    ⟨b', size', hold, hsizeOld, hb', hsize', hblocks⟩ |
    ⟨hempty, b', filename, recordSize, count, hb', hfile, hsize', -, hloads⟩
  · rw [hb, Option.some.injEq, Option.some.injEq] at hb'
    rw [hsize, Option.some.injEq] at hsize'
    subst hb' hsize'
    rw [hname] at hold hsizeOld
    obtain ⟨a, ha, k, v, shape, hlinked, hv, hshape, hsizeMeant, hfront⟩ :=
      hm.handed he hdone hmem hold
    rw [hsizeOld, Option.some.injEq] at hsizeMeant
    subst hsizeMeant
    rw [hblocks] at hwords
    obtain ⟨hcut, hout⟩ := hlinked.between_runs hx.finished (hdone a ha)
    rw [words_of_deposit hfront hwords, htransparent.memory a (hdone a ha) k n
      m v shape hlinked.1 hcut hout hv hshape]
    exact .handed a k n m v (hdone a ha) hlinked.1 hv
  · rw [hb, Option.some.injEq, Option.some.injEq] at hb'
    rw [hsize, Option.some.injEq] at hsize'
    subst hb' hsize'
    rw [hname] at hempty
    rw [hs.runHeap.node n hn, clearNextNodes] at hfile
    rw [hs.runHeap.node n hn, clearNextNodes,
      hx.finished.operationParameters] at hloads
    have hload : LoadsWords c
        (P.heap n).operationParameters.inputStreamParameters m filename
        (s.files filename) recordSize count words := ⟨_, hloads, hwords⟩
    rcases hs.file_source hx he hr hn hprevious hempty with
      ⟨hplan, hsame⟩ | ⟨a, k, f, ha, hstream, hcut, hout, hne, hin⟩
    · rw [hsame] at hfile
      have hshape : inputShape c P n m = .ok (streamShape
          (P.heap n).operationParameters.inputStreamParameters m
          recordSize) := by
        obtain ⟨columns, -, -, hcolumns, rfl, -⟩ := hloads
        simp only [inputShape, inputRecordSize, hplan, hcolumns, ok_bind]
      rw [hm.source_kept hapart hdone hmem hplan hfile] at hload
      exact .read n m filename _ count words hmem hplan hfile hshape hload
    · rw [show (o.heap n).inputDataDefinitionFiles[m]? = some filename
        from hfile, Option.some.injEq] at hin
      subst hin
      have hleaves : LeavesRun P o a k := by
        refine ⟨(List.getElem?_eq_some_iff.mp hstream.1).1, fun n' hn' => ?_⟩
        rw [hstream.1, Option.some.injEq, Option.some.injEq] at hn'
        exact hn' ▸ hcut
      have hwrites : WritesTo P a k filename := by
        refine ⟨?_, hne, htransparent.unchecked a (hdone a ha) k n m filename
          hstream hcut hout hne⟩
        rw [outputFile, if_neg, hout]
        rintro ⟨hnone, -⟩
        rw [hstream.1] at hnone
        cases hnone
      obtain ⟨v, text, hv, htext, hwritten⟩ :=
        hm.written a ha k filename hwrites hleaves
      rw [hwritten] at hload
      rw [htransparent.file a (hdone a ha) k n m v filename text recordSize
        count words hstream hcut hout hne hv htext hload]
      exact .handed a k n m v (hdone a ha) hstream hv

/-! ### The parts of a run -/

/-- The modules of a run are where the schedule has put them. -/
theorem located_of_runHeap {h : Heap} (hh : RunHeap P o run.2 h)
    (hlocated : LocationsConsistent P o.heap run)
    (hflow : FollowsDataFlow P o.heap run) :
    LocationsConsistent P h run ∧ FollowsDataFlow P h run := by
  have hsame : ∀ n ∈ run.2, (h n).moduleLocation =
      (o.heap n).moduleLocation := by
    intro n hn
    rw [hh.node n hn, clearNextNodes]
  refine ⟨⟨?_, ?_⟩, ?_⟩
  · intro n hn hop
    rw [hsame n hn]
    exact hlocated.1 n hn hop
  · intro a ha b hb hopa hopb heq
    rw [hsame a ha, hsame b hb] at heq
    exact hlocated.2 a ha b hb hopa hopb heq
  · intro a ha b hb hpath
    rw [hsame a (mem_moduleNodes.mp ha).1, hsame b (mem_moduleNodes.mp hb).1]
    exact hflow a ha b hb hpath

/-- A run has been set up, accelerated, processed and freed. -/
structure RunExecuted (c : Conversions) (acc : Accelerator V) (P : Plan)
    (o : RunsState) (files : String → File) (done : List NodeId)
    (run : QueryNodeRun) (e : ExecutionState) (s : Storage) (ids : StreamIds)
    (t : SetupState) (q : NodeId → AcceleratedQueryNode) (s₁ s₂ : Storage)
    (resultSizes : List Int) (sizes : SizeMap) (e' : ExecutionState)
    (s' : Storage) : Prop where
  onAccelerator : OnAccelerator c P o done run e s ids t s₁
  accelerated : Accelerated c P (initialiseVectorSizes run.2 e.run).heap run.2
    ids t q
  ran : Ran c acc P files (initialiseVectorSizes run.2 e.run).heap run.2 ids t
    s₁ resultSizes s₂
  processed : QueryManager.processResults (recordsOf c s.files) resultSizes
    t.resultParameters t.run.outputMemoryBlocks t.run.outputStreamSizes =
      .ok sizes
  filed : Filed c resultSizes t.run.outputMemoryBlocks s₂
    (filedResults t.resultParameters) s'
  released : Released { t.run with outputStreamSizes := sizes }
    (getCurrentLinks e.run.heap run.2 o.linkedNodes)
    ((done ++ run.2).map fun n => (P.heap n).nodeName) e'.run

theorem runExecuted_of_run [Inhabited V] {e' : ExecutionState} {s' : Storage}
    (hm : Meant c acc P o files done e s) (hx : Executable P o)
    (he : Executed P o written done e) (hr : RunOf P o done run.2)
    (hmem : run ∈ o.queryNodeRunsQueue) (hapart : FilesApart P)
    (htransparent : Transparent c acc P o files)
    (hrun : DataPath.executeRun c acc o.linkedNodes (e, s) run =
      .ok (e', s')) :
    (∃ ids t q s₁ s₂ resultSizes sizes, RunExecuted c acc P o files done run e s
      ids t q s₁ s₂ resultSizes sizes e' s') ∧
    ∃ written', Executed P o written' (done ++ run.2) e' := by
  have hf := hx.finished
  simp only [DataPath.executeRun, bind_eq_ok] at hrun
  obtain ⟨⟨names, links, t, s₁⟩, hsetup, hexec⟩ := hrun
  obtain ⟨hsetup', -⟩ := DataPath.setupNextRunData_records hsetup
  obtain ⟨hnames, hlinks, -⟩ := runSetUp_of_run hf he hr hsetup'
  obtain ⟨ids, hs⟩ := onAccelerator_of_run hx he hr hsetup
  obtain ⟨q, ha⟩ := hs.accelerated hx he hr htransparent.sizes
    (hm.handedSizes hx he fun a ha => hr.done_mem ha)
  simp only [DataPath.executeAndProcessResults, bind_eq_ok, Except.ok.injEq,
    Prod.mk.injEq] at hexec
  obtain ⟨⟨resultSizes, s₂⟩, hhardware, ⟨sizes, s₃⟩, hprocess, ⟨r', s₄⟩, hfree,
    rfl, rfl⟩ := hexec
  have hprocess' := DataPath.processResults_records s.files hprocess
  have hfree' := DataPath.freeMemoryBlocks_records hfree
  obtain ⟨hlocated, hflow⟩ := located_of_runHeap hs.runHeap
    (hx.located run hmem) (hx.flow run hmem)
  have hran := ran_of_run ha hs.runHeap hf hr hx.counts hs.pipeline hs.allocated
    (fun n hn => hs.outputs_le hn) hlocated hflow
    (hm.sources hx he hr hapart htransparent hs) hhardware
  -- Every link of a schedule has one target.
  have hone : ∀ x ∈ transfers links, ∃ target, x.2 = [target] := by
    rintro ⟨⟨name, k⟩, targets⟩ hx
    rw [hlinks] at hx
    obtain ⟨a, -, -, n, m, rfl, -⟩ := (mem_transfers_iff hf he hr).mp hx
    exact ⟨_, rfl⟩
  obtain rfl := freeMemoryBlocks_storage hone hfree
  subst hnames hlinks
  obtain ⟨r'', hfree'', hreleased⟩ :=
    hs.setUp.released hf he hr hprocess'
  rw [hfree', Except.ok.injEq] at hfree''
  subst hfree''
  have hexec : QueryManager.executeAndProcessResults (recordsOf c s.files)
      resultSizes ((done ++ run.2).map fun n => (P.heap n).nodeName)
      (getCurrentLinks e.run.heap run.2 o.linkedNodes) t =
        .ok ⟨r', (done ++ run.2).map fun n => (P.heap n).nodeName⟩ := by
    simp only [QueryManager.executeAndProcessResults, hprocess', hfree',
      ok_bind]
  exact ⟨⟨ids, t, q, s₁, s₂, resultSizes, sizes, hs, ha, hran, hprocess',
    filed_of_run hprocess, hreleased⟩, _, he.step hf hr hsetup' hexec⟩

/-! ### Results of a run -/

section Results

variable {q : NodeId → AcceleratedQueryNode} {s₂ s' : Storage}
  {resultSizes : List Int} {sizes : SizeMap} {e' : ExecutionState}
  {p p' : StreamResultParameters}

/-- An output of the run is in memory when it leaves the run. -/
theorem next_none_iff {h : Heap} (hh : RunHeap P o run.2 h) (hf : Finished P o)
    (hr : RunOf P o done run.2) (hcounts : SameCounts P.heap o.heap)
    (ha : a ∈ run.2) :
    (h a).nextNodes[k]? = some none ↔ LeavesRun P o a k := by
  have hlength := (hh.lengths hcounts ha).2.1
  constructor
  · intro hnone
    refine ⟨hlength ▸ (List.getElem?_eq_some_iff.mp hnone).1, ?_⟩
    intro n hn hsame
    have hkept := (hh.next_iff hf hr ha).mpr
      ⟨hn, (hr.same_run_iff a ha n).mp hsame⟩
    rw [hnone] at hkept
    cases hkept
  · rintro ⟨hlt, hout⟩
    rw [← hlength] at hlt
    have hnext := List.getElem?_eq_getElem hlt
    cases hk : (h a).nextNodes[k] with
    | none => rw [hnext, hk]
    | some n =>
        rw [hk] at hnext
        obtain ⟨hn, hmem⟩ := (hh.next_iff hf hr ha).mp hnext
        exact absurd ((hr.same_run_iff a ha n).mpr hmem) (hout n hn)

/-- `p` has been filed for an output of `a` that leaves its run. -/
structure ResultOf (P : Plan) (o : RunsState) (ids : StreamIds) (a : NodeId)
    (p : StreamResultParameters) : Prop where
  leaves : LeavesRun P o a p.streamIndex
  outputId : entry ids.outputIds (P.heap a).nodeName p.streamIndex =
    some p.outputId
  file : outputFile P a p.streamIndex = some p.filename
  isChecked : (P.heap a).isChecked[p.streamIndex]? = some p.checkResults
  specifications : p.streamSpecifications =
    (P.heap a).operationParameters.outputStreamParameters

theorem ResultOf.toFile_iff (hp : ResultOf P o ids a p) :
    ToFile p ↔ WritesTo P a p.streamIndex p.filename := by
  rw [ToFile, WritesTo, hp.file, hp.isChecked, Option.some.injEq,
    Option.some.injEq, and_iff_right rfl]

/-- An output has one result. -/
theorem ResultOf.unique (hp : ResultOf P o ids a p)
    (hp' : ResultOf P o ids a p') (h : p'.streamIndex = p.streamIndex) :
    p' = p := by
  have hid := hp'.outputId
  have hfile := hp'.file
  have hchecked := hp'.isChecked
  rw [h, hp.outputId, Option.some.injEq] at hid
  rw [h, hp.file, Option.some.injEq] at hfile
  rw [h, hp.isChecked, Option.some.injEq] at hchecked
  have hspec := hp'.specifications.trans hp.specifications.symm
  cases p
  cases p'
  simp_all

/-- Each filed result belongs to an output. -/
theorem resultOf_of_filed
    (hs : OnAccelerator c P o done run e s ids t s₁) (hx : Executable P o)
    (hr : RunOf P o done run.2) {name : String}
    (hp : (name, p) ∈ filedResults t.resultParameters) :
    ∃ a ∈ run.2, (P.heap a).nodeName = name ∧ ResultOf P o ids a p := by
  obtain ⟨⟨a, ha, rfl, hnext⟩, hid⟩ := StreamLanes.filed_sound hs.setUp.setUp
    (fun n hn => Initialised.outputs_empty hs.setUp.initialised hn) hp
  obtain ⟨params, hparams, hmem⟩ := mem_filedResults.mp hp
  obtain ⟨a', ha', hname, hfile, hchecked, hspec⟩ :=
    hs.prepared.filed _ params hparams p hmem
  obtain rfl := hs.pipeline.name_injective ha' ha hname
  rw [hs.runHeap.node a' ha, clearNextNodes] at hfile hchecked hspec
  rw [hs.setUp.nodeName a'] at hid
  refine ⟨a', ha, (hs.setUp.nodeName a').symm,
    (next_none_iff hs.runHeap hx.finished hr hx.counts ha).mp hnext, hid, ?_, ?_,
    ?_⟩
  · rw [outputFile, ← hfile]
    exact (hx.finished.handedOver.output a'
      ((hx.finished.mem_iff a').mpr (hr.run_mem ha)) p.streamIndex).symm
  · rw [← hx.isChecked a']
    exact hchecked
  · rw [hspec]
    exact congrArg _ (hx.finished.operationParameters a')

/-- Each output that leaves the run for a file has a result. -/
theorem exists_resultOf
    (hs : OnAccelerator c P o done run e s ids t s₁) (hx : Executable P o)
    (hr : RunOf P o done run.2) (ha : a ∈ run.2) {f : String}
    (hwrites : WritesTo P a k f) (hleaves : LeavesRun P o a k) :
    ∃ p, ((P.heap a).nodeName, p) ∈ filedResults t.resultParameters ∧
      ResultOf P o ids a p ∧ p.streamIndex = k ∧ p.filename = f := by
  have hf := hx.finished
  have hfile : (o.heap a).outputDataDefinitionFiles[k]? = some f := by
    rw [hf.handedOver.output a ((hf.mem_iff a).mpr (hr.run_mem ha)) k]
    exact hwrites.1
  obtain ⟨id, hid⟩ :=
    hs.setUp.ids a ha k (List.getElem?_eq_some_iff.mp hfile).1
  have hname := hs.setUp.nodeName a
  obtain ⟨p, hp, rfl, -⟩ := StreamLanes.filed_complete hs.setUp.setUp ha
    ((next_none_iff hs.runHeap hf hr hx.counts ha).mpr hleaves)
    (by rw [hname]; exact hid)
  rw [hname] at hp
  obtain ⟨a', ha', hname', hresult⟩ := resultOf_of_filed hs hx hr hp
  obtain rfl := P.nameInjective a' (hr.run_mem ha') a (hr.run_mem ha) hname'
  refine ⟨p, hp, hresult, rfl, ?_⟩
  have hsame := hresult.file
  rw [hwrites.1, Option.some.injEq] at hsame
  exact hsame.symm

/-- The file of an output of the run holds the text of the value of the plan. -/
theorem RunExecuted.files_written
    (h : RunExecuted c acc P o files done run e s ids t q s₁ s₂ resultSizes sizes
      e' s') (hx : Executable P o) (hr : RunOf P o done run.2)
    (hapart : FilesApart P) (ha : a ∈ run.2) {f : String}
    (hwrites : WritesTo P a k f) (hleaves : LeavesRun P o a k) :
    ∃ v text, Carries c acc P files (.output a k) v ∧
      TextOf c acc P a k v text ∧ s'.files f = some text := by
  have hs := h.onAccelerator
  have hmem := hr.run_mem ha
  obtain ⟨p, hp, hresult, rfl, rfl⟩ := exists_resultOf hs hx hr ha hwrites hleaves
  obtain ⟨text, ⟨count, b, columns, words, hcount, hb, hcolumns, hwords, htext⟩,
    hfile⟩ := h.filed.written _ hp (hresult.toFile_iff.mpr hwrites) (by
      rintro ⟨name', p'⟩ hp' hto' hsame
      obtain ⟨a', ha', rfl, hresult'⟩ := resultOf_of_filed hs hx hr hp'
      have hwrites' := hresult'.toFile_iff.mp hto'
      dsimp only at hsame
      rw [hsame] at hwrites'
      obtain ⟨rfl, hk⟩ :=
        hapart.once a hmem _ _ hwrites a' (hr.run_mem ha') _ hwrites'
      rw [hresult.unique hresult' hk.symm])
  dsimp only at hcount hb hcolumns htext hfile
  have hname := hs.setUp.nodeName a
  obtain ⟨v, shape, id, hv, hshape, hid, hcount', hfront⟩ :=
    h.ran.carried a ha p.streamIndex b (by rw [hname]; exact hb)
  rw [StreamIds.id, hname, hresult.outputId, Option.some.injEq] at hid
  subst hid
  rw [hcount, Option.some.injEq] at hcount'
  subst hcount'
  rw [hresult.specifications] at hcolumns
  have hsize : shape.recordSize = recordSize columns := by
    have hrecord := outputRecordSize_of_shape hshape
    rw [outputRecordSize, hcolumns, ok_bind, Except.ok.injEq] at hrecord
    exact hrecord.symm
  rw [← hsize] at hwords
  rw [words_of_deposit hfront hwords] at htext
  exact ⟨v, text, hv, ⟨columns, shape, p.filename, hcolumns, hshape, htext⟩,
    hfile⟩

/-- Files that no output of the run is written to stay. -/
theorem RunExecuted.files_kept
    (h : RunExecuted c acc P o files done run e s ids t q s₁ s₂ resultSizes sizes
      e' s') (hx : Executable P o) (hr : RunOf P o done run.2) {f : String}
    (hnot : ∀ a ∈ run.2, ∀ k, WritesTo P a k f → ¬LeavesRun P o a k) :
    s'.files f = s.files f := by
  have hs := h.onAccelerator
  rw [h.filed.kept f, h.ran.sameFiles, hs.prepared.undisturbed.files]
  rintro ⟨name, p⟩ hp hto rfl
  obtain ⟨a, ha, rfl, hresult⟩ := resultOf_of_filed hs hx hr hp
  exact hnot a ha p.streamIndex (hresult.toFile_iff.mp hto) hresult.leaves

/-- A block that waits for a later node is not touched. -/
theorem RunExecuted.held
    (h : RunExecuted c acc P o files done run e s ids t q s₁ s₂ resultSizes sizes
      e' s') (he : Executed P o written done e) {name : String}
    (hname : ∀ n ∈ run.2, (P.heap n).nodeName ≠ name) {b : Block}
    (hb : entry e.run.inputMemoryBlocks name m = some (some b)) :
    s'.blocks b = s.blocks b := by
  have hs := h.onAccelerator
  rw [h.filed.sameBlocks, h.ran.kept b, hs.prepared.undisturbed.blocks b]
  · rw [hs.setUp.initialised.memory]
    have hheld : holds e.run.inputMemoryBlocks e.run.outputMemoryBlocks
        (.input name m) = some b := by
      rw [holds, hb, Option.join_some]
    exact inUse_of_holds he.conserved hheld
  · -- An output of the run has a block of its own.
    intro n hn k hout
    have hin := (hs.setUp.kept he hname).mpr hb
    have := h.accelerated.differ (.output _ k) (.input name m) b
      (by rw [holds, hout, Option.join_some])
      (by rw [holds, hin, Option.join_some])
    cases this

/-- What is handed over by the run is the value of the plan. -/
theorem RunExecuted.memory
    (h : RunExecuted c acc P o files done run e s ids t q s₁ s₂ resultSizes sizes
      e' s') (hx : Executable P o) (he : Executed P o written done e)
    (hr : RunOf P o done run.2) (ha : a ∈ run.2) (hlinked : Linked P o a k n m) :
    ∃ b v shape, Carries c acc P files (.output a k) v ∧
      outputShape c P a k = .ok shape ∧
      entry e'.run.inputMemoryBlocks (P.heap n).nodeName m = some (some b) ∧
      entry e'.run.inputStreamSizes (P.heap n).nodeName m =
        some (shape.recordSize, acc.recordCount shape v) ∧
      acc.deposit shape v <+: (s'.blocks b).words := by
  have hs := h.onAccelerator
  have hf := hx.finished
  have hname := hs.setUp.nodeName a
  obtain ⟨b, size, hwritten, hb, hsize⟩ :=
    hs.setUp.writtenBy hf hr h.processed ha hlinked
  obtain ⟨hmoved, hmovedSize⟩ := h.released.moved ((P.heap a).nodeName, k)
    ((P.heap n).nodeName, m)
    ((mem_transfers_iff hf he hr).mpr ⟨a, ha, rfl, n, m, rfl, hlinked⟩)
  obtain ⟨v, shape, id, hv, hshape, hid, hcount, hfront⟩ :=
    h.ran.carried a ha k b (by rw [hname]; exact hb)
  refine ⟨b, v, shape, hv, hshape, hmoved.trans hb, hmovedSize.trans ?_, ?_⟩
  · obtain ⟨i, q', stream, hi, hq, hstream, -, hrecord, hcount'⟩ := hwritten
    -- The stream of the output has the id that the count is under.
    obtain ⟨q'', hq', -, hstreams⟩ := hs.setUp.setUp.nodes i a hi
    rw [hq, Option.some.injEq] at hq'
    subst hq'
    obtain ⟨stream', hstream', hstreamId, -⟩ := hstreams.exists_stream hid
    rw [hstream, Option.some.injEq] at hstream'
    subst hstream'
    rw [hstreamId, hcount, Option.some.injEq] at hcount'
    obtain ⟨columns, hcolumns, hrecord⟩ :=
      getRecordSizeFromParameters_recordsOf.mp hrecord
    have hrecord' := outputRecordSize_of_shape hshape
    rw [outputRecordSize, hcolumns, ok_bind, Except.ok.injEq] at hrecord'
    rw [hsize, ← hrecord', ← hrecord, hcount']
  · rw [h.filed.sameBlocks]
    exact hfront

end Results

/-- One more run. -/
theorem Meant.step {q : NodeId → AcceleratedQueryNode} {s₂ s' : Storage}
    {resultSizes : List Int} {sizes : SizeMap} {e' : ExecutionState}
    (hm : Meant c acc P o files done e s) (hx : Executable P o)
    (he : Executed P o written done e) (hr : RunOf P o done run.2)
    (hapart : FilesApart P)
    (h : RunExecuted c acc P o files done run e s ids t q s₁ s₂ resultSizes sizes
      e' s') : Meant c acc P o files (done ++ run.2) e' s' := by
  have hf := hx.finished
  have hs := h.onAccelerator
  refine ⟨?_, ?_, ?_⟩
  · intro a ha k n m hn hlinked
    have hmem := (Plan.edge_of_stream (hr.mem_nodes a ha) hlinked.1).right
    have hnames := mt (name_mem_iff hr hmem).mp hn
    have hother : ∀ n' ∈ run.2, (P.heap n').nodeName ≠ (P.heap n).nodeName :=
      fun n' hn' heq => hnames
        (List.mem_map.mpr ⟨n', List.mem_append_right _ hn', heq⟩)
    rcases List.mem_append.mp ha with ha | ha
    · have hnot : n ∉ done := fun hin => hn (List.mem_append_left _ hin)
      obtain ⟨b, v, shape, hv, hshape, hb, hsize, hfront⟩ :=
        hm.memory a ha k n m hnot hlinked
      obtain ⟨hkept, hkeptSize⟩ := h.released.inputs_kept (P.heap n).nodeName m
        (he.not_moved hf hr ha hlinked)
      have hpresent : e.run.inputMemoryBlocks[(P.heap n).nodeName]? ≠ none := by
        intro hnone
        rw [entry_eq_none hnone] at hb
        cases hb
      refine ⟨b, v, shape, hv, hshape, ?_, ?_, ?_⟩
      · rw [hkept, if_neg hnames]
        exact (hs.setUp.kept he hother).mpr hb
      · rw [hkeptSize, if_neg hnames]
        show entry t.run.inputStreamSizes _ _ = _
        rw [entry, (hs.setUp.others hother).2,
          (hs.setUp.initialised.inputs.kept _ hpresent).2]
        exact hsize
      · rw [h.held he hother hb]
        exact hfront
    · exact h.memory hx he hr ha hlinked
  · intro a ha k f hwrites hleaves
    rcases List.mem_append.mp ha with ha | ha
    · obtain ⟨v, text, hv, htext, hfile⟩ := hm.written a ha k f hwrites hleaves
      refine ⟨v, text, hv, htext, ?_⟩
      rw [h.files_kept hx hr, hfile]
      -- The file has been written by an earlier run.
      intro a' ha' k' hwrites'
      obtain ⟨rfl, -⟩ := hapart.once a (hr.done_mem ha) k f hwrites a'
        (hr.run_mem ha') k' hwrites'
      exact absurd ha (hr.not_done ha')
    · exact h.files_written hx hr hapart ha hwrites hleaves
  · intro f hnot
    rw [h.files_kept hx hr fun a ha => hnot a (List.mem_append_right _ ha)]
    exact hm.kept f fun a ha => hnot a (List.mem_append_left _ ha)

end Step

/-! ## The runs of a schedule -/

section Schedule

variable [Inhabited V] {lib : AcceleratorLibrary} {fuel : Nat}
  {e : ExecutionState} {s s' : Storage}

/-- All runs of a schedule. -/
theorem meant_of_run (hx : Executable P o)
    (hrun : findAcceleratedQueryNodeSets lib fuel P.heap P.roots ∅ = .ok o)
    (hapart : FilesApart P) (htransparent : Transparent c acc P o s.files)
    (hexec : DataPath.executeRuns c acc o.linkedNodes o.queryNodeRunsQueue
      (ExecutionState.initial o.heap, s) = .ok (e, s')) :
    Meant c acc P o s.files (runNodes o.queryNodeRunsQueue) e s' := by
  refine (foldlM_invariant
    (fun before (state : ExecutionState × Storage) =>
      Meant c acc P o s.files (runNodes before) state.1 state.2 ∧
        ∃ written, Executed P o written (runNodes before) state.1)
    o.queryNodeRunsQueue ?_ ?_ hexec).1
  · exact ⟨Meant.initial c acc P o s, fun _ _ _ _ => True,
      Executed.initial P o⟩
  rintro before run after ⟨e₁, s₁⟩ ⟨e₂, s₂⟩ hsplit ⟨hm, written, he⟩ hbody
  have hr := runOf_of_run hrun hsplit
  have hnodes : runNodes (before ++ [run]) = runNodes before ++ run.2 := by
    simp [runNodes]
  obtain ⟨⟨ids, t, q, s₃, s₄, resultSizes, sizes, h⟩, he'⟩ :=
    runExecuted_of_run hm hx he hr (by simp [hsplit]) hapart htransparent hbody
  rw [hnodes]
  exact ⟨hm.step hx he hr hapart h, he'⟩

/-- The schedule `o` of `P` has been executed on `s`. -/
structure Executes (c : Conversions) (acc : Accelerator V) (P : Plan)
    (lib : AcceleratorLibrary) (fuel : Nat) (o : RunsState) (s : Storage)
    (e : ExecutionState) (s' : Storage) : Prop where
  scheduled : findAcceleratedQueryNodeSets lib fuel P.heap P.roots ∅ = .ok o
  located : ∀ run ∈ o.queryNodeRunsQueue, LocationsConsistent P o.heap run
  flow : ∀ run ∈ o.queryNodeRunsQueue, FollowsDataFlow P o.heap run
  transparent : Transparent c acc P o s.files
  executed : DataPath.executeRuns c acc o.linkedNodes o.queryNodeRunsQueue
    (ExecutionState.initial o.heap, s) = .ok (e, s')

theorem Executes.meant (h : Executes c acc P lib fuel o s e s')
    (hsingle : P.SingleEdges) (hfiles : FilesMatchPorts P.heap P.nodes)
    (hapart : FilesApart P) : Meant c acc P o s.files P.nodes e s' := by
  have hx := executable_of_run hsingle hfiles h.scheduled h.located h.flow
  have hm := meant_of_run hx h.scheduled hapart h.transparent h.executed
  have hmem : ∀ a, a ∈ runNodes o.queryNodeRunsQueue ↔ a ∈ P.nodes := by
    intro a
    rw [← hx.finished.mem_iff, (scheduled_of_run h.scheduled).1.runs]
  exact ⟨fun a ha k n m hn => hm.memory a ((hmem a).mpr ha) k n m
      (mt (hmem n).mp hn), fun a ha => hm.written a ((hmem a).mpr ha),
    fun f hnot => hm.kept f fun a ha => hnot a ((hmem a).mp ha)⟩

end Schedule

end Execution

/-! ### A filter and a sort -/

/-- The words of the records that are complete. -/
def wholeRecords (size : Int) (words : List Nat) : List Nat :=
  words.take (words.length / size.toNat * size.toNat)

theorem length_wholeRecords (size : Int) (words : List Nat) :
    ((wholeRecords size words).length : Int) =
      (words.length / size.toNat : Nat) * size := by
  have hle := Nat.div_mul_le_self words.length size.toNat
  rw [wholeRecords, List.length_take, Nat.min_eq_left hle, Int.natCast_mul]
  rcases Int.lt_or_le size 0 with hneg | hnonneg
  · simp [Int.toNat_of_nonpos hneg.le]
  · rw [Int.toNat_of_nonneg hnonneg]

/-- Streams are lists of words: the filter drops zeros, other modules sort. -/
def wordSorter : Accelerator (List Nat) where
  fetch _ _ _ _ words := words
  kernel operationType _ _ _ inputs _ :=
    if operationType = .kFilter then (inputs.headD []).filter (· ≠ 0)
    else (inputs.headD []).insertionSort (· ≤ ·)
  deposit shape v := wholeRecords shape.recordSize v
  recordCount shape v := (v.length / shape.recordSize.toNat : Nat)
  whole shape v := length_wholeRecords shape.recordSize v

def filterThenSortToFile : List QueryNode :=
  [{ inputDataDefinitionFiles := ["cars.csv"]
     outputDataDefinitionFiles := [""]
     operationType := .kFilter
     nextNodes := [some 1]
     previousNodes := [none]
     operationParameters := ⟨[[], [0], [1], [1]], [[], [0], [1], [1]], []⟩
     nodeName := "filter"
     isChecked := [false] },
   { inputDataDefinitionFiles := [""]
     outputDataDefinitionFiles := ["sorted.csv"]
     operationType := .kLinearSort
     nextNodes := [none]
     previousNodes := [some 0]
     operationParameters := ⟨[[], [0], [1], [1]], [[], [0], [1], [1]], []⟩
     nodeName := "sort"
     isChecked := [false] }]

def sortToFilePlan : Plan := .ofTable filterThenSortToFile rfl

def wordConversions : Conversions := ⟨wordManager, noDecimals, fun _ => []⟩

def carsStorage : Storage where
  files filename :=
    if filename = "cars.csv" then some "3\n0\n1\n".toList else none
  canOpen _ := true
  blocks _ := ⟨64, List.replicate 16 0⟩

theorem sortToFile_stream {a k n m : Nat} (ha : a ∈ sortToFilePlan.nodes)
    (h : Stream sortToFilePlan.heap a k n m) :
    a = 0 ∧ k = 0 ∧ n = 1 ∧ m = 0 :=
  Plan.forall_stream (p := fun a k n m => a = 0 ∧ k = 0 ∧ n = 1 ∧ m = 0)
    (by decide) ha h

theorem sortToFile_edge {a b : Nat} (h : sortToFilePlan.Edge a b) : a < b := by
  have key : ∀ a ∈ sortToFilePlan.nodes, ∀ b ∈ sortToFilePlan.nodes,
      Feeds sortToFilePlan.heap a b → a < b := by decide
  exact key a h.left b h.right h.2

theorem sortToFile_writesTo {a k : Nat} {f : String}
    (ha : a ∈ sortToFilePlan.nodes) (h : WritesTo sortToFilePlan a k f) :
    a = 1 ∧ k = 0 ∧ f = "sorted.csv" := by
  obtain ⟨hfile, hne, hchecked⟩ := h
  have hk := (List.getElem?_eq_some_iff.mp hchecked).1
  have key : ∀ a ∈ sortToFilePlan.nodes,
      ∀ k < (sortToFilePlan.heap a).isChecked.length,
      outputFile sortToFilePlan a k = some "" ∨
        a = 1 ∧ k = 0 ∧ outputFile sortToFilePlan a k = some "sorted.csv" := by
    decide
  rcases key a ha k hk with hempty | ⟨rfl, rfl, hsorted⟩
  · rw [hfile, Option.some.injEq] at hempty
    exact absurd hempty hne
  · rw [hfile, Option.some.injEq] at hsorted
    exact ⟨rfl, rfl, hsorted⟩

theorem filesMatchPorts_sortToFile :
    FilesMatchPorts sortToFilePlan.heap sortToFilePlan.nodes := by
  unfold FilesMatchPorts
  decide

theorem filesApart_sortToFile : FilesApart sortToFilePlan where
  once a ha k f h a' ha' k' h' := by
    obtain ⟨rfl, rfl, -⟩ := sortToFile_writesTo ha h
    obtain ⟨rfl, rfl, -⟩ := sortToFile_writesTo ha' h'
    exact ⟨rfl, rfl⟩
  sources a ha k f h n hn m hm := by
    obtain ⟨-, -, rfl⟩ := sortToFile_writesTo ha h
    have hlt := (List.getElem?_eq_some_iff.mp hm).1
    have key : ∀ n ∈ sortToFilePlan.nodes,
        ∀ m < (sortToFilePlan.heap n).previousNodes.length,
        (sortToFilePlan.heap n).inputDataDefinitionFiles[m]? ≠
          some "sorted.csv" := by decide
    exact key n hn m hlt

theorem transparent_sortToFile (o : RunsState) (files : String → File) :
    Transparent wordConversions wordSorter sortToFilePlan o files := by
  have hnone : ∀ a ∈ sortToFilePlan.nodes, ∀ k n m f,
      Stream sortToFilePlan.heap a k n m →
      (sortToFilePlan.heap a).outputDataDefinitionFiles[k]? = some f → f = "" := by
    intro a ha k n m f hstream hf
    obtain ⟨rfl, rfl, -, -⟩ := sortToFile_stream ha hstream
    exact (Option.some.inj hf).symm
  refine ⟨?_, ?_, ?_, ?_⟩
  · intro a ha k n m v shape hstream _ _ _ hshape
    obtain ⟨rfl, rfl, rfl, rfl⟩ := sortToFile_stream ha hstream
    -- Records are single words.
    obtain rfl : shape = ⟨1, [], 1⟩ :=
      (Except.ok.inj (hshape.symm.trans rfl))
    simp [wordSorter, wholeRecords]
  · intro a ha k n m v f text size count words hstream _ hf hne
    exact absurd (hnone a ha k n m f hstream hf) hne
  · intro a ha k n m f columns hstream _ hf hne
    exact absurd (hnone a ha k n m f hstream hf) hne
  · intro a ha k n m f hstream _ hf hne
    exact absurd (hnone a ha k n m f hstream hf) hne

/-- Modules are in the order of the nodes. -/
def InNodeOrder (P : Plan) (locations : List Int) (run : QueryNodeRun) : Prop :=
  (∀ n ∈ run.2, ∃ i < run.1.length, locations[n]? = some (i + 1 : Int) ∧
    run.1[i]?.map (·.operationType) = some (P.heap n).operationType) ∧
  ∀ a ∈ run.2, ∀ b ∈ run.2, a < b →
    locations[a]?.getD 0 < locations[b]?.getD 0

instance (P : Plan) (locations : List Int) (run : QueryNodeRun) :
    Decidable (InNodeOrder P locations run) :=
  inferInstanceAs (Decidable (_ ∧ _))

/-- Runs whose modules are in the order of the nodes can be executed. -/
theorem runs_inNodeOrder {P : Plan} {lib : AcceleratorLibrary} {fuel count : Nat}
    {runs : List QueryNodeRun} {locations : List Int} {o : RunsState}
    (hsingle : P.SingleEdges) (hedges : ∀ a b, P.Edge a b → a < b)
    (hcount : ∀ n ∈ P.nodes, n < count)
    (hplaced : placements count (findAcceleratedQueryNodeSets lib fuel P.heap
      P.roots ∅) = some (runs, locations))
    (horder : ∀ run ∈ runs, InNodeOrder P locations run)
    (hrun : findAcceleratedQueryNodeSets lib fuel P.heap P.roots ∅ = .ok o)
    {run : QueryNodeRun} (hmem : run ∈ o.queryNodeRunsQueue) :
    LocationsConsistent P o.heap run ∧ FollowsDataFlow P o.heap run := by
  obtain ⟨o', hrun', hqueue, hlocation⟩ := placements_eq_some hplaced
  rw [hrun, Except.ok.injEq] at hrun'
  subst hrun'
  have hat : ∀ n ∈ run.2, locations[n]? = some (o.heap n).moduleLocation := by
    intro n hn
    refine hlocation n (hcount n ?_)
    rw [← (finished_of_run hsingle hrun).mem_iff, (scheduled_of_run hrun).1.runs]
    exact List.mem_flatMap.mpr ⟨run, hmem, hn⟩
  obtain ⟨hplace, hlt⟩ := horder run (hqueue ▸ hmem)
  refine ⟨⟨fun n hn _ => ?_, fun a ha b hb _ _ heq => ?_⟩, ?_⟩
  · obtain ⟨i, -, hi, htype⟩ := hplace n hn
    rw [hat n hn, Option.some.injEq] at hi
    obtain ⟨operation, hoperation, htype⟩ := Option.map_eq_some_iff.mp htype
    exact ⟨i, operation, by omega, hoperation, htype⟩
  · have hab := hlt a ha b hb
    have hba := hlt b hb a ha
    rw [hat a ha, hat b hb, heq] at hab hba
    exact Nat.le_antisymm (Nat.le_of_not_lt fun h => absurd (hba h) (by simp))
      (Nat.le_of_not_lt fun h => absurd (hab h) (by simp))
  · intro a ha b hb hpath
    have hless : a < b := by
      clear hb
      induction hpath with
      | single hedge => exact hedges _ _ hedge.1
      | tail _ hedge ih => exact Nat.lt_trans ih (hedges _ _ hedge.1)
    have ha := (mem_moduleNodes.mp ha).1
    have hb := (mem_moduleNodes.mp hb).1
    have hlocations := hlt a ha b hb hless
    rw [hat a ha, hat b hb] at hlocations
    exact hlocations

/-- Runs of the filter and the sort. -/
theorem runs_sortToFile {lib : AcceleratorLibrary} {runs : List QueryNodeRun}
    {locations : List Int} {o : RunsState}
    (hplaced : placements 2 (findAcceleratedQueryNodeSets lib 16
      sortToFilePlan.heap sortToFilePlan.roots ∅) = some (runs, locations))
    (horder : ∀ run ∈ runs, InNodeOrder sortToFilePlan locations run)
    (hrun : findAcceleratedQueryNodeSets lib 16 sortToFilePlan.heap
      sortToFilePlan.roots ∅ = .ok o) {run : QueryNodeRun}
    (hmem : run ∈ o.queryNodeRunsQueue) :
    LocationsConsistent sortToFilePlan o.heap run ∧
      FollowsDataFlow sortToFilePlan o.heap run :=
  runs_inNodeOrder (by decide) (fun _ _ => sortToFile_edge)
    (fun n hn => List.mem_range.mp hn) hplaced horder hrun hmem

theorem executes_sortToFile (lib : AcceleratorLibrary)
    (runs : List QueryNodeRun) (locations : List Int)
    (hplaced : placements 2 (findAcceleratedQueryNodeSets lib 16
      sortToFilePlan.heap sortToFilePlan.roots ∅) = some (runs, locations))
    (horder : ∀ run ∈ runs, InNodeOrder sortToFilePlan locations run)
    (hexec : ((findAcceleratedQueryNodeSets lib 16 sortToFilePlan.heap
      sortToFilePlan.roots ∅).toOption.any fun o =>
        (DataPath.executeRuns wordConversions wordSorter o.linkedNodes
          o.queryNodeRunsQueue (ExecutionState.initial o.heap,
            carsStorage)).isOk) = true) :
    ∃ o e s', Executes wordConversions wordSorter sortToFilePlan lib 16 o
      carsStorage e s' := by
  obtain ⟨o, hrun, -, -⟩ := placements_eq_some hplaced
  rw [hrun] at hexec
  obtain ⟨⟨e, s'⟩, hexec⟩ := exists_eq_ok hexec
  exact ⟨o, e, s', hrun,
    fun run hmem => (runs_sortToFile hplaced horder hrun hmem).1,
    fun run hmem => (runs_sortToFile hplaced horder hrun hmem).2,
    transparent_sortToFile o _, hexec⟩

/-! ### Results of a schedule -/

section Results

variable {V : Type} [Inhabited V] {c : Conversions} {acc : Accelerator V}
  {P : Plan} {lib lib' : AcceleratorLibrary} {fuel fuel' : Nat}
  {o o' : RunsState} {e e' : ExecutionState} {s s₁ s₂ : Storage}

/-- A schedule that is executed writes what the plan computes. -/
theorem schedule_computes_plan (hsingle : P.SingleEdges)
    (hfiles : FilesMatchPorts P.heap P.nodes) (hapart : FilesApart P)
    (h : Executes c acc P lib fuel o s e s₁) :
    (∀ a ∈ P.nodes, ∀ k f, WritesTo P a k f → LeavesRun P o a k →
      ∃ v text, Carries c acc P s.files (.output a k) v ∧
        TextOf c acc P a k v text ∧ s₁.files f = some text) ∧
    ∀ f, (∀ a ∈ P.nodes, ∀ k, WritesTo P a k f → ¬LeavesRun P o a k) →
      s₁.files f = s.files f := by
  have hm := h.meant hsingle hfiles hapart
  exact ⟨hm.written, hm.kept⟩

/-- The filter and the sort in two runs. -/
theorem schedule_computes_plan_sortToFile :
    ∃ o e s', Executes wordConversions wordSorter sortToFilePlan
        (libraryOf [[.kFilter], [.kLinearSort]]) 16 o carsStorage e s' ∧
      ∃ v text, Carries wordConversions wordSorter sortToFilePlan
          carsStorage.files (.output 1 0) v ∧
        TextOf wordConversions wordSorter sortToFilePlan 1 0 v text ∧
        s'.files "sorted.csv" = some text := by
  obtain ⟨o, e, s', h⟩ := executes_sortToFile
    (libraryOf [[.kFilter], [.kLinearSort]])
    [([⟨.kFilter, []⟩], [0]), ([⟨.kLinearSort, []⟩], [1])]
    [1, 1] (by decide +kernel) (by decide) (by decide +kernel)
  refine ⟨o, e, s', h, (schedule_computes_plan (by decide)
    filesMatchPorts_sortToFile filesApart_sortToFile h).1 1 (by decide) 0
    "sorted.csv" (by decide) ⟨by decide, fun n hn => ?_⟩⟩
  cases hn

/-- The results of a plan do not depend on its schedule. -/
theorem results_independent_of_schedule
    (hsingle : P.SingleEdges) (hfiles : FilesMatchPorts P.heap P.nodes)
    (hapart : FilesApart P)
    (hfull : ∀ n ∈ P.nodes, ∀ (m : Nat) filename,
      (P.heap n).previousNodes[m]? = some none →
      (P.heap n).inputDataDefinitionFiles[m]? = some filename →
      RowsFull c (P.heap n).operationParameters.inputStreamParameters m
        (s.files filename))
    (h : Executes c acc P lib fuel o s e s₁)
    (h' : Executes c acc P lib' fuel' o' s e' s₂) :
    ∀ a ∈ P.nodes, ∀ k f, (P.heap a).nextNodes[k]? = some none →
      WritesTo P a k f → s₁.files f = s₂.files f := by
  intro a ha k f hnext hwrites
  have hleaves : ∀ o, LeavesRun P o a k := by
    refine fun o => ⟨(List.getElem?_eq_some_iff.mp hnext).1, fun n hn => ?_⟩
    rw [hnext] at hn
    cases hn
  obtain ⟨v, text, hv, htext, hfile⟩ :=
    (h.meant hsingle hfiles hapart).written a ha k f hwrites (hleaves o)
  obtain ⟨v', text', hv', htext', hfile'⟩ :=
    (h'.meant hsingle hfiles hapart).written a ha k f hwrites (hleaves o')
  obtain rfl := hv.unique hsingle hfull hv'
  rw [hfile, hfile', htext.unique htext']

/-- One run and two runs. -/
theorem results_independent_of_schedule_sortToFile :
    ∃ o e s o' e' s', Executes wordConversions wordSorter sortToFilePlan
        (libraryOf [[.kFilter], [.kLinearSort]]) 16 o carsStorage e s ∧
      Executes wordConversions wordSorter sortToFilePlan
        (libraryOf [[.kFilter], [.kFilter, .kLinearSort]]) 16 o' carsStorage e' s' ∧
      s.files "sorted.csv" = s'.files "sorted.csv" := by
  obtain ⟨o, e, s, h⟩ := executes_sortToFile
    (libraryOf [[.kFilter], [.kLinearSort]])
    [([⟨.kFilter, []⟩], [0]), ([⟨.kLinearSort, []⟩], [1])]
    [1, 1] (by decide +kernel) (by decide) (by decide +kernel)
  obtain ⟨o', e', s', h'⟩ := executes_sortToFile
    (libraryOf [[.kFilter], [.kFilter, .kLinearSort]])
    [([⟨.kFilter, []⟩, ⟨.kLinearSort, []⟩], [0, 1])]
    [1, 2] (by decide +kernel) (by decide) (by decide +kernel)
  refine ⟨o, e, s, o', e', s', h, h', results_independent_of_schedule
    (by decide) filesMatchPorts_sortToFile filesApart_sortToFile ?_ h h' 1 (by decide) 0
    "sorted.csv" (by decide) (by decide)⟩
  intro n hn m filename hm hfile columns hcolumns
  have key : ∀ n ∈ sortToFilePlan.nodes,
      ∀ m < (sortToFilePlan.heap n).previousNodes.length,
      (sortToFilePlan.heap n).previousNodes[m]? = some none →
      n = 0 ∧ m = 0 := by decide
  obtain ⟨rfl, rfl⟩ :=
    key n hn m (List.getElem?_eq_some_iff.mp hm).1 hm
  obtain rfl : "cars.csv" = filename := Option.some.inj hfile
  obtain rfl : [(.kInteger, 1)] = columns := Except.ok.inj hcolumns
  decide +kernel

end Results

end Orkhestra.Ports.PlanExecution
