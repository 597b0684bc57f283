import Orkhestra.Ports.ScheduleLinks

/-!
# Hand-over between runs

Every edge of the plan whose ends are in different runs is replaced by a memory
link or by a file, and nothing else is linked.

`HandedOver` relates the heap and the links after some runs to the plan.  A run
finds the pointers and output files of its own nodes as they are in the plan,
so the crossings of a run are streams of the plan (`crossing_iff_stream`), and
it leaves the nodes of earlier runs alone except for input files that no earlier
producer has written.
-/

namespace Orkhestra.Ports.HandOver

open Orkhestra.Verified.Checked
open Orkhestra.Verified.Loop
open Orkhestra.Ports.QuerySchedulingData
open Orkhestra.Ports.NodeScheduler
open Orkhestra.Ports.SchedulePartition
open Orkhestra.Ports.ScheduleLinks

variable {P : Plan} {lib : AcceleratorLibrary}

/-- `a` and `b` are in one run. -/
def SameRun (runs : List QueryNodeRun) (a b : NodeId) : Prop :=
  ∃ run ∈ runs, a ∈ run.2 ∧ b ∈ run.2

theorem SameRun.symm {runs : List QueryNodeRun} {a b : NodeId}
    (h : SameRun runs a b) : SameRun runs b a := by
  obtain ⟨run, hmem, ha, hb⟩ := h
  exact ⟨run, hmem, hb, ha⟩

section SameRun

variable {runs : List QueryNodeRun} {run : QueryNodeRun} {a b : NodeId}

/-- A new run does not add to the runs of nodes that are in one. -/
theorem sameRun_concat_iff (hnew : a ∉ run.2) :
    SameRun (runs ++ [run]) a b ↔ SameRun runs a b := by
  constructor
  · rintro ⟨other, hmem, ha, hb⟩
    rcases List.mem_append.mp hmem with hmem | hmem
    · exact ⟨other, hmem, ha, hb⟩
    · rw [List.mem_singleton.mp hmem] at ha
      exact absurd ha hnew
  · rintro ⟨other, hmem, ha, hb⟩
    exact ⟨other, List.mem_append_left _ hmem, ha, hb⟩

theorem sameRun_concat_last_iff (hnew : a ∉ runNodes runs) (ha : a ∈ run.2) :
    SameRun (runs ++ [run]) a b ↔ b ∈ run.2 := by
  constructor
  · rintro ⟨other, hmem, ha', hb⟩
    rcases List.mem_append.mp hmem with hmem | hmem
    · exact absurd (List.mem_flatMap.mpr ⟨other, hmem, ha'⟩) hnew
    · rwa [List.mem_singleton.mp hmem] at hb
  · intro hb
    exact ⟨run, by simp, ha, hb⟩

end SameRun

/-- The runs of `o` have handed over their edges. -/
structure HandedOver (P : Plan) (o : RunsState) : Prop where
  waiting : ∀ n, n ∉ o.scheduledQueries →
    (o.heap n).outputDataDefinitionFiles =
      (P.heap n).outputDataDefinitionFiles
  output : ∀ a ∈ o.scheduledQueries, ∀ k : Nat,
    (o.heap a).outputDataDefinitionFiles[k]? =
      if (P.heap a).nextNodes[k]? = some none ∧
          (P.heap a).outputDataDefinitionFiles[k]? = some "" then
        some (outputFilename (P.heap a) k)
      else (P.heap a).outputDataDefinitionFiles[k]?
  kept : ∀ b ∈ o.scheduledQueries, ∀ (m : Nat) a,
    (P.heap b).previousNodes[m]? = some (some a) →
    SameRun o.queryNodeRunsQueue a b →
    (o.heap b).previousNodes[m]? = some (some a)
  forgotten : ∀ b ∈ o.scheduledQueries, ∀ (m : Nat) a,
    (P.heap b).previousNodes[m]? = some (some a) →
    ¬SameRun o.queryNodeRunsQueue a b →
    (o.heap b).previousNodes[m]? = some none
  cleared : ∀ b ∈ o.scheduledQueries, ∀ (m : Nat) a,
    (o.heap b).previousNodes[m]? = some (some a) →
    (P.heap b).previousNodes[m]? = some (some a) ∧
      SameRun o.queryNodeRunsQueue a b
  uncut : ∀ a ∈ o.scheduledQueries, ∀ (k : Nat) n,
    (P.heap a).nextNodes[k]? = some (some n) →
    SameRun o.queryNodeRunsQueue a n ∨
      (P.heap a).outputDataDefinitionFiles[k]? = some "" →
    (o.heap a).nextNodes[k]? = some (some n)
  crossed : ∀ a ∈ o.scheduledQueries, ∀ (k : Nat) n,
    (P.heap a).nextNodes[k]? = some (some n) →
    ¬SameRun o.queryNodeRunsQueue a n →
    ∃ f, (P.heap a).outputDataDefinitionFiles[k]? = some f
  next_only : ∀ a ∈ o.scheduledQueries, ∀ (k : Nat) n,
    (o.heap a).nextNodes[k]? = some (some n) →
    (P.heap a).nextNodes[k]? = some (some n)
  filed : ∀ a ∈ o.scheduledQueries, ∀ k n m f, Stream P.heap a k n m →
    ¬SameRun o.queryNodeRunsQueue a n →
    (P.heap a).outputDataDefinitionFiles[k]? = some f → f ≠ "" →
    (o.heap a).nextNodes[k]? = some none ∧
      (o.heap n).inputDataDefinitionFiles[m]? = some f
  unfiled : ∀ n m, (∀ a ∈ o.scheduledQueries, ∀ k f, Stream P.heap a k n m →
      ¬SameRun o.queryNodeRunsQueue a n →
      (P.heap a).outputDataDefinitionFiles[k]? = some f → f = "") →
    (o.heap n).inputDataDefinitionFiles[m]? =
      (P.heap n).inputDataDefinitionFiles[m]?
  linked : ∀ a ∈ o.scheduledQueries, ∀ k n m, Stream P.heap a k n m →
    ¬SameRun o.queryNodeRunsQueue a n →
    (P.heap a).outputDataDefinitionFiles[k]? = some "" →
    linkedTargets o.linkedNodes (P.heap a).nodeName k =
      some [((P.heap n).nodeName, m)]
  linked_only : ∀ name targets, o.linkedNodes[name]? = some targets →
    targets.isEmpty = false ∧
      ∃ a ∈ o.scheduledQueries, (P.heap a).nodeName = name ∧
        ∀ (k : Nat) l, targets[k]? = some l → ∃ n m, Stream P.heap a k n m ∧
          ¬SameRun o.queryNodeRunsQueue a n ∧
          (P.heap a).outputDataDefinitionFiles[k]? = some "" ∧
          l = [((P.heap n).nodeName, m)]

theorem HandedOver.initial (P : Plan) :
    HandedOver P (RunsState.initial P.heap P.roots ∅) := by
  constructor <;> simp [RunsState.initial]

/-! ## One more run -/

section Step

variable {start : Heap} {earlier : List NodeId} {s : SchedulerState}

/-- Crossings of a run are streams of the plan. -/
theorem crossing_iff_stream (hs : Growing P lib start earlier s)
    (hearlier : Ordered P earlier) (hsingle : P.SingleEdges)
    (hfiles : ∀ n, n ∉ earlier → (start n).outputDataDefinitionFiles =
      (P.heap n).outputDataDefinitionFiles) {a n : NodeId} {k m : Nat}
    {f : String} (ha : a ∈ s.currentQueryNodes) :
    Crossing s.currentQueryNodes s.heap a k n m f ↔
      Stream P.heap a k n m ∧ n ∉ s.currentQueryNodes ∧
        (P.heap a).outputDataDefinitionFiles[k]? = some f := by
  obtain ⟨hnew, hnode⟩ := hs.not_earlier ha
  have hnext := hs.tracks.nextNodes a hnew
  have hfile : (s.heap a).outputDataDefinitionFiles =
      (P.heap a).outputDataDefinitionFiles := by
    rw [hs.located a, ← hfiles a hnew]
  have hprevious : ∀ {k : Nat}, (P.heap a).nextNodes[k]? = some (some n) →
      P.Edge a n ∧ (s.heap n).previousNodes = (P.heap n).previousNodes := by
    intro k hk
    have hedge : P.Edge a n := ⟨hnode, List.mem_of_getElem? hk⟩
    exact ⟨hedge, hs.tracks.previousNodes n
      (hs.consumer_not_earlier hearlier ha hedge)⟩
  constructor
  · rintro ⟨hk, hout, hm, hf⟩
    rw [hnext] at hk
    rw [(hprevious hk).2] at hm
    rw [hfile] at hf
    exact ⟨⟨hk, findLocation_eq_ok hm⟩, hout, hf⟩
  · rintro ⟨⟨hk, hm⟩, hout, hf⟩
    obtain ⟨hedge, hsame⟩ := hprevious hk
    refine ⟨hnext ▸ hk, hout, ?_, hfile ▸ hf⟩
    rw [hsame]
    exact findLocation_of_distinct (hsingle n hedge.right).2 hm

end Step

section Run

variable {fuel : Nat} {o o' : RunsState}

/-- The step from `o` to `o'` has added the run of the nodes `run`; `h` is the
heap before the external links of the run have been checked. -/
structure RunAdded (P : Plan) (o o' : RunsState) (run : List NodeId)
    (h : Heap) : Prop where
  links : RunLinked run run h o.linkedNodes (o'.heap, o'.linkedNodes)
  scheduled : ∀ a, a ∈ o'.scheduledQueries ↔ a ∈ o.scheduledQueries ∨ a ∈ run
  disjoint : ∀ a ∈ o.scheduledQueries, a ∉ run
  mem_nodes : ∀ a ∈ o'.scheduledQueries, a ∈ P.nodes
  sameRun_old : ∀ a ∈ o.scheduledQueries, ∀ b,
    SameRun o'.queryNodeRunsQueue a b ↔ SameRun o.queryNodeRunsQueue a b
  sameRun_new : ∀ a ∈ run, ∀ b, SameRun o'.queryNodeRunsQueue a b ↔ b ∈ run
  nodeName : ∀ n, (h n).nodeName = (P.heap n).nodeName
  nextNodes : ∀ a ∈ run, (h a).nextNodes = (P.heap a).nextNodes
  previousNodes : ∀ a ∈ run, (h a).previousNodes = (P.heap a).previousNodes
  outputFiles : ∀ a ∈ run, (h a).outputDataDefinitionFiles =
    (P.heap a).outputDataDefinitionFiles
  inputFiles : ∀ n, (h n).inputDataDefinitionFiles =
    (o.heap n).inputDataDefinitionFiles
  past : ∀ a, a ∉ run → o'.heap a = { o.heap a with
    inputDataDefinitionFiles := (o'.heap a).inputDataDefinitionFiles }
  crossing : ∀ a ∈ run, ∀ k n m f, Crossing run h a k n m f ↔
    Stream P.heap a k n m ∧ n ∉ run ∧
      (P.heap a).outputDataDefinitionFiles[k]? = some f

theorem HandedOver.runAdded_of_step (hs : HandedOver P o)
    (ho : Scheduled P lib o) (hsingle : P.SingleEdges)
    (hstep : findNextRun lib fuel o = .ok (.again o')) :
    ∃ run h, RunAdded P o o' run h := by
  obtain ⟨s, -, hgrown, -, hlinks, -, hscheduled, hqueue⟩ := ho.run_of_step hstep
  have hsplit := hgrown.scheduled
  rw [← hscheduled] at hsplit
  have hnodup := hgrown.frontier.nodup
  rw [← hscheduled, hsplit, List.nodup_append] at hnodup
  have hdisjoint : ∀ a ∈ o.scheduledQueries, a ∉ s.currentQueryNodes :=
    fun a ha hmem => hnodup.2.2 a ha a hmem rfl
  have hscheduled : ∀ a, a ∈ o'.scheduledQueries ↔
      a ∈ o.scheduledQueries ∨ a ∈ s.currentQueryNodes := by
    intro a
    rw [hsplit, List.mem_append]
  have hnode : ∀ a ∈ s.currentQueryNodes, a ∈ P.nodes :=
    fun a ha => (hgrown.not_earlier ha).2
  have hnext : ∀ a ∈ s.currentQueryNodes,
      (s.heap a).nextNodes = (P.heap a).nextNodes :=
    fun a ha => hgrown.tracks.nextNodes a (hgrown.not_earlier ha).1
  have hname : ∀ n, (s.heap n).nodeName = (P.heap n).nodeName :=
    hgrown.tracks.nodeName
  have hr : RunLinked s.currentQueryNodes s.currentQueryNodes s.heap
      o.linkedNodes (o'.heap, o'.linkedNodes) := by
    refine runLinked_of_run hnodup.2.1 ?_ ?_ ?_ hlinks
    · intro a ha k k' n hk hk'
      rw [hnext a ha] at hk hk'
      exact (hsingle a (hnode a ha)).1.index_unique hk hk'
    · intro a ha b hb heq
      rw [hname, hname] at heq
      exact P.nameInjective a (hnode a ha) b (hnode b hb) heq
    · intro a ha
      cases htargets : o.linkedNodes[(s.heap a).nodeName]? with
      | none => rfl
      | some targets =>
          obtain ⟨-, b, hb, heq, -⟩ := hs.linked_only _ targets htargets
          rw [hname] at heq
          have hba := P.nameInjective b (ho.frontier.mem_nodes b hb) a
            (hnode a ha) heq
          exact absurd ha (hba ▸ hdisjoint b hb)
  refine ⟨s.currentQueryNodes, s.heap, hr, hscheduled, hdisjoint, ?_, ?_, ?_,
    hname, hnext, ?_, ?_, ?_, ?_, ?_⟩
  · intro a ha
    rcases (hscheduled a).mp ha with ha | ha
    · exact ho.frontier.mem_nodes a ha
    · exact hnode a ha
  · intro a ha b
    rw [hqueue]
    exact sameRun_concat_iff (hdisjoint a ha)
  · intro a ha b
    rw [hqueue]
    refine sameRun_concat_last_iff ?_ ha
    rw [← ho.runs]
    exact fun hmem => hdisjoint a hmem ha
  · exact fun a ha => hgrown.tracks.previousNodes a (hgrown.not_earlier ha).1
  · intro a ha
    rw [hgrown.located a, ← hs.waiting a (hgrown.not_earlier ha).1]
  · intro n
    rw [hgrown.located n]
  · intro a ha
    have hpending := hr.pending a ha
    rwa [hgrown.untouched a ha] at hpending
  · exact fun a ha k n m f =>
      crossing_iff_stream hgrown ho.frontier.ordered hsingle hs.waiting ha

section Added

variable {run : List NodeId} {h : Heap}

/-- The input pointers of a node of the run: those to nodes of other runs are
forgotten. -/
theorem RunAdded.previousNodes_eq (hr : RunAdded P o o' run h) {b : NodeId}
    (hb : b ∈ run) (m : Nat) :
    (o'.heap b).previousNodes[m]? = (P.heap b).previousNodes[m]?.map fun pointer =>
      if isNodeMissingFromTheVector pointer run then none else pointer := by
  rw [show (o'.heap b).previousNodes = _ from hr.links.previous b hb,
    clearPreviousNodes, List.getElem?_map, hr.previousNodes b hb]

/-- An output keeps its pointer when no file is between the node and the
consumer. -/
theorem RunAdded.nextNodes_eq (hr : RunAdded P o o' run h) {a n : NodeId}
    {k : Nat} (ha : a ∈ run) (hk : (P.heap a).nextNodes[k]? = some (some n))
    (hwhy : n ∈ run ∨ (P.heap a).outputDataDefinitionFiles[k]? = some "") :
    (o'.heap a).nextNodes[k]? = some (some n) := by
  rw [← hr.nextNodes a ha] at hk
  refine (hr.links.uncut a ha k ?_).trans hk
  intro n' m f hc
  rcases hwhy with hin | hempty
  · have hn := hc.next
    rw [hk, Option.some.injEq, Option.some.injEq] at hn
    exact absurd (hn ▸ hin) hc.outside
  · have hf := ((hr.crossing a ha k n' m f).mp hc).2.2
    rw [hempty, Option.some.injEq] at hf
    exact hf.symm

/-- A pointer that is left was there in the plan. -/
theorem RunAdded.nextNodes_only (hr : RunAdded P o o' run h) {a n : NodeId}
    {k : Nat} (ha : a ∈ run) (hk : (o'.heap a).nextNodes[k]? = some (some n)) :
    (P.heap a).nextNodes[k]? = some (some n) := by
  rw [← hr.nextNodes a ha]
  refine (hr.links.uncut a ha k ?_).symm.trans hk
  intro n' m f hc
  by_contra hne
  have hcut := hr.links.cut a ha k n' m f hc hne
  rw [hk] at hcut
  cases hcut

/-- An input file is overwritten only from within the run. -/
theorem RunAdded.inputFile_kept (hr : RunAdded P o o' run h) {n : NodeId}
    {m : Nat} (hall : ∀ a ∈ run, ∀ k f, Stream P.heap a k n m → n ∉ run →
      (P.heap a).outputDataDefinitionFiles[k]? = some f → f = "") :
    (o'.heap n).inputDataDefinitionFiles[m]? =
      (o.heap n).inputDataDefinitionFiles[m]? := by
  rw [← hr.inputFiles n]
  refine hr.links.input_kept n m fun a ha k f hc => ?_
  obtain ⟨hstream, hout, hf⟩ := (hr.crossing a ha k n m f).mp hc
  exact hall a ha k f hstream hout hf

/-- The links of a node of an earlier run are as they were. -/
theorem RunAdded.linkedNodes_old (hr : RunAdded P o o' run h) {a : NodeId}
    (ha : a ∈ o.scheduledQueries) :
    o'.linkedNodes[(P.heap a).nodeName]? = o.linkedNodes[(P.heap a).nodeName]? := by
  refine hr.links.others (P.heap a).nodeName fun b hb heq => ?_
  rw [hr.nodeName] at heq
  have hab := P.nameInjective a
    (hr.mem_nodes a ((hr.scheduled a).mpr (.inl ha))) b
    (hr.mem_nodes b ((hr.scheduled b).mpr (.inr hb))) heq
  exact hr.disjoint a ha (hab ▸ hb)

/-- What is linked to the name of a node of the run. -/
theorem RunAdded.targets_new (hr : RunAdded P o o' run h) {a : NodeId}
    (ha : a ∈ run) {targets : TargetMaps}
    (htargets : o'.linkedNodes[(P.heap a).nodeName]? = some targets) :
    targets.isEmpty = false ∧ ∀ (k : Nat) l, targets[k]? = some l →
      ∃ n m, Stream P.heap a k n m ∧ n ∉ run ∧
        (P.heap a).outputDataDefinitionFiles[k]? = some "" ∧
        l = [((P.heap n).nodeName, m)] := by
  rw [← hr.nodeName] at htargets
  refine ⟨hr.links.nonempty a ha targets htargets, fun k l hl => ?_⟩
  obtain ⟨n, m, hc, rfl⟩ := hr.links.targets_only a ha k l
    (by simp [linkedTargets, htargets, hl])
  obtain ⟨hstream, hout, hf⟩ := (hr.crossing a ha k n m "").mp hc
  exact ⟨n, m, hstream, hout, hf, by rw [hr.nodeName]⟩

/-- Every field holds of the nodes of earlier runs because they are left alone,
and of the nodes of the new run by its links. -/
theorem HandedOver.concat (hs : HandedOver P o) (hr : RunAdded P o o' run h) :
    HandedOver P o' := by
  have hmem := hr.scheduled
  have hold := hr.sameRun_old
  have hnew := hr.sameRun_new
  have hpast : ∀ a ∈ o.scheduledQueries, o'.heap a = { o.heap a with
      inputDataDefinitionFiles := (o'.heap a).inputDataDefinitionFiles } :=
    fun a ha => hr.past a (hr.disjoint a ha)
  constructor
  · intro n hn
    rw [hmem, not_or] at hn
    rw [hr.past n hn.2]
    exact hs.waiting n hn.1
  · intro a ha k
    rcases (hmem a).mp ha with ha | ha
    · rw [hpast a ha]
      exact hs.output a ha k
    · have hout := hr.links.output a ha k
      rw [hr.nextNodes a ha, hr.outputFiles a ha] at hout
      rwa [outputFilename, hr.nodeName] at hout
  · intro b hb m a hm hsame
    rcases (hmem b).mp hb with hb | hb
    · rw [hpast b hb]
      exact hs.kept b hb m a hm ((hold b hb a).mp hsame.symm).symm
    · have ha := (hnew b hb a).mp hsame.symm
      rw [hr.previousNodes_eq hb, hm]
      simp [isNodeMissingFromTheVector, ha]
  · intro b hb m a hm hdiff
    rcases (hmem b).mp hb with hb | hb
    · rw [hpast b hb]
      refine hs.forgotten b hb m a hm fun hsame => hdiff ?_
      exact ((hold b hb a).mpr hsame.symm).symm
    · have ha : a ∉ run := fun hin => hdiff ((hnew b hb a).mpr hin).symm
      rw [hr.previousNodes_eq hb, hm]
      simp [isNodeMissingFromTheVector, ha]
  · intro b hb m a hm
    rcases (hmem b).mp hb with hb | hb
    · rw [hpast b hb] at hm
      obtain ⟨hplan, hsame⟩ := hs.cleared b hb m a hm
      exact ⟨hplan, ((hold b hb a).mpr hsame.symm).symm⟩
    · rw [hr.previousNodes_eq hb, Option.map_eq_some_iff] at hm
      obtain ⟨pointer, hpointer, hm⟩ := hm
      split at hm
      · cases hm
      · next hin =>
          subst hm
          refine ⟨hpointer, ((hnew b hb a).mpr ?_).symm⟩
          simpa [isNodeMissingFromTheVector] using hin
  · intro a ha k n hk hwhy
    rcases (hmem a).mp ha with ha | ha
    · rw [hpast a ha]
      rw [hold a ha] at hwhy
      exact hs.uncut a ha k n hk hwhy
    · rw [hnew a ha] at hwhy
      exact hr.nextNodes_eq ha hk hwhy
  · intro a ha k n hk hdiff
    rcases (hmem a).mp ha with ha | ha
    · exact hs.crossed a ha k n hk (mt (hold a ha n).mpr hdiff)
    · rw [hnew a ha] at hdiff
      rw [← hr.nextNodes a ha] at hk
      obtain ⟨m, f, hc⟩ := hr.links.crosses a ha k n hk hdiff
      exact ⟨f, ((hr.crossing a ha k n m f).mp hc).2.2⟩
  · intro a ha k n hk
    rcases (hmem a).mp ha with ha | ha
    · rw [hpast a ha] at hk
      exact hs.next_only a ha k n hk
    · exact hr.nextNodes_only ha hk
  · intro a ha k n m f hstream hdiff hf hne
    rcases (hmem a).mp ha with ha | ha
    · rw [hold a ha] at hdiff
      obtain ⟨hcut, hinput⟩ := hs.filed a ha k n m f hstream hdiff hf hne
      refine ⟨by rw [hpast a ha]; exact hcut, ?_⟩
      -- The input has one producer, and that one is in an earlier run.
      refine (hr.inputFile_kept fun b hb k' f' hstream' _ _ => ?_).trans hinput
      have hm := hstream'.2
      rw [hstream.2, Option.some.injEq, Option.some.injEq] at hm
      exact absurd (hm ▸ hb) (hr.disjoint a ha)
    · rw [hnew a ha] at hdiff
      have hc := (hr.crossing a ha k n m f).mpr ⟨hstream, hdiff, hf⟩
      exact ⟨hr.links.cut a ha k n m f hc hne,
        hr.links.input a ha k n m f hc hne⟩
  · intro n m hall
    refine (hr.inputFile_kept fun a ha k f hstream hout hf => ?_).trans
      (hs.unfiled n m fun a ha k f hstream hdiff => ?_)
    · exact hall a ((hmem a).mpr (.inr ha)) k f hstream
        (mt (hnew a ha n).mp hout) hf
    · exact hall a ((hmem a).mpr (.inl ha)) k f hstream
        (mt (hold a ha n).mp hdiff)
  · intro a ha k n m hstream hdiff hf
    rcases (hmem a).mp ha with ha | ha
    · rw [hold a ha] at hdiff
      rw [linkedTargets, hr.linkedNodes_old ha]
      exact hs.linked a ha k n m hstream hdiff hf
    · rw [hnew a ha] at hdiff
      have hc := (hr.crossing a ha k n m "").mpr ⟨hstream, hdiff, hf⟩
      have htargets := hr.links.targets a ha k n m hc
      rwa [hr.nodeName, hr.nodeName] at htargets
  · intro name targets htargets
    by_cases hown : ∃ a ∈ run, name = (P.heap a).nodeName
    · obtain ⟨a, ha, rfl⟩ := hown
      obtain ⟨hne, hall⟩ := hr.targets_new ha htargets
      refine ⟨hne, a, (hmem a).mpr (.inr ha), rfl, fun k l hl => ?_⟩
      obtain ⟨n, m, hstream, hout, hrest⟩ := hall k l hl
      exact ⟨n, m, hstream, mt (hnew a ha n).mp hout, hrest⟩
    · have hother := hr.links.others name fun a ha heq =>
        hown ⟨a, ha, heq.trans (hr.nodeName a)⟩
      rw [show o'.linkedNodes[name]? = _ from hother] at htargets
      obtain ⟨hne, a, ha, heq, hall⟩ := hs.linked_only name targets htargets
      refine ⟨hne, a, (hmem a).mpr (.inl ha), heq, fun k l hl => ?_⟩
      obtain ⟨n, m, hstream, hdiff, hrest⟩ := hall k l hl
      exact ⟨n, m, hstream, mt (hold a ha n).mp hdiff, hrest⟩

end Added

theorem HandedOver.step (hs : HandedOver P o) (ho : Scheduled P lib o)
    (hsingle : P.SingleEdges)
    (hstep : findNextRun lib fuel o = .ok (.again o')) : HandedOver P o' := by
  obtain ⟨run, h, hr⟩ := hs.runAdded_of_step ho hsingle hstep
  exact hs.concat hr

theorem handedOver_of_run (hsingle : P.SingleEdges)
    (hrun : findAcceleratedQueryNodeSets lib fuel P.heap P.roots ∅ = .ok o) :
    HandedOver P o ∧ ∀ n ∈ P.nodes, n ∈ o.scheduledQueries := by
  refine iterate_invariant (fun o => Scheduled P lib o ∧ HandedOver P o)
    (fun o => HandedOver P o ∧ ∀ n ∈ P.nodes, n ∈ o.scheduledQueries) ?_ ?_
    ⟨Scheduled.initial P lib ∅, HandedOver.initial P⟩ hrun
  · intro o o' ho hbody
    exact ⟨(ho.1.step hbody).1, ho.2.step ho.1 hsingle hbody⟩
  · intro o o' ho hbody
    obtain ⟨hnil, rfl⟩ := findNextRun_done hbody
    have hfrontier := ho.1.frontier
    rw [hnil] at hfrontier
    exact ⟨ho.2, fun n hn => hfrontier.complete hn⟩

end Run

/-! ## Every edge between runs has one hand-over -/

/-- A link of an output is the link of its own stream, between two runs. -/
theorem HandedOver.unlinked {o : RunsState} (hs : HandedOver P o)
    (hmem : ∀ a ∈ o.scheduledQueries, a ∈ P.nodes) {a n : NodeId} {k m : Nat}
    (ha : a ∈ P.nodes) (hstream : Stream P.heap a k n m)
    (hwhy : SameRun o.queryNodeRunsQueue a n ∨
      (P.heap a).outputDataDefinitionFiles[k]? ≠ some "") :
    linkedTargets o.linkedNodes (P.heap a).nodeName k = none := by
  cases hlinked : linkedTargets o.linkedNodes (P.heap a).nodeName k with
  | none => rfl
  | some l =>
      rw [linkedTargets, Option.bind_eq_some_iff] at hlinked
      obtain ⟨targets, htargets, hl⟩ := hlinked
      obtain ⟨-, b, hb, heq, hall⟩ := hs.linked_only _ targets htargets
      have hba := P.nameInjective b (hmem b hb) a ha heq
      subst hba
      obtain ⟨n', m', hstream', hdiff, hfile, -⟩ := hall k l hl
      have hn := hstream.1
      rw [hstream'.1, Option.some.injEq, Option.some.injEq] at hn
      subst hn
      rcases hwhy with hsame | hne
      · exact absurd hsame hdiff
      · exact absurd hfile hne

theorem outputFilename_ne (node : QueryNode) (k : Nat) :
    outputFilename node k ≠ "" := by
  intro h
  have hlen := congrArg String.length h
  simp [outputFilename, String.length_append] at hlen

/-- Each stream of the plan between two runs is handed over in exactly one way,
by a link in memory or by its file; streams within a run keep their pointers;
outputs without a consumer have a file; pointers to producers in other runs are
cleared; and there are no other links. -/
theorem streams_handed_over_once (P : Plan) (lib : AcceleratorLibrary)
    (fuel : Nat) (hsingle : P.SingleEdges)
    (hfiles : ∀ n ∈ P.nodes, (P.heap n).outputDataDefinitionFiles.length =
      (P.heap n).nextNodes.length) {o : RunsState}
    (hrun : findAcceleratedQueryNodeSets lib fuel P.heap P.roots ∅ = .ok o) :
    (∀ a ∈ P.nodes, ∀ k n m, Stream P.heap a k n m →
      ¬SameRun o.queryNodeRunsQueue a n →
      Xor
        ((P.heap a).outputDataDefinitionFiles[k]? = some "" ∧
          (o.heap a).outputDataDefinitionFiles[k]? = some "" ∧
          linkedTargets o.linkedNodes (P.heap a).nodeName k =
            some [((P.heap n).nodeName, m)])
        (∃ f, f ≠ "" ∧
          (o.heap a).outputDataDefinitionFiles[k]? = some f ∧
          (o.heap a).nextNodes[k]? = some none ∧
          (o.heap n).inputDataDefinitionFiles[m]? = some f ∧
          linkedTargets o.linkedNodes (P.heap a).nodeName k = none)) ∧
    (∀ a ∈ P.nodes, ∀ k n m, Stream P.heap a k n m →
      SameRun o.queryNodeRunsQueue a n →
      (o.heap a).nextNodes[k]? = some (some n) ∧
      (o.heap n).previousNodes[m]? = some (some a) ∧
      linkedTargets o.linkedNodes (P.heap a).nodeName k = none) ∧
    (∀ a ∈ P.nodes, ∀ k < (P.heap a).outputDataDefinitionFiles.length,
      (∀ n, (P.heap a).nextNodes[k]? ≠ some (some n)) →
      ∃ f, f ≠ "" ∧ (o.heap a).outputDataDefinitionFiles[k]? = some f) ∧
    (∀ n ∈ P.nodes, ∀ (m : Nat) a,
      ((P.heap n).previousNodes[m]? = some (some a) →
        ¬SameRun o.queryNodeRunsQueue a n →
        (o.heap n).previousNodes[m]? = some none) ∧
      ((o.heap n).previousNodes[m]? = some (some a) →
        SameRun o.queryNodeRunsQueue a n)) ∧
    ∀ name targets, o.linkedNodes[name]? = some targets →
      targets.isEmpty = false ∧
        ∃ a ∈ P.nodes, (P.heap a).nodeName = name ∧
          ∀ (k : Nat) l, targets[k]? = some l →
            ∃ n m, Stream P.heap a k n m ∧
              ¬SameRun o.queryNodeRunsQueue a n ∧
              (P.heap a).outputDataDefinitionFiles[k]? = some "" ∧
              l = [((P.heap n).nodeName, m)] := by
  obtain ⟨hs, hall⟩ := handedOver_of_run hsingle hrun
  have hmem : ∀ a ∈ o.scheduledQueries, a ∈ P.nodes :=
    (scheduled_of_run hrun).1.frontier.mem_nodes
  refine ⟨?_, ?_, ?_, ?_, ?_⟩
  · intro a ha k n m hstream hdiff
    have hlt : k < (P.heap a).outputDataDefinitionFiles.length := by
      rw [hfiles a ha]
      exact (List.getElem?_eq_some_iff.mp hstream.1).1
    have hout := hs.output a (hall a ha) k
    rw [if_neg (by rw [hstream.1]; simp), List.getElem?_eq_getElem hlt] at hout
    have hf := List.getElem?_eq_getElem hlt
    generalize (P.heap a).outputDataDefinitionFiles[k] = f at hout hf
    by_cases hempty : f = ""
    · subst hempty
      have hlink := hs.linked a (hall a ha) k n m hstream hdiff hf
      refine .inl ⟨⟨hf, hout, hlink⟩, ?_⟩
      rintro ⟨f, -, -, -, -, hnone⟩
      rw [hlink] at hnone
      cases hnone
    · obtain ⟨hcut, hinput⟩ :=
        hs.filed a (hall a ha) k n m f hstream hdiff hf hempty
      have hnone := hs.unlinked hmem ha hstream
        (.inr (by rw [hf]; simpa using hempty))
      refine .inr ⟨⟨f, hempty, hout, hcut, hinput, hnone⟩, ?_⟩
      rintro ⟨-, -, hlink⟩
      rw [hnone] at hlink
      cases hlink
  · intro a ha k n m hstream hsame
    have hn := P.next_mem a ha n (List.mem_of_getElem? hstream.1)
    exact ⟨hs.uncut a (hall a ha) k n hstream.1 (.inl hsame),
      hs.kept n (hall n hn) m a hstream.2 hsame,
      hs.unlinked hmem ha hstream (.inl hsame)⟩
  · intro a ha k hlt hno
    have hnone : (P.heap a).nextNodes[k]? = some none := by
      have hk : k < (P.heap a).nextNodes.length := hfiles a ha ▸ hlt
      cases hpointer : (P.heap a).nextNodes[k] with
      | none => rw [List.getElem?_eq_getElem hk, hpointer]
      | some n =>
          refine absurd ?_ (hno n)
          rw [List.getElem?_eq_getElem hk, hpointer]
    have hout := hs.output a (hall a ha) k
    by_cases hempty : (P.heap a).outputDataDefinitionFiles[k]? = some ""
    · rw [if_pos ⟨hnone, hempty⟩] at hout
      exact ⟨_, outputFilename_ne _ k, hout⟩
    · rw [if_neg fun h => hempty h.2] at hout
      refine ⟨_, ?_, hout.trans (List.getElem?_eq_getElem hlt)⟩
      intro h
      rw [List.getElem?_eq_getElem hlt, h] at hempty
      exact hempty rfl
  · intro n hn m a
    exact ⟨hs.forgotten n (hall n hn) m a,
      fun hprevious => (hs.cleared n (hall n hn) m a hprevious).2⟩
  · intro name targets htargets
    obtain ⟨hne, a, ha, hrest⟩ := hs.linked_only name targets htargets
    exact ⟨hne, a, hmem a ha, hrest⟩

/-! ### A link and a file

The first output of the filter has no file, the second one has.
-/

def filterAndSorts : List QueryNode :=
  [{ inputDataDefinitionFiles := ["a.csv"]
     outputDataDefinitionFiles := ["", "second.csv"]
     operationType := .kFilter
     nextNodes := [some 1, some 2]
     previousNodes := [none]
     operationParameters :=
       ⟨[[], [], [], []], [[], [], [], [], [], [], [], []], []⟩
     nodeName := "filter"
     isChecked := [false, true] },
   { inputDataDefinitionFiles := [""]
     outputDataDefinitionFiles := [""]
     operationType := .kLinearSort
     nextNodes := [none]
     previousNodes := [some 0]
     operationParameters := ⟨[[], [], [], []], [[], [], [], []], []⟩
     nodeName := "first"
     isChecked := [false] },
   { inputDataDefinitionFiles := [""]
     outputDataDefinitionFiles := [""]
     operationType := .kLinearSort
     nextNodes := [none]
     previousNodes := [some 0]
     operationParameters := ⟨[[], [], [], []], [[], [], [], []], []⟩
     nodeName := "second"
     isChecked := [false] }]

def filterAndSortsPlan : Plan := .ofTable filterAndSorts rfl

/-- The second output is handed over by its file only. -/
theorem streams_handed_over_once_filterAndSorts :
    ∃ o, findAcceleratedQueryNodeSets (libraryOf [[.kFilter], [.kLinearSort]])
        16 filterAndSortsPlan.heap filterAndSortsPlan.roots ∅ = .ok o ∧
      ∃ f, f ≠ "" ∧
        (o.heap 0).outputDataDefinitionFiles[1]? = some f ∧
        (o.heap 2).inputDataDefinitionFiles[0]? = some f ∧
        linkedTargets o.linkedNodes "filter" 1 = none := by
  obtain ⟨o, hrun, hqueue, -⟩ := placements_eq_some (n := 3)
    (show placements 3 (findAcceleratedQueryNodeSets
        (libraryOf [[.kFilter], [.kLinearSort]]) 16 filterAndSortsPlan.heap
        filterAndSortsPlan.roots ∅) =
      some ([([⟨.kFilter, []⟩], [0]), ([⟨.kLinearSort, []⟩], [1]),
        ([⟨.kLinearSort, []⟩], [2])], [1, 1, 1]) by decide +kernel)
  have h := (streams_handed_over_once filterAndSortsPlan _ 16 (by decide)
    (by decide) hrun).1 0 (by decide) 1 2 0 (by decide)
    (by simp [hqueue, SameRun])
  refine ⟨o, hrun, ?_⟩
  rcases h with ⟨⟨hempty, -, -⟩, -⟩ | ⟨⟨f, hne, hout, -, hinput, hlink⟩, -⟩
  · exact absurd hempty (by decide)
  · exact ⟨f, hne, hout, hinput, hlink⟩

end Orkhestra.Ports.HandOver
