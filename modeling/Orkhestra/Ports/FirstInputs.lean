import Orkhestra.Ports.ScheduleLinks

/-!
# Hand-over leads to first inputs

The scheduler does not know which input of a consumer an output feeds: it
searches for the first pointer to the producer.  So in any plan, with any number
of edges between two nodes, whatever it hands over from `a` to `n` leads to the
first input of `n` that `a` feeds.

The argument goes through one output (`OutputEffect`), the nodes of a run
(`LeadsOutside`) and the runs (`LeadsToFirst`).
-/

namespace Orkhestra.Ports.FirstInputs

open Orkhestra.Verified.Checked
open Orkhestra.Verified.Loop
open Orkhestra.Verified.VectorMap
open Orkhestra.Ports.QuerySchedulingData
open Orkhestra.Ports.NodeScheduler
open Orkhestra.Ports.SchedulePartition
open Orkhestra.Ports.ScheduleLinks

/-! ## One output -/

/-- `a` feeds `n` outside of the run, and `m` is what the search finds. -/
structure Leaves (nodes : List NodeId) (h : Heap) (a n : NodeId) (m : Nat) :
    Prop where
  feeds : Feeds h a n
  outside : n ∉ nodes
  location : findPreviousNodeLocation (h n).previousNodes a = .ok m

/-- The target that a link to input `m` of `n` has. -/
def targetOf (h : Heap) (n : NodeId) (m : Nat) : List (String × Nat) :=
  [((h n).nodeName, m)]

/-- What a step of the loop over the outputs of `a` can do. -/
structure OutputEffect (nodes : List NodeId) (a : NodeId)
    (s s' : Heap × TargetMaps) : Prop where
  feeds : ∀ b n, Feeds s'.1 b n → Feeds s.1 b n
  files : ∀ n (m : Nat), (s'.1 n).inputDataDefinitionFiles[m]? =
      (s.1 n).inputDataDefinitionFiles[m]? ∨ Leaves nodes s.1 a n m
  targets : ∀ (k : Nat) l, s'.2[k]? = some l → s.2[k]? = some l ∨
    ∃ n m, Leaves nodes s.1 a n m ∧ l = targetOf s.1 n m

section Output

variable {nodes : List NodeId} {a : NodeId} {s s' : Heap × TargetMaps} {k : Nat}

theorem feeds_of_set_none {h : Heap} {b n : NodeId}
    (hmem : some n ∈ (h b).nextNodes.set k none) : Feeds h b n := by
  obtain ⟨i, hi⟩ := List.mem_iff_getElem?.mp hmem
  rw [List.getElem?_set] at hi
  split at hi
  · split at hi <;> cases hi
  · exact List.mem_of_getElem? hi

theorem OutputEffect.file (ha : a ∈ nodes) {n : NodeId} {m : Nat} {f : String}
    (hl : Leaves nodes s.1 a n m) :
    OutputEffect nodes a s
      ((s.1.modify n fun node =>
        { node with
          inputDataDefinitionFiles :=
            (s.1 n).inputDataDefinitionFiles.set m f }).modify a fun node =>
        { node with nextNodes := (s.1 a).nextNodes.set k none }, s.2) := by
  have hne : n ≠ a := fun heq => hl.outside (heq ▸ ha)
  refine ⟨?_, ?_, fun k' l hk => .inl hk⟩
  · intro b n' hfeeds
    by_cases hb : b = a
    · subst hb
      simp only [Feeds, Heap.modify_same] at hfeeds
      exact feeds_of_set_none hfeeds
    · by_cases hbn : b = n
      · subst hbn
        simpa [Feeds, hb] using hfeeds
      · simpa [Feeds, hb, hbn] using hfeeds
  · intro n' m'
    by_cases hna : n' = a
    · subst hna
      simp [Heap.modify_of_ne _ hne.symm]
    · by_cases hnn : n' = n
      · subst hnn
        simp only [Heap.modify_of_ne _ hna, Heap.modify_same,
          List.getElem?_set]
        by_cases hm : m = m'
        · exact .inr (hm ▸ hl)
        · simp [hm]
      · simp [hna, hnn]

theorem OutputStep.effect (ha : a ∈ nodes) (h : OutputStep nodes a s k s') :
    OutputEffect nodes a s s' := by
  cases h with
  | kept f hnone hf hne =>
      exact ⟨fun _ _ h => h, fun _ _ => .inl rfl, fun _ _ h => .inl h⟩
  | named hnone hempty =>
      refine ⟨?_, ?_, fun _ _ h => .inl h⟩
      · intro b n hfeeds
        by_cases hb : b = a
        · subst hb
          simpa [Feeds] using hfeeds
        · simpa [Feeds, hb] using hfeeds
      · intro n m
        by_cases hn : n = a
        · subst hn
          simp
        · simp [hn]
  | within n hn hin =>
      exact ⟨fun _ _ h => h, fun _ _ => .inl rfl, fun _ _ h => .inl h⟩
  | linked n m hn hout hm hempty =>
      refine ⟨fun _ _ h => h, fun _ _ => .inl rfl, ?_⟩
      intro k' l hl
      rcases getElem?_insertIfNew_cases hl with hold | ⟨-, rfl⟩
      · exact .inl hold
      · exact .inr ⟨n, m, ⟨List.mem_of_getElem? hn, hout, hm⟩, rfl⟩
  | filed n m f hn hout hm hf hne hlt =>
      exact .file ha ⟨List.mem_of_getElem? hn, hout, hm⟩

end Output

/-! ## The nodes of one run -/

/-- Some outputs of `a` have been linked; `h` is the heap that the run has
started with. -/
structure OutputsLeadOutside (nodes : List NodeId) (h : Heap) (a : NodeId)
    (s : Heap × TargetMaps) : Prop where
  linksOnly : LinksOnly nodes h s.1
  feeds : ∀ b n, Feeds s.1 b n → Feeds h b n
  files : ∀ n (m : Nat), (s.1 n).inputDataDefinitionFiles[m]? =
      (h n).inputDataDefinitionFiles[m]? ∨ ∃ a ∈ nodes, Leaves nodes h a n m
  targets : ∀ (k : Nat) l, s.2[k]? = some l →
    ∃ n m, Leaves nodes h a n m ∧ l = targetOf h n m

/-- Some nodes of a run have been linked; `h` and `links` are what the run has
started with. -/
structure LeadsOutside (nodes : List NodeId) (h : Heap) (links : LinkedNodes)
    (s : Heap × LinkedNodes) : Prop where
  linksOnly : LinksOnly nodes h s.1
  feeds : ∀ b n, Feeds s.1 b n → Feeds h b n
  files : ∀ n (m : Nat), (s.1 n).inputDataDefinitionFiles[m]? =
      (h n).inputDataDefinitionFiles[m]? ∨ ∃ a ∈ nodes, Leaves nodes h a n m
  targets : ∀ (name : String) targets, s.2[name]? = some targets →
    links[name]? = some targets ∨ ∃ a ∈ nodes, (h a).nodeName = name ∧
      ∀ (k : Nat) l, targets[k]? = some l →
        ∃ n m, Leaves nodes h a n m ∧ l = targetOf h n m

section Run

variable {nodes : List NodeId} {h : Heap} {links : LinkedNodes}
  {s s' : Heap × LinkedNodes} {a n : NodeId} {m : Nat}

/-- Edges that leave the run are as they were when it has started. -/
theorem Leaves.of_linksOnly {h' : Heap} (hlinks : LinksOnly nodes h h')
    (hfeeds : ∀ b n, Feeds h' b n → Feeds h b n) (hl : Leaves nodes h' a n m) :
    Leaves nodes h a n m ∧ targetOf h' n m = targetOf h n m := by
  obtain ⟨hfed, hout, hm⟩ := hl
  rw [hlinks.others n hout] at hm
  refine ⟨⟨hfeeds a n hfed, hout, hm⟩, ?_⟩
  rw [targetOf, targetOf, hlinks.others n hout]

/-- One more output. -/
theorem OutputsLeadOutside.step {t t' : Heap × TargetMaps} {k : Nat}
    (ht : OutputsLeadOutside nodes h a t) (ha : a ∈ nodes)
    (hrun : checkNextNode nodes a t k = .ok t') :
    OutputsLeadOutside nodes h a t' := by
  have heffect := OutputStep.effect ha (checkNextNode_cases ha hrun)
  have hleaves : ∀ {n m}, Leaves nodes t.1 a n m →
      Leaves nodes h a n m ∧ targetOf t.1 n m = targetOf h n m :=
    fun hl => hl.of_linksOnly ht.linksOnly ht.feeds
  refine ⟨ht.linksOnly.trans (.checkNextNode ha hrun), ?_, ?_, ?_⟩
  · intro b n hfed
    exact ht.feeds b n (heffect.feeds b n hfed)
  · intro n m
    rcases heffect.files n m with heq | hl
    · rw [heq]
      exact ht.files n m
    · exact .inr ⟨a, ha, (hleaves hl).1⟩
  · intro k l hk
    rcases heffect.targets k l hk with hold | ⟨n, m, hl, rfl⟩
    · exact ht.targets k l hold
    · exact ⟨n, m, hleaves hl⟩

/-- One more node. -/
theorem LeadsOutside.step (hs : LeadsOutside nodes h links s) (ha : a ∈ nodes)
    (hrun : checkExternalLinksOf nodes s a = .ok s') :
    LeadsOutside nodes h links s' := by
  simp only [checkExternalLinksOf, bind_eq_ok, Except.ok.injEq] at hrun
  obtain ⟨t, hnext, rfl⟩ := hrun
  have ht : OutputsLeadOutside nodes h a t :=
    foldlM_invariant (fun _ t => OutputsLeadOutside nodes h a t) _
      ⟨hs.linksOnly, hs.feeds, hs.files, by simp⟩
      (fun _ _ _ _ _ _ ht hbody => ht.step ha hbody) hnext
  have hname : ((t.1.modify a (clearPreviousNodes nodes)) a).nodeName =
      (h a).nodeName := by
    rw [Heap.modify_same, clearPreviousNodes, ht.linksOnly.scheduled a]
  refine ⟨ht.linksOnly.trans (.clearPreviousNodes ha), ?_, ?_, ?_⟩
  · intro b n hfed
    refine ht.feeds b n ?_
    by_cases hb : b = a
    · subst hb
      simpa [Feeds, clearPreviousNodes] using hfed
    · simpa [Feeds, hb] using hfed
  · intro n m
    by_cases hn : n = a
    · subst hn
      simpa [clearPreviousNodes] using ht.files n m
    · simpa [hn] using ht.files n m
  · intro name targets hget
    dsimp only at hget
    split at hget
    · exact hs.targets name targets hget
    · rw [hname] at hget
      rcases getElem?_insertIfNew_cases hget with hold | ⟨rfl, rfl⟩
      · exact hs.targets name targets hold
      · exact .inr ⟨a, ha, rfl, ht.targets⟩

theorem leadsOutside_of_run
    (hrun : checkExternalLinks h nodes links = .ok s) :
    LeadsOutside nodes h links s := by
  refine foldlM_invariant (fun _ s => LeadsOutside nodes h links s) nodes
    ⟨.refl nodes h, fun _ _ hfed => hfed, fun _ _ => .inl rfl,
      fun _ _ hget => .inl hget⟩ ?_ hrun
  intro before a after s s' hsplit hs hbody
  exact hs.step (by simp [hsplit]) hbody

end Run

/-! ## All runs -/

/-- `m` is the first input of `n` that `a` feeds. -/
def FirstInput (P : Plan) (a n : NodeId) (m : Nat) : Prop :=
  P.Edge a n ∧ findPreviousNodeLocation (P.heap n).previousNodes a = .ok m

/-- Links and files of `o` lead to first inputs. -/
structure LeadsToFirst (P : Plan) (o : RunsState) : Prop where
  files : ∀ n (m : Nat), (o.heap n).inputDataDefinitionFiles[m]? =
      (P.heap n).inputDataDefinitionFiles[m]? ∨ ∃ a, FirstInput P a n m
  targets : ∀ (name : String) targets, o.linkedNodes[name]? = some targets →
    ∃ a ∈ P.nodes, (P.heap a).nodeName = name ∧
      ∀ (k : Nat) l, targets[k]? = some l →
        ∃ n m, FirstInput P a n m ∧ l = targetOf P.heap n m

section Plan

variable {P : Plan} {lib : AcceleratorLibrary} {fuel : Nat} {o o' : RunsState}

/-- The edges that leave a run are edges of the plan. -/
theorem Leaves.firstInput {start : Heap} {earlier : List NodeId}
    {s : SchedulerState} (hs : Growing P lib start earlier s)
    (hearlier : Ordered P earlier) {a n : NodeId} {m : Nat}
    (ha : a ∈ s.currentQueryNodes)
    (hl : Leaves s.currentQueryNodes s.heap a n m) :
    FirstInput P a n m ∧ targetOf s.heap n m = targetOf P.heap n m := by
  have hfeeds := hl.feeds
  rw [Feeds, hs.next_of_mem ha] at hfeeds
  have hedge : P.Edge a n := ⟨(hs.not_earlier ha).2, hfeeds⟩
  have hm := hl.location
  rw [hs.tracks.previousNodes n
    (hs.consumer_not_earlier hearlier ha hedge)] at hm
  refine ⟨⟨hedge, hm⟩, ?_⟩
  rw [targetOf, targetOf, hs.tracks.nodeName]

theorem LeadsToFirst.step (hs : LeadsToFirst P o) (ho : Scheduled P lib o)
    (hstep : findNextRun lib fuel o = .ok (.again o')) : LeadsToFirst P o' := by
  obtain ⟨s, -, hgrown, -, hlinks, -⟩ := ho.run_of_step hstep
  have hordered := ho.frontier.ordered
  have hr := leadsOutside_of_run hlinks
  constructor
  · intro n m
    rcases hr.files n m with heq | ⟨a, ha, hl⟩
    · rw [heq, hgrown.located n]
      exact hs.files n m
    · exact .inr ⟨a, (hl.firstInput hgrown hordered ha).1⟩
  · intro name targets hget
    rcases hr.targets name targets hget with hold | ⟨a, ha, heq, hall⟩
    · exact hs.targets name targets hold
    · refine ⟨a, (hgrown.not_earlier ha).2, ?_, ?_⟩
      · rw [← hgrown.tracks.nodeName]
        exact heq
      · intro k l hk
        obtain ⟨n, m, hl, rfl⟩ := hall k l hk
        obtain ⟨hfirst, htarget⟩ := hl.firstInput hgrown hordered ha
        exact ⟨n, m, hfirst, htarget⟩

/-- Whatever the plan, links and files lead to first inputs. -/
theorem leadsToFirst_of_run
    (hrun : findAcceleratedQueryNodeSets lib fuel P.heap P.roots ∅ = .ok o) :
    LeadsToFirst P o := by
  refine iterate_invariant
    (fun o => Scheduled P lib o ∧ LeadsToFirst P o) (LeadsToFirst P) ?_ ?_
    ⟨Scheduled.initial P lib ∅, ?_⟩ hrun
  · intro o o' ho hbody
    exact ⟨(ho.1.step hbody).1, ho.2.step ho.1 hbody⟩
  · intro o o' ho hbody
    obtain ⟨-, rfl⟩ := findNextRun_done hbody
    exact ho.2
  · exact ⟨fun _ _ => .inl rfl, by simp [RunsState.initial]⟩

end Plan

end Orkhestra.Ports.FirstInputs
