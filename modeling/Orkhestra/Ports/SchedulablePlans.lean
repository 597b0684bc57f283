import Orkhestra.Ports.GreedyRuns
import Orkhestra.Ports.MinimumPosition
import Orkhestra.Ports.ScheduleLinks

/-!
# Plans that are scheduled

`FindAcceleratedQueryNodeSets` gives up on a run that has no node.  An empty
vector of modules stands for a failed search, but it is also the vector of a run
of pass-throughs, so a run can only begin with a node that needs a module: a
plan whose roots are all passed through is not scheduled.  A run that has a
module absorbs every pass-through that is ready, so later runs do not meet the
same end.

Apart from that a plan is scheduled when everything that is read of its nodes
is there.
-/

namespace Orkhestra.Ports.SchedulablePlans

open Orkhestra.Verified.Checked
open Orkhestra.Verified.Loop
open Orkhestra.Verified.Choices
open Orkhestra.Ports.QuerySchedulingData
open Orkhestra.Ports.NodeScheduler
open Orkhestra.Ports.SchedulePartition
open Orkhestra.Ports.GreedyRuns
open Orkhestra.Ports.ModuleSearch
open Orkhestra.Ports.MinimumPosition
open Orkhestra.Ports.ScheduleLinks

/-! ## Calls that return -/

/-- Every operation type of the plan that needs a module has an entry in the
module library and an accelerator of a single module. -/
def SinglesSupported (P : Plan) (lib : AcceleratorLibrary) : Prop :=
  ∀ n ∈ P.nodes, (P.heap n).operationType ≠ .kPassThrough →
    lib.existingModulesLibrary.lookup (P.heap n).operationType ≠ none ∧
    ∃ params, isModuleSetSupported [⟨(P.heap n).operationType, params⟩] lib =
      true

section Calls

variable {P : Plan} {lib : AcceleratorLibrary} {start : Heap}
  {earlier : List NodeId} {s : SchedulerState}

theorem body_returns_iff (hlib : SinglesSupported P lib)
    (hs : Growing P lib start earlier s)
    (hindex : s.previousNodeIndex < s.startingNodes.length) :
    (∃ next, checkNodeForModuleSetBody lib s = .ok next) ↔ EntriesThere s := by
  obtain ⟨n, hn⟩ : ∃ n, s.startingNodes[s.previousNodeIndex]? = some n :=
    ⟨_, List.getElem?_eq_getElem hindex⟩
  have hread : readAt s.startingNodes s.previousNodeIndex = .ok n :=
    readAt_eq_ok.mpr hn
  have htype := hs.tracks.operationType n
  have hbody : (∃ next, checkNodeForModuleSetBody lib s = .ok next) ↔
      ∃ found, findSuitableModuleCombination s.heap n
        (createReferenceVector s.heap s.currentQueryNodes)
        s.currentModulesVector lib = .ok found := by
    rw [checkNodeForModuleSetBody, hread, ok_bind]
    cases findSuitableModuleCombination s.heap n
        (createReferenceVector s.heap s.currentQueryNodes)
        s.currentModulesVector lib with
    | error e => simp
    | ok found =>
        refine iff_of_true ?_ ⟨found, rfl⟩
        simp only [ok_bind]
        split <;> exact ⟨_, rfl⟩
  have hcond : EntriesThere s ↔ ((s.heap n).operationType ≠ .kPassThrough →
      LooksUp s.heap n (createReferenceVector s.heap s.currentQueryNodes)) := by
    simp [EntriesThere, hn]
  have hsearch := findMinPosition_returns_iff (n := n)
    fun a ha => moduleIndex_ne_none hs ha
  rw [hbody, hcond, ← hsearch]
  by_cases hop : (s.heap n).operationType = .kPassThrough
  · rw [findSuitableModuleCombination, if_pos hop]
    exact iff_of_true ⟨_, rfl⟩ fun hne => absurd hop hne
  · rw [findSuitableModuleCombination, if_neg hop]
    cases hmin : findMinPosition s.heap n
        (createReferenceVector s.heap s.currentQueryNodes)
        s.currentModulesVector with
    | error e => simp [hop]
    | ok position =>
        refine iff_of_true ?_ fun _ => ⟨position, rfl⟩
        cases position with
        | none => exact ⟨_, rfl⟩
        | some lowest =>
            obtain ⟨hentry, -⟩ := hlib n (hs.current hn).1 (by rwa [← htype])
            obtain ⟨options, hoptions⟩ := Option.ne_none_iff_exists'.mp hentry
            have hle := findMinPosition_le hmin
            obtain ⟨found, hfound⟩ := findModulePosition_total hop lib options
              (show lowest + (s.currentModulesVector.length + 1 - lowest) ≤
                s.currentModulesVector.length + 1 by omega)
            rw [← htype] at hoptions
            simp only [ok_bind, hoptions, hfound]
            cases found with
            | none => exact ⟨_, rfl⟩
            | some found => exact ⟨_, rfl⟩

/-- All calls of a run stay within the starting nodes. -/
theorem index_lt_of_visited (hs : Growing P lib start earlier s)
    (hindex : s.previousNodeIndex < s.startingNodes.length) {fuel : Nat} :
    ∀ t ∈ visited (checkNodeForModuleSetBody lib) fuel s,
      Growing P lib start earlier t ∧
        t.previousNodeIndex < t.startingNodes.length := by
  refine visited_invariant _ ?_ ⟨hs, hindex⟩
  rintro t t' ⟨ht, hlt⟩ hbody
  obtain ⟨hstep, hne, hlast⟩ := body_again hbody
  refine ⟨ht.step hstep, ?_⟩
  cases hstep with
  | skip n hn _ =>
      dsimp only at hlast ⊢
      omega
  | place n heap modules hn _ _ => exact List.length_pos_of_ne_nil hne

/-- A run returns exactly when what its calls read is there. -/
theorem run_returns_iff (hlib : SinglesSupported P lib)
    (hs : Growing P lib start earlier s)
    (hindex : s.previousNodeIndex < s.startingNodes.length) {fuel : Nat}
    (hfuel : (P.nodes.length + 1) * (P.nodes.length + 1) ≤ fuel) :
    (∃ s', checkNodeForModuleSet lib fuel s = .ok s') ↔
      ∀ t ∈ visited (checkNodeForModuleSetBody lib) fuel s, EntriesThere t := by
  rw [checkNodeForModuleSet, iterate_returns_iff (Growing P lib start earlier)
    (runMeasure P) _ hs (Nat.lt_of_lt_of_le (runMeasure_le P s) hfuel)]
  · refine forall₂_congr fun t ht => ?_
    obtain ⟨hgrowing, hlt⟩ := index_lt_of_visited hs hindex t ht
    exact body_returns_iff hlib hgrowing hlt
  · intro t t' ht hbody
    have hstep := (body_again hbody).1
    exact ⟨ht.step hstep, ht.measure_lt hstep⟩

end Calls

/-! ## The first node of a run -/

/-- A run can begin with a module of type `t`: the module library lists the
parameters of an accelerator that consists of it alone. -/
def CanStart (lib : AcceleratorLibrary) (t : QueryOperationType) : Prop :=
  t ≠ .kPassThrough ∧ ∃ options params,
    lib.existingModulesLibrary.lookup t = some options ∧
      params ∈ parameterVectors options ∧
      isModuleSetSupported [⟨t, params⟩] lib = true

section Start

variable {P : Plan} {lib : AcceleratorLibrary} {start : Heap}
  {earlier : List NodeId} {s s' : SchedulerState}

theorem findMinPosition_nil (h : Heap) (n : NodeId)
    (modules : ConfigurableModulesVector) :
    findMinPosition h n [] modules = .ok (some 0) := by
  suffices key : ∀ pointers i,
      findMinPositionFrom h n [] modules i pointers 0 = .ok (some 0) from
    key _ 0
  intro pointers
  induction pointers with
  | nil => exact fun i => rfl
  | cons pointer rest ih =>
      intro i
      rw [findMinPositionFrom_skip fun b _ hb => absurd hb.1 List.not_mem_nil]
      exact ih (i + 1)

theorem canStart_of_check {t : QueryOperationType} (ht : t ≠ .kPassThrough)
    {options : List (List Int)}
    (hoptions : lib.existingModulesLibrary.lookup t = some options) :
    checkModulePosition lib t [] options 0 = .ok [] ↔ ¬CanStart lib t := by
  rw [checkModulePosition_eq ht (Nat.le_refl 0), Except.ok.injEq,
    firstSupported_eq_nil]
  constructor
  · rintro hnone ⟨-, options', params, hoptions', hparams, hsupported⟩
    rw [hoptions, Option.some.injEq] at hoptions'
    subst hoptions'
    have hfalse := hnone params hparams
    rw [accepts, insertModule, List.take_nil, List.drop_nil, List.nil_append,
      hsupported] at hfalse
    cases hfalse
  · intro hnot params hparams
    rw [Bool.eq_false_iff]
    exact fun haccept => hnot ⟨ht, options, params, hoptions, hparams, haccept⟩

/-- The starting nodes are those of the beginning for as long as the run is
empty, and one of them can start a run otherwise. -/
structure Begun (lib : AcceleratorLibrary) (P : Plan) (starting : List NodeId)
    (s : SchedulerState) : Prop where
  waiting : s.currentQueryNodes = [] → s.startingNodes = starting
  started : s.currentQueryNodes ≠ [] →
    ∃ n ∈ starting, CanStart lib (P.heap n).operationType

theorem Begun.step {starting : List NodeId} (h : Begun lib P starting s)
    (hs : Growing P lib start earlier s) (hstep : NodeStep lib s s') :
    Begun lib P starting s' := by
  cases hstep with
  | skip n hn hsuitable => exact ⟨h.waiting, h.started⟩
  | place n heap modules hn hne hsuitable =>
      refine ⟨fun hnil => absurd hnil (by simp [SchedulerState.place]), ?_⟩
      intro _
      by_cases hempty : s.currentQueryNodes = []
      · have hmodules : s.currentModulesVector = [] := by
          have hperm := hs.types
          rw [hempty] at hperm
          exact List.map_eq_nil_iff.mp (List.perm_nil.mp hperm)
        have hmem : n ∈ starting := by
          rw [← h.waiting hempty]
          exact List.mem_of_getElem? hn
        refine ⟨n, hmem, ?_⟩
        rw [← hs.tracks.operationType]
        rw [hmodules] at hsuitable
        cases hsuitable with
        | passed _ => exact absurd rfl hne
        | notPlaced _ _ => exact absurd rfl hne
        | placed p q options params hop _ hoptions _ hq _ hcheck _ =>
            rw [List.length_nil, Nat.le_zero] at hq
            subst hq
            by_contra hnot
            rw [(canStart_of_check hop hoptions).mpr hnot,
              Except.ok.injEq] at hcheck
            exact insertModule_ne_nil _ _ _ hcheck.symm
      · exact h.started hempty

/-- A run has a node exactly when it can begin with one of the starting
nodes. -/
theorem run_nonempty_iff (hs : Growing P lib start earlier s)
    (hempty : s.currentQueryNodes = []) (hzero : s.previousNodeIndex = 0)
    {fuel : Nat} (hrun : checkNodeForModuleSet lib fuel s = .ok s') :
    s'.currentQueryNodes ≠ [] ↔
      ∃ n ∈ s.startingNodes, CanStart lib (P.heap n).operationType := by
  have hbegun : Begun lib P s.startingNodes s' := by
    refine iterate_invariant
      (fun t => Growing P lib start earlier t ∧ Begun lib P s.startingNodes t)
      (Begun lib P s.startingNodes) ?_ ?_
      ⟨hs, fun _ => rfl, fun hne => absurd hempty hne⟩ hrun
    · rintro t t' ⟨ht, hb⟩ hbody
      have hstep := (body_again hbody).1
      exact ⟨ht.step hstep, hb.step ht hstep⟩
    · rintro t t' ⟨ht, hb⟩ hbody
      rcases body_done hbody with ⟨n, -, -, rfl⟩ | ⟨hstep, -⟩
      · exact hb
      · exact hb.step ht hstep
  refine ⟨hbegun.started, ?_⟩
  rintro ⟨n, hn, hstart⟩ hnil
  -- Nothing has been placed, so `n` is still there and has been rejected.
  have hgrown := hs.run hrun
  rw [← hbegun.waiting hnil] at hn
  have hjoin := findSuitableModuleCombination_cases
    (cannotJoin_of_run hzero hrun n hn)
  have hmodules : s'.currentModulesVector = [] := by
    have hperm := hgrown.types
    rw [hnil] at hperm
    exact List.map_eq_nil_iff.mp (List.perm_nil.mp hperm)
  rw [hnil, hmodules] at hjoin
  obtain ⟨hop, options, params, hoptions, hparams⟩ := hstart
  rw [← hgrown.tracks.operationType] at hop hoptions hparams
  have hnone := hjoin.not_supported rfl hop (findMinPosition_nil _ _ _) hoptions
    (Nat.le_refl 0) (Nat.le_refl 0)
  exact (canStart_of_check hop hoptions).mp hnone
    ⟨hop, options, params, hoptions, hparams⟩

end Start

/-! ## The files of the edges that leave a run -/

/-- The file entries that are read for output `k` of `a` exist: its own one if
the output leaves the run or the plan, and that of the consumer if the output
has a file. -/
def FilesExist (nodes : List NodeId) (h : Heap) (a : NodeId) (k : Nat) : Prop :=
  ∀ pointer, (h a).nextNodes[k]? = some pointer →
    (∃ n ∈ nodes, pointer = some n) ∨
    ∃ file, (h a).outputDataDefinitionFiles[k]? = some file ∧
      ∀ n m, pointer = some n → file ≠ "" →
        findPreviousNodeLocation (h n).previousNodes a = .ok m →
        m < (h n).inputDataDefinitionFiles.length

/-- Heaps that agree on all outputs but those that have been `changed`, on the
pointers of other runs and on the numbers of input files. -/
structure SameBut (nodes : List NodeId) (changed : NodeId → Nat → Prop)
    (h h' : Heap) : Prop where
  next : ∀ a k, ¬changed a k → (h' a).nextNodes[k]? = (h a).nextNodes[k]?
  file : ∀ a k, ¬changed a k → (h' a).outputDataDefinitionFiles[k]? =
    (h a).outputDataDefinitionFiles[k]?
  previous : ∀ n ∉ nodes, (h' n).previousNodes = (h n).previousNodes
  inputs : ∀ n, (h' n).inputDataDefinitionFiles.length =
    (h n).inputDataDefinitionFiles.length

section Files

variable {nodes : List NodeId} {changed changed' : NodeId → Nat → Prop}
  {h h' h'' : Heap} {a : NodeId} {k : Nat}

theorem SameBut.refl (nodes : List NodeId) (changed : NodeId → Nat → Prop)
    (h : Heap) : SameBut nodes changed h h :=
  ⟨fun _ _ _ => rfl, fun _ _ _ => rfl, fun _ _ => rfl, fun _ => rfl⟩

theorem SameBut.trans (h₁ : SameBut nodes changed h h')
    (h₂ : SameBut nodes changed h' h'') : SameBut nodes changed h h'' where
  next a k hk := (h₂.next a k hk).trans (h₁.next a k hk)
  file a k hk := (h₂.file a k hk).trans (h₁.file a k hk)
  previous n hn := (h₂.previous n hn).trans (h₁.previous n hn)
  inputs n := (h₂.inputs n).trans (h₁.inputs n)

theorem SameBut.mono (hs : SameBut nodes changed h h')
    (hle : ∀ a k, changed a k → changed' a k) : SameBut nodes changed' h h' where
  next a k hk := hs.next a k fun hc => hk (hle a k hc)
  file a k hk := hs.file a k fun hc => hk (hle a k hc)
  previous := hs.previous
  inputs := hs.inputs

theorem sameBut_modify {n : NodeId} {f : QueryNode → QueryNode}
    (hnext : ∀ j, ¬changed n j → (f (h n)).nextNodes[j]? = (h n).nextNodes[j]?)
    (hfile : ∀ j, ¬changed n j → (f (h n)).outputDataDefinitionFiles[j]? =
      (h n).outputDataDefinitionFiles[j]?)
    (hprevious : n ∉ nodes → (f (h n)).previousNodes = (h n).previousNodes)
    (hinputs : (f (h n)).inputDataDefinitionFiles.length =
      (h n).inputDataDefinitionFiles.length) :
    SameBut nodes changed h (h.modify n f) := by
  refine ⟨fun m j hj => ?_, fun m j hj => ?_, fun m hm => ?_, fun m => ?_⟩ <;>
    by_cases heq : m = n
  · subst heq
    rw [Heap.modify_same, hnext j hj]
  · rw [Heap.modify_of_ne h heq]
  · subst heq
    rw [Heap.modify_same, hfile j hj]
  · rw [Heap.modify_of_ne h heq]
  · subst heq
    rw [Heap.modify_same, hprevious hm]
  · rw [Heap.modify_of_ne h heq]
  · subst heq
    rw [Heap.modify_same, hinputs]
  · rw [Heap.modify_of_ne h heq]

/-- One output of a node of the run. -/
theorem sameBut_of_step {s s' : Heap × TargetMaps} (ha : a ∈ nodes)
    (hstep : OutputStep nodes a s k s') :
    SameBut nodes (fun b j => b = a ∧ j = k) s.1 s'.1 := by
  have hset : ∀ {α : Type} (xs : List α) (x : α) (j : Nat), ¬(a = a ∧ j = k) →
      (xs.set k x)[j]? = xs[j]? :=
    fun xs x j hj => List.getElem?_set_ne fun hkj => hj ⟨rfl, hkj.symm⟩
  cases hstep with
  | kept | within | linked => exact .refl _ _ _
  | named hnext hfile =>
      dsimp only
      refine sameBut_modify ?_ ?_ ?_ ?_
      · exact fun _ _ => rfl
      · exact hset _ _
      · exact fun _ => rfl
      · rfl
  | filed n m f hnext hout =>
      have han : a ≠ n := fun heq => hout (heq ▸ ha)
      have hinput : SameBut nodes (fun b j => b = a ∧ j = k) s.1
          (s.1.modify n fun node => { node with
            inputDataDefinitionFiles :=
              (s.1 n).inputDataDefinitionFiles.set m f }) := by
        refine sameBut_modify ?_ ?_ ?_ ?_
        · exact fun _ _ => rfl
        · exact fun _ _ => rfl
        · exact fun _ => rfl
        · exact List.length_set
      dsimp only
      refine hinput.trans (sameBut_modify ?_ ?_ ?_ ?_)
      · rw [Heap.modify_of_ne _ han]
        exact hset _ _
      · exact fun _ _ => rfl
      · exact fun hnot => absurd ha hnot
      · rfl

/-- An output is dealt with exactly when the files that are read for it
exist. -/
theorem checkNextNode_returns_iff {s : Heap × TargetMaps} (ha : a ∈ nodes)
    (hk : k < (s.1 a).nextNodes.length)
    (hconsumer : ∀ n ∉ nodes, (s.1 a).nextNodes[k]? = some (some n) →
      some a ∈ (s.1 n).previousNodes) :
    (∃ s', checkNextNode nodes a s k = .ok s') ↔ FilesExist nodes s.1 a k := by
  obtain ⟨pointer, hpointer⟩ : ∃ pointer, (s.1 a).nextNodes[k]? = some pointer :=
    ⟨_, List.getElem?_eq_getElem hk⟩
  constructor
  · rintro ⟨s', hrun⟩ pointer' hpointer'
    rw [hpointer, Option.some.injEq] at hpointer'
    subst hpointer'
    cases checkNextNode_cases ha hrun with
    | kept f hnext hf _ =>
        rw [hpointer, Option.some.injEq] at hnext
        exact .inr ⟨f, hf, fun n m hn => by rw [hnext] at hn; cases hn⟩
    | named hnext hf =>
        exact .inr ⟨"", hf, fun n m _ hne => absurd rfl hne⟩
    | within n hnext hn =>
        rw [hpointer, Option.some.injEq] at hnext
        exact .inl ⟨n, hn, hnext⟩
    | linked n m hnext _ _ hf =>
        exact .inr ⟨"", hf, fun n m _ hne => absurd rfl hne⟩
    | filed n m f hnext _ hm hf _ hlt =>
        rw [hpointer, Option.some.injEq] at hnext
        refine .inr ⟨f, hf, fun n' m' hn' _ hm' => ?_⟩
        rw [hnext, Option.some.injEq] at hn'
        subst hn'
        rw [hm, Except.ok.injEq] at hm'
        rwa [← hm']
  · intro hfiles
    have hread : readAt (s.1 a).nextNodes k = .ok pointer :=
      readAt_eq_ok.mpr hpointer
    rw [checkNextNode, hread, ok_bind]
    rcases hfiles pointer hpointer with ⟨n, hn, rfl⟩ | ⟨file, hfile, hinput⟩
    · simp [isNodeMissingFromTheVector, hn]
    · have hreadFile : readAt (s.1 a).outputDataDefinitionFiles k = .ok file :=
        readAt_eq_ok.mpr hfile
      have hlt := (List.getElem?_eq_some_iff.mp hfile).1
      cases pointer with
      | none =>
          simp only [hreadFile, ok_bind]
          split
          · rw [setOutputFile, writeAt, if_pos hlt]
            exact ⟨_, rfl⟩
          · exact ⟨_, rfl⟩
      | some n =>
          by_cases hn : n ∈ nodes
          · simp [isNodeMissingFromTheVector, hn]
          · obtain ⟨m, hm⟩ :=
              exists_findLocation (hconsumer n hn hpointer)
            have hmissing : isNodeMissingFromTheVector (some n) nodes = true := by
              simp [isNodeMissingFromTheVector, hn]
            have hlocation : findPreviousNodeLocation (s.1 n).previousNodes a =
                .ok m := hm
            simp only [hmissing, if_true, hlocation, hreadFile, ok_bind]
            by_cases hempty : file = ""
            · subst hempty
              exact ⟨_, rfl⟩
            · rw [if_neg (by simp [hempty]), if_neg hempty]
              have hinputs := hinput n m rfl hempty hlocation
              have hna : a ≠ n := fun heq => hn (heq ▸ ha)
              simp only [setInputFile, writeAt, if_pos hinputs, ok_bind,
                clearNextNode, Heap.modify_of_ne _ hna, if_pos hk]
              exact ⟨_, rfl⟩

theorem SameBut.symm (hs : SameBut nodes changed h h') :
    SameBut nodes changed h' h :=
  ⟨fun a k hk => (hs.next a k hk).symm, fun a k hk => (hs.file a k hk).symm,
    fun n hn => (hs.previous n hn).symm, fun n => (hs.inputs n).symm⟩

theorem SameBut.filesExist (hs : SameBut nodes changed h h')
    (hk : ¬changed a k) (hfiles : FilesExist nodes h a k) :
    FilesExist nodes h' a k := by
  intro pointer hpointer
  rw [hs.next a k hk] at hpointer
  rcases hfiles pointer hpointer with hin | ⟨file, hfile, hinput⟩
  · exact .inl hin
  · by_cases hin : ∃ n ∈ nodes, pointer = some n
    · exact .inl hin
    · refine .inr ⟨file, by rw [hs.file a k hk, hfile], ?_⟩
      intro n m hn hne hm
      have hout : n ∉ nodes := fun hmem => hin ⟨n, hmem, hn⟩
      rw [hs.previous n hout] at hm
      rw [hs.inputs]
      exact hinput n m hn hne hm

theorem SameBut.filesExist_iff (hs : SameBut nodes changed h h')
    (hk : ¬changed a k) :
    FilesExist nodes h' a k ↔ FilesExist nodes h a k :=
  ⟨hs.symm.filesExist hk, hs.filesExist hk⟩

/-- Outputs that have been dealt with: those of `before` and the first `t` of
`a`. -/
def Passed (before : List NodeId) (a : NodeId) (t : Nat) (b : NodeId)
    (j : Nat) : Prop :=
  b ∈ before ∨ b = a ∧ j < t

theorem SameBut.nextNodes_eq (hs : SameBut nodes changed h h')
    (ha : ∀ k, ¬changed a k) : (h' a).nextNodes = (h a).nextNodes :=
  List.ext_getElem? fun k => hs.next a k (ha k)

/-- One output of `a` behind the nodes `before`. -/
theorem SameBut.output {before : List NodeId} (ha : a ∈ nodes)
    {s s' : Heap × TargetMaps} (hs : SameBut nodes (Passed before a k) h s.1)
    (hrun : checkNextNode nodes a s k = .ok s') :
    SameBut nodes (Passed before a (k + 1)) h s'.1 := by
  have hstep := sameBut_of_step ha (checkNextNode_cases ha hrun)
  refine (hs.mono ?_).trans (hstep.mono ?_)
  · rintro b j (hb | ⟨rfl, hj⟩)
    · exact .inl hb
    · exact .inr ⟨rfl, by omega⟩
  · rintro b j ⟨rfl, rfl⟩
    exact .inr ⟨rfl, by omega⟩

/-- The outputs of one node. -/
theorem outputs_return_iff {before : List NodeId} (ha : a ∈ nodes)
    (hnew : a ∉ before) (hconsumer : ∀ n ∉ nodes, some n ∈ (h a).nextNodes →
      some a ∈ (h n).previousNodes)
    (hs : SameBut nodes (fun b _ => b ∈ before) h h') :
    (∃ r, (List.range (h' a).nextNodes.length).foldlM
        (checkNextNode nodes a) (h', (∅ : TargetMaps)) = .ok r) ↔
      ∀ k < (h a).nextNodes.length, FilesExist nodes h a k := by
  have hnext := hs.nextNodes_eq fun _ => hnew
  rw [foldlM_returns_iff
    (fun done s => SameBut nodes (Passed before a done.length) h s.1)
    (FilesExist nodes h a) _ (hs.mono fun _ _ hb => .inl hb), hnext]
  · simp
  · intro done k after s hsplit hk
    obtain ⟨rfl, hlt⟩ := eq_length_of_range_eq hsplit
    rw [hnext] at hlt
    have hpending : ¬Passed before a done.length a done.length := by
      rintro (hb | ⟨-, hlt⟩)
      · exact hnew hb
      · omega
    have hat := hk.next a done.length hpending
    rw [← hk.filesExist_iff hpending]
    refine checkNextNode_returns_iff ha ?_ fun n hn hpointer => ?_
    · rw [List.getElem?_eq_getElem hlt] at hat
      exact (List.getElem?_eq_some_iff.mp hat).1
    · rw [hk.previous n hn]
      rw [hat] at hpointer
      exact hconsumer n hn (List.mem_of_getElem? hpointer)
  · intro done k after s s' hsplit hk hrun
    obtain ⟨rfl, -⟩ := eq_length_of_range_eq hsplit
    rw [List.length_append, List.length_singleton]
    exact hk.output ha hrun

/-- One node of the run. -/
theorem SameBut.node {before : List NodeId} (ha : a ∈ nodes)
    {s s' : Heap × LinkedNodes}
    (hs : SameBut nodes (fun b _ => b ∈ before) h s.1)
    (hrun : checkExternalLinksOf nodes s a = .ok s') :
    SameBut nodes (fun b _ => b ∈ before ++ [a]) h s'.1 := by
  simp only [checkExternalLinksOf, bind_eq_ok, Except.ok.injEq] at hrun
  obtain ⟨⟨h₁, targets⟩, hnext, rfl⟩ := hrun
  have hall := forRange_invariant
    (fun t s => SameBut nodes (Passed before a t) h s.1) _
    (hs.mono fun _ _ hb => .inl hb)
    (fun _ _ _ _ hk hstep => hk.output ha hstep) hnext
  refine (hall.mono ?_).trans ?_
  · rintro b j (hb | ⟨rfl, -⟩) <;> simp [*]
  · refine sameBut_modify ?_ ?_ ?_ ?_
    · exact fun _ _ => rfl
    · exact fun _ _ => rfl
    · exact fun hnot => absurd ha hnot
    · rfl

/-- The edges of a run are dealt with exactly when the files that are read
exist. -/
theorem checkExternalLinks_returns_iff (hnodup : nodes.Nodup)
    (hconsumer : ∀ a ∈ nodes, ∀ n ∉ nodes, some n ∈ (h a).nextNodes →
      some a ∈ (h n).previousNodes) (links : LinkedNodes) :
    (∃ r, checkExternalLinks h nodes links = .ok r) ↔
      ∀ a ∈ nodes, ∀ k < (h a).nextNodes.length, FilesExist nodes h a k := by
  refine foldlM_returns_iff
    (fun before s => SameBut nodes (fun b _ => b ∈ before) h s.1)
    (fun a => ∀ k < (h a).nextNodes.length, FilesExist nodes h a k) nodes
    (SameBut.refl nodes _ h) ?_ ?_
  · intro before a after s hsplit hs
    have ha : a ∈ nodes := by simp [hsplit]
    have hnew : a ∉ before := by
      rw [hsplit] at hnodup
      exact fun hmem => (List.nodup_append.mp hnodup).2.2 a hmem a (by simp) rfl
    rw [← outputs_return_iff ha hnew (hconsumer a ha) hs, checkExternalLinksOf]
    constructor
    · rintro ⟨s', hrun⟩
      obtain ⟨r, hr, -⟩ := bind_eq_ok.mp hrun
      exact ⟨r, hr⟩
    · rintro ⟨r, hr⟩
      rw [hr]
      exact ⟨_, rfl⟩
  · intro before a after s s' hsplit hs hrun
    exact hs.node (by simp [hsplit]) hrun

end Files

/-! ## Schedules -/

/-- A step of the scheduler with the state before it: a run is begun, a node is
tried for it, or the edges that leave it are dealt with. -/
inductive SchedulingStep where
  | begin (startingNodes : List NodeId)
  | call (s : SchedulerState)
  | link (h : Heap) (nodes : List NodeId)

/-- The steps of the next run. -/
def runSteps (lib : AcceleratorLibrary) (fuel : Nat) (o : RunsState) :
    List SchedulingStep :=
  if o.startingNodes = [] then []
  else
    .begin o.startingNodes ::
      ((visited (checkNodeForModuleSetBody lib) fuel o.firstCall).map .call ++
        match checkNodeForModuleSet lib fuel o.firstCall with
        | .ok s => [.link s.heap s.currentQueryNodes]
        | .error _ => [])

/-- The steps of all runs, in the order in which they are made. -/
def schedulingSteps (lib : AcceleratorLibrary) (fuel : Nat) (o : RunsState) :
    List SchedulingStep :=
  (visited (findNextRun lib fuel) fuel o).flatMap (runSteps lib fuel)

/-- The condition on a step.  If a starting node needs a module, the parameters
of a single module are listed for one of them; the entries that are looked up for
a node are there; and so are those of the files of the edges that leave the
run. -/
def Possible (P : Plan) (lib : AcceleratorLibrary) : SchedulingStep → Prop
  | .begin startingNodes =>
      (∃ n ∈ startingNodes, (P.heap n).operationType ≠ .kPassThrough) →
      ∃ n ∈ startingNodes, CanStart lib (P.heap n).operationType
  | .call s => EntriesThere s
  | .link h nodes => ∀ a ∈ nodes, ∀ k < (h a).nextNodes.length,
      FilesExist nodes h a k

section Schedule

variable {P : Plan} {lib : AcceleratorLibrary} {fuel : Nat} {o o' : RunsState}

theorem Scheduled.edges_kept (ho : Scheduled P lib o) {s : SchedulerState}
    (hs : Growing P lib o.heap o.scheduledQueries s) {a n : NodeId}
    (ha : a ∈ s.currentQueryNodes) (hn : some n ∈ (s.heap a).nextNodes) :
    some a ∈ (s.heap n).previousNodes := by
  rw [hs.next_of_mem ha] at hn
  have hedge : P.Edge a n := ⟨(hs.not_earlier ha).2, hn⟩
  rw [hs.tracks.previousNodes n
    (hs.consumer_not_earlier ho.frontier.ordered ha hedge)]
  exact (Plan.edge_iff_previous hedge.right).mp hedge

theorem forall_runSteps (hmore : o.startingNodes ≠ []) :
    (∀ step ∈ runSteps lib fuel o, Possible P lib step) ↔
      Possible P lib (.begin o.startingNodes) ∧
      (∀ t ∈ visited (checkNodeForModuleSetBody lib) fuel o.firstCall,
        EntriesThere t) ∧
      ∀ s, checkNodeForModuleSet lib fuel o.firstCall = .ok s →
        Possible P lib (.link s.heap s.currentQueryNodes) := by
  rw [runSteps, if_neg hmore, List.forall_mem_cons, List.forall_mem_append,
    List.forall_mem_map]
  refine and_congr_right fun _ => and_congr Iff.rfl ?_
  cases checkNodeForModuleSet lib fuel o.firstCall with
  | ok s => simp
  | error e => simp

theorem findNextRun_returns_iff (hlib : SinglesSupported P lib)
    (ho : Scheduled P lib o) (hmore : o.startingNodes ≠ [])
    (hfuel : (P.nodes.length + 1) * (P.nodes.length + 1) ≤ fuel) :
    (∃ next, findNextRun lib fuel o = .ok next) ↔
      (∃ n ∈ o.startingNodes, (P.heap n).operationType ≠ .kPassThrough) ∧
        ∀ step ∈ runSteps lib fuel o, Possible P lib step := by
  have hfirst := ho.firstCall
  have hcalls := run_returns_iff hlib hfirst
    (List.length_pos_of_ne_nil hmore) hfuel
  -- The parts of an iteration, for a run that has been found.
  have hparts : ∀ s, checkNodeForModuleSet lib fuel o.firstCall = .ok s →
      ((∃ next, findNextRun lib fuel o = .ok next) ↔
        (∃ n ∈ o.startingNodes, CanStart lib (P.heap n).operationType) ∧
        ∀ a ∈ s.currentQueryNodes, ∀ k < (s.heap a).nextNodes.length,
          FilesExist s.currentQueryNodes s.heap a k) := by
    intro s hs
    have hgrown := hfirst.run hs
    have hnonempty : s.currentQueryNodes ≠ [] ↔
        ∃ n ∈ o.startingNodes, CanStart lib (P.heap n).operationType :=
      run_nonempty_iff hfirst rfl rfl hs
    have hnodup := hgrown.frontier.nodup
    rw [hgrown.scheduled] at hnodup
    have hlinks := checkExternalLinks_returns_iff
      (List.nodup_append.mp hnodup).2.1
      (fun a ha n _ hn => Scheduled.edges_kept ho hgrown ha hn) o.linkedNodes
    rw [findNextRun, if_neg hmore, hs, ok_bind, ← hnonempty, ← hlinks]
    split
    · next hnil => exact iff_of_false (by simp) fun h => h.1 hnil
    · next hne =>
        cases checkExternalLinks s.heap s.currentQueryNodes o.linkedNodes with
        | error e => simp
        | ok r => exact iff_of_true ⟨_, rfl⟩ ⟨hne, r, rfl⟩
  rw [forall_runSteps hmore]
  constructor
  · rintro ⟨next, hnext⟩
    have hrun : ∃ s, checkNodeForModuleSet lib fuel o.firstCall = .ok s := by
      rw [findNextRun, if_neg hmore] at hnext
      obtain ⟨s, hs, -⟩ := bind_eq_ok.mp hnext
      exact ⟨s, hs⟩
    obtain ⟨s, hs⟩ := hrun
    obtain ⟨hstart, hfiles⟩ := (hparts s hs).mp ⟨next, hnext⟩
    refine ⟨?_, fun _ => hstart, hcalls.mp ⟨s, hs⟩, ?_⟩
    · obtain ⟨n, hn, hop, -⟩ := hstart
      exact ⟨n, hn, hop⟩
    · intro s' hs'
      rw [hs, Except.ok.injEq] at hs'
      rwa [← hs']
  · rintro ⟨hmodule, hlisted, hreads, hfiles⟩
    obtain ⟨s, hs⟩ := hcalls.mpr hreads
    exact (hparts s hs).mpr ⟨hlisted hmodule, hfiles s hs⟩

/-- No pass-through is left over by a run. -/
theorem needs_module_of_step (ho : Scheduled P lib o)
    (hstep : findNextRun lib fuel o = .ok (.again o')) :
    ∀ n ∈ o'.startingNodes, (P.heap n).operationType ≠ .kPassThrough := by
  obtain ⟨s, hs, hgrown, hne, -, hstarting, -⟩ := ho.run_of_step hstep
  intro n hn hpass
  rw [hstarting] at hn
  have hjoin := cannotJoin_of_run rfl hs n hn
  rw [CannotJoin, findSuitableModuleCombination,
    if_pos ((hgrown.tracks.operationType n).trans hpass), Except.ok.injEq,
    Prod.mk.injEq] at hjoin
  rcases hgrown.supported with ⟨hmodules, -⟩ | ⟨hnil, -⟩
  · exact hmodules hjoin.2
  · exact hne hnil

/-- A plan is scheduled exactly when one of its roots needs a module, if it has
any, and what its steps read is there. -/
theorem plan_scheduled_iff (P : Plan) (lib : AcceleratorLibrary)
    (links : LinkedNodes) (fuel : Nat) (hlib : SinglesSupported P lib)
    (hfuel : (P.nodes.length + 1) * (P.nodes.length + 1) ≤ fuel) :
    (∃ o, findAcceleratedQueryNodeSets lib fuel P.heap P.roots links = .ok o) ↔
      (P.roots = [] ∨
        ∃ n ∈ P.roots, (P.heap n).operationType ≠ .kPassThrough) ∧
      ∀ step ∈ schedulingSteps lib fuel
          (RunsState.initial P.heap P.roots links), Possible P lib step := by
  let initial := RunsState.initial P.heap P.roots links
  have hvisited : ∀ o ∈ visited (findNextRun lib fuel) fuel initial,
      Scheduled P lib o ∧ (o.startingNodes = P.roots ∨
        ∀ n ∈ o.startingNodes, (P.heap n).operationType ≠ .kPassThrough) := by
    refine visited_invariant _ ?_ ⟨Scheduled.initial P lib links, .inl rfl⟩
    intro o o' ho hbody
    exact ⟨(ho.1.step hbody).1, .inr (needs_module_of_step ho.1 hbody)⟩
  have hmeasure : P.nodes.length - initial.scheduledQueries.length < fuel := by
    have : P.nodes.length + 1 ≤
        (P.nodes.length + 1) * (P.nodes.length + 1) := Nat.le_mul_self _
    omega
  rw [findAcceleratedQueryNodeSets, iterate_returns_iff (Scheduled P lib)
    (fun o => P.nodes.length - o.scheduledQueries.length) ?_
    (Scheduled.initial P lib links) hmeasure]
  · have hsteps : (∀ step ∈ schedulingSteps lib fuel initial,
        Possible P lib step) ↔
        ∀ o ∈ visited (findNextRun lib fuel) fuel initial,
          o.startingNodes ≠ [] →
          ∀ step ∈ runSteps lib fuel o, Possible P lib step := by
      simp only [schedulingSteps, List.mem_flatMap, forall_exists_index, and_imp]
      constructor
      · exact fun hall o ho _ step hstep => hall step o ho hstep
      · intro hall step o ho hstep
        refine hall o ho ?_ step hstep
        intro hnil
        rw [runSteps, if_pos hnil] at hstep
        exact absurd hstep List.not_mem_nil
    rw [hsteps]
    constructor
    · intro hreturns
      have hpossible : ∀ o ∈ visited (findNextRun lib fuel) fuel initial,
          o.startingNodes ≠ [] →
          (∃ n ∈ o.startingNodes, (P.heap n).operationType ≠ .kPassThrough) ∧
            ∀ step ∈ runSteps lib fuel o, Possible P lib step :=
        fun o ho hmore =>
          (findNextRun_returns_iff hlib (hvisited o ho).1 hmore hfuel).mp
            (hreturns o ho)
      refine ⟨?_, fun o ho hmore => (hpossible o ho hmore).2⟩
      by_cases hnil : P.roots = []
      · exact .inl hnil
      · exact .inr (hpossible initial (mem_visited_self (by omega)) hnil).1
    · rintro ⟨hroots, hpossible⟩ o ho
      by_cases hnil : o.startingNodes = []
      · exact ⟨.done o, by rw [findNextRun, if_pos hnil]⟩
      · refine (findNextRun_returns_iff hlib (hvisited o ho).1 hnil hfuel).mpr
          ⟨?_, hpossible o ho hnil⟩
        rcases (hvisited o ho).2 with hfirst | hlater
        · rw [hfirst] at hnil ⊢
          exact hroots.resolve_left hnil
        · obtain ⟨n, hn⟩ := List.exists_mem_of_ne_nil _ hnil
          exact ⟨n, hn, hlater n hn⟩
  · intro o o' ho hbody
    obtain ⟨ho', hlt⟩ := ho.step hbody
    have hle := ho'.frontier.length_le.1
    exact ⟨ho', by omega⟩

end Schedule

/-! ### A plan of one pass-through -/

def onlyPassThrough : List QueryNode :=
  [{ inputDataDefinitionFiles := ["a.csv"]
     outputDataDefinitionFiles := [""]
     operationType := .kPassThrough
     nextNodes := [none]
     previousNodes := [none]
     operationParameters := ⟨[[], [], [], []], [[], [], [], []], []⟩
     nodeName := "pass"
     isChecked := [false] }]

def onlyPassThroughPlan : Plan := .ofTable onlyPassThrough (by decide)

/-- Not every schedulable plan is scheduled. -/
theorem plans_not_always_scheduled :
    ¬∀ (P : Plan) (lib : AcceleratorLibrary) (links : LinkedNodes) (fuel : Nat),
      SinglesSupported P lib →
      (P.nodes.length + 1) * (P.nodes.length + 1) ≤ fuel →
      ∃ o, findAcceleratedQueryNodeSets lib fuel P.heap P.roots links =
        .ok o := by
  intro h
  have hpass : ∀ n ∈ onlyPassThroughPlan.nodes,
      (onlyPassThroughPlan.heap n).operationType = .kPassThrough := by decide
  have hlib : SinglesSupported onlyPassThroughPlan (libraryOf [[.kFilter]]) :=
    fun n hn hop => absurd (hpass n hn) hop
  obtain ⟨o, ho⟩ := h onlyPassThroughPlan (libraryOf [[.kFilter]]) ∅ 4 hlib
    (by decide)
  have hfails : findAcceleratedQueryNodeSets (libraryOf [[.kFilter]]) 4
      onlyPassThroughPlan.heap onlyPassThroughPlan.roots ∅ =
      .error (.runtimeError "Failed to schedule!") := by rfl
  rw [hfails] at ho
  cases ho

theorem plan_scheduled_filterThenFilter :
    (∃ o, findAcceleratedQueryNodeSets (libraryOf [[.kFilter]]) 16
        filterThenFilterPlan.heap filterThenFilterPlan.roots ∅ = .ok o) ∧
      ∀ step ∈ schedulingSteps (libraryOf [[.kFilter]]) 16
          (RunsState.initial filterThenFilterPlan.heap
            filterThenFilterPlan.roots ∅),
        Possible filterThenFilterPlan (libraryOf [[.kFilter]]) step := by
  have hfilter : ∀ n ∈ filterThenFilterPlan.nodes,
      (filterThenFilterPlan.heap n).operationType = .kFilter := by decide
  have hlib : SinglesSupported filterThenFilterPlan
      (libraryOf [[.kFilter]]) := by
    intro n hn _
    rw [hfilter n hn]
    exact ⟨by decide, [], by decide⟩
  obtain ⟨o, hrun, -⟩ := placements_eq_some (n := 2)
    (show placements 2 (findAcceleratedQueryNodeSets (libraryOf [[.kFilter]]) 16
        filterThenFilterPlan.heap filterThenFilterPlan.roots ∅) =
      some ([([⟨.kFilter, []⟩], [0]), ([⟨.kFilter, []⟩], [1])], [1, 1]) by
        decide +kernel)
  exact ⟨⟨o, hrun⟩, ((plan_scheduled_iff filterThenFilterPlan
    (libraryOf [[.kFilter]]) ∅ 16 hlib (by decide)).mp ⟨o, hrun⟩).2⟩

end Orkhestra.Ports.SchedulablePlans
