import Orkhestra.Ports.SchedulePartition
import Orkhestra.Verified.VectorMap

/-!
# Edges that leave a run

`CheckExternalLinks` replaces every edge that leaves a run by a memory link or
by a file, on a graph that earlier runs have already edited.

The effect is described at three levels: one output (`OutputStep`), the outputs
of one node (`OutputsLinked`), the nodes of one run (`RunLinked`); each is an
invariant over the part of the loop that is done, relative to the heap before
the loop.  `HandedOver` relates the heap after some runs to the plan.
-/

namespace Orkhestra.Ports.ScheduleLinks

open Orkhestra.Verified.Checked
open Orkhestra.Verified.Loop
open Orkhestra.Verified.VectorMap
open Orkhestra.Ports.QuerySchedulingData
open Orkhestra.Ports.NodeScheduler
open Orkhestra.Ports.SchedulePartition

/-! ## One output -/

/-- What is done for output `k` of `a`. -/
inductive OutputStep (nodes : List NodeId) (a : NodeId)
    (s : Heap × TargetMaps) (k : Nat) : Heap × TargetMaps → Prop where
  | kept (f : String) : (s.1 a).nextNodes[k]? = some none →
      (s.1 a).outputDataDefinitionFiles[k]? = some f → f ≠ "" →
      OutputStep nodes a s k s
  | named : (s.1 a).nextNodes[k]? = some none →
      (s.1 a).outputDataDefinitionFiles[k]? = some "" →
      OutputStep nodes a s k (s.1.modify a fun node =>
        { node with
          outputDataDefinitionFiles := (s.1 a).outputDataDefinitionFiles.set k
            (outputFilename (s.1 a) k) }, s.2)
  | within (n : NodeId) : (s.1 a).nextNodes[k]? = some (some n) → n ∈ nodes →
      OutputStep nodes a s k s
  | linked (n : NodeId) (m : Nat) : (s.1 a).nextNodes[k]? = some (some n) →
      n ∉ nodes →
      findPreviousNodeLocation (s.1 n).previousNodes a = .ok m →
      (s.1 a).outputDataDefinitionFiles[k]? = some "" →
      OutputStep nodes a s k (s.1, s.2.insertIfNew k [((s.1 n).nodeName, m)])
  | filed (n : NodeId) (m : Nat) (f : String) :
      (s.1 a).nextNodes[k]? = some (some n) → n ∉ nodes →
      findPreviousNodeLocation (s.1 n).previousNodes a = .ok m →
      (s.1 a).outputDataDefinitionFiles[k]? = some f → f ≠ "" →
      m < (s.1 n).inputDataDefinitionFiles.length →
      OutputStep nodes a s k
        ((s.1.modify n fun node =>
          { node with
            inputDataDefinitionFiles :=
              (s.1 n).inputDataDefinitionFiles.set m f }).modify a fun node =>
          { node with nextNodes := (s.1 a).nextNodes.set k none }, s.2)

section Output

variable {nodes : List NodeId} {a : NodeId} {s s' : Heap × TargetMaps} {k : Nat}

theorem checkNextNode_cases (ha : a ∈ nodes)
    (hrun : checkNextNode nodes a s k = .ok s') :
    OutputStep nodes a s k s' := by
  rw [checkNextNode, bind_eq_ok] at hrun
  obtain ⟨next, hnext, hrun⟩ := hrun
  rw [readAt_eq_ok] at hnext
  cases next with
  | none =>
      obtain ⟨f, hf, hrun⟩ := bind_eq_ok.mp hrun
      rw [readAt_eq_ok] at hf
      split at hrun
      · next hempty =>
          subst hempty
          simp only [setOutputFile, bind_eq_ok, writeAt_eq_ok,
            Except.ok.injEq] at hrun
          obtain ⟨h, ⟨files, ⟨-, rfl⟩, rfl⟩, rfl⟩ := hrun
          exact .named hnext hf
      · next hne =>
          cases hrun
          exact .kept f hnext hf hne
  | some n =>
      simp only [isNodeMissingFromTheVector, Bool.not_eq_eq_eq_not,
        Bool.not_true, List.contains_eq_mem, decide_eq_false_iff_not] at hrun
      split at hrun
      · next hout =>
          obtain ⟨m, hm, hrun⟩ := bind_eq_ok.mp hrun
          obtain ⟨f, hf, hrun⟩ := bind_eq_ok.mp hrun
          rw [readAt_eq_ok] at hf
          by_cases hempty : f = ""
          · subst hempty
            rw [if_pos (by simp [reuseMemory])] at hrun
            cases hrun
            exact .linked n m hnext hout hm hf
          · rw [if_neg (by simp [hempty]), if_neg hempty] at hrun
            have hne : a ≠ n := fun heq => hout (heq ▸ ha)
            simp only [setInputFile, clearNextNode, bind_eq_ok, writeAt_eq_ok,
              Except.ok.injEq] at hrun
            obtain ⟨h, ⟨files, ⟨hlt, rfl⟩, rfl⟩, h', ⟨next, ⟨-, rfl⟩, rfl⟩,
              rfl⟩ := hrun
            rw [Heap.modify_of_ne s.1 hne]
            exact .filed n m f hnext hout hm hf hempty hlt
      · next hin =>
          cases hrun
          exact .within n hnext (not_not.mp hin)

end Output

/-! ## The outputs of one node -/

/-- Output `k` of `a` is input `m` of a node outside of the run, and its file is
`f`. -/
structure Crossing (nodes : List NodeId) (h : Heap) (a : NodeId) (k : Nat)
    (n : NodeId) (m : Nat) (f : String) : Prop where
  next : (h a).nextNodes[k]? = some (some n)
  outside : n ∉ nodes
  location : findPreviousNodeLocation (h n).previousNodes a = .ok m
  file : (h a).outputDataDefinitionFiles[k]? = some f

/-- No node is fed twice by `a`. -/
def FeedsOnce (h : Heap) (a : NodeId) : Prop :=
  ∀ k k' n : Nat, (h a).nextNodes[k]? = some (some n) →
    (h a).nextNodes[k']? = some (some n) → k = k'

theorem Crossing.unique {nodes : List NodeId} {h : Heap} {a n n' : NodeId}
    {k m m' : Nat} {f f' : String} (hc : Crossing nodes h a k n m f)
    (hc' : Crossing nodes h a k n' m' f') : n = n' ∧ m = m' ∧ f = f' := by
  have hn := hc.next
  rw [hc'.next, Option.some.injEq, Option.some.injEq] at hn
  subst hn
  have hm := hc.location
  rw [hc'.location, Except.ok.injEq] at hm
  have hf := hc.file
  rw [hc'.file, Option.some.injEq] at hf
  exact ⟨rfl, hm.symm, hf.symm⟩

/-- An output with a consumer is not one that is given a name. -/
theorem Crossing.fed {nodes : List NodeId} {h : Heap} {a n : NodeId}
    {k m : Nat} {f : String} (hc : Crossing nodes h a k n m f)
    (hnone : (h a).nextNodes[k]? = some none) :
    (h a).outputDataDefinitionFiles[k]? ≠ some "" := by
  rw [hc.next] at hnone
  cases hnone

/-- The consumer of an output that crosses is the one that it crosses to. -/
theorem Crossing.of_next {nodes : List NodeId} {h : Heap} {a n n' : NodeId}
    {k m : Nat} {f : String} (hc : Crossing nodes h a k n m f)
    (hnext : (h a).nextNodes[k]? = some (some n')) :
    Crossing nodes h a k n' m f := by
  rw [hc.next, Option.some.injEq, Option.some.injEq] at hnext
  exact hnext ▸ hc

/-- The outputs of `a` before `t` are linked; `h` is the heap before the first
of them. -/
structure OutputsLinked (nodes : List NodeId) (a : NodeId) (h : Heap) (t : Nat)
    (s : Heap × TargetMaps) : Prop where
  others : ∀ n, n ≠ a → s.1 n = { h n with
    inputDataDefinitionFiles := (s.1 n).inputDataDefinitionFiles }
  own : s.1 a = { h a with
    outputDataDefinitionFiles := (s.1 a).outputDataDefinitionFiles
    nextNodes := (s.1 a).nextNodes }
  inside : ∀ n ∈ nodes,
    (s.1 n).inputDataDefinitionFiles = (h n).inputDataDefinitionFiles
  output : ∀ k, (s.1 a).outputDataDefinitionFiles[k]? =
    if k < t ∧ (h a).nextNodes[k]? = some none ∧
        (h a).outputDataDefinitionFiles[k]? = some "" then
      some (outputFilename (h a) k)
    else (h a).outputDataDefinitionFiles[k]?
  crosses : ∀ k < t, ∀ n, (h a).nextNodes[k]? = some (some n) → n ∉ nodes →
    ∃ m f, Crossing nodes h a k n m f
  cut : ∀ k < t, ∀ n m f, Crossing nodes h a k n m f → f ≠ "" →
    (s.1 a).nextNodes[k]? = some none
  uncut : ∀ k, (∀ n m f, k < t → Crossing nodes h a k n m f → f = "") →
    (s.1 a).nextNodes[k]? = (h a).nextNodes[k]?
  input : ∀ k < t, ∀ n m f, Crossing nodes h a k n m f → f ≠ "" →
    (s.1 n).inputDataDefinitionFiles[m]? = some f
  input_kept : ∀ n m, (∀ k f, k < t → Crossing nodes h a k n m f → f = "") →
    (s.1 n).inputDataDefinitionFiles[m]? = (h n).inputDataDefinitionFiles[m]?
  targets : ∀ k < t, ∀ n m, Crossing nodes h a k n m "" →
    s.2[k]? = some [((h n).nodeName, m)]
  targets_only : ∀ k l, s.2[k]? = some l → k < t ∧
    ∃ n m, Crossing nodes h a k n m "" ∧ l = [((h n).nodeName, m)]

section Outputs

variable {nodes : List NodeId} {a : NodeId} {h : Heap} {t : Nat}
  {s s' : Heap × TargetMaps}

theorem OutputsLinked.initial (nodes : List NodeId) (a : NodeId) (h : Heap) :
    OutputsLinked nodes a h 0 (h, ∅) := by
  constructor <;> simp

/-- Fields of consumers that the search and the names read. -/
theorem OutputsLinked.fields (hs : OutputsLinked nodes a h t s) (n : NodeId) :
    (s.1 n).previousNodes = (h n).previousNodes ∧
      (s.1 n).nodeName = (h n).nodeName := by
  by_cases hn : n = a
  · subst hn
    rw [hs.own]
    exact ⟨rfl, rfl⟩
  · rw [hs.others n hn]
    exact ⟨rfl, rfl⟩

theorem OutputsLinked.next_at (hs : OutputsLinked nodes a h t s) :
    (s.1 a).nextNodes[t]? = (h a).nextNodes[t]? :=
  hs.uncut t fun _ _ _ hlt => absurd hlt (Nat.lt_irrefl t)

theorem OutputsLinked.output_at (hs : OutputsLinked nodes a h t s) :
    (s.1 a).outputDataDefinitionFiles[t]? =
      (h a).outputDataDefinitionFiles[t]? := by
  rw [hs.output, if_neg]
  exact fun hlt => absurd hlt.1 (Nat.lt_irrefl t)

/-- The files of the outputs when output `t` is not named. -/
theorem OutputsLinked.output_succ (hs : OutputsLinked nodes a h t s)
    (hkept : (h a).nextNodes[t]? = some none →
      (h a).outputDataDefinitionFiles[t]? ≠ some "") (k : Nat) :
    (s.1 a).outputDataDefinitionFiles[k]? =
      if k < t + 1 ∧ (h a).nextNodes[k]? = some none ∧
          (h a).outputDataDefinitionFiles[k]? = some "" then
        some (outputFilename (h a) k)
      else (h a).outputDataDefinitionFiles[k]? := by
  rw [hs.output]
  by_cases hk : k = t
  · subst hk
    rw [if_neg (fun hlt => absurd hlt.1 (Nat.lt_irrefl _)),
      if_neg (fun hall => hkept hall.2.1 hall.2.2)]
  · simp only [show k < t + 1 ↔ k < t by omega]

/-- Output `t` crosses as well when it leaves the run. -/
theorem OutputsLinked.crosses_succ (hs : OutputsLinked nodes a h t s)
    (hnow : ∀ n, (h a).nextNodes[t]? = some (some n) → n ∉ nodes →
      ∃ m f, Crossing nodes h a t n m f) {k : Nat} (hk : k < t + 1) {n : NodeId}
    (hnext : (h a).nextNodes[k]? = some (some n)) (hout : n ∉ nodes) :
    ∃ m f, Crossing nodes h a k n m f := by
  rcases Nat.lt_succ_iff_lt_or_eq.mp hk with hlt | rfl
  · exact hs.crosses k hlt n hnext hout
  · exact hnow n hnext hout

/-- The targets when output `t` has none. -/
theorem OutputsLinked.targets_only_succ (hs : OutputsLinked nodes a h t s)
    {k : Nat} {l : List (String × Nat)} (hl : s.2[k]? = some l) :
    k < t + 1 ∧ ∃ n m, Crossing nodes h a k n m "" ∧
      l = [((h n).nodeName, m)] := by
  obtain ⟨hk, hrest⟩ := hs.targets_only k l hl
  exact ⟨Nat.lt_succ_of_lt hk, hrest⟩

/-- An output that needs no change. -/
theorem OutputsLinked.unchanged (hs : OutputsLinked nodes a h t s)
    (hno : ∀ n, (h a).nextNodes[t]? = some (some n) → n ∈ nodes)
    (hname : (h a).nextNodes[t]? = some none →
      (h a).outputDataDefinitionFiles[t]? ≠ some "") :
    OutputsLinked nodes a h (t + 1) s := by
  have hcross : ∀ {k n m f}, k < t + 1 → Crossing nodes h a k n m f →
      k < t := by
    intro k n m f hk hc
    rcases Nat.lt_succ_iff_lt_or_eq.mp hk with hlt | rfl
    · exact hlt
    · exact absurd (hno n hc.next) hc.outside
  refine ⟨hs.others, hs.own, hs.inside, hs.output_succ hname, ?_, ?_, ?_, ?_,
    ?_, ?_, ?_⟩
  · intro k hk n hnext hout
    exact hs.crosses_succ (fun n hn hout => absurd (hno n hn) hout) hk hnext
      hout
  · intro k hk n m f hc
    exact hs.cut k (hcross hk hc) n m f hc
  · intro k hall
    exact hs.uncut k fun n m f hk => hall n m f (Nat.lt_succ_of_lt hk)
  · intro k hk n m f hc
    exact hs.input k (hcross hk hc) n m f hc
  · intro n m hall
    exact hs.input_kept n m fun k f hk => hall k f (Nat.lt_succ_of_lt hk)
  · intro k hk n m hc
    exact hs.targets k (hcross hk hc) n m hc
  · intro k l hl
    exact hs.targets_only_succ hl

/-- An output without a consumer is given a name. -/
theorem OutputsLinked.name (hs : OutputsLinked nodes a h t s)
    (hnext : (h a).nextNodes[t]? = some none)
    (hfile : (h a).outputDataDefinitionFiles[t]? = some "") :
    OutputsLinked nodes a h (t + 1) (s.1.modify a fun node =>
      { node with
        outputDataDefinitionFiles := (s.1 a).outputDataDefinitionFiles.set t
          (outputFilename (s.1 a) t) }, s.2) := by
  have hcross : ∀ {k n m f}, k < t + 1 → Crossing nodes h a k n m f →
      k < t := by
    intro k n m f hk hc
    rcases Nat.lt_succ_iff_lt_or_eq.mp hk with hlt | rfl
    · exact hlt
    · have hsome := hc.next
      rw [hnext] at hsome
      cases hsome
  have hinput : ∀ n, (s.1.modify a (fun node =>
      { node with
        outputDataDefinitionFiles := (s.1 a).outputDataDefinitionFiles.set t
          (outputFilename (s.1 a) t) }) n).inputDataDefinitionFiles =
      (s.1 n).inputDataDefinitionFiles := by
    intro n
    by_cases hn : n = a
    · subst hn
      simp
    · simp [hn]
  refine ⟨?_, ?_, ?_, ?_, ?_, ?_, ?_, ?_, ?_, ?_, ?_⟩
  · intro n hn
    simp only [Heap.modify_of_ne s.1 hn]
    exact hs.others n hn
  · simp only [Heap.modify_same]
    rw [hs.own]
  · intro n hn
    rw [hinput]
    exact hs.inside n hn
  · intro k
    have hlen := (List.getElem?_eq_some_iff.mp (hs.output_at.trans hfile)).1
    simp only [Heap.modify_same, List.getElem?_set]
    by_cases hk : t = k
    · subst hk
      rw [if_pos rfl, if_pos hlen,
        if_pos ⟨Nat.lt_succ_self t, hnext, hfile⟩, outputFilename,
        outputFilename, (hs.fields a).2]
    · rw [if_neg hk, hs.output]
      simp only [show k < t + 1 ↔ k < t by omega]
  · intro k hk n hkn hout
    refine hs.crosses_succ (fun n hn _ => ?_) hk hkn hout
    rw [hnext] at hn
    cases hn
  · intro k hk n m f hc hne
    simp only [Heap.modify_same]
    exact hs.cut k (hcross hk hc) n m f hc hne
  · intro k hall
    simp only [Heap.modify_same]
    exact hs.uncut k fun n m f hk => hall n m f (Nat.lt_succ_of_lt hk)
  · intro k hk n m f hc hne
    rw [hinput]
    exact hs.input k (hcross hk hc) n m f hc hne
  · intro n m hall
    rw [hinput]
    exact hs.input_kept n m fun k f hk => hall k f (Nat.lt_succ_of_lt hk)
  · intro k hk n m hc
    exact hs.targets k (hcross hk hc) n m hc
  · intro k l hl
    exact hs.targets_only_succ hl

/-- An output that is linked in memory. -/
theorem OutputsLinked.link (hs : OutputsLinked nodes a h t s) {n : NodeId}
    {m : Nat} (hc : Crossing nodes h a t n m "") :
    OutputsLinked nodes a h (t + 1)
      (s.1, s.2.insertIfNew t [((s.1 n).nodeName, m)]) := by
  have hfresh : s.2[t]? = none := by
    cases ht : s.2[t]? with
    | none => rfl
    | some l => exact absurd (hs.targets_only t l ht).1 (Nat.lt_irrefl t)
  have hget : ∀ k, (s.2.insertIfNew t [((s.1 n).nodeName, m)])[k]? =
      if k = t then some [((h n).nodeName, m)] else s.2[k]? := by
    intro k
    rw [getElem?_insertIfNew hfresh, (hs.fields n).2]
  have hempty : ∀ {k n' m' f}, k < t + 1 → Crossing nodes h a k n' m' f →
      f ≠ "" → k < t := by
    intro k n' m' f hk hc' hne
    rcases Nat.lt_succ_iff_lt_or_eq.mp hk with hlt | rfl
    · exact hlt
    · exact absurd (hc.unique hc').2.2.symm hne
  refine ⟨hs.others, hs.own, hs.inside, hs.output_succ hc.fed, ?_, ?_, ?_, ?_,
    ?_, ?_, ?_⟩
  · intro k hk n' hnext hout
    exact hs.crosses_succ (fun n hn _ => ⟨m, _, hc.of_next hn⟩) hk hnext hout
  · intro k hk n' m' f hc' hne
    exact hs.cut k (hempty hk hc' hne) n' m' f hc' hne
  · intro k hall
    exact hs.uncut k fun n' m' f hk => hall n' m' f (Nat.lt_succ_of_lt hk)
  · intro k hk n' m' f hc' hne
    exact hs.input k (hempty hk hc' hne) n' m' f hc' hne
  · intro n' m' hall
    exact hs.input_kept n' m' fun k f hk => hall k f (Nat.lt_succ_of_lt hk)
  · intro k hk n' m' hc'
    rw [hget]
    by_cases hkt : k = t
    · subst hkt
      obtain ⟨rfl, rfl, -⟩ := hc.unique hc'
      rw [if_pos rfl]
    · rw [if_neg hkt]
      exact hs.targets k (by omega) n' m' hc'
  · intro k l hl
    rw [hget] at hl
    by_cases hkt : k = t
    · subst hkt
      rw [if_pos rfl, Option.some.injEq] at hl
      exact ⟨Nat.lt_succ_self _, n, m, hc, hl.symm⟩
    · rw [if_neg hkt] at hl
      exact hs.targets_only_succ hl

/-- An output that is handed over by a file. -/
theorem OutputsLinked.file (hs : OutputsLinked nodes a h t s)
    (ha : a ∈ nodes) (honce : FeedsOnce h a) {n : NodeId} {m : Nat} {f : String}
    (hc : Crossing nodes h a t n m f) (hf : f ≠ "")
    (hm : m < (s.1 n).inputDataDefinitionFiles.length) :
    OutputsLinked nodes a h (t + 1)
      ((s.1.modify n fun node =>
        { node with
          inputDataDefinitionFiles :=
            (s.1 n).inputDataDefinitionFiles.set m f }).modify a fun node =>
        { node with nextNodes := (s.1 a).nextNodes.set t none }, s.2) := by
  have hne : n ≠ a := fun heq => hc.outside (heq ▸ ha)
  have htlt : t < (s.1 a).nextNodes.length :=
    (List.getElem?_eq_some_iff.mp (hs.next_at.trans hc.next)).1
  generalize hpair : ((s.1.modify n fun node =>
      { node with
        inputDataDefinitionFiles :=
          (s.1 n).inputDataDefinitionFiles.set m f }).modify a (fun node =>
      { node with nextNodes := (s.1 a).nextNodes.set t none }), s.2) = s'
  have hown : s'.1 a = { s.1 a with
      nextNodes := (s.1 a).nextNodes.set t none } := by
    simp [← hpair, Ne.symm hne]
  have hconsumer : s'.1 n = { s.1 n with inputDataDefinitionFiles :=
      (s.1 n).inputDataDefinitionFiles.set m f } := by
    simp [← hpair, hne]
  have hother : ∀ n', n' ≠ a → n' ≠ n → s'.1 n' = s.1 n' := by
    intro n' hna hnn
    simp [← hpair, hna, hnn]
  have htargets : s'.2 = s.2 := by simp [← hpair]
  have hempty : ∀ {k n' m'}, k < t + 1 → Crossing nodes h a k n' m' "" →
      k < t := by
    intro k n' m' hk hc'
    rcases Nat.lt_succ_iff_lt_or_eq.mp hk with hlt | rfl
    · exact hlt
    · exact absurd (hc.unique hc').2.2 hf
  -- Only this output is handed to `n`.
  have hlast : ∀ {k m' f'}, Crossing nodes h a k n m' f' → k = t :=
    fun hc' => honce _ _ n hc'.next hc.next
  refine ⟨?_, ?_, ?_, ?_, ?_, ?_, ?_, ?_, ?_, ?_, ?_⟩
  · intro n' hna
    by_cases hnn : n' = n
    · subst hnn
      rw [hconsumer, hs.others n' hna]
    · rw [hother n' hna hnn]
      exact hs.others n' hna
  · rw [hown, hs.own]
  · intro n' hn'
    by_cases hna : n' = a
    · subst hna
      rw [hown]
      exact hs.inside n' hn'
    · rw [hother n' hna fun heq => hc.outside (heq ▸ hn')]
      exact hs.inside n' hn'
  · rw [hown]
    exact hs.output_succ hc.fed
  · intro k hk n' hnext hout
    exact hs.crosses_succ (fun n hn _ => ⟨m, _, hc.of_next hn⟩) hk hnext hout
  · intro k hk n' m' f' hc' hne'
    rw [hown]
    simp only [List.getElem?_set]
    by_cases hkt : t = k
    · rw [if_pos hkt, if_pos htlt]
    · rw [if_neg hkt]
      exact hs.cut k (by omega) n' m' f' hc' hne'
  · intro k hall
    rw [hown]
    simp only [List.getElem?_set]
    by_cases hkt : t = k
    · subst hkt
      exact absurd (hall n m f (Nat.lt_succ_self t) hc) hf
    · rw [if_neg hkt]
      exact hs.uncut k fun n' m' f' hk => hall n' m' f' (Nat.lt_succ_of_lt hk)
  · intro k hk n' m' f' hc' hne'
    by_cases hkt : k = t
    · subst hkt
      obtain ⟨rfl, rfl, rfl⟩ := hc.unique hc'
      rw [hconsumer]
      exact List.getElem?_set_self hm
    · have hnn : n' ≠ n := by
        rintro rfl
        exact hkt (hlast hc')
      have hna : n' ≠ a := fun heq => hc'.outside (heq ▸ ha)
      rw [hother n' hna hnn]
      exact hs.input k (by omega) n' m' f' hc' hne'
  · intro n' m' hall
    have hbefore := hs.input_kept n' m' fun k f' hk =>
      hall k f' (Nat.lt_succ_of_lt hk)
    by_cases hna : n' = a
    · subst hna
      rw [hown]
      exact hbefore
    · by_cases hnn : n' = n
      · subst hnn
        rw [hconsumer]
        simp only [List.getElem?_set]
        by_cases hmm : m = m'
        · subst hmm
          exact absurd (hall t f (Nat.lt_succ_self t) hc) hf
        · rw [if_neg hmm]
          exact hbefore
      · rw [hother n' hna hnn]
        exact hbefore
  · intro k hk n' m' hc'
    rw [htargets]
    exact hs.targets k (hempty hk hc') n' m' hc'
  · intro k l hl
    rw [htargets] at hl
    exact hs.targets_only_succ hl

theorem OutputsLinked.step (hs : OutputsLinked nodes a h t s) (ha : a ∈ nodes)
    (honce : FeedsOnce h a) (hstep : OutputStep nodes a s t s') :
    OutputsLinked nodes a h (t + 1) s' := by
  have hnext := hs.next_at
  have hfile := hs.output_at
  cases hstep with
  | kept f hnone hf hne =>
      rw [hnext] at hnone
      rw [hfile] at hf
      refine hs.unchanged ?_ ?_
      · intro n hn
        rw [hnone] at hn
        cases hn
      · intro _
        rw [hf]
        simpa using hne
  | named hnone hempty =>
      exact hs.name (hnext ▸ hnone) (hfile ▸ hempty)
  | within n hn hin =>
      rw [hnext] at hn
      refine hs.unchanged ?_ ?_
      · intro n' hn'
        rw [hn, Option.some.injEq, Option.some.injEq] at hn'
        exact hn' ▸ hin
      · intro hnone
        rw [hn] at hnone
        cases hnone
  | linked n m hn hout hm hempty =>
      rw [(hs.fields n).1] at hm
      exact hs.link ⟨hnext ▸ hn, hout, hm, hfile ▸ hempty⟩
  | filed n m f hn hout hm hf hne hlt =>
      rw [(hs.fields n).1] at hm
      exact hs.file ha honce ⟨hnext ▸ hn, hout, hm, hfile ▸ hf⟩ hne hlt

/-- The loop over all outputs. -/
theorem outputsLinked_of_run (ha : a ∈ nodes) (honce : FeedsOnce h a)
    (hrun : (List.range (h a).nextNodes.length).foldlM (checkNextNode nodes a)
      (h, ∅) = .ok s) :
    OutputsLinked nodes a h (h a).nextNodes.length s :=
  forRange_invariant (OutputsLinked nodes a h) _ (.initial nodes a h)
    (fun _ _ _ _ hs hbody => hs.step ha honce (checkNextNode_cases ha hbody))
    hrun

end Outputs

/-! ## The nodes of one run -/

/-- Targets of output `k` of the node with the given name. -/
def linkedTargets (links : LinkedNodes) (name : String) (k : Nat) :
    Option (List (String × Nat)) :=
  links[name]?.bind fun targets => targets[k]?

/-- The nodes `done` of a run are linked; `h` and `links` are what the run has
started with. -/
structure RunLinked (nodes done : List NodeId) (h : Heap) (links : LinkedNodes)
    (s : Heap × LinkedNodes) : Prop where
  pending : ∀ n, n ∉ done → s.1 n = { h n with
    inputDataDefinitionFiles := (s.1 n).inputDataDefinitionFiles }
  inside : ∀ n ∈ nodes,
    (s.1 n).inputDataDefinitionFiles = (h n).inputDataDefinitionFiles
  previous : ∀ a ∈ done, (s.1 a).previousNodes =
    (clearPreviousNodes nodes (h a)).previousNodes
  output : ∀ a ∈ done, ∀ k, (s.1 a).outputDataDefinitionFiles[k]? =
    if (h a).nextNodes[k]? = some none ∧
        (h a).outputDataDefinitionFiles[k]? = some "" then
      some (outputFilename (h a) k)
    else (h a).outputDataDefinitionFiles[k]?
  crosses : ∀ a ∈ done, ∀ k n, (h a).nextNodes[k]? = some (some n) →
    n ∉ nodes → ∃ m f, Crossing nodes h a k n m f
  cut : ∀ a ∈ done, ∀ k n m f, Crossing nodes h a k n m f → f ≠ "" →
    (s.1 a).nextNodes[k]? = some none
  uncut : ∀ a ∈ done, ∀ k, (∀ n m f, Crossing nodes h a k n m f → f = "") →
    (s.1 a).nextNodes[k]? = (h a).nextNodes[k]?
  input : ∀ a ∈ done, ∀ k n m f, Crossing nodes h a k n m f → f ≠ "" →
    (s.1 n).inputDataDefinitionFiles[m]? = some f
  input_kept : ∀ n m,
    (∀ a ∈ done, ∀ k f, Crossing nodes h a k n m f → f = "") →
    (s.1 n).inputDataDefinitionFiles[m]? = (h n).inputDataDefinitionFiles[m]?
  targets : ∀ a ∈ done, ∀ k n m, Crossing nodes h a k n m "" →
    linkedTargets s.2 (h a).nodeName k = some [((h n).nodeName, m)]
  targets_only : ∀ a ∈ done, ∀ k l,
    linkedTargets s.2 (h a).nodeName k = some l →
    ∃ n m, Crossing nodes h a k n m "" ∧ l = [((h n).nodeName, m)]
  nonempty : ∀ a ∈ done, ∀ targets, s.2[(h a).nodeName]? = some targets →
    targets.isEmpty = false
  others : ∀ name, (∀ a ∈ done, name ≠ (h a).nodeName) →
    s.2[name]? = links[name]?

section Run

variable {nodes done : List NodeId} {a : NodeId} {h : Heap}
  {links : LinkedNodes} {s s' : Heap × LinkedNodes}

theorem RunLinked.initial (nodes : List NodeId) (h : Heap)
    (links : LinkedNodes) : RunLinked nodes [] h links (h, links) := by
  constructor <;> simp

/-- A node that is not linked is as it was. -/
theorem RunLinked.eq_of_pending (hs : RunLinked nodes done h links s)
    (ha : a ∈ nodes) (hnew : a ∉ done) : s.1 a = h a := by
  rw [hs.pending a hnew, hs.inside a ha]

/-- Consumers outside of the run keep their producers and their names. -/
theorem RunLinked.consumer (hs : RunLinked nodes done h links s)
    (hdone : ∀ b ∈ done, b ∈ nodes) {n : NodeId} (hn : n ∉ nodes) :
    (s.1 n).previousNodes = (h n).previousNodes ∧
      (s.1 n).nodeName = (h n).nodeName := by
  rw [hs.pending n fun hmem => hn (hdone n hmem)]
  exact ⟨rfl, rfl⟩

theorem RunLinked.crossing_iff (hs : RunLinked nodes done h links s)
    (hdone : ∀ b ∈ done, b ∈ nodes) (ha : a ∈ nodes) (hnew : a ∉ done)
    {k m : Nat} {n : NodeId} {f : String} :
    Crossing nodes s.1 a k n m f ↔ Crossing nodes h a k n m f := by
  have heq := hs.eq_of_pending ha hnew
  constructor
  · rintro ⟨hnext, hout, hm, hf⟩
    rw [heq] at hnext hf
    rw [(hs.consumer hdone hout).1] at hm
    exact ⟨hnext, hout, hm, hf⟩
  · rintro ⟨hnext, hout, hm, hf⟩
    rw [← heq] at hnext hf
    rw [← (hs.consumer hdone hout).1] at hm
    exact ⟨hnext, hout, hm, hf⟩

/-- An input is handed over by one producer. -/
theorem Crossing.producer {b n : NodeId} {k k' m : Nat} {f f' : String}
    (hc : Crossing nodes h a k n m f) (hc' : Crossing nodes h b k' n m f') :
    a = b := by
  have ha := findLocation_eq_ok hc.location
  rw [findLocation_eq_ok hc'.location, Option.some.injEq,
    Option.some.injEq] at ha
  exact ha.symm

/-- `linked_nodes` after the targets of one node have been added. -/
def addTargets (links : LinkedNodes) (name : String) (targets : TargetMaps) :
    LinkedNodes :=
  if targets.isEmpty then links else links.insertIfNew name targets

theorem getElem?_addTargets_of_ne (links : LinkedNodes) {name name' : String}
    (hne : name' ≠ name) (targets : TargetMaps) :
    (addTargets links name targets)[name']? = links[name']? := by
  unfold addTargets
  split
  · rfl
  · exact getElem?_insertIfNew_of_ne links hne targets

theorem getElem?_addTargets_self (links : LinkedNodes) {name : String}
    (hfresh : links[name]? = none) (targets : TargetMaps) :
    (addTargets links name targets)[name]? =
      if targets.isEmpty then none else some targets := by
  unfold addTargets
  split
  · exact hfresh
  · rw [getElem?_insertIfNew hfresh, if_pos rfl]

theorem linkedTargets_addTargets_self (links : LinkedNodes) {name : String}
    (hfresh : links[name]? = none) (targets : TargetMaps) (k : Nat) :
    linkedTargets (addTargets links name targets) name k = targets[k]? := by
  rw [linkedTargets, getElem?_addTargets_self links hfresh]
  by_cases hempty : targets.isEmpty = true
  · rw [if_pos hempty]
    cases hk : targets[k]? with
    | none => rfl
    | some l =>
        have hmem : k ∈ targets := by
          rw [← Std.TreeMap.isSome_getElem?_iff_mem, hk]
          rfl
        rw [Std.TreeMap.isEmpty_iff_forall_not_mem] at hempty
        exact absurd hmem (hempty k)
  · rw [if_neg hempty]
    rfl

/-- One more node. -/
theorem RunLinked.step (hs : RunLinked nodes done h links s)
    (hdone : ∀ b ∈ done, b ∈ nodes) (ha : a ∈ nodes) (hnew : a ∉ done)
    (hnames : ∀ b ∈ nodes, (h b).nodeName = (h a).nodeName → b = a)
    (hfresh : links[(h a).nodeName]? = none) {t : Heap × TargetMaps}
    (ht : OutputsLinked nodes a s.1 (h a).nextNodes.length t) :
    RunLinked nodes (done ++ [a]) h links
      (t.1.modify a (clearPreviousNodes nodes),
        addTargets s.2 (h a).nodeName t.2) := by
  have heq := hs.eq_of_pending ha hnew
  have hcross : ∀ {k n m f}, Crossing nodes s.1 a k n m f ↔
      Crossing nodes h a k n m f := hs.crossing_iff hdone ha hnew
  have hlt : ∀ {k n m f}, Crossing nodes h a k n m f →
      k < (h a).nextNodes.length :=
    fun hc => (List.getElem?_eq_some_iff.mp hc.next).1
  have hname : ∀ b ∈ done, (h b).nodeName ≠ (h a).nodeName :=
    fun b hb hsame => hnew (hnames b (hdone b hb) hsame ▸ hb)
  have hfresh' : s.2[(h a).nodeName]? = none := by
    rw [hs.others _ fun b hb hsame => hname b hb hsame.symm, hfresh]
  generalize hpair : (t.1.modify a (clearPreviousNodes nodes),
    addTargets s.2 (h a).nodeName t.2) = s'
  have hlinks : s'.2 = addTargets s.2 (h a).nodeName t.2 := by rw [← hpair]
  have hown : s'.1 a = clearPreviousNodes nodes (t.1 a) := by
    rw [← hpair]
    exact Heap.modify_same _ _ _
  have hother : ∀ n, n ≠ a → s'.1 n = t.1 n := by
    intro n hn
    rw [← hpair]
    exact Heap.modify_of_ne _ hn _
  have hinput : ∀ n, (s'.1 n).inputDataDefinitionFiles =
      (t.1 n).inputDataDefinitionFiles := by
    intro n
    by_cases hn : n = a
    · rw [hn, hown, clearPreviousNodes]
    · rw [hother n hn]
  -- The nodes that are linked already are not touched again.
  have hkept : ∀ b ∈ done, s'.1 b = s.1 b := by
    intro b hb
    have hba : b ≠ a := fun heq => hnew (heq ▸ hb)
    rw [hother b hba, ht.others b hba, ht.inside b (hdone b hb)]
  constructor
  · intro n hn
    simp only [List.mem_append, List.mem_singleton, not_or] at hn
    rw [hother n hn.2, ht.others n hn.2, hs.pending n hn.1]
  · intro n hn
    rw [hinput, ht.inside n hn, hs.inside n hn]
  · refine forall_mem_concat (fun b hb => ?_) ?_
    · rw [hkept b hb]
      exact hs.previous b hb
    · rw [hown, ht.own, heq]
      rfl
  · refine forall_mem_concat (fun b hb k => ?_) fun k => ?_
    · rw [hkept b hb]
      exact hs.output b hb k
    · rw [hown]
      show (t.1 a).outputDataDefinitionFiles[k]? = _
      rw [ht.output k, heq]
      by_cases hk : k < (h a).nextNodes.length
      · simp only [hk, true_and]
      · simp [hk]
  · refine forall_mem_concat hs.crosses ?_
    intro k n hnext hout
    obtain ⟨m, f, hc⟩ := ht.crosses k (List.getElem?_eq_some_iff.mp hnext).1
      n (heq ▸ hnext) hout
    exact ⟨m, f, hcross.mp hc⟩
  · refine forall_mem_concat (fun b hb => ?_) ?_
    · rw [hkept b hb]
      exact hs.cut b hb
    · rw [hown]
      exact fun k n m f hc => ht.cut k (hlt hc) n m f (hcross.mpr hc)
  · refine forall_mem_concat (fun b hb => ?_) fun k hall => ?_
    · rw [hkept b hb]
      exact hs.uncut b hb
    · rw [hown, ← heq]
      exact ht.uncut k fun n m f _ hc => hall n m f (hcross.mp hc)
  · simp only [hinput]
    refine forall_mem_concat (fun b hb k n m f hc hne => ?_)
      fun k n m f hc => ht.input k (hlt hc) n m f (hcross.mpr hc)
    rw [ht.input_kept n m]
    · exact hs.input b hb k n m f hc hne
    · intro k' f' _ hc'
      exact absurd ((hcross.mp hc').producer hc) fun hab => hnew (hab ▸ hb)
  · intro n m hall
    rw [hinput, ht.input_kept n m, hs.input_kept n m]
    · exact fun b hb => hall b (List.mem_append_left _ hb)
    · exact fun k f _ hc => hall a (by simp) k f (hcross.mp hc)
  · refine forall_mem_concat (fun b hb k n m hc => ?_) fun k n m hc => ?_
    · rw [hlinks, linkedTargets, getElem?_addTargets_of_ne _ (hname b hb)]
      exact hs.targets b hb k n m hc
    · rw [hlinks, linkedTargets_addTargets_self _ hfresh',
        ht.targets k (hlt hc) n m (hcross.mpr hc),
        (hs.consumer hdone hc.outside).2]
  · refine forall_mem_concat (fun b hb k l hl => ?_) fun k l hl => ?_
    · rw [hlinks, linkedTargets, getElem?_addTargets_of_ne _ (hname b hb)] at hl
      exact hs.targets_only b hb k l hl
    · rw [hlinks, linkedTargets_addTargets_self _ hfresh'] at hl
      obtain ⟨-, n, m, hc, rfl⟩ := ht.targets_only k l hl
      refine ⟨n, m, hcross.mp hc, ?_⟩
      rw [(hs.consumer hdone hc.outside).2]
  · refine forall_mem_concat (fun b hb targets htargets => ?_)
      fun targets htargets => ?_
    · rw [hlinks, getElem?_addTargets_of_ne _ (hname b hb)] at htargets
      exact hs.nonempty b hb targets htargets
    · rw [hlinks, getElem?_addTargets_self _ hfresh'] at htargets
      split at htargets
      · cases htargets
      · next hne =>
          cases htargets
          simpa using hne
  · intro name hall
    rw [hlinks, getElem?_addTargets_of_ne _ (hall a (by simp))]
    exact hs.others name fun b hb => hall b (List.mem_append_left _ hb)

/-- The loop over the nodes of a run. -/
theorem runLinked_of_run (hnodup : nodes.Nodup)
    (honce : ∀ a ∈ nodes, FeedsOnce h a)
    (hnames : ∀ a ∈ nodes, ∀ b ∈ nodes, (h a).nodeName = (h b).nodeName →
      a = b)
    (hfresh : ∀ a ∈ nodes, links[(h a).nodeName]? = none)
    (hrun : checkExternalLinks h nodes links = .ok s) :
    RunLinked nodes nodes h links s := by
  refine foldlM_invariant (fun done s => RunLinked nodes done h links s) nodes
    (.initial nodes h links) ?_ hrun
  intro done a after s s' hsplit hs hbody
  have ha : a ∈ nodes := by simp [hsplit]
  have hdone : ∀ b ∈ done, b ∈ nodes := by
    intro b hb
    simp [hsplit, hb]
  have hnew : a ∉ done := by
    rw [hsplit] at hnodup
    exact fun hmem => (List.nodup_append.mp hnodup).2.2 a hmem a (by simp) rfl
  have heq := hs.eq_of_pending ha hnew
  simp only [checkExternalLinksOf, bind_eq_ok, Except.ok.injEq] at hbody
  obtain ⟨t, hnext, rfl⟩ := hbody
  have honce' : FeedsOnce s.1 a := by
    unfold FeedsOnce
    rw [heq]
    exact honce a ha
  have ht := outputsLinked_of_run ha honce' hnext
  have hname : ((t.1.modify a (clearPreviousNodes nodes)) a).nodeName =
      (h a).nodeName := by
    rw [Heap.modify_same, clearPreviousNodes, (ht.fields a).2, heq]
  rw [hname]
  rw [heq] at ht
  exact hs.step hdone ha hnew (fun b hb => hnames b hb a ha) (hfresh a ha) ht

end Run

end Orkhestra.Ports.ScheduleLinks
