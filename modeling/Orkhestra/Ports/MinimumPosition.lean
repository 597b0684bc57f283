import Orkhestra.Ports.ModuleSearch
import Orkhestra.Ports.SchedulePartition

/-!
# The minimum position of a node

`FindMinPosition` goes through the inputs of a node that are fed from within the
run.  For each of them it looks up three entries, each one only if those before
it are not set: the projection of the output, the projection of the input and
the flag of the checked result.  The first entry that is set keeps the node out
of the run.  Without one, the module of the node goes behind those of its
producers.

`Search` says what the loop does in terms of these entries; what is known of the
result is read off it by induction.
-/

namespace Orkhestra.Ports.MinimumPosition

open Orkhestra.Verified.Checked
open Orkhestra.Ports.QuerySchedulingData
open Orkhestra.Ports.NodeScheduler
open Orkhestra.Ports.SchedulePartition
open Orkhestra.Ports.ModuleSearch

/-! ## What is looked up for an input -/

/-- Projection definition of a stream. -/
def projection (parameters : List (List Int)) (stream : Nat) :
    Option (List Int) :=
  parameters[stream * kStreamParamCount + kProjectionOffset]?

/-- Producers in the run that need a module. -/
def LookedAt (h : Heap) (nodes : List QueryNode) (a : NodeId) : Prop :=
  h a ∈ nodes ∧ (h a).operationType ≠ .kPassThrough

/-- An entry that is reached for input `m` of `n`, fed by `a`, is set.  The flag
is looked up with the index of the input. -/
inductive Notices (h : Heap) (n : NodeId) (m : Nat) (a : NodeId) : Prop where
  | output (k : Nat) (definition : List Int) :
      findNextNodeLocation (h a).nextNodes n = .ok k →
      projection (h a).operationParameters.outputStreamParameters k =
        some definition →
      definition ≠ [] → Notices h n m a
  | input (k : Nat) (definition : List Int) :
      findNextNodeLocation (h a).nextNodes n = .ok k →
      projection (h a).operationParameters.outputStreamParameters k =
        some [] →
      projection (h n).operationParameters.inputStreamParameters m =
        some definition →
      definition ≠ [] → Notices h n m a
  | result (k : Nat) :
      findNextNodeLocation (h a).nextNodes n = .ok k →
      projection (h a).operationParameters.outputStreamParameters k =
        some [] →
      projection (h n).operationParameters.inputStreamParameters m =
        some [] →
      (h a).isChecked[m]? = some true → Notices h n m a

/-- All three entries are there and not set. -/
def Passes (h : Heap) (n : NodeId) (m : Nat) (a : NodeId) : Prop :=
  ∃ k, findNextNodeLocation (h a).nextNodes n = .ok k ∧
    projection (h a).operationParameters.outputStreamParameters k = some [] ∧
    projection (h n).operationParameters.inputStreamParameters m = some [] ∧
    (h a).isChecked[m]? = some false

/-- The entries that are reached are there. -/
def EntriesExist (h : Heap) (n : NodeId) (m : Nat) (a : NodeId) : Prop :=
  ∃ k output, findNextNodeLocation (h a).nextNodes n = .ok k ∧
    projection (h a).operationParameters.outputStreamParameters k =
      some output ∧
    (output = [] → ∃ input,
      projection (h n).operationParameters.inputStreamParameters m =
        some input ∧
      (input = [] → m < (h a).isChecked.length))

section Input

variable {h : Heap} {n a : NodeId} {m : Nat}

theorem Notices.entriesExist (hn : Notices h n m a) : EntriesExist h n m a := by
  cases hn with
  | output k definition hk houtput hne =>
      exact ⟨k, definition, hk, houtput, fun hnil => absurd hnil hne⟩
  | input k definition hk houtput hinput hne =>
      exact ⟨k, [], hk, houtput, fun _ =>
        ⟨definition, hinput, fun hnil => absurd hnil hne⟩⟩
  | result k hk houtput hinput hchecked =>
      exact ⟨k, [], hk, houtput, fun _ =>
        ⟨[], hinput, fun _ => (List.getElem?_eq_some_iff.mp hchecked).1⟩⟩

theorem Passes.entriesExist (hp : Passes h n m a) : EntriesExist h n m a := by
  obtain ⟨k, hk, houtput, hinput, hchecked⟩ := hp
  exact ⟨k, [], hk, houtput, fun _ =>
    ⟨[], hinput, fun _ => (List.getElem?_eq_some_iff.mp hchecked).1⟩⟩

theorem Passes.not_notices (hp : Passes h n m a) : ¬Notices h n m a := by
  obtain ⟨k, hk, houtput, hinput, hchecked⟩ := hp
  intro hn
  cases hn with
  | output k' definition hk' houtput' hne =>
      rw [hk, Except.ok.injEq] at hk'
      rw [← hk', houtput, Option.some.injEq] at houtput'
      exact hne houtput'.symm
  | input k' definition hk' houtput' hinput' hne =>
      rw [hinput, Option.some.injEq] at hinput'
      exact hne hinput'.symm
  | result k' hk' houtput' hinput' hchecked' =>
      rw [hchecked, Option.some.injEq] at hchecked'
      cases hchecked'

/-- The check that is made for input `m`. -/
def isObserved (h : Heap) (n : NodeId) (m : Nat) (a : NodeId) : Outcome Bool :=
  do
    let currentNodeIndex ← findNextNodeLocation (h a).nextNodes n
    let isProjected ←
      isProjectionOperationDefined (h n) (h a) m currentNodeIndex
    if isProjected then .ok true else readAt (h a).isChecked m

/-- The check finds an entry that is set, or none, or one is missing. -/
theorem isObserved_cases (h : Heap) (n : NodeId) (m : Nat) (a : NodeId) :
    isObserved h n m a = .ok true ∧ Notices h n m a ∨
    isObserved h n m a = .ok false ∧ Passes h n m a ∨
    ∃ e, isObserved h n m a = .error e ∧ ¬EntriesExist h n m a ∧
      ∀ k, findNextNodeLocation (h a).nextNodes n = .ok k → e = .undefined := by
  rw [isObserved]
  cases hk : findNextNodeLocation (h a).nextNodes n with
  | error e =>
      refine .inr (.inr ⟨e, rfl, ?_, fun k hk' => by cases hk'⟩)
      rintro ⟨k, output, hk', -⟩
      rw [hk] at hk'
      cases hk'
  | ok k =>
      simp only [ok_bind, isProjectionOperationDefined]
      obtain houtput | ⟨output, houtput⟩ := Option.eq_none_or_eq_some
        (projection (h a).operationParameters.outputStreamParameters k)
      · refine .inr (.inr ⟨.undefined, by rw [readAt_of_none houtput]; rfl, ?_,
          fun _ _ => rfl⟩)
        rintro ⟨k', output, hk', houtput', -⟩
        rw [hk, Except.ok.injEq] at hk'
        rw [← hk', houtput] at houtput'
        cases houtput'
      · rw [readAt_eq_ok.mpr houtput, ok_bind]
        by_cases hne : output = []
        · subst hne
          rw [if_neg (by simp)]
          obtain hinput | ⟨input, hinput⟩ := Option.eq_none_or_eq_some
            (projection (h n).operationParameters.inputStreamParameters m)
          · refine .inr (.inr ⟨.undefined, by rw [readAt_of_none hinput]; rfl,
              ?_, fun _ _ => rfl⟩)
            rintro ⟨k', output, hk', houtput', hexists⟩
            rw [hk, Except.ok.injEq] at hk'
            rw [← hk', houtput, Option.some.injEq] at houtput'
            obtain ⟨input, hinput', -⟩ := hexists houtput'.symm
            rw [hinput] at hinput'
            cases hinput'
          · rw [readAt_eq_ok.mpr hinput, ok_bind, ok_bind]
            by_cases hne : input = []
            · subst hne
              rw [if_neg (by simp)]
              obtain hchecked | ⟨checked, hchecked⟩ :=
                Option.eq_none_or_eq_some (h a).isChecked[m]?
              · refine .inr (.inr ⟨.undefined, readAt_of_none hchecked, ?_,
                  fun _ _ => rfl⟩)
                rintro ⟨k', output, hk', houtput', hexists⟩
                rw [hk, Except.ok.injEq] at hk'
                rw [← hk', houtput, Option.some.injEq] at houtput'
                obtain ⟨input, hinput', hlt⟩ := hexists houtput'.symm
                rw [hinput, Option.some.injEq] at hinput'
                have hlt := hlt hinput'.symm
                rw [List.getElem?_eq_none_iff] at hchecked
                omega
              · rw [readAt_eq_ok.mpr hchecked]
                cases checked with
                | true => exact .inl ⟨rfl, .result k hk houtput hinput hchecked⟩
                | false =>
                    exact .inr (.inl ⟨rfl, k, hk, houtput, hinput, hchecked⟩)
            · rw [if_pos (by simp [hne])]
              exact .inl ⟨rfl, .input k input hk houtput hinput hne⟩
        · rw [if_pos (by simpa using hne)]
          exact .inl ⟨rfl, .output k output hk houtput hne⟩

end Input

/-! ## The search -/

/-- Index of the module that is found for a producer. -/
def moduleIndex (h : Heap) (modules : ConfigurableModulesVector) (a : NodeId) :
    Option Nat :=
  modules.findIdx? fun operation =>
    operation.operationType == (h a).operationType

/-- The loop from input `i` on: what it has found before and its result. -/
inductive Search (h : Heap) (n : NodeId) (nodes : List QueryNode)
    (modules : ConfigurableModulesVector) :
    Nat → List (Option NodeId) → Nat → Outcome (Option Nat) → Prop where
  | done (i lowest : Nat) :
      Search h n nodes modules i [] lowest (.ok (some lowest))
  | skip (i lowest : Nat) (pointer : Option NodeId) (rest : List (Option NodeId))
      (r : Outcome (Option Nat)) :
      (∀ b, pointer = some b → ¬LookedAt h nodes b) →
      Search h n nodes modules (i + 1) rest lowest r →
      Search h n nodes modules i (pointer :: rest) lowest r
  | notice (i lowest : Nat) (b : NodeId) (rest : List (Option NodeId)) :
      LookedAt h nodes b → Notices h n i b →
      Search h n nodes modules i (some b :: rest) lowest (.ok none)
  | pass (i lowest k : Nat) (b : NodeId) (rest : List (Option NodeId))
      (r : Outcome (Option Nat)) :
      LookedAt h nodes b → Passes h n i b → moduleIndex h modules b = some k →
      Search h n nodes modules (i + 1) rest (max lowest (k + 1)) r →
      Search h n nodes modules i (some b :: rest) lowest r
  | missing (i lowest : Nat) (b : NodeId) (rest : List (Option NodeId))
      (e : Fault) :
      LookedAt h nodes b → ¬EntriesExist h n i b →
      (∀ k, findNextNodeLocation (h b).nextNodes n = .ok k → e = .undefined) →
      Search h n nodes modules i (some b :: rest) lowest (.error e)
  | unknown (i lowest : Nat) (b : NodeId) (rest : List (Option NodeId))
      (e : Fault) :
      LookedAt h nodes b → moduleIndex h modules b = none →
      Search h n nodes modules i (some b :: rest) lowest (.error e)

section Search

variable {h : Heap} {n : NodeId} {nodes : List QueryNode}
  {modules : ConfigurableModulesVector}

theorem findMinPositionFrom_lookedAt {b : NodeId} (hb : LookedAt h nodes b)
    (i : Nat) (rest : List (Option NodeId)) (lowest : Nat) :
    findMinPositionFrom h n nodes modules i (some b :: rest) lowest =
      (isObserved h n i b >>= fun observed =>
        if observed then .ok none
        else match moduleIndex h modules b with
          | none =>
              .error (.runtimeError "Something went wrong with scheduling!")
          | some m => findMinPositionFrom h n nodes modules (i + 1) rest
              (if m + 1 > lowest then m + 1 else lowest)) := by
  rw [findMinPositionFrom, if_pos (by simpa [LookedAt] using hb), isObserved]
  cases findNextNodeLocation (h b).nextNodes n with
  | error e => rfl
  | ok k =>
      simp only [ok_bind]
      cases isProjectionOperationDefined (h n) (h b) i k with
      | error e => rfl
      | ok isProjected =>
          cases isProjected with
          | true => rfl
          | false => rfl

theorem findMinPositionFrom_skip {pointer : Option NodeId}
    (hskip : ∀ b, pointer = some b → ¬LookedAt h nodes b)
    (i : Nat) (rest : List (Option NodeId)) (lowest : Nat) :
    findMinPositionFrom h n nodes modules i (pointer :: rest) lowest =
      findMinPositionFrom h n nodes modules (i + 1) rest lowest := by
  cases pointer with
  | none => rfl
  | some b =>
      rw [findMinPositionFrom, if_neg]
      simpa [LookedAt] using hskip b rfl

theorem search_findMinPositionFrom (pointers : List (Option NodeId))
    (i lowest : Nat) :
    Search h n nodes modules i pointers lowest
      (findMinPositionFrom h n nodes modules i pointers lowest) := by
  induction pointers generalizing i lowest with
  | nil => exact .done i lowest
  | cons pointer rest ih =>
      by_cases hlook : ∃ b, pointer = some b ∧ LookedAt h nodes b
      · obtain ⟨b, rfl, hb⟩ := hlook
        rw [findMinPositionFrom_lookedAt hb]
        rcases isObserved_cases h n i b with
          ⟨hrun, hnotices⟩ | ⟨hrun, hpasses⟩ | ⟨e, hrun, hmissing, he⟩
        · rw [hrun]
          exact .notice i lowest b rest hb hnotices
        · rw [hrun, ok_bind, if_neg Bool.false_ne_true]
          cases hk : moduleIndex h modules b with
          | none => exact .unknown i lowest b rest _ hb hk
          | some k =>
              refine .pass i lowest k b rest _ hb hpasses hk ?_
              have hmax : (if k + 1 > lowest then k + 1 else lowest) =
                  max lowest (k + 1) := by
                split <;> omega
              rw [← hmax]
              exact ih (i + 1) _
        · rw [hrun]
          exact .missing i lowest b rest e hb hmissing he
      · have hskip : ∀ b, pointer = some b → ¬LookedAt h nodes b :=
          fun b hpointer hb => hlook ⟨b, hpointer, hb⟩
        rw [findMinPositionFrom_skip hskip]
        exact .skip i lowest pointer rest _ hskip (ih (i + 1) lowest)

theorem search_findMinPosition : Search h n nodes modules 0
    (h n).previousNodes 0 (findMinPosition h n nodes modules) :=
  search_findMinPositionFrom _ 0 0

/-! ### What is known of the result -/

/-- The entries of the inputs from `i` on are there, or are not looked up because
an input before them keeps the node out of the run. -/
def LooksUpFrom (h : Heap) (n : NodeId) (nodes : List QueryNode) (i : Nat)
    (pointers : List (Option NodeId)) : Prop :=
  ∀ m a, pointers[m]? = some (some a) → LookedAt h nodes a →
    (∃ j < m, ∃ b, pointers[j]? = some (some b) ∧ LookedAt h nodes b ∧
      Notices h n (i + j) b) ∨
    EntriesExist h n (i + m) a

/-- The same for all inputs. -/
def LooksUp (h : Heap) (n : NodeId) (nodes : List QueryNode) : Prop :=
  LooksUpFrom h n nodes 0 (h n).previousNodes

/-- An input that does not keep the node out of the run. -/
theorem looksUpFrom_cons {pointer : Option NodeId} {i : Nat}
    (hpointer : ∀ b, pointer = some b → LookedAt h nodes b → Passes h n i b)
    (rest : List (Option NodeId)) :
    LooksUpFrom h n nodes i (pointer :: rest) ↔
      LooksUpFrom h n nodes (i + 1) rest := by
  have hindex : ∀ m, i + 1 + m = i + (m + 1) := by omega
  constructor
  · intro hall m a hm ha
    rw [hindex]
    rcases hall (m + 1) a (by simpa using hm) ha with
      ⟨j, hj, b, hjb, hb, hnotices⟩ | hexist
    · cases j with
      | zero =>
          exact absurd hnotices (hpointer b (by simpa using hjb) hb).not_notices
      | succ j =>
          exact .inl ⟨j, by omega, b, by simpa using hjb, hb, by rwa [hindex]⟩
    · exact .inr hexist
  · intro hall m a hm ha
    cases m with
    | zero => exact .inr (hpointer a (by simpa using hm) ha).entriesExist
    | succ m =>
        rw [← hindex]
        rcases hall m a (by simpa using hm) ha with
          ⟨j, hj, b, hjb, hb, hnotices⟩ | hexist
        · exact .inl ⟨j + 1, by omega, b, by simpa using hjb, hb,
            by rwa [← hindex]⟩
        · exact .inr hexist

section Result

variable {pointers : List (Option NodeId)} {i lowest : Nat}
  {r : Outcome (Option Nat)}

/-- The search returns exactly when everything that it looks up is there. -/
theorem Search.returns_iff (hs : Search h n nodes modules i pointers lowest r)
    (hmodules : ∀ a, LookedAt h nodes a → moduleIndex h modules a ≠ none) :
    (∃ x, r = .ok x) ↔ LooksUpFrom h n nodes i pointers := by
  induction hs with
  | done i lowest => exact iff_of_true ⟨_, rfl⟩ fun m a hm => by cases hm
  | skip i lowest pointer rest r hskip _ ih =>
      rw [ih, looksUpFrom_cons fun b hpointer hb => absurd hb (hskip b hpointer)]
  | notice i lowest b rest hb hnotices =>
      refine iff_of_true ⟨_, rfl⟩ fun m a hm ha => ?_
      cases m with
      | zero =>
          obtain rfl := Option.some.inj (Option.some.inj hm)
          exact .inr hnotices.entriesExist
      | succ m => exact .inl ⟨0, by omega, b, rfl, hb, hnotices⟩
  | pass i lowest k b rest r hb hpasses _ _ ih =>
      rw [ih, looksUpFrom_cons]
      rintro b' heq -
      rwa [← Option.some.inj heq]
  | missing i lowest b rest e hb hmissing _ =>
      refine iff_of_false (by simp) fun hall => ?_
      rcases hall 0 b rfl hb with ⟨j, hj, -⟩ | hexist
      · omega
      · exact hmissing hexist
  | unknown i lowest b rest e hb hnone => exact absurd hnone (hmodules b hb)

/-- It fails for no other reason than a missing entry. -/
theorem Search.eq_undefined
    (hs : Search h n nodes modules i pointers lowest r)
    (hmodules : ∀ a, LookedAt h nodes a → moduleIndex h modules a ≠ none)
    (hnext : ∀ a, some a ∈ pointers → LookedAt h nodes a →
      some n ∈ (h a).nextNodes) {e : Fault} (hr : r = .error e) :
    e = .undefined := by
  induction hs with
  | done | notice => cases hr
  | skip i lowest pointer rest r _ _ ih =>
      exact ih (fun a ha => hnext a (List.mem_cons_of_mem _ ha)) hr
  | pass i lowest k b rest r _ _ _ _ ih =>
      exact ih (fun a ha => hnext a (List.mem_cons_of_mem _ ha)) hr
  | missing i lowest b rest e' hb _ he =>
      obtain ⟨k, hk⟩ :=
        exists_findLocation (hnext b List.mem_cons_self hb)
      rw [← Except.error.inj hr]
      exact he k hk
  | unknown i lowest b rest e' hb hnone => exact absurd hnone (hmodules b hb)

/-- An input has kept the node out of the run. -/
theorem Search.noticed (hs : Search h n nodes modules i pointers lowest r)
    (hr : r = .ok none) : ∃ m a, pointers[m]? = some (some a) ∧
      LookedAt h nodes a ∧ Notices h n (i + m) a := by
  induction hs with
  | done | missing | unknown => cases hr
  | skip i lowest pointer rest r _ _ ih =>
      obtain ⟨m, a, hm, ha, hnotices⟩ := ih hr
      exact ⟨m + 1, a, by simpa using hm, ha, by
        rwa [show i + (m + 1) = i + 1 + m by omega]⟩
  | notice i lowest b rest hb hnotices => exact ⟨0, b, rfl, hb, hnotices⟩
  | pass i lowest k b rest r _ _ _ _ ih =>
      obtain ⟨m, a, hm, ha, hnotices⟩ := ih hr
      exact ⟨m + 1, a, by simpa using hm, ha, by
        rwa [show i + (m + 1) = i + 1 + m by omega]⟩

/-- No input has. -/
theorem Search.passes (hs : Search h n nodes modules i pointers lowest r)
    {p : Nat} (hr : r = .ok (some p)) {m : Nat} {a : NodeId}
    (hm : pointers[m]? = some (some a)) (ha : LookedAt h nodes a) :
    Passes h n (i + m) a := by
  induction hs generalizing m with
  | done => cases hm
  | notice | missing | unknown => cases hr
  | skip i lowest pointer rest r hskip _ ih =>
      cases m with
      | zero => exact absurd ha (hskip a (by simpa using hm))
      | succ m =>
          rw [show i + (m + 1) = i + 1 + m by omega]
          exact ih hr (by simpa using hm)
  | pass i lowest k b rest r _ hpasses _ _ ih =>
      cases m with
      | zero =>
          obtain rfl := Option.some.inj (Option.some.inj hm)
          exact hpasses
      | succ m =>
          rw [show i + (m + 1) = i + 1 + m by omega]
          exact ih hr (by simpa using hm)

/-- The result is the least position behind the modules of the producers. -/
theorem Search.le_iff (hs : Search h n nodes modules i pointers lowest r)
    {p : Nat} (hr : r = .ok (some p)) (q : Nat) :
    p ≤ q ↔ lowest ≤ q ∧ ∀ a, some a ∈ pointers → LookedAt h nodes a →
      ∀ k, moduleIndex h modules a = some k → k < q := by
  induction hs with
  | done i lowest =>
      obtain rfl := Option.some.inj (Except.ok.inj hr)
      simp
  | notice | missing | unknown => cases hr
  | skip i lowest pointer rest r hskip _ ih =>
      rw [ih hr]
      refine and_congr_right fun _ => forall_congr' fun a => ?_
      rw [List.mem_cons]
      constructor
      · rintro hall (heq | hmem) ha
        · exact absurd ha (hskip a heq.symm)
        · exact hall hmem ha
      · exact fun hall hmem ha => hall (.inr hmem) ha
  | pass i lowest k b rest r hb _ hk _ ih =>
      rw [ih hr, max_le_iff, and_assoc]
      refine and_congr_right fun _ => ?_
      constructor
      · rintro ⟨hkq, hall⟩ a hmem ha k' hk'
        rcases List.mem_cons.mp hmem with heq | hmem
        · rw [Option.some.inj heq, hk, Option.some.injEq] at hk'
          omega
        · exact hall a hmem ha k' hk'
      · intro hall
        exact ⟨hall b List.mem_cons_self hb k hk,
          fun a hmem => hall a (List.mem_cons_of_mem _ hmem)⟩

end Result

theorem findMinPosition_returns_iff
    (hmodules : ∀ a, LookedAt h nodes a → moduleIndex h modules a ≠ none) :
    (∃ r, findMinPosition h n nodes modules = .ok r) ↔ LooksUp h n nodes :=
  search_findMinPosition.returns_iff hmodules

/-- No vector is left exactly when everything that is looked up is there. -/
theorem findMinPosition_in_range_iff
    (hmodules : ∀ a, LookedAt h nodes a → moduleIndex h modules a ≠ none)
    (hnext : ∀ a, some a ∈ (h n).previousNodes → LookedAt h nodes a →
      some n ∈ (h a).nextNodes) :
    findMinPosition h n nodes modules ≠ .error .undefined ↔
      LooksUp h n nodes := by
  rw [← findMinPosition_returns_iff hmodules]
  cases hrun : findMinPosition h n nodes modules with
  | ok r => exact iff_of_true (by simp) ⟨r, rfl⟩
  | error e =>
      have he := search_findMinPosition.eq_undefined hmodules hnext hrun
      simp [he]

end Search

/-! ## The place of a node -/

section Place

variable {lib : AcceleratorLibrary} {h h' : Heap} {n : NodeId}
  {nodes : List QueryNode} {modules r : ConfigurableModulesVector}

/-- The library supports the modules with one for `n` at some position behind
those of its producers. -/
def HasPlace (lib : AcceleratorLibrary) (h : Heap) (n : NodeId)
    (nodes : List QueryNode) (modules : ConfigurableModulesVector) : Prop :=
  ∃ options params q,
    lib.existingModulesLibrary.lookup (h n).operationType = some options ∧
    params ∈ parameterVectors options ∧ q ≤ modules.length ∧
    (∀ a, some a ∈ (h n).previousNodes → LookedAt h nodes a →
      ∀ k, moduleIndex h modules a = some k → k < q) ∧
    accepts lib (h n).operationType modules q params = true

/-- The node needs a module, and an entry keeps it out of the run or there is no
place for its module. -/
def StaysOut (lib : AcceleratorLibrary) (h : Heap) (n : NodeId)
    (nodes : List QueryNode) (modules : ConfigurableModulesVector) : Prop :=
  (h n).operationType ≠ .kPassThrough ∧
    ((∃ m a, (h n).previousNodes[m]? = some (some a) ∧ LookedAt h nodes a ∧
      Notices h n m a) ∨ ¬HasPlace lib h n nodes modules)

/-- A node that is not placed in a run with modules stays out. -/
theorem staysOut_of_suitable (hs : Suitable lib h n nodes modules h' r)
    (hr : r = []) (hne : modules ≠ []) : StaysOut lib h n nodes modules := by
  cases hs with
  | passed _ => exact absurd hr hne
  | placed _ _ _ _ => exact absurd hr (insertModule_ne_nil _ _ _)
  | notPlaced hop hnone =>
      refine ⟨hop, ?_⟩
      rcases hnone with hnone | ⟨p, options, hmin, hoptions, hnone⟩
      · left
        simpa using search_findMinPosition.noticed hnone
      · right
        rintro ⟨options', params, q, hoptions', hparams, hq, hbehind, haccept⟩
        rw [hoptions, Option.some.injEq] at hoptions'
        subst hoptions'
        have hcheck := hnone q
          ((search_findMinPosition.le_iff hmin q).mpr ⟨Nat.zero_le q, hbehind⟩)
          hq
        rw [checkModulePosition_eq hop hq, Except.ok.injEq,
          firstSupported_eq_nil] at hcheck
        rw [hcheck params hparams] at haccept
        cases haccept

/-- A node that is placed does not. -/
theorem not_staysOut_of_suitable (hs : Suitable lib h n nodes modules h' r)
    (hr : r ≠ []) : ¬StaysOut lib h n nodes modules := by
  rintro ⟨hop, hout⟩
  cases hs with
  | passed hpass => exact hop hpass
  | notPlaced _ _ => exact hr rfl
  | placed p q options params _ hmin hoptions hpq hq _ hcheck _ =>
      rcases hout with ⟨m, a, hm, ha, hnotices⟩ | hno
      · have hpasses := search_findMinPosition.passes hmin hm ha
        rw [Nat.zero_add] at hpasses
        exact hpasses.not_notices hnotices
      · rw [checkModulePosition_eq hop hq, Except.ok.injEq] at hcheck
        have hsome := mt firstSupported_eq_nil.mpr
          (hcheck ▸ insertModule_ne_nil _ _ _)
        push Not at hsome
        obtain ⟨params', hparams, haccept⟩ := hsome
        refine hno ⟨options, params', q, hoptions, hparams, hq, ?_, ?_⟩
        · exact ((search_findMinPosition.le_iff hmin q).mp hpq).2
        · simpa using haccept

end Place

/-! ## Nodes of a run that grows -/

/-- Everything that is looked up for the node of a call is there. -/
def EntriesThere (s : SchedulerState) : Prop :=
  ∀ n, s.startingNodes[s.previousNodeIndex]? = some n →
    (s.heap n).operationType ≠ .kPassThrough →
    LooksUp s.heap n (createReferenceVector s.heap s.currentQueryNodes)

section Run

variable {P : Plan} {lib : AcceleratorLibrary} {start : Heap}
  {earlier : List NodeId} {s : SchedulerState} {n : NodeId}

theorem lookedAt_iff (hs : Growing P lib start earlier s) {a : NodeId}
    (hnode : a ∈ P.nodes) :
    LookedAt s.heap (createReferenceVector s.heap s.currentQueryNodes) a ↔
      a ∈ s.currentQueryNodes ∧ (P.heap a).operationType ≠ .kPassThrough := by
  have hmem : ∀ m ∈ s.currentQueryNodes, m ∈ P.nodes :=
    fun m hm => (hs.not_earlier hm).2
  rw [LookedAt, hs.tracks.operationType, createReferenceVector, List.mem_map]
  constructor
  · rintro ⟨⟨b, hb, heq⟩, hop⟩
    exact ⟨hs.tracks.eq_of_value (hmem b hb) hnode heq ▸ hb, hop⟩
  · rintro ⟨ha, hop⟩
    exact ⟨⟨a, ha, rfl⟩, hop⟩

/-- A producer in the run has a module. -/
theorem moduleIndex_ne_none (hs : Growing P lib start earlier s) {a : NodeId}
    (ha : LookedAt s.heap
      (createReferenceVector s.heap s.currentQueryNodes) a) :
    moduleIndex s.heap s.currentModulesVector a ≠ none := by
  obtain ⟨hmem, hop⟩ := ha
  obtain ⟨b, hb, heq⟩ := List.mem_map.mp hmem
  have htype : (s.heap a).operationType ∈ moduleTypes P s.currentQueryNodes := by
    rw [moduleTypes, List.mem_filter]
    refine ⟨List.mem_map.mpr ⟨b, hb, ?_⟩, by simpa using hop⟩
    rw [← hs.tracks.operationType, heq]
  obtain ⟨operation, hoperation, heq⟩ :=
    List.mem_map.mp (hs.types.mem_iff.mpr htype)
  intro hnone
  have hno := List.findIdx?_eq_none_iff.mp hnone operation hoperation
  simp [heq] at hno

/-- The producers of the node that is looked at have it among their next
nodes. -/
theorem next_of_previous (hs : Growing P lib start earlier s)
    (hn : s.startingNodes[s.previousNodeIndex]? = some n) {a : NodeId}
    (ha : some a ∈ (s.heap n).previousNodes)
    (hlook : LookedAt s.heap
      (createReferenceVector s.heap s.currentQueryNodes) a) :
    some n ∈ (s.heap a).nextNodes := by
  obtain ⟨hnode, -, hearlier, -⟩ := hs.current hn
  rw [hs.tracks.previousNodes n hearlier] at ha
  have hedge := (Plan.edge_iff_previous hnode).mpr ha
  rw [hs.next_of_mem ((lookedAt_iff hs hedge.left).mp hlook).1]
  exact hedge.2

end Run

end Orkhestra.Ports.MinimumPosition
