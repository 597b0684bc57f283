import Orkhestra.Ports.ConfigCreator
import Orkhestra.Verified.Choices

/-!
# The search for a module

`FindSuitableModuleCombination` goes through the positions from the minimum
position on, and at each of them through the values of the parameters, the last
parameter first.  With the module library that belongs to the accelerators the
values are sorted and the parameters of every module of the accelerators are
among them, so the first vector that is supported is the one with the least
position and, there, with the least parameters.
-/

namespace Orkhestra.Ports.ModuleSearch

open Orkhestra.Verified.Checked
open Orkhestra.Verified.Choices
open Orkhestra.Ports.QuerySchedulingData
open Orkhestra.Ports.NodeScheduler
open Orkhestra.Ports.ConfigCreator

/-! ## Parameters at one position -/

section Position

variable {lib : AcceleratorLibrary} {op : QueryOperationType}
  {modules : ConfigurableModulesVector} {p : Nat}

/-- Is there a bitstream for the modules with one more? -/
def accepts (lib : AcceleratorLibrary) (op : QueryOperationType)
    (modules : ConfigurableModulesVector) (p : Nat) (params : List Int) : Bool :=
  isModuleSetSupported (insertModule modules p ⟨op, params⟩) lib

/-- The modules with the first of the parameters that are supported. -/
def firstSupported (lib : AcceleratorLibrary) (op : QueryOperationType)
    (modules : ConfigurableModulesVector) (p : Nat)
    (candidates : List (List Int)) : ConfigurableModulesVector :=
  match candidates.find? (accepts lib op modules p) with
  | some params => insertModule modules p ⟨op, params⟩
  | none => []

theorem firstSupported_append (candidates candidates' : List (List Int)) :
    firstSupported lib op modules p (candidates ++ candidates') =
      if firstSupported lib op modules p candidates ≠ [] then
        firstSupported lib op modules p candidates
      else firstSupported lib op modules p candidates' := by
  obtain hnone | ⟨params, hsome⟩ := Option.eq_none_or_eq_some
    (candidates.find? (accepts lib op modules p))
  · simp [firstSupported, List.find?_append, hnone]
  · simp [firstSupported, List.find?_append, hsome, insertModule_ne_nil]

theorem firstNonEmpty_firstSupported {values : List Int}
    {f : Int → Outcome ConfigurableModulesVector}
    {candidates : Int → List (List Int)}
    (h : ∀ value, f value =
      .ok (firstSupported lib op modules p (candidates value))) :
    firstNonEmpty f values =
      .ok (firstSupported lib op modules p (values.flatMap candidates)) := by
  induction values with
  | nil => rfl
  | cons value values ih =>
      rw [firstNonEmpty, h, ok_bind, ih, List.flatMap_cons,
        firstSupported_append]
      split <;> rfl

theorem take_set_succ {params : List Int} {i : Nat} (hi : i < params.length)
    (value : Int) : (params.set i value).take (i + 1) =
      params.take i ++ [value] := by
  rw [List.take_succ_eq_append_getElem (by simpa using hi),
    List.getElem_set_self, List.take_set_of_le (Nat.le_refl i)]

/-- The recursion over the parameters takes the first choice that is
supported. -/
theorem checkModuleParameterSupport_eq (hop : op ≠ .kPassThrough)
    (hp : p ≤ modules.length) {options : List (List Int)} (hne : options ≠ [])
    {i : Nat} {params : List Int}
    (hlength : params.length = i + (options.filterMap (·.head?)).length) :
    checkModuleParameterSupport lib op p modules options i params =
      .ok (firstSupported lib op modules p
        ((choices options).map fun values => params.take i ++ values)) := by
  induction options generalizing i params with
  | nil => exact absurd rfl hne
  | cons values rest ih =>
      rw [checkModuleParameterSupport, choices, List.map_flatMap]
      cases values with
      | nil => rfl
      | cons first values =>
          have hmore : (((first :: values) :: rest).filterMap (·.head?)).length =
              (rest.filterMap (·.head?)).length + 1 := rfl
          rw [hmore] at hlength
          have hi : i < params.length := by omega
          refine firstNonEmpty_firstSupported fun value => ?_
          rw [writeAt, if_pos hi, ok_bind]
          by_cases hrest : rest = []
          · subst hrest
            have hfull : params.set i value = params.take i ++ [value] := by
              rw [← take_set_succ hi value, List.take_of_length_le]
              simp at hlength ⊢
              omega
            rw [if_pos rfl, createNewModulesVector_eq hop hp, hfull]
            simp only [choices, List.map_cons, List.map_nil, firstSupported,
              List.find?_cons, List.find?_nil, accepts]
            cases isModuleSetSupported
              (insertModule modules p ⟨op, params.take i ++ [value]⟩) lib <;>
              rfl
          · rw [if_neg hrest, ih hrest (by rw [List.length_set]; omega),
              take_set_succ hi, List.map_map]
            simp [Function.comp_def]

/-- The parameters that are tried: a module without options for any parameter
has none. -/
def parameterVectors (options : List (List Int)) : List (List Int) :=
  if options.filterMap (·.head?) = [] then [[]] else choices options

theorem checkModulePosition_eq (hop : op ≠ .kPassThrough)
    (hp : p ≤ modules.length) (options : List (List Int)) :
    checkModulePosition lib op modules options p =
      .ok (firstSupported lib op modules p (parameterVectors options)) := by
  simp only [checkModulePosition, parameterVectors]
  by_cases hparams : options.filterMap (·.head?) = []
  · simp only [hparams, ne_eq, not_true_eq_false, if_false, if_true,
      createNewModulesVector_eq hop hp, firstSupported, List.find?_cons,
      List.find?_nil, accepts]
    cases isModuleSetSupported (insertModule modules p ⟨op, []⟩) lib <;> rfl
  · have hne : options ≠ [] := by
      rintro rfl
      exact hparams rfl
    rw [if_pos hparams, if_neg hparams,
      checkModuleParameterSupport_eq hop hp hne (Nat.zero_add _).symm]
    simp

theorem parameterVectors_eq_choices {options : List (List Int)}
    (h : ∀ values ∈ options, values ≠ []) :
    parameterVectors options = choices options := by
  rw [parameterVectors]
  cases options with
  | nil => rfl
  | cons values rest =>
      cases values with
      | nil => exact absurd rfl (h [] List.mem_cons_self)
      | cons first values => rfl

theorem firstSupported_eq_nil {candidates : List (List Int)} :
    firstSupported lib op modules p candidates = [] ↔
      ∀ params ∈ candidates, accepts lib op modules p params = false := by
  rw [firstSupported]
  cases hfind : candidates.find? (accepts lib op modules p) with
  | none =>
      have hnone := List.find?_eq_none.mp hfind
      simpa using hnone
  | some params =>
      have haccept := List.find?_some hfind
      have hmem := List.mem_of_find?_eq_some hfind
      refine iff_of_false (insertModule_ne_nil _ _ _) fun hnone => ?_
      rw [hnone params hmem] at haccept
      cases haccept

end Position

/-! ## All positions -/

/-- The loop over the positions returns. -/
theorem findModulePosition_total {op : QueryOperationType}
    (hop : op ≠ .kPassThrough) (lib : AcceleratorLibrary)
    {modules : ConfigurableModulesVector} (options : List (List Int))
    {count p : Nat} (hcount : p + count ≤ modules.length + 1) :
    ∃ r, findModulePosition lib op modules options count p = .ok r := by
  induction count generalizing p with
  | zero => exact ⟨none, rfl⟩
  | succ count ih =>
      rw [findModulePosition, checkModulePosition_eq hop (by omega), ok_bind]
      split
      · exact ⟨_, rfl⟩
      · exact ih (by omega)

theorem isModuleSetSupported_iff {r : ConfigurableModulesVector}
    {lib : AcceleratorLibrary} :
    isModuleSetSupported r lib = true ↔
      r ∈ lib.supportedAcceleratorBitstreams.map fun entry => entry.1 := by
  rw [isModuleSetSupported, List.lookup_isSome_iff]
  simp

theorem mem_modulesOf {lib : AcceleratorLibrary} {r : ConfigurableModulesVector}
    (h : isModuleSetSupported r lib = true) {o : QueryOperation} (ho : o ∈ r) :
    o ∈ modulesOf lib.supportedAcceleratorBitstreams := by
  obtain ⟨entry, hentry, rfl⟩ := List.mem_map.mp (isModuleSetSupported_iff.mp h)
  exact List.mem_flatMap.mpr ⟨entry, hentry, ho⟩

section Derived

variable {lib : AcceleratorLibrary} {t : QueryOperationType}
  {options : List (List Int)} {modules : ConfigurableModulesVector} {p : Nat}

theorem values_ne_nil (hlib : Derived lib)
    (hoptions : lib.existingModulesLibrary.lookup t = some options) :
    ∀ values ∈ options, values ≠ [] := by
  obtain ⟨o, ho, hot⟩ := hlib.present t (by simp [hoptions])
  obtain ⟨options', hoptions', hoffers⟩ := hlib.offered o ho
  rw [hot, hoptions, Option.some.injEq] at hoptions'
  subst hoptions'
  intro values hvalues hnil
  subst hnil
  obtain ⟨i, hi, hvalue⟩ := List.mem_iff_getElem.mp hvalues
  have hmem := hoffers.get (by rw [← hoffers.length_eq]; exact hi) hi
  rw [List.get_eq_getElem, List.get_eq_getElem, hvalue] at hmem
  exact List.not_mem_nil hmem

/-- The parameters of every supported module are among the choices. -/
theorem mem_choices_of_accepts (hlib : Derived lib)
    (hoptions : lib.existingModulesLibrary.lookup t = some options)
    {params : List Int} (h : accepts lib t modules p params = true) :
    params ∈ choices options := by
  obtain ⟨options', hoptions', hoffers⟩ := hlib.offered ⟨t, params⟩
    (mem_modulesOf h (by simp [insertModule]))
  rw [hoptions, Option.some.injEq] at hoptions'
  subst hoptions'
  exact mem_choices.mpr hoffers

/-- Nothing is found where nothing is supported. -/
theorem checkModulePosition_eq_nil_iff (hlib : Derived lib)
    (ht : t ≠ .kPassThrough) (hp : p ≤ modules.length)
    (hoptions : lib.existingModulesLibrary.lookup t = some options) :
    checkModulePosition lib t modules options p = .ok [] ↔
      ∀ params, accepts lib t modules p params = false := by
  rw [checkModulePosition_eq ht hp,
    parameterVectors_eq_choices (values_ne_nil hlib hoptions),
    Except.ok.injEq, firstSupported_eq_nil]
  constructor
  · intro h params
    by_contra haccept
    rw [Bool.not_eq_false] at haccept
    rw [h params (mem_choices_of_accepts hlib hoptions haccept)] at haccept
    cases haccept
  · exact fun h params _ => h params

/-- What is found is the supported module with the least parameters. -/
theorem checkModulePosition_least (hlib : Derived lib)
    (ht : t ≠ .kPassThrough) (hp : p ≤ modules.length)
    (hoptions : lib.existingModulesLibrary.lookup t = some options)
    {r : ConfigurableModulesVector} (hne : r ≠ [])
    (h : checkModulePosition lib t modules options p = .ok r) :
    ∃ params, r = insertModule modules p ⟨t, params⟩ ∧
      accepts lib t modules p params = true ∧
      ∀ params', accepts lib t modules p params' = true →
        params = params' ∨ List.Lex (· < ·) params params' := by
  rw [checkModulePosition_eq ht hp,
    parameterVectors_eq_choices (values_ne_nil hlib hoptions),
    Except.ok.injEq] at h
  obtain hnone | ⟨params, hsome⟩ := Option.eq_none_or_eq_some
    ((choices options).find? (accepts lib t modules p))
  · rw [firstSupported, hnone] at h
    exact absurd h.symm hne
  · rw [firstSupported, hsome] at h
    obtain ⟨haccept, -, hleast⟩ := find?_least
      (pairwise_choices (hlib.sorted t options hoptions)) hsome
    refine ⟨params, h.symm, haccept, ?_⟩
    exact fun params' haccept' => hleast params'
      (mem_choices_of_accepts hlib hoptions haccept') haccept'

end Derived

/-- The library has modules `r`, which are the given ones with a module of type
`t` and with parameters `params` at position `p`. -/
structure Fits (lib : AcceleratorLibrary) (t : QueryOperationType)
    (modules : ConfigurableModulesVector) (lowest p : Nat) (params : List Int)
    (r : ConfigurableModulesVector) : Prop where
  from_lowest : lowest ≤ p
  within : p ≤ modules.length
  inserted : r = insertModule modules p ⟨t, params⟩
  supported :
    r ∈ lib.supportedAcceleratorBitstreams.map fun entry => entry.1

theorem Fits.accepts {lib : AcceleratorLibrary} {t : QueryOperationType}
    {modules r : ConfigurableModulesVector} {lowest p : Nat} {params : List Int}
    (h : Fits lib t modules lowest p params r) :
    ModuleSearch.accepts lib t modules p params = true :=
  isModuleSetSupported_iff.mpr (h.inserted ▸ h.supported)

section Search

variable {lib : AcceleratorLibrary} {h h' : Heap} {n : NodeId}
  {nodes : List QueryNode} {modules r : ConfigurableModulesVector}
  {lowest : Nat}

theorem exists_found_of_fits (hlib : Derived lib)
    (ht : (h n).operationType ≠ .kPassThrough)
    (hmin : findMinPosition h n nodes modules = .ok (some lowest)) {p : Nat}
    {params : List Int}
    (hfits : Fits lib (h n).operationType modules lowest p params r) :
    ∃ h' r', findSuitableModuleCombination h n nodes modules lib =
      .ok (h', r') ∧ r' ≠ [] := by
  obtain ⟨options, hoptions, -⟩ := hlib.offered ⟨(h n).operationType, params⟩
    (mem_modulesOf hfits.accepts (by simp [insertModule]))
  have hle := hfits.from_lowest.trans hfits.within
  obtain ⟨found, hfound⟩ := findModulePosition_total ht lib options
    (show lowest + (modules.length + 1 - lowest) ≤ modules.length + 1 by omega)
  cases found with
  | none =>
      have hnone := findModulePosition_none hfound p hfits.from_lowest
        (by have := hfits.within; omega)
      rw [checkModulePosition_eq_nil_iff hlib ht hfits.within hoptions] at hnone
      have haccept := hfits.accepts
      rw [hnone params] at haccept
      cases haccept
  | some found =>
      obtain ⟨q, r'⟩ := found
      obtain ⟨-, -, hne, -, -⟩ := findModulePosition_some hfound
      refine ⟨h.modify n fun node => { node with moduleLocation := q + 1 }, r',
        ?_, hne⟩
      rw [findSuitableModuleCombination, if_neg ht, hmin, ok_bind]
      simp only [hoptions, hfound, ok_bind]

theorem found_least (hlib : Derived lib)
    (ht : (h n).operationType ≠ .kPassThrough)
    (hmin : findMinPosition h n nodes modules = .ok (some lowest))
    (hfind : findSuitableModuleCombination h n nodes modules lib = .ok (h', r))
    (hne : r ≠ []) :
    ∃ p params, Fits lib (h n).operationType modules lowest p params r ∧
      h' = h.modify n (fun node => { node with moduleLocation := p + 1 }) ∧
      ∀ p' params' r',
        Fits lib (h n).operationType modules lowest p' params' r' →
        p ≤ p' ∧
          (p' = p → params = params' ∨ List.Lex (· < ·) params params') := by
  cases findSuitableModuleCombination_cases hfind with
  | passed hpass => exact absurd hpass ht
  | notPlaced _ _ => exact absurd rfl hne
  | placed p q options params _ hmin' hoptions hpq hq hbefore hcheck _ =>
      rw [hmin, Except.ok.injEq, Option.some.injEq] at hmin'
      subst hmin'
      obtain ⟨params', heq, haccept, hleast⟩ := checkModulePosition_least hlib
        ht hq hoptions (insertModule_ne_nil _ _ _) hcheck
      refine ⟨q, params', ⟨hpq, hq, heq, ?_⟩, rfl, ?_⟩
      · rw [heq]
        exact isModuleSetSupported_iff.mp haccept
      · intro p' params'' r' hfits
        have haccept' := hfits.accepts
        constructor
        · -- The positions in front of `q` are not supported.
          by_contra hlt
          have hnone := hbefore p' hfits.from_lowest (by omega)
          rw [checkModulePosition_eq_nil_iff hlib ht hfits.within
            hoptions] at hnone
          rw [hnone params''] at haccept'
          cases haccept'
        · rintro rfl
          exact hleast params'' haccept'

end Search

/-- The search finds a module exactly when one fits, and the one that it finds
is at the least position and has the least parameters there. -/
theorem module_search_complete {data : AcceleratorLibraryData}
    {lib : AcceleratorLibrary} (hlib : getConfig data = .ok lib)
    (hcount :
      SameParameterCount (modulesOf lib.supportedAcceleratorBitstreams))
    {h : Heap} {n : NodeId} {nodes : List QueryNode}
    {modules : ConfigurableModulesVector} {lowest : Nat}
    (ht : (h n).operationType ≠ .kPassThrough)
    (hmin : findMinPosition h n nodes modules = .ok (some lowest)) :
    ((∃ h' r, findSuitableModuleCombination h n nodes modules lib =
        .ok (h', r) ∧ r ≠ []) ↔
      ∃ p params r,
        Fits lib (h n).operationType modules lowest p params r) ∧
    ∀ h' r, findSuitableModuleCombination h n nodes modules lib = .ok (h', r) →
      r ≠ [] →
      ∃ p params, Fits lib (h n).operationType modules lowest p params r ∧
        h' = h.modify n (fun node => { node with moduleLocation := p + 1 }) ∧
        ∀ p' params' r',
          Fits lib (h n).operationType modules lowest p' params' r' →
          p ≤ p' ∧
            (p' = p → params = params' ∨ List.Lex (· < ·) params params') := by
  have hderived := getConfig_derived hlib hcount
  refine ⟨⟨?_, ?_⟩, fun h' r => found_least hderived ht hmin⟩
  · rintro ⟨h', r, hfind, hne⟩
    obtain ⟨p, params, hfits, -⟩ := found_least hderived ht hmin hfind hne
    exact ⟨p, params, r, hfits⟩
  · rintro ⟨p, params, r, hfits⟩
    exact exists_found_of_fits hderived ht hmin hfits

/-! A filter that the library only has behind a join, in two sizes. -/

def filtersBehindJoin : AcceleratorLibraryData :=
  [([("kFilter", [32, 4])], "filter.bin"),
    ([("kJoin", [])], "join.bin"),
    ([("kJoin", []), ("kFilter", [16, 4])], "small.bin"),
    ([("kJoin", []), ("kFilter", [16, 8])], "large.bin")]

def filtersBehindJoinLibrary : AcceleratorLibrary where
  supportedAcceleratorBitstreams :=
    [([⟨.kFilter, [32, 4]⟩], "filter.bin"),
      ([⟨.kJoin, []⟩], "join.bin"),
      ([⟨.kJoin, []⟩, ⟨.kFilter, [16, 4]⟩], "small.bin"),
      ([⟨.kJoin, []⟩, ⟨.kFilter, [16, 8]⟩], "large.bin")]
  existingModulesLibrary := [(.kFilter, [[16, 32], [4, 8]]), (.kJoin, [])]

theorem getConfig_filtersBehindJoin :
    getConfig filtersBehindJoin = .ok filtersBehindJoinLibrary := by
  have hparts : (getConfig filtersBehindJoin >>= fun lib =>
      Except.ok (lib.supportedAcceleratorBitstreams,
        lib.existingModulesLibrary)).toOption =
      some (filtersBehindJoinLibrary.supportedAcceleratorBitstreams,
        filtersBehindJoinLibrary.existingModulesLibrary) := by decide +kernel
  rw [toOption_eq_some, bind_eq_ok] at hparts
  obtain ⟨lib, hlib, hparts⟩ := hparts
  obtain ⟨hbitstreams, hmodules⟩ := Prod.mk.inj (Except.ok.inj hparts)
  rw [hlib, show lib = filtersBehindJoinLibrary by
    cases lib
    exact congrArg₂ AcceleratorLibrary.mk hbitstreams hmodules]

/-- A filter with the streams of its inputs. -/
def filterNode : QueryNode where
  inputDataDefinitionFiles := ["a.csv"]
  outputDataDefinitionFiles := [""]
  operationType := .kFilter
  nextNodes := [none]
  previousNodes := [none]
  operationParameters := ⟨[[], [], [], []], [[], [], [], []], []⟩
  nodeName := "filter"
  isChecked := [false]

theorem module_search_complete_filtersBehindJoin :
    ∃ h', findSuitableModuleCombination (fun _ => filterNode) 0 []
        [⟨.kJoin, []⟩] filtersBehindJoinLibrary =
        .ok (h', [⟨.kJoin, []⟩, ⟨.kFilter, [16, 4]⟩]) ∧
      ∃ p params, Fits filtersBehindJoinLibrary .kFilter [⟨.kJoin, []⟩] 0 p
          params [⟨.kJoin, []⟩, ⟨.kFilter, [16, 4]⟩] ∧
        ∀ p' params' r', Fits filtersBehindJoinLibrary .kFilter [⟨.kJoin, []⟩]
            0 p' params' r' →
          p ≤ p' ∧
            (p' = p → params = params' ∨ List.Lex (· < ·) params params') := by
  have hfind : (findSuitableModuleCombination (fun _ => filterNode) 0 []
      [⟨.kJoin, []⟩] filtersBehindJoinLibrary >>= fun found =>
        Except.ok found.2).toOption =
      some [⟨.kJoin, []⟩, ⟨.kFilter, [16, 4]⟩] := by decide +kernel
  rw [toOption_eq_some, bind_eq_ok] at hfind
  obtain ⟨⟨h', r⟩, hfind, hr⟩ := hfind
  obtain rfl := Except.ok.inj hr
  have hcount : SameParameterCount
      (modulesOf filtersBehindJoinLibrary.supportedAcceleratorBitstreams) := by
    unfold SameParameterCount
    decide +kernel
  obtain ⟨p, params, hfits, -, hleast⟩ :=
    (module_search_complete getConfig_filtersBehindJoin hcount
      (by decide) rfl).2 h' _ hfind (by simp)
  exact ⟨h', hfind, p, params, hfits, hleast⟩

end Orkhestra.Ports.ModuleSearch
