import Mathlib.Data.List.Sort
import Orkhestra.Ports.NodeScheduler

/-!
# The libraries of a configuration

`ConfigCreator`: the accelerators that the JSON reader has read become the
accelerator library, and the parameters of their modules the module library: for
each operation type and each parameter the values that occur, sorted and without
repetitions.

Maps are lists of their entries.  The accelerators come in the order of the
map, and of two entries with one key the first one counts, as with `insert`.
-/

namespace Orkhestra.Ports.ConfigCreator

open Orkhestra.Verified.Checked
open Orkhestra.Ports.QuerySchedulingData
open Orkhestra.Ports.NodeScheduler

/-- Accelerators with their bitstreams, the operation types by name. -/
abbrev AcceleratorLibraryData := List (List (String × List Int) × String)

/-- Values of the parameters of the modules, by operation type. -/
abbrev ModuleLibrary := List (QueryOperationType × List (List Int))

def kSupportedFunctions : List (String × QueryOperationType) :=
  [("kFilter", .kFilter), ("kJoin", .kJoin), ("kMergeSort", .kMergeSort),
    ("kLinearSort", .kLinearSort), ("kAddition", .kAddition),
    ("kMultiplication", .kMultiplication),
    ("kAggregationSum", .kAggregationSum), ("kPassThrough", .kPassThrough)]

/-- `kSupportedFunctions.at(name)`. -/
def supportedFunction (name : String) : Outcome QueryOperationType :=
  match kSupportedFunctions.lookup name with
  | some operationType => .ok operationType
  | none => .error .outOfRange

def convertOperation (operation : String × List Int) :
    Outcome QueryOperation := do
  let operationType ← supportedFunction operation.1
  .ok ⟨operationType, operation.2⟩

def convertEntry (entry : List (String × List Int) × String) :
    Outcome (ConfigurableModulesVector × String) := do
  let queryVector ← entry.1.mapM convertOperation
  .ok (queryVector, entry.2)

def convertStringMapToQueryOperations (stringMap : AcceleratorLibraryData) :
    Outcome (List (ConfigurableModulesVector × String)) :=
  stringMap.mapM convertEntry

/-- The parameters of one more module; an operation type that has had fewer of
them has no vector for the rest. -/
def pushParameters (params : List (List Int)) (values : List Int) :
    Outcome (List (List Int)) :=
  values.zipIdx.foldlM (fun params value => do
    let paramVector ← readAt params value.2
    writeAt params value.2 (paramVector ++ [value.1])) params

def insertOperation (library : ModuleLibrary)
    (operation : String × List Int) : Outcome ModuleLibrary := do
  let operationType ← supportedFunction operation.1
  match library.lookup operationType with
  | some params => do
      let params ← pushParameters params operation.2
      .ok (library.map fun entry =>
        if entry.1 = operationType then (operationType, params) else entry)
  | none =>
      .ok (library ++ [(operationType, operation.2.map fun value => [value])])

/-- `std::unique`: repetitions behind one another are dropped. -/
def unique : List Int → List Int
  | [] => []
  | [x] => [x]
  | x :: y :: rest =>
      if x = y then unique (y :: rest) else x :: unique (y :: rest)

def sortUnique (paramVector : List Int) : List Int :=
  unique (paramVector.insertionSort (· ≤ ·))

def convertAcceleratorLibraryToModuleLibrary
    (acceleratorLibraryData : AcceleratorLibraryData) :
    Outcome ModuleLibrary := do
  let library ← acceleratorLibraryData.foldlM (fun library entry =>
    entry.1.foldlM insertOperation library) []
  .ok (library.map fun entry => (entry.1, entry.2.map sortUnique))

/-- `GetConfig`, as far as the two libraries go. -/
def getConfig (acceleratorLibraryData : AcceleratorLibraryData) :
    Outcome AcceleratorLibrary := do
  let acceleratorLibrary ←
    convertStringMapToQueryOperations acceleratorLibraryData
  let moduleLibrary ←
    convertAcceleratorLibraryToModuleLibrary acceleratorLibraryData
  .ok ⟨acceleratorLibrary, moduleLibrary⟩

/-! ## Sorted values -/

@[simp] theorem mem_unique {xs : List Int} {x : Int} : x ∈ unique xs ↔ x ∈ xs := by
  induction xs using unique.induct with
  | case1 => rfl
  | case2 y => rfl
  | case3 y rest ih =>
      rw [unique, if_pos rfl, ih]
      simp
  | case4 y z rest hne ih =>
      rw [unique, if_neg hne, List.mem_cons, ih]
      simp

theorem pairwise_unique {xs : List Int} (h : xs.Pairwise (· ≤ ·)) :
    (unique xs).Pairwise (· < ·) := by
  induction xs using unique.induct with
  | case1 => exact List.Pairwise.nil
  | case2 y => exact List.pairwise_singleton _ _
  | case3 y rest ih =>
      rw [unique, if_pos rfl]
      exact ih (List.pairwise_cons.mp h).2
  | case4 y z rest hne ih =>
      obtain ⟨hy, hrest⟩ := List.pairwise_cons.mp h
      obtain ⟨hz, -⟩ := List.pairwise_cons.mp hrest
      rw [unique, if_neg hne, List.pairwise_cons]
      refine ⟨?_, ih hrest⟩
      intro x hx
      have hyz := hy z List.mem_cons_self
      rcases List.mem_cons.mp (mem_unique.mp hx) with rfl | hx
      · omega
      · have := hz x hx
        omega

theorem mem_sortUnique {paramVector : List Int} {x : Int} :
    x ∈ sortUnique paramVector ↔ x ∈ paramVector := by
  rw [sortUnique, mem_unique, List.mem_insertionSort]

theorem pairwise_sortUnique (paramVector : List Int) :
    (sortUnique paramVector).Pairwise (· < ·) :=
  pairwise_unique (List.pairwise_insertionSort (· ≤ ·) paramVector)

/-! ## Parameters of the modules that were read -/

/-- A value for each parameter. -/
def Offers (params : List (List Int)) (values : List Int) : Prop :=
  List.Forall₂ (· ∈ ·) values params

theorem Offers.mono {params params' : List (List Int)} {values : List Int}
    (h : Offers params values)
    (hmono : List.Forall₂ (fun xs xs' => ∀ x ∈ xs, x ∈ xs') params params') :
    Offers params' values := by
  induction h generalizing params' with
  | nil =>
      cases hmono
      exact .nil
  | cons hvalue _ ih =>
      cases hmono with
      | cons hhead htail => exact .cons (hhead _ hvalue) (ih htail)

/-- The loop over the parameters of a module that has as many as there are
vectors. -/
theorem pushParameters_ok {params params' : List (List Int)}
    {values : List Int} (hlength : params.length = values.length)
    (h : pushParameters params values = .ok params') :
    Offers params' values ∧
      List.Forall₂ (fun xs xs' => ∀ x ∈ xs, x ∈ xs') params params' := by
  suffices key : ∀ (before : List (List Int)) (params : List (List Int)) values,
      params.length = values.length →
      (values.zipIdx before.length).foldlM (fun params value => do
        let paramVector ← readAt params value.2
        writeAt params value.2 (paramVector ++ [value.1])) (before ++ params) =
        .ok params' →
      ∃ after, params' = before ++ after ∧ Offers after values ∧
        List.Forall₂ (fun xs xs' => ∀ x ∈ xs, x ∈ xs') params after by
    obtain ⟨after, rfl, hoffers⟩ := key [] params values hlength h
    exact hoffers
  intro before params values hlength h
  induction params generalizing before values with
  | nil =>
      obtain rfl := List.length_eq_zero_iff.mp hlength.symm
      rw [List.zipIdx_nil, List.foldlM_nil, pure_eq_ok, Except.ok.injEq] at h
      exact ⟨[], h.symm, .nil, .nil⟩
  | cons paramVector params ih =>
      cases values with
      | nil => cases hlength
      | cons value values =>
          simp only [List.zipIdx_cons, List.foldlM_cons, bind_eq_ok,
            readAt_eq_ok, writeAt_eq_ok, List.getElem?_append_right (Nat.le_refl _),
            Nat.sub_self, List.getElem?_cons_zero, Option.some.injEq] at h
          obtain ⟨params₁, ⟨_, rfl, -, rfl⟩, h⟩ := h
          rw [List.set_append_right _ _ (Nat.le_refl _), Nat.sub_self,
            List.set_cons_zero, ← List.singleton_append, ← List.append_assoc] at h
          obtain ⟨after, rfl, hoffers, hmono⟩ := ih
            (before ++ [paramVector ++ [value]]) values (by simpa using hlength)
            (by simpa using h)
          exact ⟨(paramVector ++ [value]) :: after, by simp,
            .cons (by simp) hoffers, .cons (fun x hx => by simp [hx]) hmono⟩

theorem lookup_append_singleton (library : ModuleLibrary)
    (operationType : QueryOperationType) (params : List (List Int))
    (t : QueryOperationType) :
    (library ++ [(operationType, params)]).lookup t =
      (library.lookup t).or (if t = operationType then some params else none) := by
  induction library with
  | nil =>
      by_cases ht : t = operationType
      · simp [ht]
      · simp [List.lookup_cons, ht, beq_eq_false_iff_ne.mpr ht]
  | cons entry library ih =>
      rw [List.cons_append, List.lookup_cons, List.lookup_cons]
      split
      · rfl
      · exact ih

theorem lookup_replace (library : ModuleLibrary)
    (operationType : QueryOperationType) (params : List (List Int))
    (t : QueryOperationType) :
    (library.map fun entry =>
      if entry.1 = operationType then (operationType, params) else entry).lookup t =
      if t = operationType then (library.lookup t).map fun _ => params
      else library.lookup t := by
  induction library with
  | nil => simp
  | cons entry library ih =>
      rw [List.map_cons, List.lookup_cons, List.lookup_cons, ih]
      by_cases hentry : entry.1 = operationType
      · rw [if_pos hentry, hentry]
        by_cases ht : t = operationType
        · simp [ht]
        · simp [ht, beq_eq_false_iff_ne.mpr ht]
      · rw [if_neg hentry]
        by_cases ht : t = operationType
        · subst ht
          simp [beq_eq_false_iff_ne.mpr (Ne.symm hentry)]
        · simp [ht]

/-- What the module library holds after `modules` has been read. -/
structure Collected (modules : List QueryOperation) (library : ModuleLibrary) :
    Prop where
  present : ∀ t, library.lookup t ≠ none → ∃ o ∈ modules, o.operationType = t
  offered : ∀ o ∈ modules, ∃ params,
    library.lookup o.operationType = some params ∧
      Offers params o.resourceElasticityData

/-- Modules of one operation type have the same number of parameters. -/
def SameParameterCount (modules : List QueryOperation) : Prop :=
  ∀ o ∈ modules, ∀ o' ∈ modules, o.operationType = o'.operationType →
    o.resourceElasticityData.length = o'.resourceElasticityData.length

theorem Offers.length_eq {params : List (List Int)} {values : List Int}
    (h : Offers params values) : params.length = values.length :=
  (List.Forall₂.length_eq h).symm

theorem Collected.insert {modules : List QueryOperation}
    {library library' : ModuleLibrary} (h : Collected modules library)
    {operation : String × List Int} {o : QueryOperation}
    (ho : convertOperation operation = .ok o)
    (hcount : SameParameterCount (modules ++ [o]))
    (hrun : insertOperation library operation = .ok library') :
    Collected (modules ++ [o]) library' := by
  rw [convertOperation, bind_eq_ok] at ho
  obtain ⟨operationType, htype, ho⟩ := ho
  obtain rfl := Except.ok.inj ho
  rw [insertOperation, htype, ok_bind] at hrun
  have hnew : (⟨operationType, operation.2⟩ : QueryOperation) ∈
      modules ++ [⟨operationType, operation.2⟩] := by simp
  split at hrun
  · next params hparams =>
      obtain ⟨params', hpush, hrun⟩ := bind_eq_ok.mp hrun
      obtain rfl := Except.ok.inj hrun
      -- A module of the type has been read, so the vectors are as many.
      obtain ⟨o, ho, hot⟩ := h.present operationType (by simp [hparams])
      obtain ⟨params₀, hparams₀, hoffers⟩ := h.offered o ho
      rw [hot, hparams, Option.some.injEq] at hparams₀
      subst hparams₀
      have hlength := hcount o (List.mem_append_left _ ho) _ hnew hot
      obtain ⟨hoffered, hmono⟩ :=
        pushParameters_ok (hoffers.length_eq.trans hlength) hpush
      refine ⟨?_, ?_⟩
      · intro t ht
        rw [lookup_replace] at ht
        split at ht
        · next heq => exact ⟨_, hnew, heq.symm⟩
        · obtain ⟨o, ho, hot⟩ := h.present t ht
          exact ⟨o, List.mem_append_left _ ho, hot⟩
      · intro o ho
        rw [lookup_replace]
        rcases List.mem_append.mp ho with ho | ho
        · obtain ⟨params₁, hparams₁, hoffers₁⟩ := h.offered o ho
          split
          · next heq =>
              rw [heq, hparams, Option.some.injEq] at hparams₁
              subst hparams₁
              exact ⟨params', by rw [heq, hparams]; rfl, hoffers₁.mono hmono⟩
          · exact ⟨params₁, hparams₁, hoffers₁⟩
        · obtain rfl := List.mem_singleton.mp ho
          exact ⟨params', by simp [hparams], hoffered⟩
  · next hparams =>
      obtain rfl := Except.ok.inj hrun
      refine ⟨?_, ?_⟩
      · intro t ht
        rw [lookup_append_singleton] at ht
        by_cases heq : t = operationType
        · exact ⟨_, hnew, heq.symm⟩
        · rw [if_neg heq, Option.or_none] at ht
          obtain ⟨o, ho, hot⟩ := h.present t ht
          exact ⟨o, List.mem_append_left _ ho, hot⟩
      · simp only [lookup_append_singleton]
        refine forall_mem_concat (fun o ho => ?_) ?_
        · obtain ⟨params₁, hparams₁, hoffers₁⟩ := h.offered o ho
          exact ⟨params₁, by rw [hparams₁, Option.some_or], hoffers₁⟩
        · refine ⟨operation.2.map fun value => [value],
            by rw [hparams, if_pos rfl, Option.none_or], ?_⟩
          exact List.forall₂_map_right_iff.mpr
            (List.forall₂_same.mpr fun value _ => List.mem_singleton_self value)

theorem SameParameterCount.of_subset {modules modules' : List QueryOperation}
    (h : SameParameterCount modules') (hsub : ∀ o ∈ modules, o ∈ modules') :
    SameParameterCount modules :=
  fun o ho o' ho' => h o (hsub o ho) o' (hsub o' ho')

/-- The modules of one accelerator. -/
theorem Collected.operations {operations : List (String × List Int)}
    {before ops : List QueryOperation} {library library' : ModuleLibrary}
    (h : Collected before library)
    (hops : operations.mapM convertOperation = .ok ops)
    (hcount : SameParameterCount (before ++ ops))
    (hrun : operations.foldlM insertOperation library = .ok library') :
    Collected (before ++ ops) library' := by
  induction operations generalizing before ops library with
  | nil =>
      rw [List.mapM_nil, pure_eq_ok, Except.ok.injEq] at hops
      obtain rfl := Except.ok.inj hrun
      subst hops
      rwa [List.append_nil]
  | cons operation operations ih =>
      obtain ⟨o, rest, ho, hrest, rfl⟩ := mapM_cons_eq_ok hops
      rw [List.foldlM_cons, bind_eq_ok] at hrun
      obtain ⟨library₁, hfirst, hrun⟩ := hrun
      rw [List.append_cons] at hcount ⊢
      have hcount₁ : SameParameterCount (before ++ [o]) :=
        hcount.of_subset fun _ hmem => List.mem_append_left rest hmem
      exact ih (h.insert ho hcount₁ hfirst) hrest hcount hrun

/-- Modules of the accelerators. -/
def modulesOf (bitstreams : List (ConfigurableModulesVector × String)) :
    List QueryOperation :=
  bitstreams.flatMap fun entry => entry.1

/-- The modules of all accelerators. -/
theorem Collected.entries {data : AcceleratorLibraryData}
    {before : List QueryOperation}
    {bitstreams : List (ConfigurableModulesVector × String)}
    {library library' : ModuleLibrary} (h : Collected before library)
    (hbitstreams : data.mapM convertEntry = .ok bitstreams)
    (hcount : SameParameterCount (before ++ modulesOf bitstreams))
    (hrun : data.foldlM (fun library entry =>
      entry.1.foldlM insertOperation library) library =
        .ok library') :
    Collected (before ++ modulesOf bitstreams) library' := by
  induction data generalizing before bitstreams library with
  | nil =>
      rw [List.mapM_nil, pure_eq_ok, Except.ok.injEq] at hbitstreams
      obtain rfl := Except.ok.inj hrun
      subst hbitstreams
      rwa [modulesOf, List.flatMap_nil, List.append_nil]
  | cons entry data ih =>
      obtain ⟨modules, rest, hentry, hrest, rfl⟩ := mapM_cons_eq_ok hbitstreams
      rw [convertEntry, bind_eq_ok] at hentry
      obtain ⟨ops, hops, hentry⟩ := hentry
      obtain rfl := Except.ok.inj hentry
      rw [List.foldlM_cons, bind_eq_ok] at hrun
      obtain ⟨library₁, hfirst, hrun⟩ := hrun
      rw [modulesOf, List.flatMap_cons, ← List.append_assoc] at hcount ⊢
      have hcount₁ : SameParameterCount (before ++ ops) :=
        hcount.of_subset fun _ hmem => List.mem_append_left _ hmem
      exact ih (h.operations hops hcount₁ hfirst) hrest hcount hrun

theorem lookup_map {library : ModuleLibrary}
    (f : List (List Int) → List (List Int)) (t : QueryOperationType) :
    (library.map fun entry => (entry.1, f entry.2)).lookup t =
      (library.lookup t).map f := by
  induction library with
  | nil => rfl
  | cons entry library ih =>
      rw [List.map_cons, List.lookup_cons, List.lookup_cons]
      split
      · rfl
      · exact ih

/-- The module library that belongs to the accelerators: sorted values without
repetitions for the modules of the accelerators, and for no others. -/
structure Derived (lib : AcceleratorLibrary) : Prop where
  sorted : ∀ t options, lib.existingModulesLibrary.lookup t = some options →
    ∀ values ∈ options, values.Pairwise (· < ·)
  offered : ∀ o ∈ modulesOf lib.supportedAcceleratorBitstreams, ∃ options,
    lib.existingModulesLibrary.lookup o.operationType = some options ∧
      Offers options o.resourceElasticityData
  present : ∀ t, lib.existingModulesLibrary.lookup t ≠ none →
    ∃ o ∈ modulesOf lib.supportedAcceleratorBitstreams, o.operationType = t

theorem getConfig_derived {data : AcceleratorLibraryData}
    {lib : AcceleratorLibrary} (h : getConfig data = .ok lib)
    (hcount :
      SameParameterCount (modulesOf lib.supportedAcceleratorBitstreams)) :
    Derived lib := by
  rw [getConfig, bind_eq_ok] at h
  obtain ⟨bitstreams, hbitstreams, h⟩ := h
  rw [bind_eq_ok] at h
  obtain ⟨moduleLibrary, hmodules, h⟩ := h
  obtain rfl := Except.ok.inj h
  rw [convertAcceleratorLibraryToModuleLibrary, bind_eq_ok] at hmodules
  obtain ⟨library, hfold, hmodules⟩ := hmodules
  obtain rfl := Except.ok.inj hmodules
  have hnone : Collected [] [] :=
    ⟨fun t ht => absurd rfl ht, fun o ho => absurd ho List.not_mem_nil⟩
  have hcollected := hnone.entries hbitstreams hcount hfold
  rw [List.nil_append] at hcollected
  refine ⟨?_, ?_, ?_⟩
  · intro t options hoptions values hvalues
    rw [lookup_map, Option.map_eq_some_iff] at hoptions
    obtain ⟨params, -, rfl⟩ := hoptions
    obtain ⟨paramVector, -, rfl⟩ := List.mem_map.mp hvalues
    exact pairwise_sortUnique paramVector
  · intro o ho
    obtain ⟨params, hparams, hoffers⟩ := hcollected.offered o ho
    refine ⟨params.map sortUnique, by rw [lookup_map, hparams]; rfl, ?_⟩
    exact List.forall₂_map_right_iff.mpr
      (hoffers.imp fun _ _ hmem => mem_sortUnique.mpr hmem)
  · intro t ht
    refine hcollected.present t fun hlookup => ht ?_
    rw [lookup_map, hlookup]
    rfl

end Orkhestra.Ports.ConfigCreator
