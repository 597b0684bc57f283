import Mathlib.Algebra.Ring.Int.Defs
import Mathlib.Algebra.Ring.Nat
import Mathlib.Data.List.Basic
import Mathlib.Tactic.Cases

/-!
# Checked computations

A C++ function stops without returning in five ways: it throws
`std::runtime_error`, it throws `std::out_of_range` from an `at`, it throws
another `std::logic_error` of the standard library, an `assert` fails, or it
does something the language leaves undefined (an unchecked `operator[]` outside
the vector, a null dereference, a division by zero, a signed overflow).  All five are values of
`Fault`, so that "never leaves its arithmetic domain" and "throws exactly when"
are statements about the model and not about its absence.

`outOfFuel` is the last fault and is not a behaviour of the program: it marks a
bounded unrolling of a recursion that was cut short.

The second half of the file is the loop rule: a C++ `for` over a range is a
`List.foldlM`, and one proves things about it by an invariant that speaks of
the part of the range already consumed.
-/

namespace Orkhestra.Verified.Checked

/-- The ways in which a modelled function does not return. -/
inductive Fault where
  | runtimeError (what : String)
  | outOfRange
  | logicError (what : String)
  | undefined
  | assertionFailed
  | outOfFuel
  deriving DecidableEq, Repr

/-- Result of a modelled function: a value or the fault that stopped it. -/
abbrev Outcome := Except Fault

variable {α β σ : Type}

@[simp] theorem pure_eq_ok (a : α) : (pure a : Outcome α) = .ok a := rfl

@[simp] theorem ok_bind (a : α) (f : α → Outcome β) :
    (Except.ok a >>= f) = f a := rfl

@[simp] theorem error_bind (e : Fault) (f : α → Outcome β) :
    ((Except.error e : Outcome α) >>= f) = .error e := rfl

@[simp] theorem throw_eq_error (e : Fault) :
    (throw e : Outcome α) = .error e := rfl

/-- A sequence returns exactly when both of its parts do. -/
theorem bind_eq_ok {x : Outcome α} {f : α → Outcome β} {b : β} :
    (x >>= f) = .ok b ↔ ∃ a, x = .ok a ∧ f a = .ok b := by
  cases x with
  | error e => simp
  | ok a => simp

/-- A sequence stops in its first part or in its second. -/
theorem bind_eq_error {x : Outcome α} {f : α → Outcome β} {e : Fault} :
    (x >>= f) = .error e ↔
      x = .error e ∨ ∃ a, x = .ok a ∧ f a = .error e := by
  cases x with
  | error e' => simp
  | ok a => simp

/-- A result that has been evaluated. -/
theorem exists_eq_ok {x : Outcome α} (h : x.isOk = true) : ∃ a, x = .ok a := by
  cases x with
  | ok a => exact ⟨a, rfl⟩
  | error e => cases h

theorem toOption_eq_some {x : Outcome α} {a : α} :
    x.toOption = some a ↔ x = .ok a := by
  cases x with
  | ok b => simp [Except.toOption]
  | error e => simp [Except.toOption]

/-! ## Signed arithmetic -/

/-- A value of type `int`. -/
def IsInt (x : Int) : Prop := -2 ^ 31 ≤ x ∧ x < 2 ^ 31

instance (x : Int) : Decidable (IsInt x) :=
  inferInstanceAs (Decidable (_ ∧ _))

/-- `x * y` on `int`: undefined when the product is not a value of that
type. -/
def multiply (x y : Int) : Outcome Int :=
  if IsInt (x * y) then .ok (x * y) else .error .undefined

theorem multiply_of_lt {x y : Int} (hlow : -2 ^ 31 ≤ x * y)
    (hhigh : x * y < 2 ^ 31) : multiply x y = .ok (x * y) :=
  if_pos ⟨hlow, hhigh⟩

theorem multiply_of_le {x y : Int} (h : 2 ^ 31 ≤ x * y) :
    multiply x y = .error .undefined :=
  if_neg fun hint => Int.not_lt.mpr h hint.2

/-- What two's complement makes of a result of type `int`.  The language leaves
a result that is not of that type undefined. -/
def wrapInt (x : Int) : Int := Int.bmod x (2 ^ 32)

theorem wrapInt_of_isInt {x : Int} (h : IsInt x) : wrapInt x = x := by
  unfold IsInt at h
  rw [wrapInt, Int.bmod_def]
  split <;> omega

/-- Of a product of several factors only the last result matters. -/
theorem wrapInt_mul_wrapInt (x y : Int) :
    wrapInt (x * wrapInt y) = wrapInt (x * y) :=
  Int.mul_bmod_bmod

/-- A product is of type `int` when one with a larger factor is. -/
theorem isInt_mul_of_le {x i j : Int} (hi : 0 ≤ i) (hij : i ≤ j)
    (h : IsInt (x * j)) : IsInt (x * i) := by
  unfold IsInt at *
  rcases Int.le_total 0 x with hx | hx
  · have hle := Int.mul_le_mul_of_nonneg_left hij hx
    have hzero := Int.mul_nonneg hx hi
    omega
  · have hle := Int.mul_le_mul_of_nonpos_left hx hij
    have hzero := Int.mul_nonpos_of_nonpos_of_nonneg hx hi
    omega

/-! ## Vector accesses -/

/-- `v[i]`: undefined outside the vector. -/
def readAt (xs : List α) (i : Nat) : Outcome α :=
  match xs[i]? with
  | some x => .ok x
  | none => .error .undefined

/-- `v.at(i)`: throws `std::out_of_range` outside the vector. -/
def checkedAt (xs : List α) (i : Nat) : Outcome α :=
  match xs[i]? with
  | some x => .ok x
  | none => .error .outOfRange

/-- `v[i] = x`: undefined outside the vector. -/
def writeAt (xs : List α) (i : Nat) (x : α) : Outcome (List α) :=
  if i < xs.length then .ok (xs.set i x) else .error .undefined

/-- A value of type `int` used as an index: a negative one is outside every
vector. -/
def indexOf (i : Int) : Outcome Nat :=
  if 0 ≤ i then .ok i.toNat else .error .undefined

@[simp] theorem readAt_eq_ok {xs : List α} {i : Nat} {x : α} :
    readAt xs i = .ok x ↔ xs[i]? = some x := by
  unfold readAt
  cases xs[i]? <;> simp

theorem readAt_of_none {xs : List α} {i : Nat} (h : xs[i]? = none) :
    readAt xs i = .error .undefined := by
  rw [readAt, h]

theorem readAt_of_lt {xs : List α} {i : Nat} (h : i < xs.length) :
    readAt xs i = .ok xs[i] :=
  readAt_eq_ok.mpr (List.getElem?_eq_getElem h)

@[simp] theorem checkedAt_eq_ok {xs : List α} {i : Nat} {x : α} :
    checkedAt xs i = .ok x ↔ xs[i]? = some x := by
  unfold checkedAt
  cases xs[i]? <;> simp

@[simp] theorem writeAt_eq_ok {xs ys : List α} {i : Nat} {x : α} :
    writeAt xs i x = .ok ys ↔ i < xs.length ∧ xs.set i x = ys := by
  unfold writeAt
  split
  · simp_all
  · simp_all only [reduceCtorEq, false_and]

@[simp] theorem indexOf_eq_ok {i : Int} {k : Nat} :
    indexOf i = .ok k ↔ i = (k : Int) := by
  unfold indexOf
  split
  · simp only [Except.ok.injEq]
    omega
  · simp only [reduceCtorEq, false_iff]
    omega

@[simp] theorem indexOf_natCast (k : Nat) : indexOf (k : Int) = .ok k := by
  simp

/-- Translating every element of a vector returns when every element does. -/
theorem mapM_total {f : α → Outcome β} {g : α → β} (xs : List α)
    (h : ∀ x ∈ xs, f x = .ok (g x)) : xs.mapM f = .ok (xs.map g) := by
  induction xs with
  | nil => rfl
  | cons x xs ih =>
      rw [List.mapM_cons, h x List.mem_cons_self,
        ih fun y hy => h y (List.mem_cons_of_mem x hy)]
      rfl

theorem mapM_cons_eq_ok {f : α → Outcome β} {x : α} {xs : List α} {r : List β}
    (h : (x :: xs).mapM f = .ok r) :
    ∃ y ys, f x = .ok y ∧ xs.mapM f = .ok ys ∧ r = y :: ys := by
  simp only [List.mapM_cons, bind_eq_ok, pure_eq_ok, Except.ok.injEq] at h
  obtain ⟨y, hy, ys, hys, rfl⟩ := h
  exact ⟨y, ys, hy, hys, rfl⟩

theorem mapM_returns_iff {f : α → Outcome β} {xs : List α} :
    (∃ ys, xs.mapM f = .ok ys) ↔ ∀ x ∈ xs, ∃ y, f x = .ok y := by
  induction xs with
  | nil => exact iff_of_true ⟨[], rfl⟩ (by simp)
  | cons x xs ih =>
      rw [List.forall_mem_cons, ← ih]
      constructor
      · rintro ⟨r, hr⟩
        obtain ⟨y, ys, hy, hys, -⟩ := mapM_cons_eq_ok hr
        exact ⟨⟨y, hy⟩, ys, hys⟩
      · rintro ⟨⟨y, hy⟩, ys, hys⟩
        refine ⟨y :: ys, ?_⟩
        rw [List.mapM_cons, hy, hys]
        rfl

/-- The results are those of the elements. -/
theorem mem_iff_of_mapM_eq_ok {f : α → Outcome β} {xs : List α} {ys : List β}
    (h : xs.mapM f = .ok ys) {y : β} : y ∈ ys ↔ ∃ x ∈ xs, f x = .ok y := by
  induction xs generalizing ys with
  | nil =>
      obtain rfl := Except.ok.inj h
      simp
  | cons x xs ih =>
      obtain ⟨y', ys', hy', hys', rfl⟩ := mapM_cons_eq_ok h
      rw [List.exists_mem_cons_iff, ← ih hys', hy', Except.ok.injEq,
        List.mem_cons, eq_comm]

/-- What can be read off the translation of every element. -/
theorem map_of_mapM_eq_ok {γ : Type} {f : α → Outcome β} (g : β → γ)
    (g' : α → γ) {xs : List α} {ys : List β} (h : xs.mapM f = .ok ys)
    (hg : ∀ x y, f x = .ok y → g y = g' x) : ys.map g = xs.map g' := by
  induction xs generalizing ys with
  | nil =>
      obtain rfl := Except.ok.inj h
      rfl
  | cons x xs ih =>
      obtain ⟨y, rest, hy, hrest, rfl⟩ := mapM_cons_eq_ok h
      rw [List.map_cons, List.map_cons, hg x y hy, ih hrest]

theorem mapM_eq_ok_iff {f : α → Outcome β} {xs : List α} {ys : List β} :
    xs.mapM f = .ok ys ↔ xs.length = ys.length ∧ ∀ (i : Nat) x,
      xs[i]? = some x → ∃ y, ys[i]? = some y ∧ f x = .ok y := by
  induction xs generalizing ys with
  | nil =>
      rw [List.mapM_nil, pure_eq_ok, Except.ok.injEq, List.length_nil,
        eq_comm (a := (0 : Nat)), List.length_eq_zero_iff, eq_comm]
      simp
  | cons x xs ih =>
      constructor
      · intro h
        obtain ⟨y, rest, hy, hrest, rfl⟩ := mapM_cons_eq_ok h
        obtain ⟨hlength, hall⟩ := ih.mp hrest
        refine ⟨by simp [hlength], fun i x' hi => ?_⟩
        cases i with
        | zero =>
            obtain rfl := Option.some.inj hi
            exact ⟨y, rfl, hy⟩
        | succ i => exact hall i x' hi
      · rintro ⟨hlength, hall⟩
        obtain ⟨y, hy, hx⟩ := hall 0 x rfl
        cases ys with
        | nil => cases hy
        | cons y' ys =>
            obtain rfl := Option.some.inj hy
            rw [List.mapM_cons, hx, ih.mpr ⟨by simpa using hlength,
              fun i x' hi => hall (i + 1) x' hi⟩]
            rfl

/-- A loop that files what it makes of each element. -/
theorem foldlM_bind_eq_mapM {f : α → Outcome β} {file : σ → β → σ} (xs : List α)
    (s : σ) :
    xs.foldlM (fun s x => do
        let y ← f x
        .ok (file s y)) s =
      (do
        let ys ← xs.mapM f
        .ok (ys.foldl file s)) := by
  induction xs generalizing s with
  | nil => rfl
  | cons x xs ih =>
      rw [List.foldlM_cons, List.mapM_cons]
      simp only [bind_assoc, ok_bind, pure_eq_ok, ih, List.foldl_cons]

/-! ## Loops

`xs.foldlM body s` runs `body` on every element of `xs` in order.  The motive
of the two rules below is indexed by the part of `xs` already consumed, which
is the shape of a loop invariant.
-/

/-- A loop over the parts of the elements. -/
theorem foldlM_flatMap {body : σ → β → Outcome σ} (parts : α → List β)
    (xs : List α) (s : σ) :
    (xs.flatMap parts).foldlM body s =
      xs.foldlM (fun s x => (parts x).foldlM body s) s := by
  induction xs generalizing s with
  | nil => rfl
  | cons x xs ih =>
      rw [List.flatMap_cons, List.foldlM_append, List.foldlM_cons]
      exact bind_congr fun s' => ih s'

/-- Partial correctness of a loop: an invariant kept by every iteration that
returns holds at the end. -/
theorem foldlM_invariant {body : σ → α → Outcome σ}
    (motive : List α → σ → Prop) (xs : List α) {s r : σ}
    (hinit : motive [] s)
    (hstep : ∀ before x after s s', xs = before ++ x :: after →
      motive before s → body s x = .ok s' → motive (before ++ [x]) s')
    (hrun : xs.foldlM body s = .ok r) : motive xs r := by
  suffices key : ∀ before rest s, xs = before ++ rest → motive before s →
      rest.foldlM body s = .ok r → motive xs r from
    key [] xs s rfl hinit hrun
  intro before rest
  induction rest generalizing before with
  | nil =>
      intro s hsplit hmotive hrest
      simp only [List.foldlM_nil, pure_eq_ok, Except.ok.injEq] at hrest
      simpa [hsplit, hrest] using hmotive
  | cons x rest ih =>
      intro s hsplit hmotive hrest
      rw [List.foldlM_cons, bind_eq_ok] at hrest
      obtain ⟨s', hbody, htail⟩ := hrest
      exact ih (before ++ [x]) s' (by simpa using hsplit)
        (hstep before x rest s s' hsplit hmotive hbody) htail

/-- A loop that another one follows: what its iterations do can be done from
related states. -/
theorem foldlM_simulates {τ : Type} {f : σ → α → Outcome σ}
    {g : τ → α → Outcome τ} (rel : σ → τ → Prop) (xs : List α) {s r : σ}
    {t : τ} (hinit : rel s t)
    (hstep : ∀ x ∈ xs, ∀ s s' t, rel s t → f s x = .ok s' →
      ∃ t', g t x = .ok t' ∧ rel s' t')
    (hrun : xs.foldlM f s = .ok r) :
    ∃ r', xs.foldlM g t = .ok r' ∧ rel r r' := by
  induction xs generalizing s t with
  | nil =>
      cases hrun
      exact ⟨t, rfl, hinit⟩
  | cons x xs ih =>
      rw [List.foldlM_cons, bind_eq_ok] at hrun
      obtain ⟨s', hx, hrun⟩ := hrun
      obtain ⟨t', hx', hrel⟩ := hstep x List.mem_cons_self s s' t hinit hx
      obtain ⟨r', hrun', hr⟩ := ih hrel
        (fun y hy => hstep y (List.mem_cons_of_mem x hy)) hrun
      exact ⟨r', by rw [List.foldlM_cons, hx', ok_bind, hrun'], hr⟩

/-- The step of such an invariant, where it is about each element that is
done. -/
theorem forall_mem_concat {before : List α} {x : α} {p : α → Prop}
    (hbefore : ∀ y ∈ before, p y) (hx : p x) : ∀ y ∈ before ++ [x], p y := by
  intro y hy
  rcases List.mem_append.mp hy with hy | hy
  · exact hbefore y hy
  · rw [List.mem_singleton.mp hy]
    exact hx

/-- A loop whose iterations return and keep the invariant, or stop with a given
fault for a given reason. -/
theorem foldlM_cases {body : σ → α → Outcome σ}
    (motive : List α → σ → Prop) (fault : Fault) (reason : Prop) (xs : List α)
    {s : σ} (hinit : motive [] s)
    (hstep : ∀ before x after s, xs = before ++ x :: after →
      motive before s →
      (∃ s', body s x = .ok s' ∧ motive (before ++ [x]) s') ∨
        body s x = .error fault ∧ reason) :
    (∃ r, xs.foldlM body s = .ok r ∧ motive xs r) ∨
      xs.foldlM body s = .error fault ∧ reason := by
  suffices key : ∀ before rest s, xs = before ++ rest → motive before s →
      (∃ r, rest.foldlM body s = .ok r ∧ motive xs r) ∨
        rest.foldlM body s = .error fault ∧ reason from
    key [] xs s rfl hinit
  intro before rest
  induction rest generalizing before with
  | nil =>
      intro s hsplit hmotive
      exact .inl ⟨s, rfl, by simpa [hsplit] using hmotive⟩
  | cons x rest ih =>
      intro s hsplit hmotive
      rw [List.foldlM_cons]
      rcases hstep before x rest s hsplit hmotive with
        ⟨s', hbody, hmotive'⟩ | ⟨hbody, hreason⟩
      · rw [hbody]
        exact ih (before ++ [x]) s' (by simpa using hsplit) hmotive'
      · rw [hbody]
        exact .inr ⟨rfl, hreason⟩

/-- Total correctness of a loop: an invariant under which every iteration
returns and keeps it makes the loop return. -/
theorem foldlM_total {body : σ → α → Outcome σ}
    (motive : List α → σ → Prop) (xs : List α) {s : σ}
    (hinit : motive [] s)
    (hstep : ∀ before x after s, xs = before ++ x :: after →
      motive before s → ∃ s', body s x = .ok s' ∧ motive (before ++ [x]) s') :
    ∃ r, xs.foldlM body s = .ok r ∧ motive xs r := by
  rcases foldlM_cases motive .undefined False xs hinit
    (fun before x after s hsplit hs => .inl (hstep before x after s hsplit hs))
    with h | ⟨-, hfalse⟩
  · exact h
  · exact hfalse.elim

/-- A loop returns when its iterations do, whatever the state. -/
theorem foldlM_returns {body : σ → α → Outcome σ} {xs : List α} {s : σ}
    (hbody : ∀ x ∈ xs, ∀ s, ∃ s', body s x = .ok s') :
    ∃ r, xs.foldlM body s = .ok r := by
  obtain ⟨r, hrun, -⟩ := foldlM_total (fun _ _ => True) xs trivial
    fun before x after s hsplit _ => by
      obtain ⟨s', hs'⟩ := hbody x (by simp [hsplit]) s
      exact ⟨s', hs', trivial⟩
  exact ⟨r, hrun⟩

/-- A loop returns exactly when all elements are good, if an iteration under the
invariant returns exactly for a good element. -/
theorem foldlM_returns_iff {body : σ → α → Outcome σ}
    (motive : List α → σ → Prop) (good : α → Prop) (xs : List α) {s : σ}
    (hinit : motive [] s)
    (hgood : ∀ before x after s, xs = before ++ x :: after → motive before s →
      ((∃ s', body s x = .ok s') ↔ good x))
    (hstep : ∀ before x after s s', xs = before ++ x :: after →
      motive before s → body s x = .ok s' → motive (before ++ [x]) s') :
    (∃ r, xs.foldlM body s = .ok r) ↔ ∀ x ∈ xs, good x := by
  suffices key : ∀ before rest s, xs = before ++ rest → motive before s →
      ((∃ r, rest.foldlM body s = .ok r) ↔ ∀ x ∈ rest, good x) from
    key [] xs s rfl hinit
  intro before rest
  induction rest generalizing before with
  | nil =>
      intro s _ _
      exact iff_of_true ⟨s, rfl⟩ (by simp)
  | cons x rest ih =>
      intro s hsplit hmotive
      rw [List.forall_mem_cons, ← hgood before x rest s hsplit hmotive]
      constructor
      · rintro ⟨r, hrun⟩
        rw [List.foldlM_cons, bind_eq_ok] at hrun
        obtain ⟨s', hbody, hrun⟩ := hrun
        refine ⟨⟨s', hbody⟩, (ih (before ++ [x]) s' (by simpa using hsplit)
          (hstep before x rest s s' hsplit hmotive hbody)).mp ⟨r, hrun⟩⟩
      · rintro ⟨⟨s', hbody⟩, hrest⟩
        obtain ⟨r, hrun⟩ := (ih (before ++ [x]) s' (by simpa using hsplit)
          (hstep before x rest s s' hsplit hmotive hbody)).mpr hrest
        exact ⟨r, by rw [List.foldlM_cons, hbody, ok_bind, hrun]⟩

/-- The element a counting loop has reached is the number of elements it has
consumed. -/
theorem eq_length_of_range_eq {n x : Nat} {before after : List Nat}
    (h : List.range n = before ++ x :: after) :
    x = before.length ∧ before.length < n := by
  have hx : (List.range n)[before.length]? = some x := by simp [h]
  obtain ⟨hlt, hx⟩ := List.getElem?_eq_some_iff.mp hx
  rw [List.getElem_range] at hx
  exact ⟨hx.symm, by simpa using hlt⟩

/-- Partial correctness of a counting loop `for (i = 0; i < n; i++)`. -/
theorem forRange_invariant {body : σ → Nat → Outcome σ}
    (motive : Nat → σ → Prop) (n : Nat) {s r : σ}
    (hinit : motive 0 s)
    (hstep : ∀ i s s', i < n → motive i s → body s i = .ok s' →
      motive (i + 1) s')
    (hrun : (List.range n).foldlM body s = .ok r) : motive n r := by
  have key : motive (List.range n).length r := by
    refine foldlM_invariant (fun done s => motive done.length s) (List.range n)
      hinit ?_ hrun
    intro before x after s s' hsplit hmotive hbody
    obtain ⟨rfl, hlt⟩ := eq_length_of_range_eq hsplit
    simpa using hstep _ s s' hlt hmotive hbody
  simpa using key

/-- Total correctness of a counting loop `for (i = 0; i < n; i++)`. -/
theorem forRange_total {body : σ → Nat → Outcome σ}
    (motive : Nat → σ → Prop) (n : Nat) {s : σ}
    (hinit : motive 0 s)
    (hstep : ∀ i s, i < n → motive i s →
      ∃ s', body s i = .ok s' ∧ motive (i + 1) s') :
    ∃ r, (List.range n).foldlM body s = .ok r ∧ motive n r := by
  have key : ∃ r, (List.range n).foldlM body s = .ok r ∧
      motive (List.range n).length r := by
    refine foldlM_total (fun done s => motive done.length s) (List.range n)
      hinit ?_
    intro before x after s hsplit hmotive
    obtain ⟨rfl, hlt⟩ := eq_length_of_range_eq hsplit
    simpa using hstep _ s hlt hmotive
  simpa using key

/-- A counting loop that returns, or stops with a given fault. -/
theorem forRange_cases {body : σ → Nat → Outcome σ}
    (motive : Nat → σ → Prop) (fault : Fault) (reason : Prop) (n : Nat) {s : σ}
    (hinit : motive 0 s)
    (hstep : ∀ i s, i < n → motive i s →
      (∃ s', body s i = .ok s' ∧ motive (i + 1) s') ∨
        body s i = .error fault ∧ reason) :
    (∃ r, (List.range n).foldlM body s = .ok r ∧ motive n r) ∨
      (List.range n).foldlM body s = .error fault ∧ reason := by
  have key := foldlM_cases
    (fun done s => motive done.length s) fault reason (List.range n) hinit
    (by
      intro before x after s hsplit hmotive
      obtain ⟨rfl, hlt⟩ := eq_length_of_range_eq hsplit
      simpa using hstep _ s hlt hmotive)
  simpa using key

/-- A counting loop whose states are known: it returns when every iteration is
good, and then the last of them. -/
theorem forRange_eq_ok_iff {body : σ → Nat → Outcome σ} (state : Nat → σ)
    (good : Nat → Prop) {n : Nat}
    (hstep : ∀ i < n, ∀ s, body (state i) i = .ok s ↔
      good i ∧ s = state (i + 1)) {r : σ} :
    (List.range n).foldlM body (state 0) = .ok r ↔
      (∀ i < n, good i) ∧ r = state n := by
  induction n generalizing r with
  | zero => simp [eq_comm]
  | succ n ih =>
      have hinit : ∀ s, (List.range n).foldlM body (state 0) = .ok s ↔
          (∀ i < n, good i) ∧ s = state n :=
        fun s => ih fun i hi => hstep i (Nat.lt_succ_of_lt hi)
      have hlast : ∀ s, [n].foldlM body s = body s n := fun s => bind_pure _
      rw [List.range_succ, List.foldlM_append, bind_eq_ok, Nat.forall_lt_succ_right]
      simp only [hinit, hlast]
      constructor
      · rintro ⟨s, ⟨hgood, rfl⟩, hbody⟩
        obtain ⟨hn, hr⟩ := (hstep n (Nat.lt_succ_self n) r).mp hbody
        exact ⟨⟨hgood, hn⟩, hr⟩
      · rintro ⟨⟨hgood, hn⟩, hr⟩
        exact ⟨_, ⟨hgood, rfl⟩, (hstep n (Nat.lt_succ_self n) r).mpr ⟨hn, hr⟩⟩

end Orkhestra.Verified.Checked
