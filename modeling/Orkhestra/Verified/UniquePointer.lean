import Orkhestra.Verified.Checked

/-!
# Owning pointers

A `std::unique_ptr` is null, or the only pointer to an object.  The store keeps
the objects in the order in which they were made; a destroyed one leaves a hole,
so that its number is not used again.

Using a null pointer or the pointer to a destroyed object is undefined, and so
is destroying an object twice.  `Holds` is the invariant of a vector of pointers
to which new objects are pushed and from which pointers are moved: under it only
the null pointer is left to go wrong.  `Owned` says that no object is lost, too.
-/

namespace Orkhestra.Verified.UniquePointer

open Orkhestra.Verified.Checked

/-- The objects by their numbers. -/
abbrev Store (α : Type) := List (Option α)

abbrev Pointer := Option Nat

variable {α : Type}

/-! ## Operations -/

/-- `std::make_unique`. -/
def makeUnique (store : Store α) (object : α) : Store α × Pointer :=
  (store ++ [some object], some store.length)

/-- `*pointer`. -/
def dereference (store : Store α) (pointer : Pointer) : Outcome α :=
  match pointer.bind fun id => store[id]?.join with
  | some object => .ok object
  | none => .error .undefined

/-- The destructor of a pointer. -/
def destroy (store : Store α) : Pointer → Outcome (Store α)
  | none => .ok store
  | some id => do
      let _ ← dereference store (some id)
      .ok (store.set id none)

/-- `v.clear()`. -/
def clear (store : Store α) (pointers : List Pointer) : Outcome (Store α) :=
  pointers.foldlM destroy store

def Live (store : Store α) (id : Nat) (object : α) : Prop :=
  store[id]? = some (some object)

section Operations

variable {store store' : Store α} {id : Nat} {object : α} {pointer : Pointer}

theorem dereference_eq_ok :
    dereference store pointer = .ok object ↔
      ∃ id, pointer = some id ∧ Live store id object := by
  unfold dereference Live
  cases pointer with
  | none => simp
  | some id =>
      simp only [Option.bind_some, Option.some.injEq, exists_eq_left']
      cases store[id]? with
      | none => simp
      | some x => cases x <;> simp

@[simp] theorem dereference_null :
    dereference store none = .error .undefined := rfl

theorem dereference_live (h : Live store id object) :
    dereference store (some id) = .ok object :=
  dereference_eq_ok.mpr ⟨id, rfl, h⟩

@[simp] theorem destroy_null : destroy store none = .ok store := rfl

theorem destroy_live (h : Live store id object) :
    destroy store (some id) = .ok (store.set id none) := by
  rw [destroy, dereference_live h, ok_bind]

theorem Live.lt_length (h : Live store id object) : id < store.length :=
  (List.getElem?_eq_some_iff.mp h).1

/-- What is live beside a new object. -/
theorem live_makeUnique {other : α} :
    Live (makeUnique store other).1 id object ↔
      Live store id object ∨ id = store.length ∧ object = other := by
  unfold Live makeUnique
  rcases Nat.lt_trichotomy id store.length with hlt | rfl | hgt
  · rw [List.getElem?_append_left hlt]
    simp [Nat.ne_of_lt hlt]
  · simp [eq_comm]
  · rw [List.getElem?_eq_none (by simp; omega),
      List.getElem?_eq_none (Nat.le_of_lt hgt)]
    simp [Nat.ne_of_gt hgt]

/-- Only the object itself is destroyed. -/
theorem live_set_none {gone : Nat} :
    Live (store.set gone none) id object ↔
      Live store id object ∧ id ≠ gone := by
  unfold Live
  rw [List.getElem?_set]
  by_cases hid : gone = id
  · subst hid
    simp
  · simp [hid, Ne.symm hid]

end Operations

/-! ## Ownership -/

/-- Each pointer of a vector is null or the only one to a live object. -/
structure Holds (store : Store α) (pointers : List Pointer) : Prop where
  live : ∀ id, some id ∈ pointers → ∃ object, Live store id object
  unique : ∀ i j id : Nat, pointers[i]? = some (some id) →
    pointers[j]? = some (some id) → i = j

/-- All live objects are held. -/
structure Owned (store : Store α) (pointers : List Pointer) : Prop
    extends Holds store pointers where
  complete : ∀ id object, Live store id object → some id ∈ pointers

section Ownership

variable {store : Store α} {pointers : List Pointer} {i id : Nat} {object : α}

theorem holds_nil (store : Store α) : Holds store [] := by
  constructor <;> simp

theorem owned_empty : Owned ([] : Store α) [] where
  toHolds := holds_nil []
  complete := by simp [Live]

theorem Holds.lt_length (h : Holds store pointers) (hid : some id ∈ pointers) :
    id < store.length := by
  obtain ⟨object, hobject⟩ := h.live id hid
  exact hobject.lt_length

/-- A new object goes to the end of the vector. -/
theorem Holds.makeUnique (h : Holds store pointers) (object : α) :
    Holds (makeUnique store object).1
      (pointers ++ [(makeUnique store object).2]) where
  live := by
    intro id hid
    rcases List.mem_append.mp hid with hold | hnew
    · obtain ⟨x, hx⟩ := h.live id hold
      exact ⟨x, live_makeUnique.mpr (.inl hx)⟩
    · have hid : id = store.length :=
        Option.some.inj (List.mem_singleton.mp hnew)
      exact ⟨object, live_makeUnique.mpr (.inr ⟨hid, rfl⟩)⟩
  unique := by
    -- A place of the new vector is an old one, or the last.
    have hplace : ∀ k id, (pointers ++ [some store.length])[k]? =
        some (some id) →
        pointers[k]? = some (some id) ∧ id < store.length ∨
          k = pointers.length ∧ id = store.length := by
      intro k id hk
      rcases Nat.lt_or_ge k pointers.length with hlt | hge
      · rw [List.getElem?_append_left hlt] at hk
        exact .inl ⟨hk, h.lt_length (List.mem_of_getElem? hk)⟩
      · rw [List.getElem?_append_right hge, List.getElem?_singleton] at hk
        split at hk
        · simp only [Option.some.injEq] at hk
          exact .inr ⟨by omega, hk.symm⟩
        · cases hk
    intro i j id hi hj
    rcases hplace i id hi with ⟨hi, hlt⟩ | ⟨hi, hid⟩
    · rcases hplace j id hj with ⟨hj, -⟩ | ⟨-, hid⟩
      · exact h.unique i j id hi hj
      · omega
    · rcases hplace j id hj with ⟨-, hlt⟩ | ⟨hj, -⟩
      · omega
      · omega

/-- The pointer at one place is moved out, and its object destroyed. -/
theorem Holds.release (h : Holds store pointers)
    (hi : pointers[i]? = some (some id)) :
    Holds (store.set id none) (pointers.set i none) where
  live := by
    intro other hother
    obtain ⟨j, hj⟩ := List.getElem?_of_mem hother
    rw [List.getElem?_set] at hj
    split at hj
    · split at hj <;> simp at hj
    · next hne =>
        obtain ⟨object, hobject⟩ := h.live other (List.mem_of_getElem? hj)
        refine ⟨object, live_set_none.mpr ⟨hobject, ?_⟩⟩
        rintro rfl
        exact hne (h.unique i j other hi hj)
  unique := by
    intro j k other hj hk
    rw [List.getElem?_set] at hj hk
    split at hj
    · split at hj <;> simp at hj
    · split at hk
      · split at hk <;> simp at hk
      · exact h.unique j k other hj hk

theorem Owned.makeUnique (h : Owned store pointers) (object : α) :
    Owned (makeUnique store object).1
      (pointers ++ [(makeUnique store object).2]) where
  toHolds := h.toHolds.makeUnique object
  complete := by
    intro id x hx
    rcases live_makeUnique.mp hx with hold | ⟨rfl, -⟩
    · exact List.mem_append_left _ (h.complete id x hold)
    · exact List.mem_append_right _ (List.mem_singleton_self _)

theorem Owned.release (h : Owned store pointers)
    (hi : pointers[i]? = some (some id)) :
    Owned (store.set id none) (pointers.set i none) where
  toHolds := h.toHolds.release hi
  complete := by
    intro other x hx
    obtain ⟨hx, hne⟩ := live_set_none.mp hx
    obtain ⟨j, hj⟩ := List.getElem?_of_mem (h.complete other x hx)
    have hij : i ≠ j := by
      rintro rfl
      rw [hi] at hj
      exact hne (Option.some.inj (Option.some.inj hj)).symm
    refine List.mem_of_getElem? (i := j) ?_
    rw [List.getElem?_set_ne hij]
    exact hj

theorem Owned.of_null (h : Owned store (none :: pointers)) :
    Owned store pointers where
  live := fun id hid => h.live id (List.mem_cons_of_mem none hid)
  unique := by
    intro i j id hi hj
    exact Nat.succ.inj (h.unique (i + 1) (j + 1) id hi hj)
  complete := by
    intro id object hobject
    exact (List.mem_cons.mp (h.complete id object hobject)).resolve_left
      (by simp)

/-- The first pointer of a vector is destroyed. -/
theorem Owned.destroy {pointer : Pointer}
    (h : Owned store (pointer :: pointers)) :
    ∃ store', destroy store pointer = .ok store' ∧ Owned store' pointers := by
  cases pointer with
  | none => exact ⟨store, destroy_null, h.of_null⟩
  | some id =>
      obtain ⟨object, hobject⟩ := h.live id List.mem_cons_self
      exact ⟨store.set id none, destroy_live hobject,
        (h.release (i := 0) rfl).of_null⟩

/-- Nothing is destroyed twice when a vector is cleared, and nothing is left. -/
theorem Owned.clear (h : Owned store pointers) :
    ∃ store', clear store pointers = .ok store' ∧ Owned store' [] := by
  induction pointers generalizing store with
  | nil => exact ⟨store, rfl, h⟩
  | cons pointer pointers ih =>
      obtain ⟨store₁, hdestroy, h₁⟩ := h.destroy
      obtain ⟨store₂, hclear, h₂⟩ := ih h₁
      refine ⟨store₂, ?_, h₂⟩
      rw [UniquePointer.clear, List.foldlM_cons, hdestroy]
      exact hclear

end Ownership

end Orkhestra.Verified.UniquePointer
