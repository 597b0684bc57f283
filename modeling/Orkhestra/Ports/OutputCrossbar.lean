import Orkhestra.Ports.DMACrossbarSetup
import Mathlib.Data.List.Nodup
import Mathlib.Logic.Function.Basic
import Mathlib.Tactic.Linarith

/-!
# The output crossbar packs the records of a burst

The crossbar between interface and buffer first moves the integers of one cycle
between positions and then pushes every position to a chunk of the buffer.  All
sixteen positions are pushed in every cycle, also those that carry no data, so
the configuration has to park the idle ones where no live integer is written.

The selected integer `i` of record `j` is integer `k = j * |sel| + i` of the
packed buffer.  Its place in the configuration (`cycle`, `lane`) determines `j`
and `i` because the selection does not clash, and that is what keeps two live
integers from sharing a word.
-/

namespace Orkhestra.Ports.OutputCrossbar

open Orkhestra.Verified.Checked
open Orkhestra.Ports.StreamParameterCalculator
open Orkhestra.Ports.DMACrossbarSpecifier
open Orkhestra.Ports.DMACrossbarSetup

/-! ## The crossbar -/

/-- The interface side of a burst: entry `j * stride + m` carries chunk `m` of
record `j`, mirrored within the chunk. -/
def interfaceChunks {α : Type} (stride : Nat) (records : Nat → Nat → α)
    (c p : Nat) : α :=
  records (c / stride) (16 * (c % stride) + (15 - p))

/-- Horizontal pull: what lane `p` carries in cycle `c`. -/
def horizontalPull {α : Type} (xs : List DMACrossbarSetupData)
    (interface : Nat → Nat → α) (c p : Nat) : Option α := do
  let position ← wordAt xs .position c p
  if 0 ≤ position then some (interface c position.toNat) else none

/-- Vertical push: lane `p` is written to chunk `chunk` in cycle `c`. -/
def PushesTo (xs : List DMACrossbarSetupData) (c p chunk : Nat) : Prop :=
  wordAt xs .chunk c p = some (chunk : Int)

/-- One push: lane `w.2` of cycle `w.1` goes to its chunk of the buffer. -/
def push {α : Type} (xs : List DMACrossbarSetupData)
    (interface : Nat → Nat → α) (buffer : Nat → Nat → Option α)
    (w : Nat × Nat) : Nat → Nat → Option α :=
  match wordAt xs .chunk w.1 w.2 with
  | some chunk => fun c p =>
      if (c : Int) = chunk ∧ p = w.2 then horizontalPull xs interface w.1 w.2
      else buffer c p
  | none => buffer

/-- A cell that only one lane is pushed to holds what that lane carries, in
whatever order the lanes are pushed. -/
theorem foldl_push_of_unique {α : Type} {xs : List DMACrossbarSetupData}
    {interface : Nat → Nat → α} {c p chunk : Nat}
    (hpush : PushesTo xs c p chunk)
    (hunique : ∀ c', PushesTo xs c' p chunk → c' = c)
    (order : List (Nat × Nat)) (buffer : Nat → Nat → Option α)
    (hmem : (c, p) ∈ order ∨
      buffer chunk p = horizontalPull xs interface c p) :
    order.foldl (push xs interface) buffer chunk p =
      horizontalPull xs interface c p := by
  induction order generalizing buffer with
  | nil => simpa using hmem
  | cons w order ih =>
      rw [List.foldl_cons]
      refine ih (push xs interface buffer w) ?_
      by_cases hlater : (c, p) ∈ order
      · exact .inl hlater
      · right
        by_cases hw : (c, p) = w
        · subst hw
          rw [PushesTo] at hpush
          simp [push, hpush]
        · have hbuffer : buffer chunk p = horizontalPull xs interface c p := by
            simpa [hlater, hw] using hmem
          rcases hword : wordAt xs .chunk w.1 w.2 with _ | v
          · simp only [push, hword]
            exact hbuffer
          · have hother : ¬((chunk : Int) = v ∧ p = w.2) := by
              rintro ⟨rfl, rfl⟩
              exact hw (by rw [← hunique w.1 hword])
            simp only [push, hword, if_neg hother]
            exact hbuffer

/-! ## The place of a live integer -/

/-- Cycle in which integer `s` of record `j` is at the interface. -/
def cycle (stride j s : Nat) : Nat := stride * j + s / 16

/-- Lane of packed integer `k`, the same at the crossbar and in the buffer. -/
def lane (k : Nat) : Nat := 15 - k % 16

section Packing

variable {sel : List Int} {n stride : Nat}

/-- Different live integers have different places. -/
theorem eq_of_place_eq (hclash : isOutputClashing sel = false)
    (hlt : ∀ s : Nat, (s : Int) ∈ sel → s / 16 < stride) {j i s j' i' s' : Nat}
    (hs : sel[i]? = some (s : Int)) (hs' : sel[i']? = some (s' : Int))
    (hcycle : cycle stride j s = cycle stride j' s')
    (hlane : lane (j * sel.length + i) = lane (j' * sel.length + i')) :
    j = j' ∧ i = i' := by
  have hm := hlt s (List.mem_of_getElem? hs)
  have hm' := hlt s' (List.mem_of_getElem? hs')
  simp only [cycle, lane] at hcycle hlane
  have hj : j = j' := by
    have hdiv := congrArg (· / stride) hcycle
    simpa only [Nat.mul_add_div (by omega : stride > 0), Nat.div_eq_of_lt hm,
      Nat.div_eq_of_lt hm', Nat.add_zero] using hdiv
  subst hj
  have hdivision : s / 16 = s' / 16 := by omega
  refine ⟨rfl, ?_⟩
  by_contra hne
  have hpos : i % 16 = i' % 16 := by omega
  have hdiv : (s : Int).tdiv 16 = (s' : Int).tdiv 16 := by
    have hcast := congrArg (fun m : Nat => (m : Int)) hdivision
    simp only [Int.ofNat_tdiv] at hcast
    exact hcast
  rcases Nat.lt_or_gt_of_ne hne with hlt | hlt
  · exact ne_of_not_isOutputClashing hclash hlt hpos hs hs' (by omega)
      (by omega) hdiv
  · exact ne_of_not_isOutputClashing hclash hlt hpos.symm hs' hs (by omega)
      (by omega) hdiv.symm

/-- The first `t` packed integers of `n` records are configured; every chunk
word that no live integer uses satisfies `Parked`. -/
structure Packing (sel : List Int) (n stride : Nat)
    (Parked : Int → Nat → Prop) (t : Nat) (xs : List DMACrossbarSetupData) :
    Prop where
  length : xs.length = stride * n
  chunk : ∀ j i s : Nat, j < n → sel[i]? = some (s : Int) →
    j * sel.length + i < t →
    wordAt xs .chunk (cycle stride j s) (lane (j * sel.length + i)) =
      some (((j * sel.length + i) / 16 : Nat) : Int)
  position : ∀ j i s : Nat, j < n → sel[i]? = some (s : Int) →
    j * sel.length + i < t →
    wordAt xs .position (cycle stride j s) (lane (j * sel.length + i)) =
      some ((15 - s % 16 : Nat) : Int)
  idle : ∀ c p w, wordAt xs .chunk c p = some w → Parked w p ∨
    ∃ j i s : Nat, j < n ∧ sel[i]? = some (s : Int) ∧
      j * sel.length + i < t ∧ c = cycle stride j s ∧
      p = lane (j * sel.length + i)

/-- A lane that is parked away from the live integers. -/
def ParkedSafely (sel : List Int) (n : Nat) (w : Int) (p : Nat) : Prop :=
  0 ≤ w ∧ w < 32 ∧ ∀ j i s : Nat, j < n → sel[i]? = some (s : Int) →
    p = lane (j * sel.length + i) → w ≠ ((j * sel.length + i) / 16 : Nat)

theorem eq_of_packed_eq {L j i j' i' : Nat} (hi : i < L) (hi' : i' < L)
    (h : j * L + i = j' * L + i') : j = j' ∧ i = i' := by
  have hL : L > 0 := by omega
  have hj : (j * L + i) / L = j := by
    rw [Nat.mul_comm, Nat.mul_add_div hL, Nat.div_eq_of_lt hi, Nat.add_zero]
  have hj' : (j' * L + i') / L = j' := by
    rw [Nat.mul_comm, Nat.mul_add_div hL, Nat.div_eq_of_lt hi', Nat.add_zero]
  have hjj : j = j' := by rw [← hj, h, hj']
  subst hjj
  exact ⟨rfl, by omega⟩

/-- In a finished configuration exactly one cycle pushes to the cell of a live
integer. -/
theorem Packing.unique {xs : List DMACrossbarSetupData} {t : Nat}
    (h : Packing sel n stride (ParkedSafely sel n) t xs) {j i s c : Nat}
    (hj : j < n) (hs : sel[i]? = some (s : Int))
    (hpush : PushesTo xs c (lane (j * sel.length + i))
      ((j * sel.length + i) / 16)) : c = cycle stride j s := by
  rcases h.idle c _ _ hpush with hparked | ⟨j', i', s', hj', hs', ht, hc, hlane⟩
  · exact absurd rfl (hparked.2.2 j i s hj hs rfl)
  · have hword := h.chunk j' i' s' hj' hs' ht
    rw [← hc, ← hlane, hpush, Option.some.injEq, Int.ofNat_inj] at hword
    simp only [lane] at hlane
    have hi : i < sel.length := (List.getElem?_eq_some_iff.mp hs).1
    have hi' : i' < sel.length := (List.getElem?_eq_some_iff.mp hs').1
    obtain ⟨rfl, rfl⟩ := eq_of_packed_eq hi hi'
      (show j * sel.length + i = j' * sel.length + i' by omega)
    rw [hs, Option.some.injEq, Int.ofNat_inj] at hs'
    rw [hc, hs']

theorem Packing.mono {P Q : Int → Nat → Prop} {t : Nat}
    {xs : List DMACrossbarSetupData} (h : Packing sel n stride P t xs)
    (hPQ : ∀ c p w, wordAt xs .chunk c p = some w → P w p → Q w p) :
    Packing sel n stride Q t xs := by
  refine ⟨h.length, h.chunk, h.position, ?_⟩
  intro c p w hw
  rcases h.idle c p w hw with hP | hlive
  · exact .inl (hPQ c p w hw hP)
  · exact .inr hlive

/-! ## The configuration loop -/

theorem getReverseIndex_natCast (k : Nat) :
    getReverseIndex k kDatapathWidth = (mirrorIndex k : Nat) := by
  simp only [getReverseIndex, kDatapathWidth_eq, mirrorIndex,
    ← Int.ofNat_tdiv, ← Int.ofNat_tmod]
  omega

theorem setNextOutputConfiguration_total {xs : List DMACrossbarSetupData}
    {target : Nat} (k : Nat) (ht : target / 16 < xs.length) :
    ∃ ys, setNextOutputConfiguration xs (mirrorIndex k : Nat)
        (mirrorIndex target : Nat) = .ok ys ∧ ys.length = xs.length ∧
      (∀ c p, wordAt ys .position c p =
        if c = target / 16 ∧ p = lane k then some ((15 - target % 16 : Nat) : Int)
        else wordAt xs .position c p) ∧
      ∀ c p, wordAt ys .chunk c p =
        if c = target / 16 ∧ p = lane k then some ((k / 16 : Nat) : Int)
        else wordAt xs .chunk c p := by
  have hlane : lane k < 16 := by
    simp only [lane]
    omega
  have hk : mirrorIndex k / 16 = k / 16 ∧ mirrorIndex k % 16 = lane k := by
    simp only [mirrorIndex, lane]
    omega
  have htarget : mirrorIndex target / 16 = target / 16 ∧
      mirrorIndex target % 16 = 15 - target % 16 := by
    simp only [mirrorIndex]
    omega
  obtain ⟨ys, hys, hlen, hword⟩ := setSelection_total .position ht hlane
    ((15 - target % 16 : Nat) : Int)
  obtain ⟨zs, hzs, hlen', hword'⟩ := setSelection_total .chunk
    (hlen ▸ ht) hlane ((k / 16 : Nat) : Int)
  refine ⟨zs, ?_, by omega, ?_, ?_⟩
  · simp only [setNextOutputConfiguration, kDatapathWidth_eq]
    simp only [← Int.ofNat_tdiv, ← Int.ofNat_tmod, hk, htarget]
    rw [hys, ok_bind, hzs]
  · intro c p
    rw [hword']
    simp [hword]
  · intro c p
    rw [hword']
    simp [hword]

/-- Configuring the next live integer. -/
theorem Packing.push {P : Int → Nat → Prop} {xs ys : List DMACrossbarSetupData}
    {j i s : Nat} (h : Packing sel n stride P (j * sel.length + i) xs)
    (hclash : isOutputClashing sel = false)
    (hlt : ∀ s : Nat, (s : Int) ∈ sel → s / 16 < stride)
    (hj : j < n) (hs : sel[i]? = some (s : Int))
    (hlen : ys.length = xs.length)
    (hposition : ∀ c p, wordAt ys .position c p =
      if c = cycle stride j s ∧ p = lane (j * sel.length + i) then
        some ((15 - s % 16 : Nat) : Int)
      else wordAt xs .position c p)
    (hchunk : ∀ c p, wordAt ys .chunk c p =
      if c = cycle stride j s ∧ p = lane (j * sel.length + i) then
        some (((j * sel.length + i) / 16 : Nat) : Int)
      else wordAt xs .chunk c p) :
    Packing sel n stride P (j * sel.length + i + 1) ys := by
  have hi : i < sel.length := (List.getElem?_eq_some_iff.mp hs).1
  -- An integer with another place is an earlier one.
  have hearlier : ∀ {j' i' s' : Nat}, sel[i']? = some (s' : Int) →
      j' * sel.length + i' < j * sel.length + i + 1 →
      ¬(cycle stride j' s' = cycle stride j s ∧
        lane (j' * sel.length + i') = lane (j * sel.length + i)) →
      j' * sel.length + i' < j * sel.length + i := by
    intro j' i' s' hs' ht hplace
    rcases Nat.lt_succ_iff_lt_or_eq.mp ht with hlt' | heq
    · exact hlt'
    · have hi' : i' < sel.length := (List.getElem?_eq_some_iff.mp hs').1
      obtain ⟨rfl, rfl⟩ := eq_of_packed_eq hi' hi heq
      rw [hs, Option.some.injEq, Int.ofNat_inj] at hs'
      subst hs'
      exact absurd ⟨rfl, rfl⟩ hplace
  refine ⟨by rw [hlen, h.length], ?_, ?_, ?_⟩
  · intro j' i' s' hj' hs' ht
    rw [hchunk]
    split
    · next hplace =>
        obtain ⟨rfl, rfl⟩ := eq_of_place_eq hclash hlt hs' hs hplace.1 hplace.2
        rfl
    · next hplace =>
        exact h.chunk j' i' s' hj' hs' (hearlier hs' ht hplace)
  · intro j' i' s' hj' hs' ht
    rw [hposition]
    split
    · next hplace =>
        obtain ⟨rfl, rfl⟩ := eq_of_place_eq hclash hlt hs' hs hplace.1 hplace.2
        rw [hs, Option.some.injEq, Int.ofNat_inj] at hs'
        rw [hs']
    · next hplace =>
        exact h.position j' i' s' hj' hs' (hearlier hs' ht hplace)
  · intro c p w hw
    rw [hchunk] at hw
    split at hw
    · next hplace =>
        exact .inr ⟨j, i, s, hj, hs, Nat.lt_succ_self _, hplace.1, hplace.2⟩
    · rcases h.idle c p w hw with hP | ⟨j', i', s', hj', hs', ht, hplace⟩
      · exact .inl hP
      · exact .inr ⟨j', i', s', hj', hs', Nat.lt_succ_of_lt ht, hplace⟩

/-- An entry of the selection without data takes no place. -/
theorem Packing.skip {P : Int → Nat → Prop} {xs : List DMACrossbarSetupData}
    {j i : Nat} (h : Packing sel n stride P (j * sel.length + i) xs)
    (hs : sel[i]? = some (-1)) :
    Packing sel n stride P (j * sel.length + i + 1) xs := by
  have hi : i < sel.length := (List.getElem?_eq_some_iff.mp hs).1
  have hlive : ∀ j' i' s' : Nat, sel[i']? = some (s' : Int) →
      j' * sel.length + i' < j * sel.length + i + 1 →
      j' * sel.length + i' < j * sel.length + i := by
    intro j' i' s' hs' ht
    rcases Nat.lt_succ_iff_lt_or_eq.mp ht with hlt' | heq
    · exact hlt'
    · have hi' : i' < sel.length := (List.getElem?_eq_some_iff.mp hs').1
      obtain ⟨-, rfl⟩ := eq_of_packed_eq hi' hi heq
      rw [hs, Option.some.injEq] at hs'
      omega
  refine ⟨h.length, ?_, ?_, ?_⟩
  · intro j' i' s' hj' hs' ht
    exact h.chunk j' i' s' hj' hs' (hlive j' i' s' hs' ht)
  · intro j' i' s' hj' hs' ht
    exact h.position j' i' s' hj' hs' (hlive j' i' s' hs' ht)
  · intro c p w hw
    rcases h.idle c p w hw with hP | ⟨j', i', s', hj', hs', ht, hplace⟩
    · exact .inl hP
    · exact .inr ⟨j', i', s', hj', hs', Nat.lt_succ_of_lt ht, hplace⟩

/-! ### Selection ids and packed integers

The loop runs over whole slots of `e` entries, of which the first `L` are
selections and the rest is junk.  `packed L e id` counts the selections before
`id`, so that `id - packed L e id` is the junk that the loop has counted.
-/

def packed (L e id : Nat) : Nat := id / e * L + min (id % e) L

theorem packed_slot {L e j i : Nat} (hi : i < e) :
    packed L e (j * e + i) = j * L + min i L := by
  have he : e > 0 := by omega
  have hdiv : (j * e + i) / e = j := by
    rw [Nat.mul_comm, Nat.mul_add_div he, Nat.div_eq_of_lt hi, Nat.add_zero]
  have hmod : (j * e + i) % e = i := by
    rw [Nat.mul_comm, Nat.mul_add_mod, Nat.mod_eq_of_lt hi]
  rw [packed, hdiv, hmod]

theorem packed_slot_succ {L e j i : Nat} (hfit : L ≤ e) (hi : i < e) :
    packed L e (j * e + i + 1) = j * L + min (i + 1) L := by
  by_cases hlast : i + 1 < e
  · exact packed_slot hlast
  · have hnext : j * e + i + 1 = (j + 1) * e + 0 := by
      rw [Nat.add_mul]
      omega
    rw [hnext, packed_slot (by omega), Nat.add_mul]
    omega

/-- The state of the loop before selection `id`. -/
def LoopState (sel : List Int) (n cpr e : Nat) (P : Int → Nat → Prop) (id : Nat)
    (s : List DMACrossbarSetupData × Nat) : Prop :=
  s.2 + packed sel.length e id = id ∧
    Packing sel n cpr P (packed sel.length e id) s.1

theorem configureOutputStep_total {P : Int → Nat → Prop} {ext : List Int}
    {cpr e id : Nat} {s : List DMACrossbarSetupData × Nat}
    (hclash : isOutputClashing sel = false)
    (hsel : ∀ s ∈ sel, s = -1 ∨ 0 ≤ s)
    (hcpr : ∀ s : Nat, (s : Int) ∈ sel → s / 16 < cpr)
    (hfit : sel.length ≤ e)
    (hext : Extended n sel ((16 * cpr : Nat) : Int) (-2) e ext)
    (hid : id < ext.length) (h : LoopState sel n cpr e P id s) :
    ∃ s', configureOutputStep ext s id = .ok s' ∧
      LoopState sel n cpr e P (id + 1) s' := by
  rw [hext.length] at hid
  have he : 0 < e := Nat.pos_of_ne_zero (by rintro rfl; simp at hid)
  obtain ⟨j, i, hj, hi, rfl⟩ : ∃ j i, j < n ∧ i < e ∧ id = j * e + i :=
    ⟨id / e, id % e, Nat.div_lt_of_lt_mul (by rwa [Nat.mul_comm]),
      Nat.mod_lt _ he, (Nat.div_add_mod' id e).symm⟩
  obtain ⟨hjunk, hpacking⟩ := h
  rw [packed_slot hi] at hjunk hpacking
  have hread := hext.entry j i hj hi
  simp only [LoopState, packed_slot_succ hfit hi]
  simp only [configureOutputStep, getReverseIndex_natCast, indexOf_natCast,
    ok_bind, readAt, hread]
  by_cases hdata : i < sel.length
  · have hs : sel[i]? = some sel[i] := List.getElem?_eq_getElem hdata
    rw [Nat.min_eq_left (by omega)] at hjunk hpacking
    rw [Nat.min_eq_left (by omega), hs, Option.map_some, Option.getD_some]
    rcases hsel sel[i] (List.getElem_mem hdata) with hx | hx
    · rw [hx] at hs
      refine ⟨s, ?_, by omega, hpacking.skip hs⟩
      simp [hx, extendSelection]
    · obtain ⟨x, hx⟩ := Int.eq_ofNat_of_zero_le hx
      rw [hx] at hs ⊢
      have hchunk := hcpr x (List.mem_of_getElem? hs)
      have hplace : (j * (16 * cpr) + x) / 16 = cycle cpr j x := by
        rw [Nat.mul_left_comm, Nat.mul_add_div (by omega), cycle,
          Nat.mul_comm cpr j]
      have hposition : (j * (16 * cpr) + x) % 16 = x % 16 := by
        rw [Nat.mul_left_comm, Nat.mul_add_mod]
      have hinside : cycle cpr j x < s.1.length := by
        rw [hpacking.length, cycle]
        calc cpr * j + x / 16 < cpr * j + cpr := by omega
          _ = cpr * (j + 1) := (Nat.mul_succ cpr j).symm
          _ ≤ cpr * n := Nat.mul_le_mul_left cpr hj
      obtain ⟨ys, hys, hlen, hpos, hchk⟩ := setNextOutputConfiguration_total
        (j * sel.length + i)
        (show (j * (16 * cpr) + x) / 16 < s.1.length by rwa [hplace])
      rw [hplace] at hpos hchk
      rw [hposition] at hpos
      refine ⟨(ys, s.2), ?_, by show s.2 + _ = _; omega,
        hpacking.push hclash hcpr hj hs hlen hpos hchk⟩
      have hcurrent : ((j * e + i : Nat) : Int) - (s.2 : Int) =
          ((j * sel.length + i : Nat) : Int) := by omega
      rw [extendSelection_natCast, hcurrent, getReverseIndex_natCast, hys]
      rw [if_neg (by omega), if_neg (by omega), ok_bind]
  · have hs : sel[i]? = none := List.getElem?_eq_none (by omega)
    rw [Nat.min_eq_right (by omega)] at hjunk hpacking
    rw [Nat.min_eq_right (by omega), hs, Option.map_none, Option.getD_none]
    refine ⟨(s.1, s.2 + 1), rfl, by show s.2 + 1 + _ = _; omega, hpacking⟩

/-- The empty configuration. -/
theorem packing_zero {P : Int → Nat → Prop} {xs : List DMACrossbarSetupData}
    (hlen : xs.length = stride * n)
    (hidle : ∀ c p w, wordAt xs .chunk c p = some w → P w p) :
    Packing sel n stride P 0 xs := by
  refine ⟨hlen, by omega, by omega, ?_⟩
  intro c p w hw
  exact .inl (hidle c p w hw)

/-- The configuration loop does not fault and places every live integer. -/
theorem configureOutputLoop_total {ext : List Int} {cpr e : Nat}
    (P : Int → Nat → Prop) (xs : List DMACrossbarSetupData)
    (hclash : isOutputClashing sel = false)
    (hsel : ∀ s ∈ sel, s = -1 ∨ 0 ≤ s)
    (hcpr : ∀ s : Nat, (s : Int) ∈ sel → s / 16 < cpr)
    (hfit : sel.length ≤ e) (he : 0 < e)
    (hext : Extended n sel ((16 * cpr : Nat) : Int) (-2) e ext)
    (hlen : xs.length = cpr * n)
    (hidle : ∀ c p w, wordAt xs .chunk c p = some w → P w p) :
    ∃ ys junk, (List.range ext.length).foldlM (configureOutputStep ext)
        (xs, 0) = .ok (ys, junk) ∧
      Packing sel n cpr P (n * sel.length) ys := by
  have hstart : packed sel.length e 0 = 0 := by simp [packed]
  obtain ⟨s, hrun, -, hpacking⟩ := forRange_total (LoopState sel n cpr e P)
    ext.length (s := (xs, 0))
    ⟨by rw [hstart], by rw [hstart]; exact packing_zero hlen hidle⟩
    (fun id s hid hstate => configureOutputStep_total hclash hsel hcpr hfit hext
      hid hstate)
  refine ⟨s.1, s.2, hrun, ?_⟩
  have hend : packed sel.length e ext.length = n * sel.length := by
    rw [hext.length, ← Nat.add_zero (n * e), packed_slot he, Nat.zero_min,
      Nat.add_zero]
  rwa [hend] at hpacking

/-! ## Padding the records to a power of two -/

/-- Empty entries behind every record: entry `j * stride + m` is entry `m` of
record `j`, or an empty one. -/
theorem insertMissing_total (missing : Nat) {cpr fuel r : Nat}
    {xs : List DMACrossbarSetupData} (hcpr : 0 < cpr) (hfuel : r ≤ fuel)
    (hlen : cpr * r ≤ xs.length) :
    ∃ ys, insertMissingEmptySetupChunks missing cpr fuel ((cpr * r : Nat) : Int)
        xs = .ok ys ∧ ys.length = xs.length + missing * r ∧
      (∀ j m, j < r → m < cpr + missing → ys[(cpr + missing) * j + m]? =
        if m < cpr then xs[cpr * j + m]? else some defaultSetupData) ∧
      ∀ x, ys[(cpr + missing) * r + x]? = xs[cpr * r + x]? := by
  induction r generalizing xs fuel with
  | zero =>
      refine ⟨xs, ?_, by simp, by omega, by simp⟩
      cases fuel <;> simp [insertMissingEmptySetupChunks]
  | succ r ih =>
      obtain ⟨fuel, rfl⟩ : ∃ f, fuel = f + 1 := ⟨fuel - 1, by omega⟩
      have hr : cpr * (r + 1) = cpr * r + cpr := Nat.mul_succ cpr r
      generalize hzs : xs.take (cpr * (r + 1)) ++
        List.replicate missing defaultSetupData ++
        xs.drop (cpr * (r + 1)) = zs
      have hzlen : zs.length = xs.length + missing := by
        rw [← hzs]
        simp only [List.length_append, List.length_take, List.length_replicate,
          List.length_drop]
        omega
      have hbefore : ∀ k, k < cpr * (r + 1) → zs[k]? = xs[k]? := by
        intro k hk
        rw [← hzs, List.append_assoc, List.getElem?_append_left
          (by simp only [List.length_take]; omega),
          List.getElem?_take_of_lt hk]
      have hwithin : ∀ k, k < missing →
          zs[cpr * (r + 1) + k]? = some defaultSetupData := by
        intro k hk
        rw [← hzs, List.append_assoc, List.getElem?_append_right
          (by simp only [List.length_take]; omega),
          List.getElem?_append_left
          (by simp only [List.length_take, List.length_replicate]; omega),
          List.getElem?_replicate, if_pos]
        simp only [List.length_take]
        omega
      have hafter : ∀ x,
          zs[cpr * (r + 1) + missing + x]? = xs[cpr * (r + 1) + x]? := by
        intro x
        rw [← hzs, List.getElem?_append_right (by
            simp only [List.length_append, List.length_take,
              List.length_replicate]
            omega), List.getElem?_drop]
        congr 1
        simp only [List.length_append, List.length_take, List.length_replicate]
        omega
      obtain ⟨ys, hys, hylen, hrecord, hrest⟩ :=
        ih (show r ≤ fuel by omega) (show cpr * r ≤ zs.length by omega)
      refine ⟨ys, ?_, by rw [hylen, hzlen, Nat.mul_succ]; omega, ?_, ?_⟩
      · have hpos : ((cpr * (r + 1) : Nat) : Int) > 0 := by omega
        have hnext : ((cpr * (r + 1) : Nat) : Int) - cpr =
            ((cpr * r : Nat) : Int) := by omega
        rw [insertMissingEmptySetupChunks, if_pos hpos, hnext,
          Int.toNat_natCast, hzs, hys]
      · intro j m hj hm
        rcases Nat.lt_succ_iff_lt_or_eq.mp hj with hlt | rfl
        · rw [hrecord j m hlt hm]
          have hle : cpr * (j + 1) ≤ cpr * r := Nat.mul_le_mul_left cpr hlt
          rw [Nat.mul_succ] at hle
          by_cases hm' : m < cpr
          · rw [if_pos hm', if_pos hm', hbefore _ (by omega)]
          · rw [if_neg hm', if_neg hm']
        · rw [hrest m]
          by_cases hm' : m < cpr
          · rw [if_pos hm', hbefore _ (by omega)]
          · have hidx : cpr * j + m = cpr * (j + 1) + (m - cpr) := by omega
            rw [if_neg hm', hidx, hwithin _ (by omega)]
      · intro x
        have hidx : (cpr + missing) * (r + 1) + x =
            (cpr + missing) * r + (cpr + missing + x) := by
          rw [Nat.mul_succ]
          omega
        rw [hidx, hrest]
        have hidx' : cpr * r + (cpr + missing + x) =
            cpr * (r + 1) + missing + x := by omega
        rw [hidx', hafter]

/-- Padding keeps every live integer at its place of the padded record. -/
theorem Packing.pad {P : Int → Nat → Prop} {cpr t : Nat}
    {xs : List DMACrossbarSetupData} (h : Packing sel n cpr P t xs)
    (missing : Nat)
    (hcpr : 0 < cpr) (hlt : ∀ s : Nat, (s : Int) ∈ sel → s / 16 < cpr)
    (hdefault : ∀ p, P 31 p) :
    ∃ ys, insertMissingEmptySetupChunks missing cpr xs.length xs.length xs =
        .ok ys ∧ Packing sel n (cpr + missing) P t ys := by
  have hfuel : n ≤ xs.length := by
    rw [h.length]
    exact Nat.le_mul_of_pos_left n hcpr
  obtain ⟨ys, hys, hlen, hrecord, hrest⟩ := insertMissing_total missing hcpr hfuel (Nat.le_of_eq h.length.symm)
  have hword : ∀ kind j m p, j < n → m < cpr →
      wordAt ys kind ((cpr + missing) * j + m) p =
        wordAt xs kind (cpr * j + m) p := by
    intro kind j m p hj hm
    rw [wordAt, hrecord j m hj (by omega), if_pos hm, wordAt]
  have hlive : ∀ kind (j i s : Nat) p, j < n → sel[i]? = some (s : Int) →
      wordAt ys kind (cycle (cpr + missing) j s) p =
        wordAt xs kind (cycle cpr j s) p := by
    intro kind j i s p hj hs
    exact hword kind j (s / 16) p hj (hlt s (List.mem_of_getElem? hs))
  refine ⟨ys, by rw [h.length] at hys ⊢; exact hys, ?_, ?_, ?_, ?_⟩
  · rw [hlen, h.length, Nat.add_mul]
  · intro j i s hj hs ht
    rw [hlive .chunk j i s _ hj hs]
    exact h.chunk j i s hj hs ht
  · intro j i s hj hs ht
    rw [hlive .position j i s _ hj hs]
    exact h.position j i s hj hs ht
  · intro c p w hw
    have hc : c < (cpr + missing) * n := by
      by_contra hge
      rw [wordAt, List.getElem?_eq_none (by
        rw [hlen, h.length, ← Nat.add_mul]; omega)] at hw
      exact absurd hw (by simp)
    have hstride : 0 < cpr + missing := by omega
    have hj : c / (cpr + missing) < n := Nat.div_lt_of_lt_mul hc
    have hm : c % (cpr + missing) < cpr + missing := Nat.mod_lt c hstride
    have hsplit := Nat.div_add_mod c (cpr + missing)
    by_cases hdata : c % (cpr + missing) < cpr
    · rw [← hsplit, hword .chunk _ _ p hj hdata] at hw
      rcases h.idle _ p w hw with hP | ⟨j, i, s, hj', hs, ht, hc', hp⟩
      · exact .inl hP
      · refine .inr ⟨j, i, s, hj', hs, ht, ?_, hp⟩
        have hs16 := hlt s (List.mem_of_getElem? hs)
        simp only [cycle] at hc' ⊢
        have hsame : c / (cpr + missing) * cpr + c % (cpr + missing) =
            j * cpr + s / 16 := by
          rw [Nat.mul_comm, hc', Nat.mul_comm]
        obtain ⟨hjj, hmm⟩ := eq_of_packed_eq hdata hs16 hsame
        calc c = (cpr + missing) * (c / (cpr + missing)) +
              c % (cpr + missing) := hsplit.symm
          _ = (cpr + missing) * j + s / 16 := by rw [hjj, hmm]
    · left
      rw [← hsplit, wordAt, hrecord _ _ hj hm, if_neg hdata,
        Option.bind_some] at hw
      have hw' : wordAt (List.replicate 1 defaultSetupData) .chunk 0 p =
          some w := hw
      rw [wordAt_replicate_default] at hw'
      split at hw'
      · rw [← Option.some.inj hw']
        exact hdefault p
      · exact absurd hw' (by simp)

end Packing

/-! ## Parking the idle lanes of a full buffer -/

/-- The columns of `done` are parked, the others as in `xs`. -/
structure Allocated (xs : List DMACrossbarSetupData)
    (done : List (Fin kDatapathWidth)) (ys : List DMACrossbarSetupData) :
    Prop where
  length : ys.length = xs.length
  position : ∀ c p, wordAt ys .position c p = wordAt xs .position c p
  kept : ∀ c p, wordAt xs .chunk c p ≠ some (-1) →
    wordAt ys .chunk c p = wordAt xs .chunk c p
  todo : ∀ c, ∀ p : Fin kDatapathWidth, p ∉ done →
    wordAt ys .chunk c p = wordAt xs .chunk c p
  parked : ∀ c, ∀ p ∈ done, wordAt xs .chunk c p = some (-1) →
    ∃ w : Int, wordAt ys .chunk c p = some w ∧ 0 ≤ w ∧ w < 32 ∧
      ∀ c', wordAt xs .chunk c' p ≠ some w

theorem Allocated.step {xs ys : List DMACrossbarSetupData}
    {done : List (Fin kDatapathWidth)} (h : Allocated xs done ys)
    (hlen : xs.length ≤ 32) {columnId : Fin kDatapathWidth}
    (hnew : columnId ∉ done) :
    ∃ zs, allocateAvailableChunks ys columnId
        (markChunksAsUsed ys columnId createFreeChunksVector) = .ok zs ∧
      Allocated xs (done ++ [columnId]) zs := by
  have hnodup : createFreeChunksVector.Nodup := by decide
  obtain ⟨zs, hzs, hzlen, hposition, hkept, hfilled⟩ :=
    allocateAvailableChunks_total columnId
      (markChunksAsUsed_ne_nil columnId
        (show ys.length ≤ 32 by rw [h.length]; exact hlen))
  refine ⟨zs, hzs, by rw [hzlen, h.length], ?_, ?_, ?_, ?_⟩
  · intro c p
    rw [hposition, h.position]
  · intro c p hp
    rw [hkept c p (.inr (by rwa [h.kept c p hp])), h.kept c p hp]
  · intro c p hp
    rw [List.mem_append, List.mem_singleton, not_or] at hp
    rw [hkept c p (.inl (by rw [ne_eq, Fin.val_inj]; exact hp.2)),
      h.todo c p hp.1]
  · intro c p hp hidle
    rw [List.mem_append, List.mem_singleton] at hp
    by_cases hcol : p = columnId
    · subst hcol
      rw [← h.todo c p hnew] at hidle
      obtain ⟨w, hw, hword⟩ := hfilled c hidle
      rw [mem_markChunksAsUsed ys p hnodup] at hw
      have hrange : 0 ≤ w ∧ w < 32 := by
        have hall : ∀ x ∈ createFreeChunksVector, 0 ≤ x ∧ x < 32 := by decide
        exact hall w hw.1
      refine ⟨w, hword, hrange.1, hrange.2, ?_⟩
      intro c' hc'
      rw [← h.todo c' p hnew] at hc'
      obtain ⟨entry, hentry, hsel⟩ := wordAt_chunk_eq_some.mp hc'
      have hneg := hw.2 entry (List.mem_of_getElem? hentry) hsel
      omega
    · have hdone : p ∈ done := hp.resolve_right hcol
      obtain ⟨w, hword, hrange⟩ := h.parked c p hdone hidle
      refine ⟨w, ?_, hrange⟩
      rw [hkept c p (.inl (by rwa [ne_eq, Fin.val_inj])), hword]

/-- Every idle lane finds a chunk that its column does not use. -/
theorem allocateFreeChunks_total {xs : List DMACrossbarSetupData}
    (hlen : xs.length ≤ 32) :
    ∃ ys, allocateFreeChunks xs = .ok ys ∧
      Allocated xs (List.finRange kDatapathWidth) ys := by
  refine foldlM_total (Allocated xs) (List.finRange kDatapathWidth) ?_ ?_
  · exact ⟨rfl, fun _ _ => rfl, fun _ _ _ => rfl, fun _ _ _ => rfl, by simp⟩
  · intro before columnId after ys hsplit h
    refine h.step hlen ?_
    have hnodup := List.nodup_finRange kDatapathWidth
    rw [hsplit] at hnodup
    intro hmem
    exact (List.nodup_append.mp hnodup).2.2 _ hmem _ List.mem_cons_self rfl

/-! ## The configuration of an output stream -/

/-- A fresh output stream with `cpr` chunks for each record, of which `n` fit a
burst, and a selection that does not clash. -/
structure OutputStream (d : DMASetupData) (sel : List Int) (cpr np2 n : Nat) :
    Prop where
  isOutput : d.isInputStream = false
  fresh : d.crossbarSetupData = []
  chunksPerRecord : d.chunksPerRecord = cpr
  recordsPerDdrBurst : d.recordsPerDdrBurst = n
  nextPowerOfTwo : findNextPowerOfTwo cpr = .ok np2
  recordCount : n = 32 / np2
  nonempty : sel ≠ []
  entry : ∀ s ∈ sel, s = -1 ∨ 0 ≤ s ∧ s < 16 * cpr
  enoughChunks : calculateChunksPerRecord sel.length ≤ cpr
  chunks_le : cpr ≤ 32
  noClash : isOutputClashing sel = false

section Stream

variable {d : DMASetupData} {sel : List Int} {cpr np2 n : Nat}

theorem OutputStream.length_le (h : OutputStream d sel cpr np2 n) :
    sel.length ≤ 16 * cpr := by
  have henough := h.enoughChunks
  rw [calculateChunksPerRecord_natCast, Int.ofNat_le] at henough
  omega

theorem OutputStream.cpr_pos (h : OutputStream d sel cpr np2 n) : 0 < cpr := by
  have hlen := List.length_pos_of_ne_nil h.nonempty
  have hle := h.length_le
  omega

theorem OutputStream.cpr_le_np2 (h : OutputStream d sel cpr np2 n) :
    cpr ≤ np2 := by
  have hpower := h.nextPowerOfTwo
  rw [findNextPowerOfTwo_natCast h.cpr_pos, Except.ok.injEq,
    Int.ofNat_inj] at hpower
  rw [← hpower]
  exact Nat.le_pow_clog (by decide) cpr

/-- The records of a burst fill the buffer. -/
theorem OutputStream.mul_eq (h : OutputStream d sel cpr np2 n) :
    np2 * n = 32 := by
  have hpower := h.nextPowerOfTwo
  rw [findNextPowerOfTwo_natCast h.cpr_pos, Except.ok.injEq,
    Int.ofNat_inj] at hpower
  have hlog : Nat.clog 2 cpr ≤ 5 :=
    Nat.clog_le_of_le_pow (by simpa using h.chunks_le)
  have hdvd : np2 ∣ 32 := by
    rw [← hpower]
    exact pow_dvd_pow 2 hlog
  rw [h.recordCount]
  exact Nat.mul_div_cancel' hdvd

theorem OutputStream.record_pos (h : OutputStream d sel cpr np2 n) :
    0 < n := by
  have hmul := h.mul_eq
  exact Nat.pos_of_ne_zero (by rintro rfl; omega)

theorem OutputStream.nonneg (h : OutputStream d sel cpr np2 n) :
    ∀ s ∈ sel, s = -1 ∨ 0 ≤ s := by
  intro s hs
  rcases h.entry s hs with heq | ⟨hle, -⟩
  · exact .inl heq
  · exact .inr hle

theorem OutputStream.chunk_lt (h : OutputStream d sel cpr np2 n) {s : Nat}
    (hs : (s : Int) ∈ sel) : s / 16 < cpr := by
  rcases h.entry s hs with heq | ⟨-, hlt⟩ <;> omega

/-- The extension of the selection is accepted. -/
theorem OutputStream.extended (h : OutputStream d sel cpr np2 n) :
    ∃ ext, extendOutputSpecification sel n cpr = .ok ext ∧
      Extended n sel ((16 * cpr : Nat) : Int) (-2) (16 * np2) ext := by
  have hmul := h.mul_eq
  have hn := h.record_pos
  have hle := h.length_le
  have hcpr := h.cpr_le_np2
  have hsize : n * (16 * np2) = 512 := by
    rw [Nat.mul_left_comm, Nat.mul_comm n np2, hmul]
  have hquotient : divide (kDdrBurstSize : Nat) (n : Int) =
      .ok ((16 * np2 : Nat) : Int) := by
    have hdiv : 512 / n = 16 * np2 := by
      rw [← hsize]
      exact Nat.mul_div_cancel_left _ hn
    rw [divide, if_neg (by omega), kDdrBurstSize_eq, ← Int.ofNat_tdiv, hdiv]
  obtain ⟨ext, hext, hextended⟩ := extendSpecification_total
    ((16 * cpr : Nat) : Int) (-2)
    (show sel.length ≤ 16 * np2 by omega) (Nat.dvd_mul_right 16 np2)
    (show 0 < n * (16 * np2) by omega) (by omega) (by decide)
    (by
      intro j hj s hs
      rcases h.entry s hs with rfl | ⟨hs0, hs1⟩
      · simp [extendSelection]
      · obtain ⟨s, rfl⟩ := Int.eq_ofNat_of_zero_le hs0
        rw [extendSelection_natCast]
        have hbound : (j + 1) * (16 * cpr) ≤ n * (16 * np2) :=
          Nat.mul_le_mul hj (by omega)
        rw [Nat.add_mul] at hbound
        simp only [mirrorIndex]
        omega)
  refine ⟨ext, ?_, hextended⟩
  have hsize' : (cpr : Int) * kDatapathWidth = ((16 * cpr : Nat) : Int) := by
    rw [kDatapathWidth_eq]
    omega
  rw [extendOutputSpecification, hquotient, ok_bind, hsize', hext]

theorem OutputStream.needsOverwrite_iff (h : OutputStream d sel cpr np2 n)
    {ext : List Int}
    (hext : Extended n sel ((16 * cpr : Nat) : Int) (-2) (16 * np2) ext) :
    needsOverwriteCheck ext = true ↔ 496 < n * sel.length := by
  have hle := h.length_le
  have hcpr := h.cpr_le_np2
  have hfit : sel.length ≤ 16 * np2 := by omega
  rw [needsOverwriteCheck, hext.length, hext.count_junk hfit h.nonneg,
    ← Nat.mul_sub, Nat.sub_sub_self hfit, decide_eq_true_iff]
  exact Iff.rfl

theorem wordAt_lt {xs : List DMACrossbarSetupData} {kind : SelectionKind}
    {c p : Nat} {w : Int} (hw : wordAt xs kind c p = some w) : p < 16 := by
  simp only [wordAt, Option.bind_eq_some_iff] at hw
  obtain ⟨entry, -, hw⟩ := hw
  simpa using (Vector.getElem?_eq_some_iff.mp hw).1

/-- The full buffer: after the idle lanes have been parked in free chunks. -/
theorem Packing.allocate {xs ys : List DMACrossbarSetupData}
    (h : Packing sel n np2 (fun w _ => w = -1) (n * sel.length) xs)
    (hys : Allocated xs (List.finRange kDatapathWidth) ys) :
    Packing sel n np2 (ParkedSafely sel n) (n * sel.length) ys := by
  have hkept : ∀ c p (k : Nat), wordAt xs .chunk c p = some (k : Int) →
      wordAt ys .chunk c p = some (k : Int) := by
    intro c p k hk
    rw [hys.kept c p (by rw [hk]; simp only [ne_eq, Option.some.injEq]; omega),
      hk]
  refine ⟨by rw [hys.length, h.length], ?_, ?_, ?_⟩
  · intro j i s hj hs ht
    exact hkept _ _ _ (h.chunk j i s hj hs ht)
  · intro j i s hj hs ht
    rw [hys.position]
    exact h.position j i s hj hs ht
  · intro c p w hw
    by_cases hidle : wordAt xs .chunk c p = some (-1)
    · left
      have hp : p < kDatapathWidth := wordAt_lt hw
      obtain ⟨w', hw', hpos, hlt, hfree⟩ := hys.parked c ⟨p, hp⟩
        (List.mem_finRange _) hidle
      rw [hw, Option.some.injEq] at hw'
      subst hw'
      refine ⟨hpos, hlt, ?_⟩
      rintro j i s hj hs rfl rfl
      have hi : i < sel.length := (List.getElem?_eq_some_iff.mp hs).1
      have ht : j * sel.length + i < n * sel.length := by
        have hbound := Nat.mul_le_mul_right sel.length (show j + 1 ≤ n from hj)
        rw [Nat.add_mul] at hbound
        omega
      exact hfree _ (h.chunk j i s hj hs ht)
    · rw [hys.kept c p hidle] at hw
      rcases h.idle c p w hw with rfl | hlive
      · exact absurd hw hidle
      · exact .inr hlive

/-- Both branches end in a configuration that parks its idle lanes away from
the live integers. -/
theorem OutputStream.configured (h : OutputStream d sel cpr np2 n) :
    ∃ d', configureOutputCrossbarSetupData sel d = .ok d' ∧
      Packing sel n np2 (ParkedSafely sel n) (n * sel.length)
        d'.crossbarSetupData := by
  obtain ⟨ext, hext, hextended⟩ := h.extended
  have hle := h.length_le
  have hcpr := h.cpr_le_np2
  have hmul := h.mul_eq
  have hcpr0 := h.cpr_pos
  have hoverwrite := h.needsOverwrite_iff hextended
  have hsetup : setUpEmptyCrossbarSetupData [] ((cpr : Int) * n) =
      List.replicate (cpr * n) defaultSetupData := by
    rw [setUpEmptyCrossbarSetupData, List.nil_append, List.length_nil,
      Nat.cast_zero, Int.sub_zero, ← Int.natCast_mul, Int.toNat_natCast]
  simp only [configureOutputCrossbarSetupData, h.noClash, Bool.false_eq_true,
    if_false, h.recordsPerDdrBurst, h.chunksPerRecord, hext, ok_bind, h.fresh,
    hsetup]
  by_cases hfull : needsOverwriteCheck ext = true
  · -- All but a chunk is filled, so there is no room between the records.
    have hcount := hoverwrite.mp hfull
    have hsame : cpr = np2 := by
      by_contra hne
      have hcn : (cpr + 1) * n ≤ 32 := by
        rw [← hmul]
        exact Nat.mul_le_mul_right n (by omega)
      have hcount' := Nat.mul_le_mul_left n hle
      rw [Nat.mul_left_comm, Nat.mul_comm n cpr] at hcount'
      rw [Nat.add_mul] at hcn
      have hn := h.record_pos
      omega
    subst hsame
    obtain ⟨ys, junk, hrun, hpacking⟩ := configureOutputLoop_total
      (fun w _ => w = -1)
      (fillSetupDataWithNegativePositions
        (List.replicate (cpr * n) defaultSetupData))
      h.noClash h.nonneg (fun s hs => h.chunk_lt hs)
      (show sel.length ≤ 16 * cpr by omega) (by omega) hextended
      (by simp [fillSetupDataWithNegativePositions])
      (by
        intro c p w hw
        rw [fillSetupDataWithNegativePositions, List.map_replicate] at hw
        simp only [wordAt, DMACrossbarSetupData.selection,
          List.getElem?_replicate] at hw
        split at hw
        · rw [Option.bind_some, Vector.getElem?_replicate] at hw
          split at hw
          · exact (Option.some.inj hw).symm
          · exact absurd hw (by simp)
        · exact absurd hw (by simp))
    obtain ⟨zs, hzs, hallocated⟩ := allocateFreeChunks_total
      (show ys.length ≤ 32 by rw [hpacking.length, hmul])
    simp only [hfull, if_true, hrun, ok_bind, hzs]
    exact ⟨_, rfl, hpacking.allocate hallocated⟩
  · have hcount : n * sel.length ≤ 496 := by
      have := mt hoverwrite.mpr hfull
      omega
    have hdefault : ∀ c p w, wordAt (List.replicate (cpr * n) defaultSetupData)
        .chunk c p = some w → w = 31 := by
      intro c p w hw
      rw [wordAt_replicate_default] at hw
      split at hw
      · exact (Option.some.inj hw).symm
      · exact absurd hw (by simp)
    -- The default chunk is behind the last live integer.
    have hparked : ∀ p, ParkedSafely sel n 31 p := by
      intro p
      refine ⟨by decide, by decide, ?_⟩
      intro j i s hj hs hp
      have hi : i < sel.length := (List.getElem?_eq_some_iff.mp hs).1
      have hbound := Nat.mul_le_mul_right sel.length (show j + 1 ≤ n from hj)
      rw [Nat.add_mul] at hbound
      omega
    obtain ⟨ys, junk, hrun, hpacking⟩ := configureOutputLoop_total
      (fun w _ => w = 31) (List.replicate (cpr * n) defaultSetupData)
      h.noClash h.nonneg (fun s hs => h.chunk_lt hs)
      (show sel.length ≤ 16 * np2 by omega) (by omega) hextended
      (by simp) hdefault
    have hsafe := hpacking.mono (Q := ParkedSafely sel n)
      (fun c p w _ hw => by subst hw; exact hparked p)
    simp only [hfull, Bool.false_eq_true, if_false, hrun, ok_bind,
      h.nextPowerOfTwo]
    by_cases hmissing : (np2 : Int) - (cpr : Int) = 0
    · have hsame : cpr = np2 := by omega
      subst hsame
      rw [if_neg (not_not.mpr hmissing)]
      exact ⟨_, rfl, hsafe⟩
    · rw [if_pos hmissing]
      obtain ⟨zs, hzs, hpadded⟩ := hsafe.pad (np2 - cpr) hcpr0
        (fun s hs => h.chunk_lt hs) hparked
      have hmissing' : ((np2 : Int) - (cpr : Int)).toNat = np2 - cpr := by omega
      rw [hmissing', hzs, ok_bind]
      rw [Nat.add_sub_cancel' hcpr] at hpadded
      exact ⟨_, rfl, hpadded⟩

/-- The output configuration of a stream completes with 32 entries, pushes into
the 32 chunks of the buffer, and writes every selected integer of every record
exactly once; whatever the order of the pushes, its cell ends up with that
integer. -/
theorem outputConfiguration_packs_records {α : Type}
    (records : Nat → Nat → α) (recordSize : Int)
    (h : OutputStream d sel cpr np2 n) :
    ∃ d', calculateCrossbarSetupData d recordSize sel = .ok d' ∧
      d'.crossbarSetupData.length = 32 ∧
      (∀ c p w, wordAt d'.crossbarSetupData .chunk c p = some w →
        0 ≤ w ∧ w < 32) ∧
      ∀ j i s k : Nat, j < n → sel[i]? = some (s : Int) →
        k = j * sel.length + i →
        (∃! w : Nat × Nat, w.2 = 15 - k % 16 ∧
          PushesTo d'.crossbarSetupData w.1 w.2 (k / 16)) ∧
        PushesTo d'.crossbarSetupData (np2 * j + s / 16) (15 - k % 16)
          (k / 16) ∧
        horizontalPull d'.crossbarSetupData (interfaceChunks np2 records)
          (np2 * j + s / 16) (15 - k % 16) = some (records j s) ∧
        ∀ order : List (Nat × Nat), (∀ c < 32, ∀ p < 16, (c, p) ∈ order) →
          order.foldl (push d'.crossbarSetupData (interfaceChunks np2 records))
            (fun _ _ => none) (k / 16) (15 - k % 16) = some (records j s) := by
  obtain ⟨d', hrun, hpacking⟩ := h.configured
  have hmul := h.mul_eq
  have hbound : ∀ j i s : Nat, j < n → sel[i]? = some (s : Int) →
      j * sel.length + i < n * sel.length := by
    intro j i s hj hs
    have hi : i < sel.length := (List.getElem?_eq_some_iff.mp hs).1
    have hle := Nat.mul_le_mul_right sel.length (show j + 1 ≤ n from hj)
    rw [Nat.add_mul] at hle
    omega
  refine ⟨d', ?_, by rw [hpacking.length, hmul], ?_, ?_⟩
  · rw [calculateCrossbarSetupData, h.isOutput, if_neg (by decide), hrun]
  · intro c p w hw
    rcases hpacking.idle c p w hw with hparked | ⟨j, i, s, hj, hs, -, hc, hp⟩
    · exact ⟨hparked.1, hparked.2.1⟩
    · have hword := hpacking.chunk j i s hj hs (hbound j i s hj hs)
      rw [← hc, ← hp, hw, Option.some.injEq] at hword
      have hcell : n * sel.length ≤ 512 := by
        have hsize := Nat.mul_le_mul_left n h.length_le
        rw [Nat.mul_left_comm] at hsize
        have hfill := Nat.mul_le_mul_left n h.cpr_le_np2
        rw [Nat.mul_comm n np2, hmul] at hfill
        omega
      have hk := hbound j i s hj hs
      omega
  · intro j i s k hj hs hk
    subst hk
    have hpush : PushesTo d'.crossbarSetupData (np2 * j + s / 16)
        (15 - (j * sel.length + i) % 16) ((j * sel.length + i) / 16) :=
      hpacking.chunk j i s hj hs (hbound j i s hj hs)
    have hunique : ∀ c, PushesTo d'.crossbarSetupData c
        (15 - (j * sel.length + i) % 16) ((j * sel.length + i) / 16) →
        c = np2 * j + s / 16 :=
      fun c hc => hpacking.unique hj hs hc
    have hchunk : s / 16 < np2 :=
      Nat.lt_of_lt_of_le (h.chunk_lt (List.mem_of_getElem? hs)) h.cpr_le_np2
    have hpull : horizontalPull d'.crossbarSetupData
        (interfaceChunks np2 records) (np2 * j + s / 16)
        (15 - (j * sel.length + i) % 16) = some (records j s) := by
      have hposition := hpacking.position j i s hj hs (hbound j i s hj hs)
      simp only [cycle, lane] at hposition
      have hrecord : (np2 * j + s / 16) / np2 = j := by
        rw [Nat.mul_add_div (by omega), Nat.div_eq_of_lt hchunk, Nat.add_zero]
      have hinteger : 16 * ((np2 * j + s / 16) % np2) + (15 - (15 - s % 16)) =
          s := by
        rw [Nat.mul_add_mod, Nat.mod_eq_of_lt hchunk]
        omega
      simp only [horizontalPull, hposition, Option.bind_eq_bind,
        Option.bind_some, Int.natCast_nonneg, if_true, Int.toNat_natCast,
        interfaceChunks, hrecord, hinteger]
    refine ⟨⟨(np2 * j + s / 16, 15 - (j * sel.length + i) % 16),
      ⟨rfl, hpush⟩, ?_⟩, hpush, hpull, ?_⟩
    · rintro ⟨c, p⟩ ⟨rfl, hc⟩
      rw [hunique c hc]
    · intro order horder
      have hcycle : np2 * j + s / 16 < 32 := by
        calc np2 * j + s / 16 < np2 * j + np2 := by omega
          _ = np2 * (j + 1) := (Nat.mul_succ np2 j).symm
          _ ≤ np2 * n := Nat.mul_le_mul_left np2 hj
          _ = 32 := hmul
      rw [foldl_push_of_unique hpush hunique order _
        (.inl (horder _ hcycle _ (by omega))), hpull]

end Stream

/-- Two records of three chunks with selections from all chunks; the fourth
entry of a record is padding. -/
theorem outputConfiguration_packs_records_padded :
    ∃ d', calculateCrossbarSetupData ⟨8, 3, [], false, -1⟩ 5
        [40, -1, 3, 17] = .ok d' ∧
      horizontalPull d'.crossbarSetupData
        (interfaceChunks 4 fun record column => 48 * record + column)
        (4 * 7 + 40 / 16) (15 - 28 % 16) = some (48 * 7 + 40) := by
  have h : OutputStream ⟨8, 3, [], false, -1⟩ [40, -1, 3, 17] 3 4 8 :=
    { isOutput := rfl
      fresh := rfl
      chunksPerRecord := rfl
      recordsPerDdrBurst := rfl
      nextPowerOfTwo := by decide
      recordCount := rfl
      nonempty := by decide
      entry := by decide
      enoughChunks := by decide
      chunks_le := by decide
      noClash := by decide }
  obtain ⟨d', hrun, -, -, hcells⟩ := outputConfiguration_packs_records
    (fun record column => 48 * record + column) 5 h
  exact ⟨d', hrun, (hcells 7 0 40 28 (by decide) rfl rfl).2.2.1⟩

end Orkhestra.Ports.OutputCrossbar
