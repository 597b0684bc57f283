import Mathlib.Algebra.Ring.Nat
import Mathlib.Data.List.Basic

/-!
# Bytes packed into words

Four bytes make a word, the first one in the highest place.  Bytes that are
missing behind the end are zero.  `packed_take_succ` is the step of a loop that
adds the bytes one by one to words that are zero at first; `packed_succ` cuts
off the first word.
-/

namespace Orkhestra.Verified.ByteWords

/-- Zero behind the end. -/
def byteAt (bytes : List Nat) (i : Nat) : Nat := bytes[i]?.getD 0

def wordAt (bytes : List Nat) (k : Nat) : Nat :=
  byteAt bytes (4 * k) * 2 ^ 24 + byteAt bytes (4 * k + 1) * 2 ^ 16 +
    byteAt bytes (4 * k + 2) * 2 ^ 8 + byteAt bytes (4 * k + 3)

/-- The first `w` words. -/
def packed (w : Nat) (bytes : List Nat) : List Nat :=
  (List.range w).map (wordAt bytes)

variable {bytes : List Nat} {i k w : Nat}

@[simp] theorem length_packed (w : Nat) (bytes : List Nat) :
    (packed w bytes).length = w := by
  rw [packed, List.length_map, List.length_range]

@[simp] theorem getElem?_packed (hk : k < w) :
    (packed w bytes)[k]? = some (wordAt bytes k) := by
  rw [packed, List.getElem?_map, List.getElem?_range hk, Option.map_some]

theorem wordAt_nil (k : Nat) : wordAt [] k = 0 := by
  simp only [wordAt, byteAt, List.getElem?_nil, Option.getD_none, Nat.zero_mul]

theorem packed_nil (w : Nat) : packed w [] = List.replicate w 0 := by
  rw [packed, List.map_congr_left fun k _ => wordAt_nil k, List.map_const',
    List.length_range]

/-! ## Byte by byte -/

theorem byteAt_take_succ (i m : Nat) :
    byteAt (bytes.take (i + 1)) m =
      byteAt (bytes.take i) m + if m = i then byteAt bytes i else 0 := by
  unfold byteAt
  rcases Nat.lt_trichotomy m i with hlt | rfl | hgt
  · rw [List.getElem?_take_of_lt hlt, List.getElem?_take_of_lt (by omega),
      if_neg (by omega), Nat.add_zero]
  · rw [List.getElem?_take_of_lt (Nat.lt_succ_self m),
      List.getElem?_take_eq_none (Nat.le_refl m), if_pos rfl, Option.getD_none,
      Nat.zero_add]
  · rw [List.getElem?_take_eq_none hgt,
      List.getElem?_take_eq_none (Nat.le_of_lt hgt), if_neg (by omega),
      Nat.add_zero]

/-- A further byte changes its own word only. -/
theorem wordAt_take_succ (i k : Nat) :
    wordAt (bytes.take (i + 1)) k =
      wordAt (bytes.take i) k +
        if k = i / 4 then byteAt bytes i * 2 ^ ((3 - i % 4) * 8) else 0 := by
  unfold wordAt
  simp only [byteAt_take_succ]
  by_cases hk : k = i / 4
  · subst hk
    have hmod : i % 4 < 4 := Nat.mod_lt i (by decide)
    obtain h | h | h | h : i % 4 = 0 ∨ i % 4 = 1 ∨ i % 4 = 2 ∨ i % 4 = 3 := by
      omega
    · rw [if_pos (by omega), if_neg (by omega), if_neg (by omega),
        if_neg (by omega), if_pos rfl, h]
      omega
    · rw [if_neg (by omega), if_pos (by omega), if_neg (by omega),
        if_neg (by omega), if_pos rfl, h]
      omega
    · rw [if_neg (by omega), if_neg (by omega), if_pos (by omega),
        if_neg (by omega), if_pos rfl, h]
      omega
    · rw [if_neg (by omega), if_neg (by omega), if_neg (by omega),
        if_pos (by omega), if_pos rfl, h]
      omega
  · rw [if_neg (by omega), if_neg (by omega), if_neg (by omega),
      if_neg (by omega), if_neg hk]
    omega

/-- The step of a loop over the bytes. -/
theorem packed_take_succ (hi : i / 4 < w) :
    packed w (bytes.take (i + 1)) =
      (packed w (bytes.take i)).set (i / 4)
        (wordAt (bytes.take i) (i / 4) +
          byteAt bytes i * 2 ^ ((3 - i % 4) * 8)) := by
  refine List.ext_getElem? fun k => ?_
  rw [List.getElem?_set]
  by_cases hk : k < w
  · rw [getElem?_packed hk, getElem?_packed hk, wordAt_take_succ]
    split
    · next h => rw [if_pos h.symm, if_pos (by rwa [length_packed]), h]
    · next h => rw [if_neg (Ne.symm h), Nat.add_zero]
  · rw [List.getElem?_eq_none (by rw [length_packed]; omega),
      List.getElem?_eq_none (by rw [length_packed]; omega)]
    rw [if_neg (by omega)]

/-! ## Word by word -/

theorem byteAt_drop (n i : Nat) :
    byteAt (bytes.drop n) i = byteAt bytes (n + i) := by
  rw [byteAt, byteAt, List.getElem?_drop]

theorem wordAt_succ (bytes : List Nat) (k : Nat) :
    wordAt bytes (k + 1) = wordAt (bytes.drop 4) k := by
  have hnext : 4 * (k + 1) = 4 + 4 * k := by omega
  simp only [wordAt, byteAt_drop, hnext, Nat.add_assoc]

theorem packed_succ (w : Nat) (bytes : List Nat) :
    packed (w + 1) bytes = wordAt bytes 0 :: packed w (bytes.drop 4) := by
  rw [packed, List.range_succ_eq_map, List.map_cons, List.map_map]
  exact congrArg (wordAt bytes 0 :: ·)
    (List.map_congr_left fun k _ => wordAt_succ bytes k)

theorem byteAt_lt {b : Nat} (hb : 0 < b) (hbytes : ∀ c ∈ bytes, c < b)
    (i : Nat) : byteAt bytes i < b := by
  unfold byteAt
  cases h : bytes[i]? with
  | none => exact hb
  | some c => exact hbytes c (List.mem_of_getElem? h)

theorem wordAt_lt (hbytes : ∀ c ∈ bytes, c < 2 ^ 8) (k : Nat) :
    wordAt bytes k < 2 ^ 32 := by
  have hlt := byteAt_lt (by decide) hbytes
  have h0 := hlt (4 * k)
  have h1 := hlt (4 * k + 1)
  have h2 := hlt (4 * k + 2)
  have h3 := hlt (4 * k + 3)
  unfold wordAt
  omega

end Orkhestra.Verified.ByteWords
