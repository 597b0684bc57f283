import Mathlib.Algebra.Ring.Nat
import Mathlib.Data.List.Induction

/-!
# Texts of digits

`Nat.toDigits` prints a number without leading zeros.  `fixedDigits` prints the
last digits of a number, with zeros in front where it is shorter; it is what a
text of the printed numbers is cut along.

`toDigits_append_fixedDigits` splits a printed number at any digit, and
`leftpad_toDigits` says what a printed number becomes when zeros are put in
front of it.
-/

namespace Orkhestra.Verified.Digits

/-- The last `k` digits of a number. -/
def fixedDigits (b : Nat) : Nat → Nat → List Char
  | 0, _ => []
  | k + 1, n => fixedDigits b k (n / b) ++ [Nat.digitChar (n % b)]

variable {b k n r : Nat}

@[simp] theorem length_fixedDigits (b k n : Nat) :
    (fixedDigits b k n).length = k := by
  induction k generalizing n with
  | zero => rfl
  | succ k ih => rw [fixedDigits, List.length_append, ih, List.length_singleton]

theorem fixedDigits_zero (b k : Nat) :
    fixedDigits b k 0 = List.replicate k '0' := by
  induction k with
  | zero => rfl
  | succ k ih =>
      rw [fixedDigits, Nat.zero_div, ih, Nat.zero_mod, List.replicate_succ']
      rfl

/-- A printed number behind its first digits. -/
theorem toDigits_append_fixedDigits (hb : 1 < b) (hn : 0 < n)
    (hr : r < b ^ k) :
    Nat.toDigits b n ++ fixedDigits b k r = Nat.toDigits b (n * b ^ k + r) := by
  induction k generalizing r with
  | zero =>
      have hzero : r = 0 := by simpa using hr
      rw [hzero, fixedDigits, List.append_nil, Nat.pow_zero, Nat.mul_one,
        Nat.add_zero]
  | succ k ih =>
      have hhigh : r / b < b ^ k :=
        Nat.div_lt_of_lt_mul (by rwa [Nat.pow_succ, Nat.mul_comm] at hr)
      have hlow : r % b < b := Nat.mod_lt r (by omega)
      have hsum : b * (n * b ^ k + r / b) + r % b = n * b ^ (k + 1) + r := by
        rw [Nat.mul_add, Nat.add_assoc, Nat.div_add_mod, Nat.pow_succ,
          Nat.mul_left_comm, Nat.mul_comm b (b ^ k)]
      have hpos : 0 < n * b ^ k + r / b :=
        Nat.add_pos_left (Nat.mul_pos hn (Nat.pow_pos (by omega))) _
      rw [fixedDigits, ← List.append_assoc, ih hhigh,
        ← Nat.toDigits_of_lt_base hlow,
        Nat.toDigits_append_toDigits hb hpos hlow, hsum]

theorem fixedDigits_append (hr : r < b ^ k) (j m : Nat) :
    fixedDigits b (j + k) (m * b ^ k + r) =
      fixedDigits b j m ++ fixedDigits b k r := by
  induction k generalizing r with
  | zero =>
      have hzero : r = 0 := by simpa using hr
      rw [hzero, fixedDigits, List.append_nil, Nat.pow_zero, Nat.mul_one,
        Nat.add_zero, Nat.add_zero]
  | succ k ih =>
      have hb : 0 < b := by
        rcases Nat.eq_zero_or_pos b with rfl | hb
        · simp at hr
        · exact hb
      have hhigh : r / b < b ^ k :=
        Nat.div_lt_of_lt_mul (by rwa [Nat.pow_succ, Nat.mul_comm] at hr)
      have hpow : m * b ^ (k + 1) + r = b * (m * b ^ k) + r := by
        rw [Nat.pow_succ, Nat.mul_comm (b ^ k) b, Nat.mul_left_comm]
      rw [← Nat.add_assoc, fixedDigits, fixedDigits, hpow,
        Nat.mul_add_div hb, Nat.mul_add_mod, ih hhigh, List.append_assoc]

/-- Zeros in front of a printed number. -/
theorem leftpad_toDigits (hb : 1 < b) (hk : 0 < k) (hn : n < b ^ k) :
    List.replicate (k - (Nat.toDigits b n).length) '0' ++ Nat.toDigits b n =
      fixedDigits b k n := by
  induction k generalizing n with
  | zero => omega
  | succ k ih =>
      rcases Nat.lt_or_ge n b with hlt | hge
      · rw [Nat.toDigits_of_lt_base hlt, fixedDigits, Nat.div_eq_of_lt hlt,
          fixedDigits_zero, Nat.mod_eq_of_lt hlt, List.length_singleton,
          Nat.add_sub_cancel]
      · have hhigh : n / b < b ^ k :=
          Nat.div_lt_of_lt_mul (by rwa [Nat.pow_succ, Nat.mul_comm] at hn)
        have hpos : 0 < k := by
          rcases Nat.eq_zero_or_pos k with rfl | hpos
          · rw [Nat.zero_add, Nat.pow_one] at hn
            omega
          · exact hpos
        rw [Nat.toDigits_of_base_le hb hge, fixedDigits, ← ih hpos hhigh,
          List.length_append, List.length_singleton, Nat.add_sub_add_right,
          List.append_assoc]

/-! ## Reading digits -/

/-- The value of a digit; the inverse of `Nat.digitChar`. -/
def digitValue (c : Char) : Nat :=
  if c.isDigit then c.toNat - '0'.toNat else c.toNat - 'a'.toNat + 10

theorem digitValue_digitChar (hn : n < 16) :
    digitValue (Nat.digitChar n) = n := by
  have hall : ∀ m < 16, digitValue (Nat.digitChar m) = m := by decide
  exact hall n hn

/-- The decimal digits are the characters from `'0'` on. -/
theorem digitChar_of_isDigit {c : Char} (hc : c.isDigit = true) :
    c.toNat - '0'.toNat < 10 ∧ Nat.digitChar (c.toNat - '0'.toNat) = c := by
  have hrange := Char.isDigit_iff_toNat.mp hc
  have hzero : '0'.toNat = 48 := rfl
  have hnine : '9'.toNat = 57 := rfl
  have hlt : c.toNat - '0'.toNat < 10 := by omega
  refine ⟨hlt, Char.toNat_inj.mp ?_⟩
  rw [Nat.toNat_digitChar_of_lt_ten hlt]
  omega

theorem ofDigitChars_lt {digits : List Char}
    (hdigits : ∀ c ∈ digits, c.isDigit = true) :
    Nat.ofDigitChars 10 digits 0 < 10 ^ digits.length := by
  induction digits using List.reverseRecOn with
  | nil => decide
  | append_singleton digits c ih =>
      have hc := (digitChar_of_isDigit (hdigits c (by simp))).1
      have hlt := ih fun d hd => hdigits d (List.mem_append_left _ hd)
      rw [Nat.ofDigitChars_append, Nat.ofDigitChars_cons, Nat.ofDigitChars_nil,
        List.length_append, List.length_singleton, Nat.pow_succ]
      omega

/-- A text of decimal digits is printed from its value. -/
theorem fixedDigits_ofDigitChars {digits : List Char}
    (hdigits : ∀ c ∈ digits, c.isDigit = true) :
    fixedDigits 10 digits.length (Nat.ofDigitChars 10 digits 0) = digits := by
  induction digits using List.reverseRecOn with
  | nil => rfl
  | append_singleton digits c ih =>
      have hc := digitChar_of_isDigit (hdigits c (by simp))
      rw [Nat.ofDigitChars_append, Nat.ofDigitChars_cons, Nat.ofDigitChars_nil,
        List.length_append, List.length_singleton, fixedDigits,
        Nat.mul_add_div (by decide), Nat.div_eq_of_lt hc.1, Nat.add_zero,
        Nat.mul_add_mod, Nat.mod_eq_of_lt hc.1, hc.2,
        ih fun d hd => hdigits d (List.mem_append_left _ hd)]

end Orkhestra.Verified.Digits
