import Orkhestra.Ports.DataToString
import Mathlib.Data.List.TakeWhile

/-!
# Texts of numbers and dates

A word of an integer or a date column is printed as an unsigned number, while
`std::stoi` reads a signed one: a word with the highest bit set is printed as a
text that cannot be read, and a negative number that was read is printed as
another one.  All other words and texts survive, dates with their hyphens.
-/

namespace Orkhestra.Ports.NumberTexts

open Orkhestra.Verified.Checked
open Orkhestra.Verified.Digits
open Orkhestra.Ports.TypesConverter
open Orkhestra.Ports.DataToString
open Orkhestra.Ports.DMA (toWord toWord_of_lt)

/-! ## Reading digits -/

theorem digitsValue_eq (digits : List Char) :
    digitsValue digits = Nat.ofDigitChars 10 digits 0 := by
  rw [digitsValue, Nat.ofDigitChars_eq_foldl]
  simp only [Nat.mul_comm]

theorem isDigit_of_mem_decimalText {v : Nat} {c : Char}
    (hc : c ∈ decimalText v) : c.isDigit = true :=
  Nat.isDigit_of_mem_toDigits (by decide) (by decide) hc

section Digits

variable {digits : List Char}

theorem parseDigits_digits (hdigits : ∀ c ∈ digits, c.isDigit = true)
    (hne : digits ≠ []) (sign : Int) :
    parseDigits sign digits =
      if -2 ^ 31 ≤ sign * Nat.ofDigitChars 10 digits 0 ∧
          sign * Nat.ofDigitChars 10 digits 0 < 2 ^ 31 then
        .ok (sign * Nat.ofDigitChars 10 digits 0)
      else .error .outOfRange := by
  have htake : digits.takeWhile Char.isDigit = digits :=
    List.takeWhile_eq_self_iff.mpr hdigits
  rw [parseDigits, htake, if_neg hne, digitsValue_eq]

/-- A text of digits is neither blank nor signed in front. -/
theorem stoi_digits (hdigits : ∀ c ∈ digits, c.isDigit = true)
    (hne : digits ≠ []) :
    stoi digits =
      if Nat.ofDigitChars 10 digits 0 < 2 ^ 31 then
        .ok (Nat.ofDigitChars 10 digits 0 : Int)
      else .error .outOfRange := by
  obtain ⟨c, rest, rfl⟩ := List.exists_cons_of_ne_nil hne
  have hc := Char.isDigit_iff_toNat.mp (hdigits c List.mem_cons_self)
  have hzero : '0'.toNat = 48 := rfl
  have hspace : isSpace c = false := by
    rw [isSpace, Bool.or_eq_false_iff, decide_eq_false_iff_not,
      Bool.and_eq_false_iff, decide_eq_false_iff_not, decide_eq_false_iff_not]
    refine ⟨?_, .inr (by omega)⟩
    rintro rfl
    exact absurd hc.1 (by decide)
  have hminus : c ≠ '-' := by
    rintro rfl
    exact absurd hc.1 (by decide)
  have hplus : c ≠ '+' := by
    rintro rfl
    exact absurd hc.1 (by decide)
  have hparse : stoi (c :: rest) = parseDigits 1 (c :: rest) := by
    rw [stoi, List.dropWhile_cons_of_neg (by rw [hspace]; decide)]
    split
    · next heq => exact absurd (List.cons.inj heq).1 hminus
    · next heq => exact absurd (List.cons.inj heq).1 hplus
    · rfl
  rw [hparse, parseDigits_digits hdigits hne, Int.one_mul]
  split
  · next h => rw [if_pos (by omega)]
  · next h => rw [if_neg (by omega)]

end Digits

theorem stoi_decimalText (v : Nat) :
    stoi (decimalText v) =
      if v < 2 ^ 31 then .ok (v : Int) else .error .outOfRange := by
  rw [stoi_digits (fun c hc => isDigit_of_mem_decimalText hc)
    Nat.toDigits_ne_nil, decimalText, Nat.ofDigitChars_ten_toDigits]

/-! ## Integers -/

/-- A word is read back from the text that is printed for it. -/
def IntegerWordSurvives (v : Nat) : Prop :=
  ∃ text, convertIntegerValuesToString [v] [] = .ok [text] ∧
    convertIntegerValuesToIntegerData text [] = .ok [v]

/-- A text is printed for the words that it is read as. -/
def IntegerTextSurvives (text : List Char) : Prop :=
  ∃ words, convertIntegerValuesToIntegerData text [] = .ok words ∧
    convertIntegerValuesToString words [] = .ok [text]

/-- The canonical decimal text of an integer. -/
def integerText (z : Int) : List Char :=
  if z < 0 then '-' :: decimalText z.natAbs else decimalText z.natAbs

theorem integerWordSurvives_iff {v : Nat} (hv : v < 2 ^ 32) :
    IntegerWordSurvives v ↔ v < 2 ^ 31 := by
  have hprint : convertIntegerValuesToString [v] [] = .ok [decimalText v] := rfl
  constructor
  · rintro ⟨text, htext, hread⟩
    rw [hprint, Except.ok.injEq, List.singleton_inj] at htext
    rw [convertIntegerValuesToIntegerData, ← htext, stoi_decimalText] at hread
    split at hread
    · assumption
    · cases hread
  · intro hlt
    refine ⟨decimalText v, hprint, ?_⟩
    rw [convertIntegerValuesToIntegerData, stoi_decimalText, if_pos hlt, ok_bind,
      toWord_of_lt hv, List.nil_append]

theorem decimalText_ne_minus (v : Nat) (text : List Char) :
    decimalText v ≠ '-' :: text := by
  intro h
  have hmem : '-' ∈ decimalText v := by rw [h]; exact List.mem_cons_self
  exact absurd (isDigit_of_mem_decimalText hmem) (by decide)

theorem integerTextSurvives_iff {z : Int} (hlow : -2 ^ 31 ≤ z)
    (hhigh : z < 2 ^ 31) : IntegerTextSurvives (integerText z) ↔ 0 ≤ z := by
  constructor
  · rintro ⟨words, hread, hprint⟩
    by_contra hneg
    rw [integerText, if_pos (Int.not_le.mp hneg)] at hread hprint
    rw [convertIntegerValuesToIntegerData, bind_eq_ok] at hread
    obtain ⟨value, -, hwords⟩ := hread
    rw [List.nil_append, Except.ok.injEq] at hwords
    subst hwords
    have htext : decimalText (toWord value) = '-' :: decimalText z.natAbs :=
      List.singleton_inj.mp (Except.ok.inj hprint)
    exact decimalText_ne_minus _ _ htext
  · intro hnonneg
    have hread : stoi (decimalText z.natAbs) = .ok (z.natAbs : Int) := by
      rw [stoi_decimalText, if_pos (by omega)]
    refine ⟨[z.natAbs], ?_, ?_⟩
    · rw [integerText, if_neg (Int.not_lt.mpr hnonneg),
        convertIntegerValuesToIntegerData, hread, ok_bind,
        toWord_of_lt (by omega), List.nil_append]
    · rw [integerText, if_neg (Int.not_lt.mpr hnonneg)]
      rfl

/-! ## Dates -/

def DateWordSurvives (v : Nat) : Prop :=
  ∃ text, convertDateValuesToString [v] [] = .ok [text] ∧
    convertDateValuesToIntegerData text [] = .ok [v]

def DateTextSurvives (text : List Char) : Prop :=
  ∃ words, convertDateValuesToIntegerData text [] = .ok words ∧
    convertDateValuesToString words [] = .ok [text]

/-- Four digits for the year and two each for the month and the day. -/
def IsDateText (text : List Char) : Prop :=
  ∃ year month day : List Char, year.length = 4 ∧ month.length = 2 ∧
    day.length = 2 ∧ (∀ c ∈ year ++ month ++ day, c.isDigit = true) ∧
    text = year ++ '-' :: (month ++ '-' :: day)

/-- The digits of a date without its hyphens. -/
def dateDigits (v : Nat) : List Char :=
  List.replicate (8 - (decimalText v).length) '0' ++ decimalText v

theorem dateText_eq (v : Nat) :
    dateText v = insertHyphen (insertHyphen (dateDigits v) 4) 7 := by
  rw [dateText, dateDigits]
  split
  · rfl
  · next h =>
      have hzero : 8 - (decimalText v).length = 0 := by omega
      rw [hzero]
      rfl

theorem isDigit_of_mem_dateDigits {v : Nat} {c : Char}
    (hc : c ∈ dateDigits v) : c.isDigit = true := by
  rcases List.mem_append.mp hc with hc | hc
  · rw [(List.mem_replicate.mp hc).2]
    decide
  · exact isDigit_of_mem_decimalText hc

theorem filter_insertHyphen (text : List Char) (position : Nat) :
    (insertHyphen text position).filter (· ≠ '-') =
      text.filter (· ≠ '-') := by
  rw [insertHyphen, List.filter_append, List.filter_cons_of_neg (by decide),
    ← List.filter_append, List.take_append_drop]

theorem filter_digits {digits : List Char}
    (hdigits : ∀ c ∈ digits, c.isDigit = true) :
    digits.filter (· ≠ '-') = digits := by
  refine List.filter_eq_self.mpr fun c hc => decide_eq_true ?_
  rintro rfl
  exact absurd (hdigits '-' hc) (by decide)

/-- The hyphens are removed and the zeros in front do not count. -/
theorem stoi_dateText (v : Nat) :
    stoi ((dateText v).filter (· ≠ '-')) =
      if v < 2 ^ 31 then .ok (v : Int) else .error .outOfRange := by
  have hne : dateDigits v ≠ [] := by
    intro h
    exact Nat.toDigits_ne_nil (List.append_eq_nil_iff.mp h).2
  rw [dateText_eq, filter_insertHyphen, filter_insertHyphen,
    filter_digits fun c hc => isDigit_of_mem_dateDigits hc,
    stoi_digits (fun c hc => isDigit_of_mem_dateDigits hc) hne, dateDigits,
    Nat.ofDigitChars_append, Nat.ofDigitChars_replicate_zero, Nat.mul_zero,
    decimalText, Nat.ofDigitChars_ten_toDigits]

theorem dateWordSurvives_iff {v : Nat} (hv : v < 2 ^ 32) :
    DateWordSurvives v ↔ v < 2 ^ 31 := by
  have hprint : convertDateValuesToString [v] [] = .ok [dateText v] := rfl
  constructor
  · rintro ⟨text, htext, hread⟩
    rw [hprint, Except.ok.injEq, List.singleton_inj] at htext
    rw [convertDateValuesToIntegerData, ← htext, stoi_dateText] at hread
    split at hread
    · assumption
    · cases hread
  · intro hlt
    refine ⟨dateText v, hprint, ?_⟩
    rw [convertDateValuesToIntegerData, stoi_dateText, if_pos hlt, ok_bind,
      toWord_of_lt hv, List.nil_append]

/-- Eight digits with two hyphens are a date text. -/
theorem insertHyphen_date {year month day : List Char}
    (hyear : year.length = 4) (hmonth : month.length = 2) :
    insertHyphen (insertHyphen (year ++ month ++ day) 4) 7 =
      year ++ '-' :: (month ++ '-' :: day) := by
  have hfirst : insertHyphen (year ++ month ++ day) 4 =
      (year ++ '-' :: month) ++ day := by
    rw [insertHyphen, List.append_assoc, List.take_left' hyear,
      List.drop_left' hyear, List.append_assoc, List.cons_append]
  have hlength : (year ++ '-' :: month).length = 7 := by
    rw [List.length_append, List.length_cons, hyear, hmonth]
  rw [hfirst, insertHyphen, List.take_left' hlength, List.drop_left' hlength,
    List.append_assoc, List.cons_append]

theorem dateTextSurvives {text : List Char} (h : IsDateText text) :
    DateTextSurvives text := by
  obtain ⟨year, month, day, hyear, hmonth, hday, hdigits, rfl⟩ := h
  have hlength : (year ++ month ++ day).length = 8 := by
    rw [List.length_append, List.length_append, hyear, hmonth, hday]
  have hlt : Nat.ofDigitChars 10 (year ++ month ++ day) 0 < 10 ^ 8 := by
    have h := ofDigitChars_lt hdigits
    rwa [hlength] at h
  have hprint : dateDigits (Nat.ofDigitChars 10 (year ++ month ++ day) 0) =
      year ++ month ++ day := by
    rw [dateDigits, decimalText, leftpad_toDigits (by decide) (by decide) hlt]
    have h := fixedDigits_ofDigitChars hdigits
    rwa [hlength] at h
  have hne : year ++ month ++ day ≠ [] := by
    intro h
    rw [h] at hlength
    cases hlength
  have hread : stoi ((year ++ '-' :: (month ++ '-' :: day)).filter (· ≠ '-')) =
      .ok (Nat.ofDigitChars 10 (year ++ month ++ day) 0 : Int) := by
    rw [← insertHyphen_date hyear hmonth, filter_insertHyphen,
      filter_insertHyphen, filter_digits hdigits, stoi_digits hdigits hne,
      if_pos (by omega)]
  refine ⟨[Nat.ofDigitChars 10 (year ++ month ++ day) 0], ?_, ?_⟩
  · rw [convertDateValuesToIntegerData, hread, ok_bind,
      toWord_of_lt (by omega), List.nil_append]
  · rw [← insertHyphen_date hyear hmonth, ← hprint, ← dateText_eq, hprint]
    rfl

/-! ## What survives -/

/-- Words survive up to the largest `int`, texts unless they are negative, and
dates always. -/
theorem numbers_survive_iff {v : Nat} {z : Int} {text : List Char}
    (hv : v < 2 ^ 32) (hlow : -2 ^ 31 ≤ z) (hhigh : z < 2 ^ 31)
    (htext : IsDateText text) :
    (IntegerWordSurvives v ↔ v < 2 ^ 31) ∧ (DateWordSurvives v ↔ v < 2 ^ 31) ∧
      (IntegerTextSurvives (integerText z) ↔ 0 ≤ z) ∧ DateTextSurvives text :=
  ⟨integerWordSurvives_iff hv, dateWordSurvives_iff hv,
    integerTextSurvives_iff hlow hhigh, dateTextSurvives htext⟩

/-- A date as a word and as a text, and a number. -/
theorem numbers_survive_iff_at_small_values :
    (IntegerWordSurvives 20200131 ↔ 20200131 < 2 ^ 31) ∧
      (DateWordSurvives 20200131 ↔ 20200131 < 2 ^ 31) ∧
      (IntegerTextSurvives (integerText 7) ↔ (0 : Int) ≤ 7) ∧
      DateTextSurvives "2020-01-31".toList :=
  numbers_survive_iff (by decide) (by decide) (by decide)
    ⟨"2020".toList, "01".toList, "31".toList, rfl, rfl, rfl,
      List.all_eq_true.mp rfl, rfl⟩

/-- `2147483648` is too large to be read, and `-1` is printed as
`4294967295`. -/
theorem numbers_do_not_survive :
    ¬IntegerWordSurvives 2147483648 ∧ ¬DateWordSurvives 2147483648 ∧
      ¬IntegerTextSurvives "-1".toList := by
  refine ⟨?_, ?_, ?_⟩
  · rw [integerWordSurvives_iff (by decide)]
    decide
  · rw [dateWordSurvives_iff (by decide)]
    decide
  · rintro ⟨words, hread, hprint⟩
    obtain rfl := Except.ok.inj
      (hread.symm.trans (show _ = Except.ok [4294967295] by decide))
    exact absurd hprint (by decide)

end Orkhestra.Ports.NumberTexts
