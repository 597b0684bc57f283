import Orkhestra.Ports.DMA

/-!
# The types converter

`TypesConverter`: the texts of a row are converted to 32 bit words, which are
appended to a vector.

A `std::string` is a list of characters, one for each byte; a plain `char` is
unsigned.  The decimal values go through `double`: what `std::stod` and
`std::round` make of a text is the parameter `hundredths`.
-/

namespace Orkhestra.Ports.TypesConverter

open Orkhestra.Verified.Checked
open Orkhestra.Ports.DMA (toWord)

inductive ColumnDataType where
  | kInteger
  | kVarchar
  | kNull
  | kDecimal
  | kDate
  deriving DecidableEq, Repr

/-- Type and size in words of each column. -/
abbrev ColumnDefs := List (ColumnDataType × Int)

/-- `std::round(std::stod(input) * 100.0)` as an integer, or the exception of
`std::stod`. -/
abbrev Hundredths := List Char → Outcome Int

/-! ## `std::stoi` -/

/-- `std::isspace`. -/
def isSpace (c : Char) : Bool :=
  c = ' ' || (9 ≤ c.toNat && c.toNat ≤ 13)

/-- Value of a sequence of decimal digits. -/
def digitsValue (digits : List Char) : Nat :=
  digits.foldl (fun value digit => value * 10 + (digit.toNat - '0'.toNat)) 0

/-- The value of the digits that the text starts with, if it has some and the
value is in the range of `int`. -/
def parseDigits (sign : Int) (text : List Char) : Outcome Int :=
  let digits := text.takeWhile Char.isDigit
  let value := sign * digitsValue digits
  if digits = [] then .error (.logicError "stoi")
  else if -2 ^ 31 ≤ value ∧ value < 2 ^ 31 then .ok value
  else .error .outOfRange

def stoi (input : List Char) : Outcome Int :=
  match input.dropWhile isSpace with
  | '-' :: text => parseDigits (-1) text
  | '+' :: text => parseDigits 1 text
  | text => parseDigits 1 text

/-! ## Single values -/

/-- The loop of `ConvertCharStringToAscii` over the characters. -/
def packCharacters (inputString : List Char) (startShift outputSize : Nat)
    (length : Nat) : Outcome (List Int) :=
  (List.range length).foldlM (fun integerValues i => do
    let value ← readAt integerValues (i / 4)
    let character ← checkedAt inputString (i + startShift)
    writeAt integerValues (i / 4)
      (value + character.toNat * 2 ^ ((3 - i % 4) * 8)))
    (List.replicate outputSize 0)

/-- The rest of `ConvertCharStringToAscii` once the quotes are known.  The
lengths are unsigned; the number of characters that fit is an `int` first. -/
def convertCharacters (inputString : List Char) (outputSize : Int)
    (startShift : Nat) (lengthReduction : Int) : Outcome (List Int) := do
  let length := ((inputString.length : Int) - lengthReduction) % 2 ^ 64
  let maxLength ← multiply outputSize 4
  if length > maxLength % 2 ^ 64 then
    .error (.runtimeError (String.ofList inputString ++ " is longer than " ++
      toString maxLength))
  else if outputSize < 0 then
    .error (.logicError "cannot create std::vector larger than max_size()")
  else packCharacters inputString startShift outputSize.toNat length.toNat

def convertCharStringToAscii (inputString : List Char) (outputSize : Int) :
    Outcome (List Int) := do
  let first ← checkedAt inputString 0
  -- If the string is surrounded by quotes we need to reduce parsing range
  if first = '"' ∧ inputString.getLast? = some '"' then
    convertCharacters inputString outputSize 1 2
  else convertCharacters inputString outputSize 0 0

def convertStringValuesToIntegerData (input : List Char)
    (dataVector : List Nat) (outputSize : Int) : Outcome (List Nat) := do
  let values ← convertCharStringToAscii input outputSize
  .ok (dataVector ++ values.map toWord)

def convertIntegerValuesToIntegerData (input : List Char)
    (dataVector : List Nat) : Outcome (List Nat) := do
  let value ← stoi input
  .ok (dataVector ++ [toWord value])

def convertNullValuesToIntegerData (dataVector : List Nat)
    (outputSize : Int) : Outcome (List Nat) :=
  .ok (dataVector ++ List.replicate outputSize.toNat 0)

def convertDecimalValuesToIntegerData (hundredths : Hundredths)
    (input : List Char) (dataVector : List Nat) : Outcome (List Nat) := do
  let inputValue ← hundredths input
  .ok (dataVector ++ [toWord (inputValue / 2 ^ 32), toWord inputValue])

def convertDateValuesToIntegerData (input : List Char)
    (dataVector : List Nat) : Outcome (List Nat) := do
  let value ← stoi (input.filter (· ≠ '-'))
  .ok (dataVector ++ [toWord value])

def convertDataToIntegers (hundredths : Hundredths) (dataType : ColumnDataType)
    (inputString : List Char) (convertedDataVector : List Nat)
    (stringSize : Int) : Outcome (List Nat) :=
  match dataType with
  | .kInteger =>
      convertIntegerValuesToIntegerData inputString convertedDataVector
  | .kVarchar =>
      convertStringValuesToIntegerData inputString convertedDataVector stringSize
  | .kNull => convertNullValuesToIntegerData convertedDataVector stringSize
  | .kDecimal =>
      convertDecimalValuesToIntegerData hundredths inputString
        convertedDataVector
  | .kDate => convertDateValuesToIntegerData inputString convertedDataVector

/-! ## Rows -/

def convertRecordStringToIntegers (hundredths : Hundredths)
    (row : List (List Char)) (dataTypesVector : ColumnDefs)
    (integerData : List Nat) : Outcome (List Nat) :=
  row.zipIdx.foldlM (fun integerData token => do
    let column ← readAt dataTypesVector token.2
    convertDataToIntegers hundredths column.1 token.1 integerData column.2)
    integerData

def addIntegerDataFromStringData (hundredths : Hundredths)
    (stringData : List (List (List Char))) (integerData : List Nat)
    (dataTypesVector : ColumnDefs) : Outcome (List Nat) :=
  stringData.foldlM (fun integerData row =>
    convertRecordStringToIntegers hundredths row dataTypesVector integerData)
    integerData

/-! ## How many words a value takes -/

/-- Words of a value; only texts and nulls are as long as their column. -/
def ColumnDataType.wordCount (dataType : ColumnDataType) (size : Int) : Int :=
  match dataType with
  | .kInteger => 1
  | .kVarchar => size
  | .kNull => size
  | .kDecimal => 2
  | .kDate => 1

/-- Words of the columns that a row has a text for. -/
def rowWordCount (row : List (List Char)) (columns : ColumnDefs) : Int :=
  ((columns.take row.length).map fun column =>
    column.1.wordCount column.2).sum

/-- The words appended by a computation, whatever they are appended to. -/
def Appends (run : List Nat → Outcome (List Nat)) (count : Int) : Prop :=
  (∃ words : List Nat, (words.length : Int) = count ∧
    ∀ data, run data = .ok (data ++ words)) ∨
  ∃ fault, ∀ data, run data = .error fault

theorem packCharacters_length {inputString : List Char}
    {startShift outputSize length : Nat} {values : List Int}
    (h : packCharacters inputString startShift outputSize length = .ok values) :
    values.length = outputSize := by
  refine forRange_invariant (fun _ values => values.length = outputSize) length
    (List.length_replicate ..) ?_ h
  intro i values values' _ hlength hbody
  simp only [bind_eq_ok, writeAt_eq_ok] at hbody
  obtain ⟨value, -, character, -, -, rfl⟩ := hbody
  rw [List.length_set]
  exact hlength

theorem convertCharacters_length {inputString : List Char}
    {outputSize lengthReduction : Int} {startShift : Nat} {values : List Int}
    (h : convertCharacters inputString outputSize startShift lengthReduction =
      .ok values) : (values.length : Int) = outputSize := by
  rw [convertCharacters, bind_eq_ok] at h
  obtain ⟨maxLength, -, h⟩ := h
  split at h
  · cases h
  · split at h
    · cases h
    · rw [packCharacters_length h]
      omega

theorem convertCharStringToAscii_length {inputString : List Char}
    {outputSize : Int} {values : List Int}
    (h : convertCharStringToAscii inputString outputSize = .ok values) :
    (values.length : Int) = outputSize := by
  rw [convertCharStringToAscii, bind_eq_ok] at h
  obtain ⟨first, -, h⟩ := h
  split at h
  · exact convertCharacters_length h
  · exact convertCharacters_length h

/-- A converter reads a value and appends its words. -/
theorem appends_value {α : Type} (value : Outcome α) (words : α → List Nat)
    {count : Int}
    (hcount : ∀ a, value = .ok a → ((words a).length : Int) = count) :
    Appends (fun data => do let a ← value; .ok (data ++ words a)) count := by
  cases value with
  | error fault => exact .inr ⟨fault, fun data => rfl⟩
  | ok a => exact .inl ⟨words a, hcount a rfl, fun data => rfl⟩

theorem appends_convertDataToIntegers (hundredths : Hundredths)
    (dataType : ColumnDataType) (inputString : List Char) {stringSize : Int}
    (hsize : 0 ≤ stringSize) :
    Appends (fun data => convertDataToIntegers hundredths dataType inputString
      data stringSize) (dataType.wordCount stringSize) := by
  cases dataType with
  | kInteger => exact appends_value (stoi inputString) _ fun _ _ => rfl
  | kVarchar =>
      refine appends_value (convertCharStringToAscii inputString stringSize)
        (·.map toWord) ?_
      intro values hvalues
      rw [List.length_map]
      exact convertCharStringToAscii_length hvalues
  | kNull =>
      refine .inl ⟨List.replicate stringSize.toNat 0, ?_, fun data => rfl⟩
      rw [List.length_replicate, ColumnDataType.wordCount]
      omega
  | kDecimal => exact appends_value (hundredths inputString) _ fun _ _ => rfl
  | kDate =>
      exact appends_value (stoi (inputString.filter (· ≠ '-'))) _
        fun _ _ => rfl

theorem Appends.bind {run run' : List Nat → Outcome (List Nat)}
    {count count' : Int} (hrun : Appends run count)
    (hrun' : Appends run' count') :
    Appends (fun data => run data >>= run') (count + count') := by
  rcases hrun with ⟨words, hwords, hrun⟩ | ⟨fault, hrun⟩
  · rcases hrun' with ⟨words', hwords', hrun'⟩ | ⟨fault, hrun'⟩
    · refine .inl ⟨words ++ words', ?_, fun data => ?_⟩
      · rw [List.length_append, Nat.cast_add, hwords, hwords']
      · show run data >>= run' = _
        rw [hrun, ok_bind, hrun', List.append_assoc]
    · exact .inr ⟨fault, fun data => by
        show run data >>= run' = _
        rw [hrun, ok_bind, hrun']⟩
  · exact .inr ⟨fault, fun data => by
      show run data >>= run' = _
      rw [hrun, error_bind]⟩

/-- The words are those that are appended to nothing. -/
theorem Appends.eq_ok {run : List Nat → Outcome (List Nat)} {count : Int}
    {words : List Nat} (h : Appends run count) (hrun : run [] = .ok words) :
    (words.length : Int) = count ∧ ∀ data, run data = .ok (data ++ words) := by
  rcases h with ⟨words', hcount, hwords'⟩ | ⟨fault, hfault⟩
  · have heq := (hwords' []).symm.trans hrun
    rw [List.nil_append, Except.ok.injEq] at heq
    subst heq
    exact ⟨hcount, hwords'⟩
  · rw [hfault] at hrun
    cases hrun

/-- A row that is no longer than the columns appends the words of the columns it
has a text for. -/
theorem appends_convertRecordStringToIntegers (hundredths : Hundredths)
    {row : List (List Char)} {columns : ColumnDefs}
    (hcolumns : ∀ column ∈ columns, 0 ≤ column.2)
    (hrow : row.length ≤ columns.length) :
    Appends (fun data => convertRecordStringToIntegers hundredths row columns
      data) (rowWordCount row columns) := by
  suffices key : ∀ (rest : List (List Char)) (n : Nat),
      n + rest.length ≤ columns.length →
      Appends (fun data => (rest.zipIdx n).foldlM (fun integerData token => do
        let column ← readAt columns token.2
        convertDataToIntegers hundredths column.1 token.1 integerData column.2)
        data)
      (((columns.drop n).take rest.length).map fun column =>
        column.1.wordCount column.2).sum by
    have h := key row 0 (by omega)
    rw [List.drop_zero] at h
    exact h
  intro rest
  induction rest with
  | nil =>
      intro n _
      exact .inl ⟨[], by simp, fun data => by simp⟩
  | cons text rest ih =>
      intro n hn
      rw [List.length_cons] at hn
      have hlt : n < columns.length := by omega
      have hdrop := List.drop_eq_getElem_cons hlt
      have hread := readAt_of_lt hlt
      have hfirst := appends_convertDataToIntegers hundredths columns[n].1 text
        (hcolumns columns[n] (List.getElem_mem hlt))
      have hall := hfirst.bind (ih (n + 1) (by omega))
      rw [hdrop, List.length_cons, List.take_succ_cons, List.map_cons,
        List.sum_cons]
      simp only [List.zipIdx_cons, List.foldlM_cons, hread, ok_bind]
      exact hall

end Orkhestra.Ports.TypesConverter
