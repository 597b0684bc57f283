import Orkhestra.Ports.TypesConverter
import Orkhestra.Verified.Digits

/-!
# From words to texts

The other half of `TypesConverter`: the words of a column are converted to its
text, and `AddStringDataFromIntegerData` cuts a vector of words into the rows of
a table.

The decimal values go through `double`: what the stream prints with two
decimals for a `long long` divided by 100 is the parameter `decimals`.
-/

namespace Orkhestra.Ports.DataToString

open Orkhestra.Verified.Checked
open Orkhestra.Verified.Digits
open Orkhestra.Ports.TypesConverter

/-- The text of a `long long` divided by `100.0`. -/
abbrev Decimals := Int → List Char

/-! ## Single values -/

/-- `std::to_string`. -/
def decimalText (value : Nat) : List Char := Nat.toDigits 10 value

/-- `std::stoul` with base 16 of a text of hexadecimal digits. -/
def stoulHex (byte : List Char) : Nat :=
  byte.foldl (fun value digit => value * 16 + digitValue digit) 0

/-- The character of two hexadecimal digits; none for `"00"`. -/
def hexByte (byte : List Char) : List Char :=
  if byte = ['0', '0'] then [] else [Char.ofNat (stoulHex byte)]

def convertHexStringToString : List Char → List Char
  | high :: low :: hex => hexByte [high, low] ++ convertHexStringToString hex
  | [digit] => hexByte [digit]
  | [] => []

/-- What the stream prints for a word. -/
def hexText (value : Nat) : List Char :=
  if value ≠ 0 then Nat.toDigits 16 value else []

def convertStringValuesToString (inputValue : List Nat)
    (stringVector : List (List Char)) : Outcome (List (List Char)) :=
  .ok (stringVector ++ [convertHexStringToString (inputValue.flatMap hexText)])

def convertIntegerValuesToString (inputValue : List Nat)
    (stringVector : List (List Char)) : Outcome (List (List Char)) := do
  let value ← readAt inputValue 0
  .ok (stringVector ++ [decimalText value])

def convertNullValuesToString (stringVector : List (List Char)) :
    Outcome (List (List Char)) :=
  .ok (stringVector ++ [[]])

def convertDecimalValuesToString (decimals : Decimals) (inputValue : List Nat)
    (stringVector : List (List Char)) : Outcome (List (List Char)) := do
  let high ← readAt inputValue 0
  let low ← readAt inputValue 1
  let value := Int.bmod (high * 2 ^ 32 + low) (2 ^ 64)
  .ok (stringVector ++ [decimals value])

/-- The text is long enough for the position. -/
def insertHyphen (text : List Char) (position : Nat) : List Char :=
  text.take position ++ '-' :: text.drop position

def dateText (value : Nat) : List Char :=
  let stringValue := decimalText value
  let stringValue :=
    if stringValue.length < 8 then
      List.replicate (8 - stringValue.length) '0' ++ stringValue
    else stringValue
  insertHyphen (insertHyphen stringValue 4) 7

def convertDateValuesToString (inputValue : List Nat)
    (stringVector : List (List Char)) : Outcome (List (List Char)) := do
  let value ← readAt inputValue 0
  .ok (stringVector ++ [dateText value])

def convertDataToString (decimals : Decimals) (dataType : ColumnDataType)
    (inputIntegerData : List Nat) (convertedDataVector : List (List Char)) :
    Outcome (List (List Char)) :=
  match dataType with
  | .kInteger =>
      convertIntegerValuesToString inputIntegerData convertedDataVector
  | .kVarchar =>
      convertStringValuesToString inputIntegerData convertedDataVector
  | .kNull => convertNullValuesToString convertedDataVector
  | .kDecimal =>
      convertDecimalValuesToString decimals inputIntegerData convertedDataVector
  | .kDate => convertDateValuesToString inputIntegerData convertedDataVector

/-! ## Rows -/

/-- The variables of the loop of `AddStringDataFromIntegerData`. -/
structure SegmentationState where
  currentElement : List Nat
  currentOutputRow : List (List Char)
  currentColumnIndex : Nat
  resultingStringData : List (List (List Char))

/-- The iteration for a word. -/
def addElement (decimals : Decimals) (dataTypesVector : ColumnDefs)
    (state : SegmentationState) (elementId : Nat) :
    Outcome SegmentationState := do
  let currentElement := state.currentElement ++ [elementId]
  let column ← readAt dataTypesVector state.currentColumnIndex
  if (currentElement.length : Int) = column.2 then
    let currentOutputRow ← convertDataToString decimals column.1 currentElement
      state.currentOutputRow
    let nextColumnIndex :=
      (state.currentColumnIndex + 1) % dataTypesVector.length
    if state.currentColumnIndex + 1 = dataTypesVector.length then
      .ok ⟨[], [], nextColumnIndex,
        state.resultingStringData ++ [currentOutputRow]⟩
    else
      .ok ⟨[], currentOutputRow, nextColumnIndex, state.resultingStringData⟩
  else .ok { state with currentElement }

def addStringDataFromIntegerData (decimals : Decimals)
    (integerData : List Nat) (resultingStringData : List (List (List Char)))
    (dataTypesVector : ColumnDefs) : Outcome (List (List (List Char))) := do
  let state ← integerData.foldlM (addElement decimals dataTypesVector)
    ⟨[], [], 0, resultingStringData⟩
  .ok state.resultingStringData

/-! ## What a converter appends -/

/-- From as many words as its type has a converter appends one text, whatever it
is appended to. -/
theorem convertDataToString_append (decimals : Decimals)
    {dataType : ColumnDataType} {words : List Nat} {size : Int}
    (hlength : (words.length : Int) = dataType.wordCount size) :
    ∃ text, ∀ row, convertDataToString decimals dataType words row =
      .ok (row ++ [text]) := by
  cases dataType with
  | kInteger =>
      obtain ⟨value, rfl⟩ := List.length_eq_one_iff.mp (Int.ofNat_inj.mp hlength)
      exact ⟨_, fun row => rfl⟩
  | kVarchar => exact ⟨_, fun row => rfl⟩
  | kNull => exact ⟨_, fun row => rfl⟩
  | kDecimal =>
      obtain ⟨high, low, rfl⟩ := List.length_eq_two.mp (Int.ofNat_inj.mp hlength)
      exact ⟨_, fun row => rfl⟩
  | kDate =>
      obtain ⟨value, rfl⟩ := List.length_eq_one_iff.mp (Int.ofNat_inj.mp hlength)
      exact ⟨_, fun row => rfl⟩

end Orkhestra.Ports.DataToString
