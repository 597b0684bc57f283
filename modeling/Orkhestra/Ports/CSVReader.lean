import Orkhestra.Ports.TypesConverter
import Orkhestra.Verified.Rows

/-!
# The CSV reader and the data manager

A CSV file is loaded on two paths: `WriteTableFromFileToMemory` converts it row
by row into a memory block, each row at the record size from the one before;
`ParseDataFromCSV` reads the texts of a bounded number of rows and appends their
words to a vector.

A file is `none` when it cannot be opened.
-/

namespace Orkhestra.Ports.CSVReader

open Orkhestra.Verified.Checked
open Orkhestra.Verified.Rows
open Orkhestra.Ports.TypesConverter

/-! ## Lines and tokens -/

/-- What `std::getline` yields until it fails.  Nothing is left to be read
behind a delimiter at the end. -/
def getlines (delimiter : Char) : List Char → List (List Char)
  | [] => []
  | c :: text =>
      if c = delimiter then [] :: getlines delimiter text
      else match getlines delimiter text with
        | [] => [[c]]
        | line :: lines => (c :: line) :: lines

/-- A carriage return at the end of a token is erased. -/
def eraseCarriageReturn (token : List Char) : List Char :=
  if token.getLast? = some '\r' then token.dropLast else token

def tokens (separator : Char) (line : List Char) : List (List Char) :=
  (getlines separator line).map eraseCarriageReturn

/-! ## Reading rows -/

abbrev File := Option (List Char)

def linesOf (file : File) : List (List Char) :=
  getlines '\n' (file.getD [])

def maxRows : Int := 2000000

/-- The loop of `ReadTableData`; it returns the rows and `rows_already_read`. -/
def readRows (separator : Char) (rowsAlreadyRead : Int) :
    List (List Char) → Int → List (List (List Char)) →
    List (List (List Char)) × Int
  | [], rowCounter, data => (data, rowCounter)
  | line :: lines, rowCounter, data =>
      let rowCounter := rowCounter + 1
      let data :=
        if rowCounter > rowsAlreadyRead then data ++ [tokens separator line]
        else data
      if rowCounter ≥ rowsAlreadyRead + maxRows then (data, rowCounter)
      else readRows separator rowsAlreadyRead lines rowCounter data

def readTableData (file : File) (separator : Char) (rowsAlreadyRead : Int) :
    List (List (List Char)) × Int :=
  readRows separator rowsAlreadyRead (linesOf file) 0 []

/-! ## Writing rows to memory -/

/-- A block with the answer of `GetSize` and its cells. -/
structure MemoryBlock where
  size : Nat
  words : List Nat
  deriving DecidableEq, Repr

def isMemoryLargeEnough (content : List Char) (memoryDevice : MemoryBlock) :
    Bool :=
  content.length ≤ memoryDevice.size

/-- Cells outside the block must not be written to. -/
def writeDataToMemory (data words : List Nat) (offset : Int) :
    Outcome (List Nat) :=
  data.zipIdx.foldlM (fun words value => do
    let i ← indexOf (value.2 + offset)
    writeAt words i value.1) words

def recordSize (columnDefs : ColumnDefs) : Int :=
  columnDefs.foldl (fun recordSize columnType => recordSize + columnType.2) 0

/-- An iteration of `WriteTableFromFileToMemory`: the row that `row_counter` is
at is converted and written. -/
def writeLine (hundredths : Hundredths) (separator : Char)
    (columnDefsVector : ColumnDefs) (state : List Nat × Nat)
    (line : List Char) : Outcome (List Nat × Nat) := do
  let integerData ← convertRecordStringToIntegers hundredths
    (tokens separator line) columnDefsVector []
  let words ← writeDataToMemory integerData state.1
    (state.2 * recordSize columnDefsVector)
  .ok (words, state.2 + 1)

def writeTableFromFileToMemory (hundredths : Hundredths) (filename : String)
    (file : File) (separator : Char) (columnDefsVector : ColumnDefs)
    (memoryDevice : MemoryBlock) : Outcome (Nat × MemoryBlock) :=
  match file with
  | none => .error (.runtimeError (filename ++ " not found!"))
  | some content =>
      if isMemoryLargeEnough content memoryDevice then do
        let (words, rowCounter) ← (linesOf file).foldlM
          (writeLine hundredths separator columnDefsVector)
          (memoryDevice.words, 0)
        .ok (rowCounter, { memoryDevice with words })
      else .error (.runtimeError (filename ++ " is too big!"))

/-! ## The data manager -/

/-- `columnWidth` is the product of the size of a data type, a `double` of the
configuration, with the size of a column; it throws when the data type has no
size or the product is not whole. -/
structure DataManager where
  columnWidth : ColumnDataType → Int → Outcome Int
  separator : Char

structure TableData where
  tableColumnLabelVector : ColumnDefs
  tableDataVector : List Nat
  deriving DecidableEq, Repr

def getHeaderColumnVector (m : DataManager)
    (columnDataTypes : List ColumnDataType) (columnSizes : List Int) :
    Outcome ColumnDefs :=
  columnDataTypes.zipIdx.mapM fun column => do
    let columnSize ← checkedAt columnSizes column.2
    let width ← m.columnWidth column.1 columnSize
    .ok (column.1, width)

def writeDataFromCSVToMemory (m : DataManager) (hundredths : Hundredths)
    (filename : String) (file : File) (columnDefsVector : ColumnDefs)
    (memoryDevice : MemoryBlock) : Outcome (Nat × MemoryBlock) :=
  writeTableFromFileToMemory hundredths filename file m.separator
    columnDefsVector memoryDevice

/-- The labels are computed as in `GetHeaderColumnVector`.  The second result is
the new `rows_already_read`. -/
def parseDataFromCSV (m : DataManager) (hundredths : Hundredths) (file : File)
    (columnDataTypes : List ColumnDataType) (columnSizes : List Int)
    (rowsAlreadyRead : Int) : Outcome (TableData × Int) := do
  let tableColumnLabelVector ← getHeaderColumnVector m columnDataTypes
    columnSizes
  match file with
  | none => .ok (⟨tableColumnLabelVector, []⟩, rowsAlreadyRead)
  | some _ => do
      let (dataRows, rowsAlreadyRead) :=
        readTableData file m.separator rowsAlreadyRead
      let tableDataVector ← addIntegerDataFromStringData hundredths dataRows []
        tableColumnLabelVector
      .ok (⟨tableColumnLabelVector, tableDataVector⟩, rowsAlreadyRead)

end Orkhestra.Ports.CSVReader
