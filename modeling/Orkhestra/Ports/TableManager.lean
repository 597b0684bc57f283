import Orkhestra.Ports.QueryManager
import Orkhestra.Ports.RowTexts

/-!
# The table manager

`TableManager` moves tables between files and memory blocks, and `QueryManager`
checks and writes results with it.  `Storage` is what these functions read and
write: the contents of the files and of the blocks.

`recordsOf` is the data manager that the set-up of a run sees when only sizes
and counts are of interest: a file is a number of lines.
-/

namespace Orkhestra.Ports.TableManager

open Orkhestra.Verified.Checked
open Orkhestra.Verified.Rows
open Orkhestra.Ports.QuerySchedulingData
open Orkhestra.Ports.TypesConverter
open Orkhestra.Ports.DataToString
open Orkhestra.Ports.CSVReader
open Orkhestra.Ports.TableLoaders
open Orkhestra.Ports.RowTexts
open Orkhestra.Ports.QueryManager (Block RecordSizeAndCount ColumnDef)

/-! ## Storage -/

/-- What the data manager converts tables with. -/
structure Conversions where
  manager : CSVReader.DataManager
  hundredths : Hundredths
  decimals : Decimals

structure Storage where
  files : String → File
  canOpen : String → Bool
  blocks : Block → MemoryBlock

def Storage.writeFile (s : Storage) (filename : String) (content : List Char) :
    Storage :=
  { s with files := Function.update s.files filename (some content) }

def Storage.writeBlock (s : Storage) (block : Block) (contents : MemoryBlock) :
    Storage :=
  { s with blocks := Function.update s.blocks block contents }

@[simp] theorem Storage.writeFile_blocks (s : Storage) (filename : String)
    (content : List Char) : (s.writeFile filename content).blocks = s.blocks :=
  rfl

@[simp] theorem Storage.writeFile_canOpen (s : Storage) (filename : String)
    (content : List Char) :
    (s.writeFile filename content).canOpen = s.canOpen :=
  rfl

@[simp] theorem Storage.writeBlock_files (s : Storage) (block : Block)
    (contents : MemoryBlock) : (s.writeBlock block contents).files = s.files :=
  rfl

@[simp] theorem Storage.writeBlock_canOpen (s : Storage) (block : Block)
    (contents : MemoryBlock) :
    (s.writeBlock block contents).canOpen = s.canOpen :=
  rfl

@[simp] theorem Storage.writeBlock_same (s : Storage) (block : Block)
    (contents : MemoryBlock) :
    (s.writeBlock block contents).blocks block = contents := by
  simp [Storage.writeBlock]

theorem Storage.writeBlock_of_ne (s : Storage) {block block' : Block}
    (hne : block' ≠ block) (contents : MemoryBlock) :
    (s.writeBlock block contents).blocks block' = s.blocks block' := by
  simp [Storage.writeBlock, hne]

@[simp] theorem Storage.writeFile_same (s : Storage) (filename : String)
    (content : List Char) :
    (s.writeFile filename content).files filename = some content := by
  simp [Storage.writeFile]

theorem Storage.writeFile_of_ne (s : Storage) {filename filename' : String}
    (hne : filename' ≠ filename) (content : List Char) :
    (s.writeFile filename content).files filename' = s.files filename' := by
  simp [Storage.writeFile, hne]

/-- The first `count` cells of a block. -/
def readWords (contents : MemoryBlock) (count : Int) : Outcome (List Nat) :=
  if count < 0 then
    .error (.logicError "cannot create std::vector larger than max_size()")
  else if count ≤ contents.words.length then
    .ok (contents.words.take count.toNat)
  else .error .undefined

theorem readWords_eq_ok {contents : MemoryBlock} {count : Int}
    {words : List Nat} : readWords contents count = .ok words ↔
      0 ≤ count ∧ count ≤ contents.words.length ∧
        words = contents.words.take count.toNat := by
  unfold readWords
  split
  · simp only [reduceCtorEq, false_iff]
    rintro ⟨h, -, -⟩
    omega
  · split
    · simp only [Except.ok.injEq]
      constructor
      · rintro rfl
        exact ⟨by omega, by assumption, rfl⟩
      · rintro ⟨-, -, rfl⟩
        rfl
    · simp only [reduceCtorEq, false_iff]
      rintro ⟨-, h, -⟩
      contradiction

/-! ## Columns -/

/-- `static_cast<ColumnDataType>`; a number without a name has no size. -/
def columnDataType (value : Int) : Option ColumnDataType :=
  if value < 0 then none
  else [ColumnDataType.kInteger, .kVarchar, .kNull, .kDecimal,
    .kDate][value.toNat]?

def columnLabel (c : Conversions) (columnSizes : List Int) (column : Int × Nat) :
    Outcome (ColumnDataType × Int) := do
  let columnSize ← checkedAt columnSizes column.2
  match columnDataType column.1 with
  | none => .error .outOfRange
  | some dataType => do
      let width ← c.manager.columnWidth dataType columnSize
      .ok (dataType, width)

def getHeaderColumnVector (c : Conversions) (columnDataTypes columnSizes : List Int) :
    Outcome ColumnDefs :=
  columnDataTypes.zipIdx.mapM (columnLabel c columnSizes)

def getColumnDefsVector (c : Conversions) (nodeParameters : List (List Int))
    (streamIndex : Nat) : Outcome ColumnDefs := do
  let types ← checkedAt nodeParameters
    (streamIndex * kStreamParamCount + kDataTypesOffset)
  let sizes ← checkedAt nodeParameters
    (streamIndex * kStreamParamCount + kDataSizesOffset)
  getHeaderColumnVector c types sizes

/-! ## Tables -/

def writeDataToMemory (c : Conversions) (streamSpecification : List (List Int))
    (streamIndex : Nat) (memoryDevice : Block) (filename : String)
    (s : Storage) : Outcome (RecordSizeAndCount × Storage) := do
  let columns ← getColumnDefsVector c streamSpecification streamIndex
  let (recordCount, contents) ← writeDataFromCSVToMemory c.manager c.hundredths
    filename (s.files filename) columns (s.blocks memoryDevice)
  .ok ((recordSize columns, recordCount), s.writeBlock memoryDevice contents)

def readTableFromMemory (c : Conversions) (streamSpecification : List (List Int))
    (streamIndex : Nat) (contents : MemoryBlock) (rowCount : Int) :
    Outcome TableData := do
  let columns ← getColumnDefsVector c streamSpecification streamIndex
  let words ← readWords contents (rowCount * recordSize columns)
  .ok ⟨columns, words⟩

/-- The file is read from its first row on. -/
def readTableFromFile (c : Conversions) (streamSpecification : List (List Int))
    (streamIndex : Nat) (file : File) : Outcome TableData := do
  let columns ← getColumnDefsVector c streamSpecification streamIndex
  match file with
  | none => .ok ⟨columns, []⟩
  | some _ => do
      let words ← addIntegerDataFromStringData c.hundredths
        (readTableData file c.manager.separator 0).1 [] columns
      .ok ⟨columns, words⟩

/-- The tables are compared and a difference is printed, with the row counts. -/
def checkTableData (c : Conversions) (expectedTable resultingTable : TableData) :
    Outcome Unit :=
  if expectedTable = resultingTable then .ok ()
  else if recordSize expectedTable.tableColumnLabelVector = 0 ∨
      recordSize resultingTable.tableColumnLabelVector = 0 then
    .error .undefined
  else do
    let _ ← addStringDataFromIntegerData c.decimals
      resultingTable.tableDataVector [] resultingTable.tableColumnLabelVector
    .ok ()

/-! ## Results -/

/-- `*memory_device` -/
def deviceOf (s : Storage) (memoryDevice : Option Block) : Outcome MemoryBlock :=
  match memoryDevice with
  | some block => .ok (s.blocks block)
  | none => .error .undefined

def checkResults (c : Conversions) (s : Storage) (memoryDevice : Option Block)
    (rowCount : Int) (filename : String) (nodeParameters : List (List Int))
    (streamIndex : Nat) : Outcome Unit := do
  let expectedTable ←
    readTableFromFile c nodeParameters streamIndex (s.files filename)
  let contents ← deviceOf s memoryDevice
  let resultingTable ←
    readTableFromMemory c nodeParameters streamIndex contents rowCount
  checkTableData c expectedTable resultingTable

def writeResults (c : Conversions) (s : Storage) (memoryDevice : Option Block)
    (rowCount : Int) (filename : String) (nodeParameters : List (List Int))
    (streamIndex : Nat) : Outcome Storage := do
  let contents ← deviceOf s memoryDevice
  let resultingTable ←
    readTableFromMemory c nodeParameters streamIndex contents rowCount
  let text ← writeTableData c.manager c.decimals filename (s.canOpen filename)
    resultingTable
  .ok (s.writeFile filename text)

/-- `target[i] = source[i]`, cell by cell. -/
def copyMemoryData (tableSize : Int) (source target : Block) (s : Storage) :
    Outcome Storage := do
  let words ← (List.range tableSize.toNat).foldlM (fun words i => do
    let word ← readAt (s.blocks source).words i
    writeAt words i word) (s.blocks target).words
  .ok (s.writeBlock target { s.blocks target with words })

/-! ## Sizes and counts -/

/-- A column as the query manager keeps it. -/
def columnDef (column : ColumnDataType × Int) : ColumnDef :=
  (match column.1 with
    | .kInteger => 0
    | .kVarchar => 1
    | .kNull => 2
    | .kDecimal => 3
    | .kDate => 4, column.2)

/-- What is left of the data manager without the contents of the blocks. -/
def recordsOf (c : Conversions) (files : String → File) :
    QueryManager.DataManager where
  getHeaderColumnVector types sizes := do
    let columns ← getHeaderColumnVector c types sizes
    .ok (columns.map columnDef)
  writeDataFromCSVToMemory filename _ _ := .ok (linesOf (files filename)).length
  checkResults _ _ _ _ _ := .ok ()
  writeResults _ _ _ _ _ := .ok ()

theorem sum_columnDef (columns : ColumnDefs) :
    ((columns.map columnDef).map (·.2)).sum = recordSize columns := by
  rw [recordSize_eq_sum, List.map_map]
  rfl

theorem getColumnDefsVector_recordsOf {c : Conversions} {files : String → File}
    {nodeParameters : List (List Int)} {streamIndex : Nat} {columns : ColumnDefs}
    (h : getColumnDefsVector c nodeParameters streamIndex = .ok columns) :
    QueryManager.getColumnDefsVector (recordsOf c files) nodeParameters
      streamIndex = .ok (columns.map columnDef) := by
  simp only [getColumnDefsVector, bind_eq_ok, checkedAt_eq_ok] at h
  obtain ⟨types, htypes, sizes, hsizes, h⟩ := h
  simp [QueryManager.getColumnDefsVector, bind_eq_ok, htypes, hsizes, recordsOf,
    h]

/-- The record size of a stream is the one that its columns add up to. -/
theorem getRecordSizeFromParameters_recordsOf {c : Conversions}
    {files : String → File} {nodeParameters : List (List Int)}
    {streamIndex : Nat} {size : Int} :
    QueryManager.getRecordSizeFromParameters (recordsOf c files) nodeParameters
        streamIndex = .ok size ↔
      ∃ columns, getColumnDefsVector c nodeParameters streamIndex =
        .ok columns ∧ size = recordSize columns := by
  constructor
  · intro h
    simp only [QueryManager.getRecordSizeFromParameters,
      QueryManager.getColumnDefsVector, bind_eq_ok, checkedAt_eq_ok, recordsOf,
      Except.ok.injEq] at h
    obtain ⟨_, ⟨types, htypes, sizes, hsizes, columns, hcolumns, rfl⟩, rfl⟩ := h
    refine ⟨columns, ?_, (sum_columnDef columns)⟩
    simp [getColumnDefsVector, bind_eq_ok, htypes, hsizes, hcolumns]
  · rintro ⟨columns, h, rfl⟩
    rw [QueryManager.getRecordSizeFromParameters,
      getColumnDefsVector_recordsOf h, ok_bind, sum_columnDef]

/-- A file that has been loaded is counted by its lines. -/
theorem writeDataToMemory_recordsOf {c : Conversions}
    {streamSpecification : List (List Int)} {streamIndex : Nat}
    {memoryDevice : Block} {filename : String} {s s' : Storage}
    {size : RecordSizeAndCount}
    (h : writeDataToMemory c streamSpecification streamIndex memoryDevice
      filename s = .ok (size, s')) :
    QueryManager.writeDataToMemory (recordsOf c s.files) streamSpecification
      streamIndex memoryDevice filename = .ok size ∧
    ∃ contents, s' = s.writeBlock memoryDevice contents := by
  simp only [writeDataToMemory, bind_eq_ok, Except.ok.injEq, Prod.mk.injEq]
    at h
  obtain ⟨columns, hcolumns, ⟨recordCount, contents⟩, hload, rfl, rfl⟩ := h
  refine ⟨?_, contents, rfl⟩
  have hcount : recordCount = (linesOf (s.files filename)).length := by
    unfold writeDataFromCSVToMemory writeTableFromFileToMemory at hload
    cases hfile : s.files filename with
    | none => simp [hfile] at hload
    | some content =>
        simp only [hfile] at hload
        split at hload
        · simp only [bind_eq_ok, Except.ok.injEq, Prod.mk.injEq] at hload
          obtain ⟨⟨words, rowCounter⟩, hlines, rfl, -⟩ := hload
          have := (writeLines_accepted hlines).2
          simpa using this
        · cases hload
  rw [QueryManager.writeDataToMemory, getColumnDefsVector_recordsOf hcolumns,
    ok_bind, sum_columnDef]
  simp [recordsOf, hcount]

end Orkhestra.Ports.TableManager
