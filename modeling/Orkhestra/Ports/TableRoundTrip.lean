import Orkhestra.Ports.NumberTexts
import Orkhestra.Ports.TableBounds
import Orkhestra.Ports.TableManager
import Orkhestra.Ports.TableSegmentation
import Orkhestra.Ports.VarcharRoundTrip

/-!
# A table in a file and in memory

A table of values has two representations: the words of its cells in a memory
block, and the texts of its cells in a file.  A `StoredTable` has only values
that survive both conversions; writing such a table to a file and loading the
file change the representation and nothing else.

A value of each type is characterised by what `NumberTexts` and
`VarcharRoundTrip` say about single values, and the rows are taken apart as
`TableSegmentation` and `RowTexts` say.
-/

namespace Orkhestra.Ports.TableRoundTrip

open Orkhestra.Verified.Checked
open Orkhestra.Verified.ByteWords
open Orkhestra.Verified.Rows
open Orkhestra.Ports.DMA (toWord toWord_of_lt)
open Orkhestra.Ports.TypesConverter
open Orkhestra.Ports.DataToString
open Orkhestra.Ports.CSVReader
open Orkhestra.Ports.TableLoaders
open Orkhestra.Ports.TableBounds
open Orkhestra.Ports.NumberTexts
open Orkhestra.Ports.VarcharRoundTrip
open Orkhestra.Ports.TableSegmentation
open Orkhestra.Ports.RowTexts
open Orkhestra.Ports.TableManager (Conversions readWords readWords_eq_ok)

/-! ## Values -/

/-- Decimal values are in hundredths, dates are the numbers that their digits
spell. -/
inductive Value where
  | integer (value : Nat)
  | varchar (text : List Char)
  | null
  | decimal (value : Int)
  | date (value : Nat)
  deriving DecidableEq, Repr

/-- In a column of `width` words. -/
def Value.words (width : Int) : Value → List Nat
  | .integer value => [value]
  | .varchar text => packed width.toNat (text.map Char.toNat)
  | .null => List.replicate width.toNat 0
  | .decimal value => [toWord (value / 2 ^ 32), toWord value]
  | .date value => [value]

def Value.text (decimals : Decimals) : Value → List Char
  | .integer value => decimalText value
  | .varchar text => text
  | .null => []
  | .decimal value => decimals value
  | .date value => dateText value

/-- No character of the text has a meaning in a line. -/
def Plain (separator : Char) (text : List Char) : Prop :=
  separator ∉ text ∧ '\n' ∉ text ∧ '\r' ∉ text

instance (separator : Char) (text : List Char) :
    Decidable (Plain separator text) :=
  inferInstanceAs (Decidable (_ ∧ _ ∧ _))

/-- The column can hold the value.  What is printed for a decimal value has to
be read as that value.  A text of a column of less than `2 ^ 28` words has fewer
digits than there are values of type `int`. -/
inductive Holds (c : Conversions) : ColumnDataType × Int → Value → Prop where
  | integer (value : Nat) : value < 2 ^ 31 →
      Holds c (.kInteger, 1) (.integer value)
  | varchar (width : Int) (text : List Char) : 0 < width → width < 2 ^ 28 →
      text ≠ [] → Ascii text → text.length ≤ 4 * width.toNat →
      ¬(text.head? = some '"' ∧ text.getLast? = some '"') →
      LeadingPrintable text → Plain c.manager.separator text →
      Holds c (.kVarchar, width) (.varchar text)
  | null (width : Int) : 0 < width → Holds c (.kNull, width) .null
  | decimal (value : Int) : -2 ^ 63 ≤ value → value < 2 ^ 63 →
      c.hundredths (c.decimals value) = .ok value → c.decimals value ≠ [] →
      Plain c.manager.separator (c.decimals value) →
      Holds c (.kDecimal, 2) (.decimal value)
  | date (value : Nat) : value < 2 ^ 31 → Holds c (.kDate, 1) (.date value)

/-- No number contains the separator. -/
def NotInNumbers (separator : Char) : Prop :=
  separator.isDigit = false ∧ separator ≠ '-' ∧ separator ≠ '\n' ∧
    separator ≠ '\r'

instance (separator : Char) : Decidable (NotInNumbers separator) :=
  inferInstanceAs (Decidable (_ ∧ _ ∧ _ ∧ _))

section Values

variable {c : Conversions} {column : ColumnDataType × Int} {v : Value}

theorem Holds.width_pos (h : Holds c column v) : 0 < column.2 := by
  cases h with
  | integer => decide
  | varchar _ _ hpos => exact hpos
  | null _ hpos => exact hpos
  | decimal => decide
  | date => decide

/-- Two words are put together to the value that they were cut from. -/
theorem bmod_words {value : Int} (hlow : -2 ^ 63 ≤ value)
    (hhigh : value < 2 ^ 63) :
    Int.bmod ((toWord (value / 2 ^ 32) : Int) * 2 ^ 32 + (toWord value : Int))
      (2 ^ 64) = value := by
  have hwords : (toWord (value / 2 ^ 32) : Int) * 2 ^ 32 +
      (toWord value : Int) = value % 2 ^ 64 := by
    simp only [toWord]
    omega
  rw [hwords, Int.bmod_def]
  split <;> omega

/-- The words are printed as the text. -/
theorem Holds.decodes (h : Holds c column v) :
    Decodes c.decimals column (v.words column.2, v.text c.decimals) := by
  refine ⟨?_, fun row => ?_⟩
  · cases h with
    | integer => rfl
    | varchar width text hpos =>
        rw [Value.words, length_packed, Int.toNat_of_nonneg hpos.le]
    | null width hpos =>
        rw [Value.words, List.length_replicate, Int.toNat_of_nonneg hpos.le]
    | decimal => rfl
    | date => rfl
  · cases h with
    | integer => rfl
    | varchar width text hpos hwidth hne hascii hfits hquotes hprintable hplain =>
        have hdecoded : decodedText width.toNat text = text :=
          (decodedText_eq_iff hascii hfits).mpr hprintable
        exact congrArg (fun text => Except.ok (row ++ [text])) hdecoded
    | null => rfl
    | decimal value hlow hhigh =>
        have hvalue := bmod_words hlow hhigh
        simp only [convertDataToString, convertDecimalValuesToString,
          Value.words, Value.text]
        rw [show readAt [toWord (value / 2 ^ 32), toWord value] 0 =
          .ok (toWord (value / 2 ^ 32)) from rfl, ok_bind,
          show readAt [toWord (value / 2 ^ 32), toWord value] 1 =
          .ok (toWord value) from rfl, ok_bind, hvalue]
    | date => rfl

/-- The text is read as the words. -/
theorem Holds.encodes (h : Holds c column v) :
    Encodes c.hundredths column (v.text c.decimals)
      (v.words column.2, v.text c.decimals) := by
  suffices key : convertDataToIntegers c.hundredths column.1 (v.text c.decimals)
      [] column.2 = .ok (v.words column.2) by
    exact ((appends_convertDataToIntegers c.hundredths column.1
      (v.text c.decimals) h.width_pos.le).eq_ok key).2
  cases h with
  | integer value hlt =>
      simp only [convertDataToIntegers, convertIntegerValuesToIntegerData,
        Value.text, Value.words, stoi_decimalText, if_pos hlt, ok_bind,
        List.nil_append]
      rw [toWord_of_lt (by omega)]
  | varchar width text hpos hwidth hne hascii hfits hquotes hprintable hplain =>
      have hsize : width.toNat < 2 ^ 29 := by omega
      have hconvert := convertStringValuesToIntegerData_eq hsize hne hascii
        hfits hquotes
      rw [Int.toNat_of_nonneg hpos.le] at hconvert
      exact hconvert
  | null => rfl
  | decimal value hlow hhigh hread =>
      simp only [convertDataToIntegers, convertDecimalValuesToIntegerData,
        Value.text, Value.words, hread, ok_bind, List.nil_append]
  | date value hlt =>
      simp only [convertDataToIntegers, convertDateValuesToIntegerData,
        Value.text, Value.words, stoi_dateText, if_pos hlt, ok_bind,
        List.nil_append]
      rw [toWord_of_lt (by omega)]

theorem mem_dateText {value : Nat} {ch : Char} (h : ch ∈ dateText value) :
    ch.isDigit = true ∨ ch = '-' := by
  rw [or_comm, or_iff_not_imp_left]
  intro hne
  have hmem : ch ∈ (dateText value).filter (· ≠ '-') := by
    rw [List.mem_filter]
    exact ⟨h, by simpa using hne⟩
  rw [dateText_eq, filter_insertHyphen, filter_insertHyphen] at hmem
  exact isDigit_of_mem_dateDigits (List.mem_of_mem_filter hmem)

/-- What is printed for a value is found again in its line. -/
theorem Holds.plain (h : Holds c column v)
    (hseparator : NotInNumbers c.manager.separator) :
    Plain c.manager.separator (v.text c.decimals) := by
  obtain ⟨hdigit, hhyphen, -, -⟩ := hseparator
  have hnot : ∀ ch : Char, ch.isDigit = false → ch ≠ '-' → ∀ value : Nat,
      ch ∉ decimalText value ∧ ch ∉ dateText value := by
    intro ch hdigit hhyphen value
    refine ⟨fun hmem => ?_, fun hmem => ?_⟩
    · have := isDigit_of_mem_decimalText hmem
      rw [hdigit] at this
      cases this
    · rcases mem_dateText hmem with hmem | hmem
      · rw [hdigit] at hmem
        cases hmem
      · exact hhyphen hmem
  cases h with
  | integer value =>
      exact ⟨(hnot _ hdigit hhyphen value).1,
        (hnot '\n' (by decide) (by decide) value).1,
        (hnot '\r' (by decide) (by decide) value).1⟩
  | varchar _ _ _ _ _ _ _ _ _ hplain => exact hplain
  | null => exact ⟨List.not_mem_nil, List.not_mem_nil, List.not_mem_nil⟩
  | decimal _ _ _ _ _ hplain => exact hplain
  | date value =>
      exact ⟨(hnot _ hdigit hhyphen value).2,
        (hnot '\n' (by decide) (by decide) value).2,
        (hnot '\r' (by decide) (by decide) value).2⟩

/-- Only null values are printed as nothing. -/
theorem Holds.text_ne_nil (h : Holds c column v) (hnull : column.1 ≠ .kNull) :
    v.text c.decimals ≠ [] := by
  cases h with
  | integer value => exact Nat.toDigits_ne_nil
  | varchar _ _ _ _ hne => exact hne
  | null => exact absurd rfl hnull
  | decimal _ _ _ _ hne => exact hne
  | date value =>
      intro hempty
      rw [Value.text, dateText_eq, insertHyphen] at hempty
      simp at hempty

end Values

/-! ## Tables -/

/-- A table whose values survive in a file.  Nothing is read behind the last
separator of a line, so the last column has to have a text. -/
structure StoredTable (c : Conversions) where
  columns : ColumnDefs
  rows : List (List Value)
  separator : NotInNumbers c.manager.separator
  holds : ∀ row ∈ rows, List.Forall₂ (Holds c) columns row
  positive : ∀ column ∈ columns, 0 < column.2
  lastText : ∃ column, columns.getLast? = some column ∧ column.1 ≠ .kNull

variable {c : Conversions}

/-- The cells of a row. -/
def cellsOf (c : Conversions) (columns : ColumnDefs) (row : List Value) :
    List Cell :=
  columns.zipWith (fun column v => (v.words column.2, v.text c.decimals)) row

namespace StoredTable

variable (T : StoredTable c)

/-- The table in memory. -/
def words : List Nat :=
  T.rows.flatMap fun row => rowWords (cellsOf c T.columns row)

def texts : List (List (List Char)) :=
  T.rows.map fun row => rowTexts (cellsOf c T.columns row)

/-- The table in a file. -/
def content : List Char :=
  T.texts.flatMap fun line => joinFields c.manager.separator line ++ ['\n']

def tableData : TableData := ⟨T.columns, T.words⟩

theorem columns_ne_nil : T.columns ≠ [] := by
  intro hempty
  obtain ⟨column, hlast, -⟩ := T.lastText
  rw [hempty] at hlast
  cases hlast

end StoredTable

/-! ### Cells -/

section Cells

variable {columns : ColumnDefs} {row : List Value}

theorem decodes_cellsOf (h : List.Forall₂ (Holds c) columns row) :
    List.Forall₂ (Decodes c.decimals) columns (cellsOf c columns row) := by
  induction h with
  | nil => exact .nil
  | cons hholds _ ih => exact .cons hholds.decodes ih

theorem encodes_cellsOf (h : List.Forall₂ (Holds c) columns row) :
    List.Forall₂ (fun column cell => Encodes c.hundredths column.1 column.2 cell)
      (columns.zip (rowTexts (cellsOf c columns row)))
      (cellsOf c columns row) := by
  induction h with
  | nil => exact .nil
  | cons hholds _ ih => exact .cons hholds.encodes ih

theorem length_rowTexts (h : List.Forall₂ (Holds c) columns row) :
    (rowTexts (cellsOf c columns row)).length = columns.length := by
  rw [rowTexts, List.length_map, (decodes_cellsOf h).length_eq]

/-- A row has as many words as its record. -/
theorem length_rowWords (h : List.Forall₂ (Holds c) columns row) :
    ((rowWords (cellsOf c columns row)).length : Int) = recordSize columns := by
  rw [recordSize_eq_sum]
  have hcells := decodes_cellsOf h
  generalize cellsOf c columns row = cells at hcells
  clear h
  induction hcells with
  | nil => rfl
  | cons hcell _ ih =>
      rw [rowWords, List.flatMap_cons, List.length_append, List.map_cons,
        List.sum_cons, ← hcell.1, ← ih, Int.natCast_add]
      rfl

theorem plain_rowTexts (hseparator : NotInNumbers c.manager.separator)
    (h : List.Forall₂ (Holds c) columns row) :
    ∀ text ∈ rowTexts (cellsOf c columns row),
      Plain c.manager.separator text := by
  induction h with
  | nil => simp [rowTexts, cellsOf]
  | cons hholds _ ih =>
      exact List.forall_mem_cons.mpr ⟨hholds.plain hseparator, ih⟩

/-- The last text of a row is there. -/
theorem getLast?_rowTexts (h : List.Forall₂ (Holds c) columns row)
    {column : ColumnDataType × Int} (hlast : columns.getLast? = some column)
    (hnull : column.1 ≠ .kNull) :
    (rowTexts (cellsOf c columns row)).getLast? ≠ some [] := by
  induction h with
  | nil => cases hlast
  | @cons first v columns row hholds hrest ih =>
      cases hrest with
      | nil =>
          obtain rfl := Option.some.inj hlast
          intro hempty
          exact hholds.text_ne_nil hnull (Option.some.inj hempty)
      | cons hsecond hmore => exact ih hlast

end Cells

/-! ### Writing and reading -/

/-- As many rows are read as there are lines. -/
theorem readRows_count (separator : Char) (lines : List (List Char))
    {rowCounter : Int} (data : List (List (List Char)))
    (hcount : rowCounter + lines.length ≤ maxRows) :
    (readRows separator 0 lines rowCounter data).2 =
      rowCounter + lines.length := by
  induction lines generalizing rowCounter data with
  | nil => simp [readRows]
  | cons line lines ih =>
      rw [List.length_cons] at hcount ⊢
      simp only [readRows]
      split
      · next hlimit =>
          push_cast at hcount ⊢
          omega
      · rw [ih _ (by push_cast at hcount ⊢; omega)]
        push_cast
        omega

namespace StoredTable

variable (T : StoredTable c)

/-- A row comes back from its line. -/
theorem tokens_line {row : List Value} (hrow : row ∈ T.rows) :
    tokens c.manager.separator (joinFields c.manager.separator
      (rowTexts (cellsOf c T.columns row))) =
        rowTexts (cellsOf c T.columns row) := by
  have hholds := T.holds row hrow
  have hplain := plain_rowTexts T.separator hholds
  obtain ⟨column, hlast, hnull⟩ := T.lastText
  have hne : rowTexts (cellsOf c T.columns row) ≠ [] := by
    intro hempty
    have hlength := length_rowTexts hholds
    rw [hempty] at hlength
    exact T.columns_ne_nil (List.length_eq_zero_iff.mp hlength.symm)
  have htokens : (∀ text ∈ rowTexts (cellsOf c T.columns row),
        c.manager.separator ∉ text) ∧
      (LineEnding.lf = .lf →
        (rowTexts (cellsOf c T.columns row)).getLast? ≠ some []) :=
    ⟨fun text htext => (hplain text htext).1,
      fun _ => getLast?_rowTexts hholds hlast hnull⟩
  have h := (tokens_joinFields_iff T.separator.2.2.2 hne
    fun text htext => (hplain text htext).2.2).mpr htokens
  rwa [LineEnding.text, List.append_nil] at h

theorem linesOf_content : linesOf (some T.content) =
    T.texts.map (joinFields c.manager.separator) := by
  have hrow : ∀ line ∈ T.texts.map (joinFields c.manager.separator),
      '\n' ∉ line := by
    intro line hline
    obtain ⟨texts, htexts, rfl⟩ := List.mem_map.mp hline
    obtain ⟨row, hrow, rfl⟩ := List.mem_map.mp htexts
    have hplain := plain_rowTexts T.separator (T.holds row hrow)
    exact fun hmem => newline_not_mem_row T.separator.2.2.1
      (fun text htext => (hplain text htext).2.1)
      (List.mem_append_left LineEnding.lf.text hmem)
  have h := linesOf_flatMap hrow
  rwa [List.flatMap_map] at h

/-- Each line is converted to the words of its row. -/
theorem convert_line {row : List Value} (hrow : row ∈ T.rows) :
    Accepted c.hundredths c.manager.separator T.columns
      (joinFields c.manager.separator (rowTexts (cellsOf c T.columns row))) ∧
    lineWords c.hundredths c.manager.separator T.columns
        (joinFields c.manager.separator (rowTexts (cellsOf c T.columns row))) =
      rowWords (cellsOf c T.columns row) := by
  refine accepted_of_ok ?_
  rw [T.tokens_line hrow, convertRecordStringToIntegers_eq
    (encodes_cellsOf (T.holds row hrow)) (length_rowTexts (T.holds row hrow)),
    List.nil_append]

theorem map_lineWords : (linesOf (some T.content)).map
    (lineWords c.hundredths c.manager.separator T.columns) =
      T.rows.map fun row => rowWords (cellsOf c T.columns row) := by
  rw [linesOf_content, texts, List.map_map, List.map_map]
  exact List.map_congr_left fun row hrow => (T.convert_line hrow).2

/-- All lines fill the record. -/
theorem length_lineWords {line : List Char}
    (hline : line ∈ linesOf (some T.content)) :
    ((lineWords c.hundredths c.manager.separator T.columns line).length : Int) =
      recordSize T.columns := by
  rw [linesOf_content, texts, List.map_map] at hline
  obtain ⟨row, hrow, rfl⟩ := List.mem_map.mp hline
  rw [← length_rowWords (T.holds row hrow), ← (T.convert_line hrow).2]
  rfl

theorem length_words :
    (T.words.length : Int) = T.rows.length * recordSize T.columns := by
  have hnonneg := recordSize_nonneg fun column hcolumn =>
    (T.positive column hcolumn).le
  have hrow : ∀ row ∈ T.rows.map fun row => rowWords (cellsOf c T.columns row),
      row.length = (recordSize T.columns).toNat := by
    intro words hwords
    obtain ⟨row, hrow, rfl⟩ := List.mem_map.mp hwords
    have := length_rowWords (T.holds row hrow)
    omega
  rw [words, List.flatMap_def, length_flatten_of_forall hrow, List.length_map,
    Int.natCast_mul, Int.toNat_of_nonneg hnonneg]

theorem write (filename : String) :
    writeTableData c.manager c.decimals filename true T.tableData =
      .ok T.content := by
  have hdecodes : ∀ cells ∈ T.rows.map (cellsOf c T.columns),
      List.Forall₂ (Decodes c.decimals) T.columns cells := by
    intro cells hcells
    obtain ⟨row, hrow, rfl⟩ := List.mem_map.mp hcells
    exact decodes_cellsOf (T.holds row hrow)
  have hrows := foldlM_addElement_rows [] T.columns_ne_nil T.positive hdecodes
  rw [List.flatMap_map, List.map_map, List.nil_append] at hrows
  have hstrings : addStringDataFromIntegerData c.decimals T.words [] T.columns =
      .ok T.texts := by
    rw [addStringDataFromIntegerData, words, hrows, ok_bind]
    rfl
  rw [writeTableData, tableData, hstrings, ok_bind, if_pos rfl]
  rfl

/-- The rows that are read are those of the table. -/
theorem parse {columnDataTypes : List ColumnDataType} {columnSizes : List Int}
    (hcolumns : getHeaderColumnVector c.manager columnDataTypes columnSizes =
      .ok T.columns) (hcount : (T.rows.length : Int) ≤ maxRows) :
    parseDataFromCSV c.manager c.hundredths (some T.content) columnDataTypes
      columnSizes 0 = .ok (T.tableData, T.rows.length) := by
  have hlines : (linesOf (some T.content)).length = T.rows.length := by
    rw [linesOf_content, texts, List.length_map, List.length_map]
  have hrows : (readTableData (some T.content) c.manager.separator 0).1 =
      T.texts := by
    rw [readTableData_eq, List.take_of_length_le (by omega), linesOf_content,
      texts, List.map_map, List.map_map]
    exact List.map_congr_left fun row hrow => T.tokens_line hrow
  have hread : (readTableData (some T.content) c.manager.separator 0).2 =
      T.rows.length := by
    rw [readTableData, readRows_count _ _ _ (by omega), hlines, Int.zero_add]
  have hlengths : ∀ texts ∈ T.texts, texts.length = T.columns.length := by
    intro texts htexts
    obtain ⟨row, hrow, rfl⟩ := List.mem_map.mp htexts
    exact length_rowTexts (T.holds row hrow)
  have hencodes : List.Forall₂ (fun texts cells => List.Forall₂
      (fun column cell => Encodes c.hundredths column.1 column.2 cell)
      (T.columns.zip texts) cells) T.texts
      (T.rows.map (cellsOf c T.columns)) := by
    rw [texts, List.forall₂_map_left_iff, List.forall₂_map_right_iff,
      List.forall₂_same]
    exact fun row hrow => encodes_cellsOf (T.holds row hrow)
  have hwords := addIntegerDataFromStringData_eq hlengths hencodes []
  rw [List.nil_append, List.flatMap_map] at hwords
  simp only [parseDataFromCSV, hcolumns, ok_bind, hrows, hread, hwords]
  rfl

/-- A block that the file has been loaded into starts with the table. -/
theorem words_of_load {filename : String} {block block' : MemoryBlock}
    {count : Nat}
    (hload : writeDataFromCSVToMemory c.manager c.hundredths filename
      (some T.content) T.columns block = .ok (count, block')) :
    count = T.rows.length ∧
      readWords block' (count * recordSize T.columns) = .ok T.words := by
  unfold writeDataFromCSVToMemory writeTableFromFileToMemory at hload
  dsimp only at hload
  split at hload
  · simp only [bind_eq_ok, Except.ok.injEq, Prod.mk.injEq] at hload
    obtain ⟨⟨words, rowCounter⟩, hlines, rfl, rfl⟩ := hload
    have hcount := (writeLines_accepted hlines).2
    rw [Nat.zero_add, linesOf_content, texts, List.length_map,
      List.length_map] at hcount
    have hnonneg := recordSize_nonneg fun column hcolumn =>
      (T.positive column hcolumn).le
    obtain ⟨rest, rfl⟩ := writeLines_front
      (Int.toNat_of_nonneg hnonneg).symm (fun line hline => by
        have := T.length_lineWords hline
        omega) hlines
    refine ⟨hcount, ?_⟩
    dsimp only at hcount ⊢
    rw [hcount, ← T.length_words, T.map_lineWords, ← List.flatMap_def, ← words,
      readWords_eq_ok]
    refine ⟨Int.natCast_nonneg _, ?_, ?_⟩
    · rw [List.length_append]
      omega
    · rw [Int.toNat_natCast, List.take_left]
  · cases hload

/-- A block that is large enough for the text and for the table is loaded. -/
theorem exists_load (filename : String) {block : MemoryBlock}
    (hcells : block.words.length = block.size / 4)
    (hsize : T.content.length ≤ block.size)
    (hwords : T.words.length ≤ block.words.length) :
    ∃ count block', writeDataFromCSVToMemory c.manager c.hundredths filename
      (some T.content) T.columns block = .ok (count, block') := by
  have hnonneg := recordSize_nonneg fun column hcolumn =>
    (T.positive column hcolumn).le
  have haccepted : ∀ line ∈ linesOf (some T.content), Accepted c.hundredths
      c.manager.separator T.columns line ∧
      (tokens c.manager.separator line).length = T.columns.length := by
    intro line hline
    rw [linesOf_content, texts, List.map_map] at hline
    obtain ⟨row, hrow, rfl⟩ := List.mem_map.mp hline
    refine ⟨(T.convert_line hrow).1, ?_⟩
    rw [Function.comp_apply, T.tokens_line hrow,
      length_rowTexts (T.holds row hrow)]
  have hfit : RowsFit c.hundredths c.manager.separator T.columns T.content
      (block.size / 4) := by
    rintro ⟨line, i⟩ hline -
    have hprefix : convertedLines c.hundredths c.manager.separator T.columns
        (linesOf (some T.content)) <+: linesOf (some T.content) :=
      List.takeWhile_prefix _
    have hi := List.mem_zipIdx hline
    have hmem : line ∈ linesOf (some T.content) := by
      refine hprefix.subset ?_
      rw [hi.2.2]
      exact List.getElem_mem _
    have hlt : i + 1 ≤ T.rows.length := by
      have hlines : (linesOf (some T.content)).length = T.rows.length := by
        rw [linesOf_content, texts, List.length_map, List.length_map]
      have := hprefix.length_le
      omega
    have hcount := ((haccepted line hmem).1.appends
      (fun column hcolumn => (T.positive column hcolumn).le)
      (haccepted line hmem).2.le).1
    rw [T.length_lineWords hmem] at hcount
    dsimp only
    rw [← hcount, ← hcells]
    -- A row ends where the next one starts.
    calc (i : Int) * recordSize T.columns + recordSize T.columns
        = (i + 1 : Nat) * recordSize T.columns := by
          rw [Int.natCast_succ, Int.add_mul, Int.one_mul]
      _ ≤ T.rows.length * recordSize T.columns :=
          Int.mul_le_mul_of_nonneg_right (by exact_mod_cast hlt) hnonneg
      _ = (T.words.length : Int) := T.length_words.symm
      _ ≤ block.words.length := by exact_mod_cast hwords
  obtain ⟨⟨count, block'⟩, hrun⟩ := (writeTable_returns_iff c.hundredths
    filename T.content c.manager.separator T.columns block T.positive hcells
    (by simpa [isMemoryLargeEnough] using hsize)).mpr
      ⟨hfit, fun line hline => (haccepted line hline).1⟩
  exact ⟨count, block', hrun⟩

end StoredTable

/-! ## The round trip -/

/-- A stored table is written to a file, and the file is the table again: for the
parser, and in every block that is large enough for it. -/
theorem table_survives_file (T : StoredTable c) (filename : String)
    {columnDataTypes : List ColumnDataType} {columnSizes : List Int}
    (hcolumns : getHeaderColumnVector c.manager columnDataTypes columnSizes =
      .ok T.columns) :
    ∃ content, writeTableData c.manager c.decimals filename true T.tableData =
        .ok content ∧
      ((T.rows.length : Int) ≤ maxRows →
        parseDataFromCSV c.manager c.hundredths (some content) columnDataTypes
          columnSizes 0 = .ok (T.tableData, T.rows.length)) ∧
      ∀ block : MemoryBlock, block.words.length = block.size / 4 →
        content.length ≤ block.size → T.words.length ≤ block.words.length →
        ∃ block', writeDataFromCSVToMemory c.manager c.hundredths filename
            (some content) T.columns block = .ok (T.rows.length, block') ∧
          readWords block' (T.rows.length * recordSize T.columns) =
            .ok T.words := by
  refine ⟨T.content, T.write filename, T.parse hcolumns, ?_⟩
  intro block hcells hsize hwords
  obtain ⟨count, block', hload⟩ := T.exists_load filename hcells hsize hwords
  obtain ⟨rfl, hread⟩ := T.words_of_load hload
  exact ⟨block', hload, hread⟩

def carConversions : Conversions := ⟨wordManager, noDecimals, fun _ => []⟩

/-- A name, a column without values and a year. -/
def carTable : StoredTable carConversions where
  columns := [(.kVarchar, 2), (.kNull, 1), (.kInteger, 1)]
  rows := [[.varchar "Beetle".toList, .null, .integer 1938],
    [.varchar "Mini".toList, .null, .integer 1959]]
  separator := by decide
  holds := by
    have hprintable : ∀ text ∈ ["Beetle".toList, "Mini".toList],
        LeadingPrintable text := by
      intro text htext k ch hch
      have hmem := List.mem_of_getElem? hch
      have key : ∀ text ∈ ["Beetle".toList, "Mini".toList], ∀ ch ∈ text,
          16 ≤ ch.toNat := by simp
      exact key text htext ch hmem
    rintro row hrow
    rw [List.mem_pair] at hrow
    rcases hrow with rfl | rfl
    · refine .cons (.varchar 2 _ (by decide) (by decide) (by decide) ?_
        (by decide) (by decide) (hprintable _ (by decide)) (by decide))
        (.cons (.null 1 (by decide)) (.cons (.integer 1938 (by decide)) .nil))
      simp [Ascii]
    · refine .cons (.varchar 2 _ (by decide) (by decide) (by decide) ?_
        (by decide) (by decide) (hprintable _ (by decide)) (by decide))
        (.cons (.null 1 (by decide)) (.cons (.integer 1959 (by decide)) .nil))
      simp [Ascii]
  positive := by decide
  lastText := ⟨(.kInteger, 1), rfl, by decide⟩

theorem table_survives_file_carTable :
    ∃ content, writeTableData wordManager (fun _ => []) "cars.csv" true
        carTable.tableData = .ok content ∧
      (2 ≤ maxRows → parseDataFromCSV wordManager noDecimals (some content)
        [.kVarchar, .kNull, .kInteger] [2, 1, 1] 0 =
          .ok (carTable.tableData, 2)) ∧
      ∀ block : MemoryBlock, block.words.length = block.size / 4 →
        content.length ≤ block.size → 8 ≤ block.words.length →
        ∃ block', writeDataFromCSVToMemory wordManager noDecimals "cars.csv"
            (some content) carTable.columns block = .ok (2, block') ∧
          readWords block' (2 * 4) = .ok carTable.words :=
  table_survives_file carTable "cars.csv" rfl

end Orkhestra.Ports.TableRoundTrip
