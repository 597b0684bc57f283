import Orkhestra.Ports.TableLoaders
import Orkhestra.Verified.WriteTrace
import Mathlib.Algebra.Order.BigOperators.Group.List
import Mathlib.Algebra.Order.Group.Nat
import Mathlib.Data.List.TakeWhile

/-!
# Loading a table into a memory block

A file is loaded when its text is not larger than the block, but what is written
are the words of its rows.  A value of one character takes a word or more, so
the words of a short text can reach beyond the block.
-/

namespace Orkhestra.Ports.TableBounds

open Orkhestra.Verified.Checked
open Orkhestra.Verified.WriteTrace
open Orkhestra.Ports.TypesConverter
open Orkhestra.Ports.CSVReader
open Orkhestra.Ports.TableLoaders

/-! ## The trace of a file -/

section Lines

variable (hundredths : Hundredths) (separator : Char) (columns : ColumnDefs)

/-- The lines in front of the first one that is not converted. -/
def convertedLines (lines : List (List Char)) : List (List Char) :=
  lines.takeWhile fun line => (convertRecordStringToIntegers hundredths
    (tokens separator line) columns []).isOk

/-- What is written for the lines from row `rowCounter` on. -/
def linesTrace (lines : List (List Char)) (rowCounter : Nat) : Trace Nat :=
  ((convertedLines hundredths separator columns lines).zipIdx
    rowCounter).flatMap fun line => rowTrace
      (lineWords hundredths separator columns line.1)
      (line.2 * recordSize columns)

/-- The conversion of the lines without the writes. -/
def countLines (lines : List (List Char)) (rowCounter : Nat) : Outcome Nat :=
  lines.foldlM (fun rowCounter line => do
    let _ ← convertRecordStringToIntegers hundredths (tokens separator line)
      columns []
    .ok (rowCounter + 1)) rowCounter

variable {hundredths separator columns}

theorem writeDataToMemory_eq (data words : List Nat) (offset : Int) :
    writeDataToMemory data words offset =
      applyWrites (rowTrace data offset) words := by
  rw [applyWrites, rowTrace, List.foldlM_map]
  rfl

/-- Lines are written by applying their trace. -/
theorem writeLines_eq (lines : List (List Char)) (words : List Nat)
    (rowCounter : Nat) :
    lines.foldlM (writeLine hundredths separator columns) (words, rowCounter) =
      (do let words ← applyWrites
            (linesTrace hundredths separator columns lines rowCounter) words
          let rowCounter ← countLines hundredths separator columns lines
            rowCounter
          .ok (words, rowCounter)) := by
  induction lines generalizing words rowCounter with
  | nil => rfl
  | cons line lines ih =>
      rw [List.foldlM_cons, countLines, List.foldlM_cons, writeLine]
      cases hconvert : convertRecordStringToIntegers hundredths
          (tokens separator line) columns [] with
      | error fault =>
          rw [linesTrace, convertedLines, List.takeWhile_cons_of_neg (by
            rw [hconvert]
            exact Bool.false_ne_true)]
          rfl
      | ok integerData =>
          have hwords := (accepted_of_ok hconvert).2
          rw [linesTrace, convertedLines, List.takeWhile_cons_of_pos (by
            rw [hconvert]
            rfl), List.zipIdx_cons, List.flatMap_cons, applyWrites_append,
            hwords, ok_bind, ok_bind, writeDataToMemory_eq]
          cases happly : applyWrites
              (rowTrace integerData (rowCounter * recordSize columns)) words with
          | error fault => rfl
          | ok written => exact ih written (rowCounter + 1)

end Lines

/-- What `WriteTableFromFileToMemory` writes; nothing when the file is not found
or too big. -/
def fileTrace (hundredths : Hundredths) (file : File) (separator : Char)
    (columns : ColumnDefs) (memoryDevice : MemoryBlock) : Trace Nat :=
  match file with
  | none => []
  | some content =>
      if isMemoryLargeEnough content memoryDevice then
        linesTrace hundredths separator columns (linesOf file) 0
      else []

/-- The function applies the trace of the file; after that it returns or stops
as the conversion does. -/
theorem writeTableFromFileToMemory_eq (hundredths : Hundredths)
    (filename : String) (content : List Char) (separator : Char)
    (columns : ColumnDefs) (memoryDevice : MemoryBlock)
    (hlarge : isMemoryLargeEnough content memoryDevice = true) :
    writeTableFromFileToMemory hundredths filename (some content) separator
      columns memoryDevice =
      (do let words ← applyWrites (fileTrace hundredths (some content) separator
            columns memoryDevice) memoryDevice.words
          let rowCounter ← countLines hundredths separator columns
            (linesOf (some content)) 0
          .ok (rowCounter, { memoryDevice with words })) := by
  rw [writeTableFromFileToMemory, fileTrace]
  dsimp only
  rw [if_pos hlarge, if_pos hlarge, writeLines_eq]
  simp only [bind_assoc, ok_bind]

/-! ## Rows that fit -/

/-- A converted row has a column for each of its values. -/
theorem length_le_of_convert {hundredths : Hundredths}
    {row : List (List Char)} {columns : ColumnDefs} {data words : List Nat}
    (h : convertRecordStringToIntegers hundredths row columns data =
      .ok words) : row.length ≤ columns.length := by
  have hall : ∀ token ∈ row.zipIdx, token.2 < columns.length := by
    refine foldlM_invariant (fun before (_ : List Nat) =>
      ∀ token ∈ before, token.2 < columns.length) row.zipIdx (by simp) ?_ h
    intro before token _ words words' _ hall hbody
    rw [bind_eq_ok] at hbody
    obtain ⟨column, hcolumn, -⟩ := hbody
    have hlt := (List.getElem?_eq_some_iff.mp (readAt_eq_ok.mp hcolumn)).1
    rw [List.forall_mem_append]
    exact ⟨hall, by simpa using hlt⟩
  by_contra hlong
  have hlt : row.length - 1 < row.length := by omega
  have hlast : (row[row.length - 1], row.length - 1) ∈ row.zipIdx :=
    List.mk_mem_zipIdx_iff_getElem?.mpr (List.getElem?_eq_getElem hlt)
  have hcolumn := hall _ hlast
  dsimp only at hcolumn
  omega

theorem rowWordCount_pos {row : List (List Char)} {columns : ColumnDefs}
    (hpositive : ∀ column ∈ columns, 0 < column.2) (hne : row ≠ [])
    (hrow : row.length ≤ columns.length) : 0 < rowWordCount row columns := by
  have hcounts : ∀ column ∈ columns, 0 < column.1.wordCount column.2 := by
    intro column hcolumn
    have hsize := hpositive column hcolumn
    cases htype : column.1 <;> simp only [ColumnDataType.wordCount] <;> omega
  obtain ⟨text, rest, rfl⟩ := List.exists_cons_of_ne_nil hne
  cases columns with
  | nil => simp at hrow
  | cons column columns =>
      rw [List.forall_mem_cons] at hcounts
      have hrest : 0 ≤ ((columns.take rest.length).map fun column =>
          column.1.wordCount column.2).sum := by
        refine List.sum_nonneg ?_
        rw [List.forall_mem_map]
        intro column' hcolumn'
        exact (hcounts.2 column' (List.mem_of_mem_take hcolumn')).le
      rw [rowWordCount, List.length_cons, List.take_succ_cons, List.map_cons,
        List.sum_cons]
      omega

/-- The words of a converted line, by its columns. -/
theorem lineWords_length {hundredths : Hundredths} {separator : Char}
    {columns : ColumnDefs} {lines : List (List Char)} {line : List Char}
    (hpositive : ∀ column ∈ columns, 0 < column.2)
    (hline : line ∈ convertedLines hundredths separator columns lines) :
    ((lineWords hundredths separator columns line).length : Int) =
        rowWordCount (tokens separator line) columns ∧
      (lineWords hundredths separator columns line ≠ [] ↔
        tokens separator line ≠ []) := by
  rw [convertedLines] at hline
  have hok := List.mem_takeWhile_imp hline
  obtain ⟨words, hwords⟩ := exists_eq_ok hok
  have hrow := length_le_of_convert hwords
  have hlength := ((accepted_of_ok hwords).1.appends
    (fun column hcolumn => (hpositive column hcolumn).le) hrow).1
  refine ⟨hlength, ?_⟩
  by_cases hne : tokens separator line = []
  · rw [hne] at hlength
    refine iff_of_false (fun hwords => hwords ?_) (fun htokens => htokens hne)
    rw [← List.length_eq_zero_iff]
    simpa [rowWordCount] using hlength
  · have hpos := rowWordCount_pos hpositive hne hrow
    refine iff_of_true (List.ne_nil_of_length_pos ?_) hne
    omega

/-- The words of each converted row that has a value end inside the block. -/
def RowsFit (hundredths : Hundredths) (separator : Char) (columns : ColumnDefs)
    (content : List Char) (cells : Nat) : Prop :=
  ∀ line ∈ (convertedLines hundredths separator columns
      (linesOf (some content))).zipIdx, tokens separator line.1 ≠ [] →
    line.2 * recordSize columns +
      rowWordCount (tokens separator line.1) columns ≤ cells

instance (hundredths : Hundredths) (separator : Char) (columns : ColumnDefs)
    (content : List Char) (cells : Nat) :
    Decidable (RowsFit hundredths separator columns content cells) :=
  inferInstanceAs (Decidable (∀ line ∈ _, _))

/-! ## Files that the size of the text speaks for -/

/-! ## The whole file -/

theorem inside_linesTrace_iff {hundredths : Hundredths} {separator : Char}
    {columns : ColumnDefs} {content : List Char} {cells : Nat}
    (hpositive : ∀ column ∈ columns, 0 < column.2) :
    Inside (linesTrace hundredths separator columns (linesOf (some content)) 0)
        cells ↔ RowsFit hundredths separator columns content cells := by
  have hrecord : 0 ≤ recordSize columns :=
    recordSize_nonneg fun column hcolumn => (hpositive column hcolumn).le
  rw [Inside, linesTrace, List.forall_mem_flatMap, RowsFit]
  refine forall₂_congr fun line hline => ?_
  have hmem := List.getElem?_eq_some_iff.mp
    (List.mk_mem_zipIdx_iff_getElem?.mp hline)
  obtain ⟨hlength, hne⟩ := lineWords_length hpositive
    (hmem.2 ▸ List.getElem_mem hmem.1)
  rw [← hne, ← hlength]
  exact inside_rowTrace_iff
    (Int.mul_nonneg (Int.natCast_nonneg line.2) hrecord)

/-- A file that is not too big is loaded exactly when its rows fit and all of
them are converted. -/
theorem writeTable_returns_iff (hundredths : Hundredths) (filename : String)
    (content : List Char) (separator : Char) (columns : ColumnDefs)
    (memoryDevice : MemoryBlock)
    (hpositive : ∀ column ∈ columns, 0 < column.2)
    (hcells : memoryDevice.words.length = memoryDevice.size / 4)
    (hlarge : isMemoryLargeEnough content memoryDevice = true) :
    (∃ r, writeTableFromFileToMemory hundredths filename (some content)
        separator columns memoryDevice = .ok r) ↔
      RowsFit hundredths separator columns content (memoryDevice.size / 4) ∧
        ∀ line ∈ linesOf (some content), Accepted hundredths separator columns
          line := by
  have hconvert : (∃ rowCounter, countLines hundredths separator columns
      (linesOf (some content)) 0 = .ok rowCounter) ↔
      ∀ line ∈ linesOf (some content), Accepted hundredths separator columns
        line := by
    refine foldlM_returns_iff (fun _ _ => True) _ _ trivial ?_
      fun _ _ _ _ _ _ _ _ => trivial
    intro _ line _ rowCounter _ _
    simp only [bind_eq_ok, Except.ok.injEq]
    constructor
    · rintro ⟨_, words, hwords, -⟩
      exact (accepted_of_ok hwords).1
    · exact fun haccepted => ⟨_, _, haccepted, rfl⟩
  have htrace : fileTrace hundredths (some content) separator columns
      memoryDevice =
        linesTrace hundredths separator columns (linesOf (some content)) 0 :=
    if_pos hlarge
  rw [writeTableFromFileToMemory_eq _ _ _ _ _ _ hlarge, htrace, ← hconvert,
    ← inside_linesTrace_iff hpositive, ← hcells, ← applyWrites_returns_iff]
  simp only [bind_eq_ok, Except.ok.injEq]
  constructor
  · rintro ⟨_, words, hwords, rowCounter, hcount, -⟩
    exact ⟨⟨words, hwords⟩, rowCounter, hcount⟩
  · rintro ⟨⟨words, hwords⟩, rowCounter, hcount⟩
    exact ⟨_, words, hwords, rowCounter, hcount, rfl⟩

/-- All words of a file that is loaded lie inside the block exactly when its
rows fit. -/
theorem table_inside_block_iff (hundredths : Hundredths) (separator : Char)
    (columns : ColumnDefs) (content : List Char) (memoryDevice : MemoryBlock)
    (hpositive : ∀ column ∈ columns, 0 < column.2) :
    Inside (fileTrace hundredths (some content) separator columns memoryDevice)
        (memoryDevice.size / 4) ↔
      (isMemoryLargeEnough content memoryDevice = true →
        RowsFit hundredths separator columns content
          (memoryDevice.size / 4)) := by
  simp only [fileTrace]
  split
  · rename_i hlarge
    rw [imp_iff_right hlarge]
    exact inside_linesTrace_iff hpositive
  · rename_i hsmall
    exact iff_of_true (by simp [Inside]) fun hlarge => absurd hlarge hsmall

/-- Numbers of four digits and the ends of their lines. -/
theorem table_inside_block_fourDigits :
    Inside (fileTrace noDecimals (some "1000\n2000\n".toList) ','
      [(.kInteger, 1)] ⟨12, [0, 0, 0]⟩) 3 :=
  (table_inside_block_iff noDecimals ',' [(.kInteger, 1)]
    "1000\n2000\n".toList ⟨12, [0, 0, 0]⟩ (by decide)).mpr (by decide)

/-- Three lines of two characters are not larger than two words. -/
theorem table_not_always_inside_block :
    ¬∀ (hundredths : Hundredths) (separator : Char) (columns : ColumnDefs)
      (content : List Char) (memoryDevice : MemoryBlock),
      (∀ column ∈ columns, 0 < column.2) →
      isMemoryLargeEnough content memoryDevice = true →
      Inside (fileTrace hundredths (some content) separator columns
        memoryDevice) (memoryDevice.size / 4) := by
  intro hall
  have hinside := hall noDecimals ',' [(.kInteger, 1)] "1\n2\n3\n".toList
    ⟨8, [0, 0]⟩ (by decide) (by decide)
  revert hinside
  decide

end Orkhestra.Ports.TableBounds
