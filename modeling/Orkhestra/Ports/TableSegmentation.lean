import Orkhestra.Ports.DataToString
import Mathlib.Data.List.Forall2

/-!
# Cutting a vector of words into rows

`AddStringDataFromIntegerData` has no boundaries in its input: it counts words
until the width of the current column is reached and columns until the row is.
Words that were encoded column by column are found again, because every cell
has as many words as its column is wide.

A cell is kept as a pair of its words and the text these are decoded to.
-/

namespace Orkhestra.Ports.TableSegmentation

open Orkhestra.Verified.Checked
open Orkhestra.Ports.TypesConverter
open Orkhestra.Ports.DataToString

abbrev Cell := List Nat × List Char

def rowWords (row : List Cell) : List Nat := row.flatMap (·.1)

def rowTexts (row : List Cell) : List (List Char) := row.map (·.2)

section Decoding

variable (decimals : Decimals)

/-- The cell is as wide as its column and decoded to its text. -/
def Decodes (column : ColumnDataType × Int) (cell : Cell) : Prop :=
  (cell.1.length : Int) = column.2 ∧
    ∀ row, convertDataToString decimals column.1 cell.1 row =
      .ok (row ++ [cell.2])

variable {decimals} {columns : ColumnDefs} {column : ColumnDataType × Int}
  {state : SegmentationState}

/-- Words that do not fill the column are kept. -/
theorem foldlM_addElement_of_lt (words : List Nat)
    (hcolumn : columns[state.currentColumnIndex]? = some column)
    (hlt : ((state.currentElement ++ words).length : Int) < column.2) :
    words.foldlM (addElement decimals columns) state =
      .ok { state with currentElement := state.currentElement ++ words } := by
  induction words generalizing state with
  | nil => simp
  | cons word words ih =>
      have hread : readAt columns state.currentColumnIndex = .ok column :=
        readAt_eq_ok.mpr hcolumn
      rw [List.append_cons] at hlt
      have hne : ¬((state.currentElement ++ [word]).length : Int) =
          column.2 := by
        rw [List.length_append] at hlt
        omega
      have hstep : addElement decimals columns state word =
          .ok { state with currentElement := state.currentElement ++ [word] } := by
        rw [addElement, hread, ok_bind, if_neg hne]
      have hrest := @ih
        { state with currentElement := state.currentElement ++ [word] } hcolumn hlt
      rw [List.foldlM_cons, hstep, ok_bind, hrest, List.append_assoc,
        List.singleton_append]

/-- The state behind a cell. -/
def closeCell (columns : ColumnDefs) (state : SegmentationState)
    (text : List Char) : SegmentationState :=
  if state.currentColumnIndex + 1 = columns.length then
    ⟨[], [], 0, state.resultingStringData ++ [state.currentOutputRow ++ [text]]⟩
  else
    ⟨[], state.currentOutputRow ++ [text], state.currentColumnIndex + 1,
      state.resultingStringData⟩

/-- The last word of a cell closes it. -/
theorem foldlM_addElement_cell {cell : Cell}
    (hcolumn : columns[state.currentColumnIndex]? = some column)
    (hpos : 0 < column.2) (hempty : state.currentElement = [])
    (hcell : Decodes decimals column cell) :
    cell.1.foldlM (addElement decimals columns) state =
      .ok (closeCell columns state cell.2) := by
  obtain ⟨hlength, htext⟩ := hcell
  have hne : cell.1 ≠ [] := by
    intro hnil
    rw [hnil, List.length_nil] at hlength
    omega
  have hinit : (state.currentElement ++ cell.1.dropLast).length < column.2 := by
    rw [hempty, List.nil_append, List.length_dropLast]
    omega
  have hindex : state.currentColumnIndex < columns.length :=
    (List.getElem?_eq_some_iff.mp hcolumn).1
  have hread : readAt columns state.currentColumnIndex = .ok column :=
    readAt_eq_ok.mpr hcolumn
  have hlast : cell.1.dropLast ++ [cell.1.getLast hne] = cell.1 :=
    List.dropLast_append_getLast hne
  calc cell.1.foldlM (addElement decimals columns) state
      = (cell.1.dropLast ++ [cell.1.getLast hne]).foldlM
          (addElement decimals columns) state := by rw [hlast]
    _ = addElement decimals columns
          { state with currentElement := cell.1.dropLast }
          (cell.1.getLast hne) := by
        rw [List.foldlM_append, foldlM_addElement_of_lt _ hcolumn hinit, ok_bind,
          hempty, List.nil_append, List.foldlM_cons]
        exact bind_pure _
    _ = .ok (closeCell columns state cell.2) := by
        rw [addElement, hread, ok_bind]
        simp only [hlast, hlength, if_true, htext, ok_bind]
        unfold closeCell
        split
        · next hfull => rw [hfull, Nat.mod_self]
        · next hfull => rw [Nat.mod_eq_of_lt (by omega)]

/-- The cells of the columns that are left complete the row. -/
theorem foldlM_addElement_columns {rest : ColumnDefs} {cells : List Cell}
    {index : Nat} {row : List (List Char)}
    {result : List (List (List Char))} (hrest : columns.drop index = rest)
    (hne : rest ≠ []) (hpos : ∀ column ∈ rest, 0 < column.2)
    (hcells : List.Forall₂ (Decodes decimals) rest cells) :
    (rowWords cells).foldlM (addElement decimals columns)
        ⟨[], row, index, result⟩ =
      .ok ⟨[], [], 0, result ++ [row ++ rowTexts cells]⟩ := by
  induction hcells generalizing index row with
  | nil => exact absurd rfl hne
  | @cons column cell rest cells hcell hcells ih =>
      have hcolumn : columns[index]? = some column := by
        rw [← List.head?_drop, hrest, List.head?_cons]
      have hnext : columns.drop (index + 1) = rest := by
        rw [← List.tail_drop, hrest, List.tail_cons]
      have hlength : columns.length = index + (rest.length + 1) := by
        have hdrop := congrArg List.length hrest
        rw [List.length_drop, List.length_cons] at hdrop
        omega
      rw [rowWords, List.flatMap_cons, List.foldlM_append,
        foldlM_addElement_cell hcolumn (hpos column List.mem_cons_self) rfl hcell,
        ok_bind]
      unfold closeCell
      cases hcells with
      | nil =>
          rw [if_pos (by simpa using hlength.symm)]
          simp [rowTexts]
      | @cons column' cell' rest cells hcell' hcells =>
          have hmore : index + 1 ≠ columns.length := by
            rw [List.length_cons] at hlength
            omega
          rw [if_neg hmore]
          have hrec := @ih (index + 1) (row ++ [cell.2]) hnext (by simp)
            fun c hc => hpos c (List.mem_cons_of_mem column hc)
          rw [rowWords] at hrec
          rw [hrec]
          simp [rowTexts]

/-- Full rows are appended one by one and leave nothing behind. -/
theorem foldlM_addElement_rows {rows : List (List Cell)}
    (result : List (List (List Char))) (hne : columns ≠ [])
    (hpos : ∀ column ∈ columns, 0 < column.2)
    (hrows : ∀ row ∈ rows, List.Forall₂ (Decodes decimals) columns row) :
    (rows.flatMap rowWords).foldlM (addElement decimals columns)
        ⟨[], [], 0, result⟩ =
      .ok ⟨[], [], 0, result ++ rows.map rowTexts⟩ := by
  induction rows generalizing result with
  | nil => simp
  | cons row rows ih =>
      rw [List.flatMap_cons, List.foldlM_append,
        foldlM_addElement_columns List.drop_zero hne hpos
          (hrows row List.mem_cons_self),
        ok_bind, ih _ fun r hr => hrows r (List.mem_cons_of_mem row hr)]
      simp

end Decoding

section Encoding

variable (hundredths : Hundredths)

/-- The text of a column is encoded to the words of the cell. -/
def Encodes (column : ColumnDataType × Int) (text : List Char)
    (cell : Cell) : Prop :=
  ∀ data, convertDataToIntegers hundredths column.1 text data column.2 =
    .ok (data ++ cell.1)

variable {hundredths} {columns : ColumnDefs}

/-- A row appends the words of its cells, one column after the other. -/
theorem convertRecordStringToIntegers_eq {row : List (List Char)}
    {cells : List Cell}
    (hcells : List.Forall₂
      (fun column cell => Encodes hundredths column.1 column.2 cell)
      (columns.zip row) cells) (hlength : row.length = columns.length)
    (data : List Nat) :
    convertRecordStringToIntegers hundredths row columns data =
      .ok (data ++ rowWords cells) := by
  suffices key : ∀ (texts : List (List Char)) (index : Nat) (cells : List Cell)
      (data : List Nat), texts.length = (columns.drop index).length →
      List.Forall₂ (fun column cell => Encodes hundredths column.1 column.2 cell)
        ((columns.drop index).zip texts) cells →
      (texts.zipIdx index).foldlM (fun integerData token => do
        let column ← readAt columns token.2
        convertDataToIntegers hundredths column.1 token.1 integerData column.2)
        data = .ok (data ++ rowWords cells) from
    key row 0 cells data hlength hcells
  intro texts
  induction texts with
  | nil =>
      intro index cells data _ hcells
      rw [List.zip_nil_right] at hcells
      cases hcells
      rw [rowWords, List.flatMap_nil, List.append_nil]
      rfl
  | cons text texts ih =>
      intro index cells data hlength hcells
      have hindex : index < columns.length := by
        rw [List.length_cons, List.length_drop] at hlength
        omega
      have hdrop := List.drop_eq_getElem_cons hindex
      have hread := readAt_of_lt hindex
      rw [hdrop, List.zip_cons_cons] at hcells
      cases hcells with
      | @cons _ cell _ cells hcell hcells =>
          rw [hdrop, List.length_cons, List.length_cons] at hlength
          rw [List.zipIdx_cons, List.foldlM_cons]
          simp only [hread, ok_bind]
          rw [hcell data, ok_bind,
            ih (index + 1) cells _ (Nat.succ.inj hlength) hcells, rowWords,
            rowWords, List.flatMap_cons, List.append_assoc]

theorem addIntegerDataFromStringData_eq {rows : List (List (List Char))}
    {cells : List (List Cell)}
    (hlength : ∀ row ∈ rows, row.length = columns.length)
    (hcells : List.Forall₂ (fun row cells => List.Forall₂
      (fun column cell => Encodes hundredths column.1 column.2 cell)
      (columns.zip row) cells) rows cells) (data : List Nat) :
    addIntegerDataFromStringData hundredths rows data columns =
      .ok (data ++ cells.flatMap rowWords) := by
  unfold addIntegerDataFromStringData
  induction hcells generalizing data with
  | nil => simp
  | @cons row cells rows allCells hrow hrows ih =>
      rw [List.foldlM_cons, convertRecordStringToIntegers_eq hrow
          (hlength row List.mem_cons_self), ok_bind,
        ih fun r hr => hlength r (List.mem_cons_of_mem row hr),
        List.flatMap_cons, List.append_assoc]

end Encoding

section RoundTrip

variable (hundredths : Hundredths) (decimals : Decimals)

/-- The text is what the words are decoded to that a text of the column was
encoded to. -/
def Redecoded (column : (ColumnDataType × Int) × List Char)
    (text : List Char) : Prop :=
  ∃ words, convertDataToIntegers hundredths column.1.1 column.2 [] column.1.2 =
      .ok words ∧
    convertDataToString decimals column.1.1 words [] = .ok [text]

/-- The text fills its column. -/
def Fills (column : (ColumnDataType × Int) × List Char) : Prop :=
  ∃ words, convertDataToIntegers hundredths column.1.1 column.2 [] column.1.2 =
      .ok words ∧ (words.length : Int) = column.1.2

variable {hundredths}

theorem exists_forall₂ {α β : Type} {related : α → β → Prop} (xs : List α)
    (h : ∀ x ∈ xs, ∃ y, related x y) : ∃ ys, List.Forall₂ related xs ys := by
  induction xs with
  | nil => exact ⟨[], .nil⟩
  | cons x xs ih =>
      obtain ⟨y, hy⟩ := h x List.mem_cons_self
      obtain ⟨ys, hys⟩ := ih fun z hz => h z (List.mem_cons_of_mem x hz)
      exact ⟨y :: ys, .cons hy hys⟩

/-- A text that fills its column makes a cell that is found again. -/
theorem exists_cell {column : (ColumnDataType × Int) × List Char}
    (hpos : 0 < column.1.2) (hfills : Fills hundredths column) :
    ∃ cell : Cell, Encodes hundredths column.1 column.2 cell ∧
      Decodes decimals column.1 cell ∧
      Redecoded hundredths decimals column cell.2 := by
  obtain ⟨words, hwords, hlength⟩ := hfills
  obtain ⟨hcount, hencodes⟩ := (appends_convertDataToIntegers hundredths
    column.1.1 column.2 (Int.le_of_lt hpos)).eq_ok hwords
  obtain ⟨text, htext⟩ := convertDataToString_append decimals hcount
  exact ⟨(words, text), hencodes, ⟨hlength, htext⟩, words, hwords, htext []⟩

/-- The cells of a row. -/
theorem exists_row {columns : ColumnDefs} {row : List (List Char)}
    (hwidths : ∀ column ∈ columns, 0 < column.2)
    (hlength : row.length = columns.length)
    (hfills : ∀ column ∈ columns.zip row, Fills hundredths column) :
    ∃ cells : List Cell,
      List.Forall₂ (fun column cell => Encodes hundredths column.1 column.2 cell)
        (columns.zip row) cells ∧
      List.Forall₂ (Decodes decimals) columns cells ∧
      List.Forall₂ (Redecoded hundredths decimals) (columns.zip row)
        (rowTexts cells) := by
  obtain ⟨cells, hcells⟩ := exists_forall₂ (columns.zip row)
    fun column hcolumn => exists_cell decimals
      (hwidths column.1 (List.of_mem_zip hcolumn).1) (hfills column hcolumn)
  have hfirst : (columns.zip row).map (·.1) = columns :=
    List.map_fst_zip (Nat.le_of_eq hlength.symm)
  refine ⟨cells, hcells.imp fun _ _ h => h.1, ?_, ?_⟩
  · have hdecodes : List.Forall₂ (Decodes decimals)
        ((columns.zip row).map (·.1)) cells :=
      List.forall₂_map_left_iff.mpr (hcells.imp fun _ _ h => h.2.1)
    rwa [hfirst] at hdecodes
  · exact List.forall₂_map_right_iff.mpr (hcells.imp fun _ _ h => h.2.2)

/-- Rows whose texts fill their columns come back row by row: each text is what
the words of its own cell are decoded to. -/
theorem addStringDataFromIntegerData_encoded {columns : ColumnDefs}
    {rows : List (List (List Char))} (output : List (List (List Char)))
    (hcolumns : columns ≠ []) (hwidths : ∀ column ∈ columns, 0 < column.2)
    (hlength : ∀ row ∈ rows, row.length = columns.length)
    (hfills : ∀ row ∈ rows, ∀ column ∈ columns.zip row,
      Fills hundredths column) :
    ∃ integers texts,
      (∀ data, addIntegerDataFromStringData hundredths rows data columns =
        .ok (data ++ integers)) ∧
      addStringDataFromIntegerData decimals integers output columns =
        .ok (output ++ texts) ∧
      texts.length = rows.length ∧
      (∀ textRow ∈ texts, textRow.length = columns.length) ∧
      List.Forall₂ (fun row textRow =>
        List.Forall₂ (Redecoded hundredths decimals) (columns.zip row) textRow)
        rows texts := by
  obtain ⟨cells, hcells⟩ := exists_forall₂ rows fun row hrow =>
    exists_row decimals hwidths (hlength row hrow) (hfills row hrow)
  have hdecodes : ∀ row ∈ cells, List.Forall₂ (Decodes decimals) columns row := by
    intro row hrow
    obtain ⟨i, hi, rfl⟩ := List.getElem_of_mem hrow
    have hi' : i < rows.length := by rwa [hcells.length_eq]
    exact (hcells.get hi' hi).2.1
  refine ⟨cells.flatMap rowWords, cells.map rowTexts,
    addIntegerDataFromStringData_eq hlength (hcells.imp fun _ _ h => h.1), ?_,
    ?_, ?_, List.forall₂_map_right_iff.mpr (hcells.imp fun _ _ h => h.2.2)⟩
  · rw [addStringDataFromIntegerData,
      foldlM_addElement_rows output hcolumns hwidths hdecodes, ok_bind]
  · rw [List.length_map, hcells.length_eq]
  · intro textRow htextRow
    obtain ⟨row, hrow, rfl⟩ := List.mem_map.mp htextRow
    rw [rowTexts, List.length_map, (hdecodes row hrow).length_eq]

end RoundTrip

/-- A text, a number and a null value in two rows. -/
theorem addStringDataFromIntegerData_encoded_two_rows :
    ∃ integers texts,
      (∀ data, addIntegerDataFromStringData (fun _ => .error .outOfRange)
        [["ab".toList, "7".toList, []], ["c".toList, "12".toList, []]] data
        [(.kVarchar, 2), (.kInteger, 1), (.kNull, 1)] = .ok (data ++ integers)) ∧
      addStringDataFromIntegerData (fun _ => []) integers [["x".toList]]
        [(.kVarchar, 2), (.kInteger, 1), (.kNull, 1)] =
        .ok ([["x".toList]] ++ texts) ∧
      texts.length = 2 ∧ (∀ textRow ∈ texts, textRow.length = 3) ∧
      List.Forall₂ (fun row textRow =>
        List.Forall₂ (Redecoded (fun _ => .error .outOfRange) (fun _ => []))
          (List.zip [(.kVarchar, 2), (.kInteger, 1), (.kNull, 1)] row) textRow)
        [["ab".toList, "7".toList, []], ["c".toList, "12".toList, []]] texts := by
  refine addStringDataFromIntegerData_encoded (fun _ => []) [["x".toList]]
    (by decide) (by decide) (by decide) ?_
  simp only [List.zip_cons_cons, List.zip_nil_right, List.forall_mem_cons]
  exact ⟨⟨⟨[0x61620000, 0], by decide, by decide⟩, ⟨[7], by decide, by decide⟩,
    ⟨[0], by decide, by decide⟩, by simp⟩,
    ⟨⟨[0x63000000, 0], by decide, by decide⟩, ⟨[12], by decide, by decide⟩,
    ⟨[0], by decide, by decide⟩, by simp⟩, by simp⟩

end Orkhestra.Ports.TableSegmentation
