import Orkhestra.Ports.CSVReader

/-!
# The two loaders of a table

A row with fewer words than the record size, for instance one that ends with an
empty token, leaves cells of the block untouched, while nothing takes their
place in the vector.  The loaders agree when all rows are full and the file has
no more rows than are read at once; a file that is written from a table with an
empty last column is not of this kind.
-/

namespace Orkhestra.Ports.TableLoaders

open Orkhestra.Verified.Checked
open Orkhestra.Verified.Rows
open Orkhestra.Ports.TypesConverter
open Orkhestra.Ports.CSVReader

/-! ## Reading -/

theorem readRows_eq (separator : Char) (lines : List (List Char))
    {rowCounter : Int} (hlow : 0 ≤ rowCounter) (hhigh : rowCounter < maxRows)
    (data : List (List (List Char))) :
    (readRows separator 0 lines rowCounter data).1 =
      data ++ (lines.take (maxRows - rowCounter).toNat).map
        (tokens separator) := by
  induction lines generalizing rowCounter data with
  | nil => simp [readRows]
  | cons line lines ih =>
      obtain ⟨n, hn⟩ : ∃ n : Nat, (maxRows - rowCounter).toNat = n + 1 :=
        ⟨(maxRows - rowCounter).toNat - 1, by omega⟩
      rw [hn, List.take_succ_cons, List.map_cons, readRows]
      simp only [if_pos (show rowCounter + 1 > 0 by omega), Int.zero_add]
      split
      · next hlast =>
          have hzero : n = 0 := by omega
          simp [hzero]
      · next hlast =>
          rw [ih (by omega) (by omega),
            show (maxRows - (rowCounter + 1)).toNat = n by omega]
          simp

/-- A first call reads the rows up to the limit. -/
theorem readTableData_eq (file : File) (separator : Char) :
    (readTableData file separator 0).1 =
      ((linesOf file).take maxRows.toNat).map (tokens separator) := by
  rw [readTableData, readRows_eq separator _ (Int.le_refl 0) (by decide)]
  rfl

/-! ## Writing -/

theorem writeDataToMemory_ok {data words words' : List Nat} {start : Nat}
    (h : writeDataToMemory data words start = .ok words') :
    words' = splice words start data ∧
      (data = [] ∨ start + data.length ≤ words.length) := by
  suffices key : ∀ (data words : List Nat) (n : Nat),
      (data.zipIdx n).foldlM (fun words value => do
        let i ← indexOf (value.2 + (start : Int))
        writeAt words i value.1) words = .ok words' →
      words' = splice words (n + start) data ∧
        (data = [] ∨ n + start + data.length ≤ words.length) by
    have hkey := key data words 0 h
    rw [Nat.zero_add] at hkey
    exact hkey
  intro data
  induction data with
  | nil =>
      intro words n hrun
      refine ⟨?_, .inl rfl⟩
      rw [splice_nil]
      exact (Except.ok.inj hrun).symm
  | cons x data ih =>
      intro words n hrun
      rw [List.zipIdx_cons, List.foldlM_cons] at hrun
      simp only [bind_eq_ok, indexOf_eq_ok, writeAt_eq_ok] at hrun
      obtain ⟨_, ⟨i, hi, hlt, rfl⟩, hrest⟩ := hrun
      have hi : n + start = i := by omega
      subst hi
      obtain ⟨hwords, hroom⟩ := ih _ _ hrest
      rw [show n + 1 + start = n + start + 1 by omega] at hwords hroom
      rw [splice_set hlt] at hwords
      refine ⟨hwords, .inr ?_⟩
      rw [List.length_set] at hroom
      rw [List.length_cons]
      rcases hroom with rfl | hroom
      · rw [List.length_nil]
        omega
      · omega

section Lines

variable (hundredths : Hundredths) (separator : Char) (columns : ColumnDefs)

/-- The words that a line is converted to; nothing if it is not accepted. -/
def lineWords (line : List Char) : List Nat :=
  match convertRecordStringToIntegers hundredths (tokens separator line) columns
    [] with
  | .ok words => words
  | .error _ => []

/-- The converters accept the line. -/
def Accepted (line : List Char) : Prop :=
  convertRecordStringToIntegers hundredths (tokens separator line) columns [] =
    .ok (lineWords hundredths separator columns line)

variable {hundredths separator columns}

theorem accepted_of_ok {line : List Char} {words : List Nat}
    (h : convertRecordStringToIntegers hundredths (tokens separator line) columns
      [] = .ok words) :
    Accepted hundredths separator columns line ∧
      lineWords hundredths separator columns line = words := by
  have heq : lineWords hundredths separator columns line = words := by
    rw [lineWords, h]
  exact ⟨by rw [Accepted, heq, h], heq⟩

/-- The words of an accepted line, whatever they are appended to. -/
theorem Accepted.appends {line : List Char}
    (haccepted : Accepted hundredths separator columns line)
    (hcolumns : ∀ column ∈ columns, 0 ≤ column.2)
    (hrow : (tokens separator line).length ≤ columns.length) :
    ((lineWords hundredths separator columns line).length : Int) =
        rowWordCount (tokens separator line) columns ∧
      ∀ data, convertRecordStringToIntegers hundredths (tokens separator line)
        columns data =
          .ok (data ++ lineWords hundredths separator columns line) :=
  (appends_convertRecordStringToIntegers hundredths hcolumns hrow).eq_ok
    haccepted

/-- A run over the lines accepts and counts them. -/
theorem writeLines_accepted {lines : List (List Char)} {state : List Nat × Nat}
    {words : List Nat} {rowCount : Nat}
    (h : lines.foldlM (writeLine hundredths separator columns) state =
      .ok (words, rowCount)) :
    (∀ line ∈ lines, Accepted hundredths separator columns line) ∧
      rowCount = state.2 + lines.length := by
  induction lines generalizing state with
  | nil =>
      obtain rfl := Except.ok.inj h
      exact ⟨by simp, rfl⟩
  | cons line lines ih =>
      rw [List.foldlM_cons, bind_eq_ok] at h
      obtain ⟨state', hline, hrest⟩ := h
      simp only [writeLine, bind_eq_ok, Except.ok.injEq] at hline
      obtain ⟨integerData, hconvert, _, -, rfl⟩ := hline
      obtain ⟨haccepted, hcount⟩ := ih hrest
      refine ⟨?_, ?_⟩
      · rw [List.forall_mem_cons]
        exact ⟨(accepted_of_ok hconvert).1, haccepted⟩
      · rw [hcount, List.length_cons]
        show state.2 + 1 + lines.length = _
        omega

/-- Full rows are written one behind the other. -/
theorem writeLines_full {lines : List (List Char)} {done free words : List Nat}
    {k rowCount stride : Nat} (hstride : recordSize columns = stride)
    (hdone : done.length = k * stride)
    (hfull : ∀ line ∈ lines,
      (lineWords hundredths separator columns line).length = stride)
    (h : lines.foldlM (writeLine hundredths separator columns)
      (done ++ free, k) = .ok (words, rowCount)) :
    ∃ rest, words = done ++
      (lines.map (lineWords hundredths separator columns)).flatten ++ rest := by
  induction lines generalizing done free k with
  | nil =>
      rw [List.foldlM_nil, pure_eq_ok, Except.ok.injEq, Prod.mk.injEq] at h
      exact ⟨free, by simp [h.1]⟩
  | cons line lines ih =>
      rw [List.foldlM_cons, bind_eq_ok] at h
      obtain ⟨state', hline, hrest⟩ := h
      simp only [writeLine, bind_eq_ok, Except.ok.injEq] at hline
      obtain ⟨integerData, hconvert, written, hwrite, rfl⟩ := hline
      obtain rfl := (accepted_of_ok hconvert).2
      have hstart : ((k : Nat) : Int) * recordSize columns =
          (done.length : Nat) := by
        rw [hstride, hdone, Nat.cast_mul]
      rw [hstart] at hwrite
      obtain ⟨rfl, -⟩ := writeDataToMemory_ok hwrite
      rw [splice_append] at hrest
      rw [List.forall_mem_cons] at hfull
      obtain ⟨rest, hwords⟩ := ih (by
        rw [List.length_append, hdone, hfull.1, Nat.succ_mul]) hfull.2 hrest
      refine ⟨rest, ?_⟩
      rw [hwords, List.map_cons, List.flatten_cons]
      simp only [List.append_assoc]

/-- A block is written from its start on. -/
theorem writeLines_front {lines : List (List Char)} {free words : List Nat}
    {rowCount stride : Nat} (hstride : recordSize columns = stride)
    (hfull : ∀ line ∈ lines,
      (lineWords hundredths separator columns line).length = stride)
    (h : lines.foldlM (writeLine hundredths separator columns) (free, 0) =
      .ok (words, rowCount)) :
    ∃ rest, words =
      (lines.map (lineWords hundredths separator columns)).flatten ++ rest := by
  obtain ⟨rest, hwords⟩ := writeLines_full hstride
    (show ([] : List Nat).length = 0 * stride by simp) hfull h
  exact ⟨rest, by rwa [List.nil_append] at hwords⟩

/-- The vector is built of the words of the lines. -/
theorem addIntegerData_lines {lines : List (List Char)}
    (hcolumns : ∀ column ∈ columns, 0 ≤ column.2)
    (hrows : ∀ line ∈ lines, (tokens separator line).length ≤ columns.length)
    (haccepted : ∀ line ∈ lines, Accepted hundredths separator columns line)
    (data : List Nat) :
    addIntegerDataFromStringData hundredths (lines.map (tokens separator)) data
      columns =
      .ok (data ++
        (lines.map (lineWords hundredths separator columns)).flatten) := by
  induction lines generalizing data with
  | nil => simp [addIntegerDataFromStringData]
  | cons line lines ih =>
      rw [List.forall_mem_cons] at hrows haccepted
      rw [List.map_cons, addIntegerDataFromStringData, List.foldlM_cons,
        (haccepted.1.appends hcolumns hrows.1).2, ok_bind]
      have hrest := ih hrows.2 haccepted.2
        (data ++ lineWords hundredths separator columns line)
      rw [addIntegerDataFromStringData] at hrest
      rw [hrest, List.map_cons, List.flatten_cons, List.append_assoc]

end Lines

/-! ## Sizes -/

theorem recordSize_eq_sum (columns : ColumnDefs) :
    recordSize columns = (columns.map (·.2)).sum := by
  suffices key : ∀ s : Int, columns.foldl
      (fun recordSize columnType => recordSize + columnType.2) s =
      s + (columns.map (·.2)).sum by
    rw [recordSize, key, Int.zero_add]
  intro s
  induction columns generalizing s with
  | nil => simp
  | cons column columns ih =>
      rw [List.foldl_cons, ih, List.map_cons, List.sum_cons, Int.add_assoc]

theorem recordSize_nonneg {columns : ColumnDefs}
    (hcolumns : ∀ column ∈ columns, 0 ≤ column.2) : 0 ≤ recordSize columns := by
  rw [recordSize_eq_sum]
  induction columns with
  | nil => simp
  | cons column columns ih =>
      rw [List.forall_mem_cons] at hcolumns
      rw [List.map_cons, List.sum_cons]
      have hrest := ih hcolumns.2
      omega

/-- A row is not longer than the record when no value is wider than its
column. -/
theorem rowWordCount_le {columns : ColumnDefs}
    (hcolumns : ∀ column ∈ columns, 0 ≤ column.2)
    (hwide : ∀ column ∈ columns, column.1.wordCount column.2 ≤ column.2)
    (row : List (List Char)) :
    rowWordCount row columns ≤ recordSize columns := by
  rw [recordSize_eq_sum, rowWordCount]
  generalize row.length = n
  induction columns generalizing n with
  | nil => simp
  | cons column columns ih =>
      rw [List.forall_mem_cons] at hcolumns hwide
      rw [List.map_cons, List.sum_cons]
      cases n with
      | zero =>
          have hrest := ih hcolumns.2 hwide.2 0
          simp only [List.take_zero, List.map_nil, List.sum_nil] at hrest ⊢
          omega
      | succ n =>
          have hrest := ih hcolumns.2 hwide.2 n
          rw [List.take_succ_cons, List.map_cons, List.sum_cons]
          omega

/-! ## Agreement -/

/-- The loaders have read the same rows, and the block starts with the words of
the vector. -/
structure LoadersAgree (rowCount : Nat) (block : MemoryBlock)
    (rows : List (List (List Char))) (tableData : List Nat)
    (recordSize : Int) : Prop where
  count : rowCount = rows.length
  room : rowCount * recordSize ≤ block.words.length
  words : block.words.take (rowCount * recordSize).toNat = tableData

/-- The rows are read at once, and the columns that a row has a text for take
the whole record. -/
def FullRows (separator : Char) (columns : ColumnDefs) (content : List Char) :
    Prop :=
  ((linesOf (some content)).length : Int) ≤ maxRows ∧
    ∀ line ∈ linesOf (some content),
      rowWordCount (tokens separator line) columns = recordSize columns

instance (separator : Char) (columns : ColumnDefs) (content : List Char) :
    Decidable (FullRows separator columns content) :=
  inferInstanceAs (Decidable (_ ∧ _))

/-- What is left of the two loaders once they have returned. -/
theorem loaders_returned {m : DataManager} {hundredths : Hundredths}
    {columnDataTypes : List ColumnDataType} {columnSizes : List Int}
    {columns : ColumnDefs} {filename : String} {content : List Char}
    {block block' : MemoryBlock} {rowCount : Nat}
    (hcolumns : getHeaderColumnVector m columnDataTypes columnSizes =
      .ok columns)
    (hpositive : ∀ column ∈ columns, 0 < column.2)
    (hrows : ∀ line ∈ linesOf (some content),
      (tokens m.separator line).length ≤ columns.length)
    (hrun : writeDataFromCSVToMemory m hundredths filename (some content) columns
      block = .ok (rowCount, block')) :
    (linesOf (some content)).foldlM (writeLine hundredths m.separator columns)
      (block.words, 0) = .ok (block'.words, rowCount) ∧
    rowCount = (linesOf (some content)).length ∧
    (∀ line ∈ linesOf (some content),
      ((lineWords hundredths m.separator columns line).length : Int) =
        rowWordCount (tokens m.separator line) columns) ∧
    ∃ rowsAlreadyRead, parseDataFromCSV m hundredths (some content)
      columnDataTypes columnSizes 0 = .ok (⟨columns,
        (((linesOf (some content)).take maxRows.toNat).map
          (lineWords hundredths m.separator columns)).flatten⟩,
        rowsAlreadyRead) := by
  have hnonneg : ∀ column ∈ columns, 0 ≤ column.2 :=
    fun column hcolumn => Int.le_of_lt (hpositive column hcolumn)
  rw [writeDataFromCSVToMemory, writeTableFromFileToMemory] at hrun
  dsimp only at hrun
  split at hrun
  · rw [bind_eq_ok] at hrun
    obtain ⟨⟨words, count⟩, hlines, hreturn⟩ := hrun
    simp only [Except.ok.injEq, Prod.mk.injEq] at hreturn
    obtain ⟨rfl, rfl⟩ := hreturn
    obtain ⟨haccepted, hcount⟩ := writeLines_accepted hlines
    rw [Nat.zero_add] at hcount
    refine ⟨hlines, hcount, fun line hline =>
      ((haccepted line hline).appends hnonneg (hrows line hline)).1, ?_⟩
    have hread := readTableData_eq (some content) m.separator
    have hwords : addIntegerDataFromStringData hundredths
        (((linesOf (some content)).take maxRows.toNat).map
          (tokens m.separator)) [] columns = _ := addIntegerData_lines hnonneg
      (fun line hline => hrows line (List.mem_of_mem_take hline))
      (fun line hline => haccepted line (List.mem_of_mem_take hline)) []
    rw [parseDataFromCSV, hcolumns, ok_bind]
    refine ⟨(readTableData (some content) m.separator 0).2, ?_⟩
    dsimp only
    rw [hread, hwords]
    rfl
  · cases hrun

/-- Full rows are loaded alike on both paths.  When no value is wider than its
column, only files of full rows are. -/
theorem loaders_agree_iff {m : DataManager} {hundredths : Hundredths}
    {columnDataTypes : List ColumnDataType} {columnSizes : List Int}
    {columns : ColumnDefs} {filename : String} {content : List Char}
    {size cells rowCount : Nat} {block : MemoryBlock}
    (hcolumns : getHeaderColumnVector m columnDataTypes columnSizes =
      .ok columns)
    (hpositive : ∀ column ∈ columns, 0 < column.2)
    (hrows : ∀ line ∈ linesOf (some content),
      (tokens m.separator line).length ≤ columns.length)
    (hrun : writeDataFromCSVToMemory m hundredths filename (some content) columns
      ⟨size, List.replicate cells 0⟩ = .ok (rowCount, block)) :
    ∃ table rowsAlreadyRead, parseDataFromCSV m hundredths (some content)
        columnDataTypes columnSizes 0 = .ok (table, rowsAlreadyRead) ∧
      (FullRows m.separator columns content →
        LoadersAgree rowCount block
          (readTableData (some content) m.separator 0).1 table.tableDataVector
          (recordSize columns)) ∧
      ((∀ column ∈ columns, column.1.wordCount column.2 ≤ column.2) →
        LoadersAgree rowCount block
          (readTableData (some content) m.separator 0).1 table.tableDataVector
          (recordSize columns) → FullRows m.separator columns content) := by
  have hnonneg : ∀ column ∈ columns, 0 ≤ column.2 :=
    fun column hcolumn => Int.le_of_lt (hpositive column hcolumn)
  obtain ⟨hlines, hcount, hlength, rowsAlreadyRead, hparse⟩ :=
    loaders_returned hcolumns hpositive hrows hrun
  obtain ⟨stride, hstride⟩ := Int.eq_ofNat_of_zero_le (recordSize_nonneg hnonneg)
  refine ⟨_, rowsAlreadyRead, hparse, ?_, ?_⟩
  · rintro ⟨hlimit, hfull⟩
    have htake : (linesOf (some content)).take maxRows.toNat =
        linesOf (some content) := List.take_of_length_le (by omega)
    have hstrides : ∀ line ∈ linesOf (some content),
        (lineWords hundredths m.separator columns line).length = stride := by
      intro line hline
      have := hlength line hline
      have := hfull line hline
      omega
    obtain ⟨rest, hwords⟩ := writeLines_full hstride
      (show ([] : List Nat).length = 0 * stride by simp) hstrides hlines
    rw [List.nil_append] at hwords
    have htotal : ((linesOf (some content)).map
        (lineWords hundredths m.separator columns)).flatten.length =
        rowCount * stride := by
      rw [length_flatten_of_forall (by simpa using hstrides), List.length_map,
        hcount]
    refine ⟨?_, ?_, ?_⟩
    · rw [readTableData_eq, htake, List.length_map, hcount]
    · rw [hstride, hwords, List.length_append, htotal]
      push_cast
      omega
    · dsimp only
      rw [htake, hstride, hwords, ← Nat.cast_mul, Int.toNat_natCast, ← htotal,
        List.take_left]
  · rintro hwide ⟨hsame, hroom, hwords⟩
    have hmax : maxRows = 2000000 := rfl
    have hlimit : ((linesOf (some content)).length : Int) ≤ maxRows := by
      rw [readTableData_eq, List.length_map, List.length_take, hcount] at hsame
      omega
    have htake : (linesOf (some content)).take maxRows.toNat =
        linesOf (some content) := List.take_of_length_le (by omega)
    rw [htake] at hwords
    have htotal := congrArg List.length hwords
    rw [List.length_take, hstride, ← Nat.cast_mul, Int.toNat_natCast,
      Nat.min_eq_left (by rw [hstride] at hroom; exact_mod_cast hroom)] at htotal
    have hshort : ∀ row ∈ (linesOf (some content)).map
        (lineWords hundredths m.separator columns), row.length ≤ stride := by
      rw [List.forall_mem_map]
      intro line hline
      have := hlength line hline
      have := rowWordCount_le hnonneg hwide (tokens m.separator line)
      omega
    have hall := (length_flatten_eq_iff hshort).mp (by
      rw [← htotal, List.length_map, hcount])
    rw [List.forall_mem_map] at hall
    refine ⟨hlimit, fun line hline => ?_⟩
    rw [← hlength line hline, hall line hline, hstride]

/-- Sizes are in words. -/
def wordManager : DataManager :=
  { columnWidth := fun _ columnSize => .ok columnSize, separator := ',' }

/-- There is no decimal column. -/
def noDecimals : Hundredths := fun _ => .error (.logicError "stod")

/-- The carriage return keeps the last token of a line. -/
theorem loaders_agree_carriageReturn :
    ∃ table rowsAlreadyRead, parseDataFromCSV wordManager noDecimals
        (some "7,\r\n9,\r\n".toList) [.kInteger, .kNull] [1, 1] 0 =
          .ok (table, rowsAlreadyRead) ∧
      LoadersAgree 2 ⟨16, [7, 0, 9, 0]⟩
        (readTableData (some "7,\r\n9,\r\n".toList) ',' 0).1
        table.tableDataVector 2 := by
  have hcolumns : getHeaderColumnVector wordManager [.kInteger, .kNull] [1, 1] =
      .ok [(.kInteger, 1), (.kNull, 1)] := rfl
  have hrun : writeDataFromCSVToMemory wordManager noDecimals "table.csv"
      (some "7,\r\n9,\r\n".toList) [(.kInteger, 1), (.kNull, 1)]
      ⟨16, List.replicate 4 0⟩ = .ok (2, ⟨16, [7, 0, 9, 0]⟩) := by decide
  obtain ⟨table, rowsAlreadyRead, hparse, hagree, -⟩ :=
    loaders_agree_iff hcolumns (by decide) (by decide) hrun
  exact ⟨table, rowsAlreadyRead, hparse, hagree (by decide)⟩

/-- Each row ends with an empty token: the memory has the zeros of the last
column, the vector has not. -/
theorem loaders_differ_emptyColumn :
    getHeaderColumnVector wordManager [.kInteger, .kNull] [1, 1] =
      .ok [(.kInteger, 1), (.kNull, 1)] ∧
    (∀ line ∈ linesOf (some "7,\n9,\n".toList),
      (tokens ',' line).length ≤ 2) ∧
    writeDataFromCSVToMemory wordManager noDecimals "table.csv"
      (some "7,\n9,\n".toList) [(.kInteger, 1), (.kNull, 1)]
      ⟨16, List.replicate 4 0⟩ = .ok (2, ⟨16, [7, 0, 9, 0]⟩) ∧
    parseDataFromCSV wordManager noDecimals (some "7,\n9,\n".toList)
      [.kInteger, .kNull] [1, 1] 0 =
        .ok (⟨[(.kInteger, 1), (.kNull, 1)], [7, 9]⟩, 2) ∧
    ¬LoadersAgree 2 ⟨16, [7, 0, 9, 0]⟩
      (readTableData (some "7,\n9,\n".toList) ',' 0).1 [7, 9]
      (recordSize [(.kInteger, 1), (.kNull, 1)]) := by
  refine ⟨rfl, by decide, by decide, by decide, fun hagree => ?_⟩
  have hwords := hagree.words
  revert hwords
  decide

end Orkhestra.Ports.TableLoaders
