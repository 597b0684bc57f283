import Orkhestra.Ports.PlanExecution
import Orkhestra.Ports.TableRoundTrip

/-!
# Hand-overs through files

A stream that is written to a file for a later run is read as it was, if it is a
table of values that survive in a file and both of its ends have the same
columns.  With that, the assumption of `PlanExecution` on files follows from the
one on memory.
-/

namespace Orkhestra.Ports.FileHandOver

open Orkhestra.Verified.Checked
open Orkhestra.Ports.QuerySchedulingData
open Orkhestra.Ports.NodeScheduler
open Orkhestra.Ports.SchedulePartition
open Orkhestra.Ports.HandOver
open Orkhestra.Ports.TypesConverter (ColumnDefs)
open Orkhestra.Ports.CSVReader (File recordSize)
open Orkhestra.Ports.TableLoaders (recordSize_eq_sum)
open Orkhestra.Ports.TableManager
open Orkhestra.Ports.Accelerator
open Orkhestra.Ports.PlanMeaning
open Orkhestra.Ports.PlanExecution
open Orkhestra.Ports.TableRoundTrip

variable {V : Type} {c : Conversions} {acc : Accelerator V} {P : Plan}
  {o : RunsState} {files : String → File}

/-- The stream `a.k → n.m` goes through the file `f`. -/
structure ThroughFile (P : Plan) (o : RunsState) (a : NodeId) (k : Nat)
    (n : NodeId) (m : Nat) (f : String) : Prop where
  stream : Stream P.heap a k n m
  cut : ¬SameRun o.queryNodeRunsQueue a n
  file : (P.heap a).outputDataDefinitionFiles[k]? = some f
  named : f ≠ ""

/-- Streams between runs are read back from memory, and those that go through
files are tables. -/
structure HandsOverTables (c : Conversions) (acc : Accelerator V) (P : Plan)
    (o : RunsState) (files : String → File) : Prop where
  fetched : ∀ a ∈ P.nodes, ∀ k n m v shape, Stream P.heap a k n m →
    ¬SameRun o.queryNodeRunsQueue a n →
    Carries c acc P files (.output a k) v → outputShape c P a k = .ok shape →
    acc.fetch (P.heap n).operationType
      (P.heap n).operationParameters.operationParameters
      (streamShape (P.heap n).operationParameters.inputStreamParameters m
        shape.recordSize)
      (acc.recordCount shape v) (acc.deposit shape v) = v
  columns : ∀ a ∈ P.nodes, ∀ k n m f, ThroughFile P o a k n m f →
    getColumnDefsVector c
        (P.heap n).operationParameters.inputStreamParameters m =
      getColumnDefsVector c
        (P.heap a).operationParameters.outputStreamParameters k
  tables : ∀ a ∈ P.nodes, ∀ k n m f v shape columns, ThroughFile P o a k n m f →
    Carries c acc P files (.output a k) v → outputShape c P a k = .ok shape →
    getColumnDefsVector c
      (P.heap a).operationParameters.outputStreamParameters k = .ok columns →
    ∃ T : StoredTable c, T.columns = columns ∧ T.words = acc.deposit shape v
  unchecked : ∀ a ∈ P.nodes, ∀ k n m f, ThroughFile P o a k n m f →
    (P.heap a).isChecked[k]? = some false

theorem recordSize_pos (T : StoredTable c) : 0 < recordSize T.columns := by
  rw [recordSize_eq_sum]
  refine List.sum_pos _ (fun width hwidth => ?_) ?_
  · obtain ⟨column, hcolumn, rfl⟩ := List.mem_map.mp hwidth
    exact T.positive column hcolumn
  · simpa using T.columns_ne_nil

/-- The text of a table is loaded as its words. -/
theorem words_of_text {parameters : List (List Int)} {a : NodeId} {k m : Nat}
    {v : V} {text : List Char} {filename : String} {size count : Int}
    {words : List Nat} {columns : ColumnDefs} {shape : StreamShape}
    (hshape : outputShape c P a k = .ok shape)
    (houtput : getColumnDefsVector c
      (P.heap a).operationParameters.outputStreamParameters k = .ok columns)
    (hinput : getColumnDefsVector c parameters m = .ok columns)
    {T : StoredTable c} (hcolumns : T.columns = columns)
    (hwords : T.words = acc.deposit shape v)
    (htext : TextOf c acc P a k v text)
    (hload : LoadsWords c parameters m filename (some text) size count words) :
    size = shape.recordSize ∧ count = acc.recordCount shape v ∧
      words = acc.deposit shape v := by
  obtain ⟨columns', shape', filename', houtput', hshape', hwrite⟩ := htext
  rw [houtput, Except.ok.injEq] at houtput'
  rw [hshape, Except.ok.injEq] at hshape'
  subst houtput' hshape' hcolumns
  have hcontent := T.write filename'
  rw [StoredTable.tableData, hwords, hwrite, Except.ok.injEq] at hcontent
  subst hcontent
  obtain ⟨contents, ⟨columns', before, rows, hinput', rfl, rfl, hload⟩, hread⟩ :=
    hload
  rw [hinput, Except.ok.injEq] at hinput'
  subst hinput'
  obtain ⟨rfl, hread'⟩ := T.words_of_load hload
  rw [hread, Except.ok.injEq] at hread'
  have hsize : recordSize T.columns = shape.recordSize := by
    have hrecord := outputRecordSize_of_shape hshape
    rw [outputRecordSize, houtput, ok_bind, Except.ok.injEq] at hrecord
    exact hrecord
  refine ⟨hsize, ?_, hread'.trans hwords⟩
  have hlength := acc.whole shape v
  rw [← hwords, T.length_words, ← hsize] at hlength
  exact Int.eq_of_mul_eq_mul_right (recordSize_pos T).ne' hlength

/-- Tables go through files as well as through memory. -/
theorem transparent_of_tables (h : HandsOverTables c acc P o files) :
    Transparent c acc P o files := by
  have houtput : ∀ {a : NodeId} {k : Nat} {v : V} {text : List Char},
      TextOf c acc P a k v text → ∃ columns shape, getColumnDefsVector c
          (P.heap a).operationParameters.outputStreamParameters k =
            .ok columns ∧ outputShape c P a k = .ok shape := by
    rintro a k v text ⟨columns, shape, -, hcolumns, hshape, -⟩
    exact ⟨columns, shape, hcolumns, hshape⟩
  refine ⟨?_, ?_, ?_, ?_⟩
  · intro a ha k n m v shape hstream hcut _ hv hshape
    exact h.fetched a ha k n m v shape hstream hcut hv hshape
  · intro a ha k n m v f text size count words hstream hcut hf hne hv htext
      hload
    have hfile : ThroughFile P o a k n m f := ⟨hstream, hcut, hf, hne⟩
    obtain ⟨columns, shape, hcolumns, hshape⟩ := houtput htext
    obtain ⟨T, hT, hwords⟩ :=
      h.tables a ha k n m f v shape columns hfile hv hshape hcolumns
    obtain ⟨rfl, rfl, rfl⟩ := words_of_text hshape hcolumns
      ((h.columns a ha k n m f hfile).trans hcolumns) hT hwords htext hload
    exact h.fetched a ha k n m v shape hstream hcut hv hshape
  · intro a ha k n m f columns hstream hcut hf hne hcolumns
    rw [h.columns a ha k n m f ⟨hstream, hcut, hf, hne⟩] at hcolumns
    rw [outputRecordSize, hcolumns, ok_bind]
  · intro a ha k n m f hstream hcut hf hne
    exact h.unchecked a ha k n m f ⟨hstream, hcut, hf, hne⟩

/-! ### A filter and a sort -/

/-- Streams of numbers that fit an `int`; the modules let them pass. -/
def intPasser : Accelerator { v : List Nat // ∀ x ∈ v, x < 2 ^ 31 } where
  fetch _ _ _ _ words := ⟨words.map (· % 2 ^ 31), fun x hx => by
    obtain ⟨word, -, rfl⟩ := List.mem_map.mp hx
    exact Nat.mod_lt _ (by decide)⟩
  kernel _ _ _ _ inputs _ := inputs.headD ⟨[], by simp⟩
  deposit shape v := wholeRecords shape.recordSize v.1
  recordCount shape v := (v.1.length / shape.recordSize.toNat : Nat)
  whole shape v := length_wholeRecords shape.recordSize v.1

/-- The filter writes its results to a file. -/
def filterToFile : List QueryNode :=
  filterThenSortToFile.modify 0 fun node =>
    { node with outputDataDefinitionFiles := ["filtered.csv"] }

def filterToFilePlan : Plan := .ofTable filterToFile rfl

/-- One number in each row. -/
def numberTable (v : { v : List Nat // ∀ x ∈ v, x < 2 ^ 31 }) :
    StoredTable wordConversions where
  columns := [(.kInteger, 1)]
  rows := v.1.map fun x => [.integer x]
  separator := by decide
  holds := by
    intro row hrow
    obtain ⟨x, hx, rfl⟩ := List.mem_map.mp hrow
    exact .cons (.integer x (v.2 x hx)) .nil
  positive := by decide
  lastText := ⟨_, rfl, by decide⟩

theorem words_numberTable (v : { v : List Nat // ∀ x ∈ v, x < 2 ^ 31 }) :
    (numberTable v).words = v.1 := by
  rw [StoredTable.words, numberTable, List.flatMap_map]
  exact List.flatMap_singleton' v.1

theorem filterToFile_stream {a k n m : Nat} (ha : a ∈ filterToFilePlan.nodes)
    (h : Stream filterToFilePlan.heap a k n m) :
    a = 0 ∧ k = 0 ∧ n = 1 ∧ m = 0 :=
  Plan.forall_stream (p := fun a k n m => a = 0 ∧ k = 0 ∧ n = 1 ∧ m = 0)
    (by decide) ha h

/-- Two runs with a file between them. -/
theorem transparent_of_tables_filterToFile :
    ∃ o, findAcceleratedQueryNodeSets (libraryOf [[.kFilter], [.kLinearSort]]) 16
        filterToFilePlan.heap filterToFilePlan.roots ∅ = .ok o ∧
      Transparent wordConversions intPasser filterToFilePlan o
        carsStorage.files := by
  have hrun : (findAcceleratedQueryNodeSets
      (libraryOf [[.kFilter], [.kLinearSort]]) 16 filterToFilePlan.heap
      filterToFilePlan.roots ∅).isOk = true := by decide +kernel
  obtain ⟨o, hrun⟩ := exists_eq_ok hrun
  have hwhole : ∀ v : { v : List Nat // ∀ x ∈ v, x < 2 ^ 31 },
      intPasser.deposit ⟨1, [], 1⟩ v = v.1 := by
    intro v
    simp [intPasser, wholeRecords]
  refine ⟨o, hrun, transparent_of_tables ⟨?_, ?_, ?_, ?_⟩⟩
  · intro a ha k n m v shape hstream _ _ hshape
    obtain ⟨rfl, rfl, rfl, rfl⟩ := filterToFile_stream ha hstream
    obtain rfl : shape = ⟨1, [], 1⟩ := Except.ok.inj (hshape.symm.trans rfl)
    rw [hwhole]
    refine Subtype.ext ((List.map_congr_left fun x hx => ?_).trans
      (List.map_id v.1))
    exact Nat.mod_eq_of_lt (v.2 x hx)
  · intro a ha k n m f hfile
    obtain ⟨rfl, rfl, rfl, rfl⟩ := filterToFile_stream ha hfile.stream
    rfl
  · intro a ha k n m f v shape columns hfile _ hshape hcolumns
    obtain ⟨rfl, rfl, rfl, rfl⟩ := filterToFile_stream ha hfile.stream
    obtain rfl : shape = ⟨1, [], 1⟩ := Except.ok.inj (hshape.symm.trans rfl)
    obtain rfl : columns = [(.kInteger, 1)] :=
      Except.ok.inj (hcolumns.symm.trans rfl)
    exact ⟨numberTable v, rfl, (words_numberTable v).trans (hwhole v).symm⟩
  · intro a ha k n m f hfile
    obtain ⟨rfl, rfl, rfl, rfl⟩ := filterToFile_stream ha hfile.stream
    rfl

end Orkhestra.Ports.FileHandOver
