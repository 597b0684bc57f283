import Orkhestra.Ports.Accelerator

/-!
# What a plan computes

The streams of a plan carry values, whatever runs the plan is cut into: an input
without a producer carries what its file is read as, an input with a producer
carries what that output carries, and the outputs of a node carry what its
module makes of its inputs.  `Carries p v` is the least such relation.

A stream has one value when the rows of the files that are read are full
(`Carries.unique`); other rows leave cells of a block as they were.
-/

namespace Orkhestra.Ports.PlanMeaning

open Orkhestra.Verified.Checked
open Orkhestra.Verified.Rows
open Orkhestra.Ports.QuerySchedulingData
open Orkhestra.Ports.CSVReader
open Orkhestra.Ports.TableLoaders
open Orkhestra.Ports.IDManager (Port)
open Orkhestra.Ports.TableManager
open Orkhestra.Ports.Accelerator

/-! ## Shapes -/

section Shapes

variable (c : Conversions) (P : Plan)

def streamShape (parameters : List (List Int)) (i : Nat) (recordSize : Int) :
    StreamShape :=
  ⟨recordSize,
    parameters[i * kStreamParamCount + kProjectionOffset]?.getD [],
    (parameters[i * kStreamParamCount + kChunkCountOffset]?.getD []).headD (-1)⟩

def outputRecordSize (n : NodeId) (k : Nat) : Outcome Int := do
  let columns ← getColumnDefsVector c
    (P.heap n).operationParameters.outputStreamParameters k
  .ok (recordSize columns)

/-- An input has the record size of the output that feeds it. -/
def inputRecordSize (n : NodeId) (m : Nat) : Outcome Int :=
  match (P.heap n).previousNodes[m]? with
  | some (some a) =>
      outputRecordSize c P a ((P.heap a).nextNodes.idxOf (some n))
  | _ => do
      let columns ← getColumnDefsVector c
        (P.heap n).operationParameters.inputStreamParameters m
      .ok (recordSize columns)

def outputShape (n : NodeId) (k : Nat) : Outcome StreamShape := do
  let size ← outputRecordSize c P n k
  .ok (streamShape (P.heap n).operationParameters.outputStreamParameters k size)

def inputShape (n : NodeId) (m : Nat) : Outcome StreamShape := do
  let size ← inputRecordSize c P n m
  .ok (streamShape (P.heap n).operationParameters.inputStreamParameters m size)

def outputShapes (n : NodeId) : Outcome (List StreamShape) :=
  (List.range (P.heap n).nextNodes.length).mapM (outputShape c P n)

def inputShapes (n : NodeId) : Outcome (List StreamShape) :=
  (List.range (P.heap n).previousNodes.length).mapM (inputShape c P n)

end Shapes

/-! ## Files -/

/-- The file has been loaded into a block, which now has these contents. -/
def Loads (c : Conversions) (parameters : List (List Int)) (i : Nat)
    (filename : String) (file : File) (size count : Int)
    (contents : MemoryBlock) : Prop :=
  ∃ columns before, ∃ rows : Nat, getColumnDefsVector c parameters i = .ok columns ∧
    size = recordSize columns ∧ count = rows ∧
    writeDataFromCSVToMemory c.manager c.hundredths filename file columns
      before = .ok (rows, contents)

/-- The words that are read from a block which the file has been loaded into. -/
def LoadsWords (c : Conversions) (parameters : List (List Int)) (i : Nat)
    (filename : String) (file : File) (size count : Int) (words : List Nat) :
    Prop :=
  ∃ contents, Loads c parameters i filename file size count contents ∧
    readWords contents (count * size) = .ok words

/-- All rows of the file fill the record of the stream. -/
def RowsFull (c : Conversions) (parameters : List (List Int)) (i : Nat)
    (file : File) : Prop :=
  ∀ columns, getColumnDefsVector c parameters i = .ok columns →
    ∀ line ∈ linesOf file,
      ((lineWords c.hundredths c.manager.separator columns line).length : Int) =
        recordSize columns

/-- A file with full rows is read in one way. -/
theorem LoadsWords.eq {c : Conversions} {parameters : List (List Int)} {i : Nat}
    {filename : String} {file : File} {size count : Int} {words : List Nat}
    (hfull : RowsFull c parameters i file)
    (h : LoadsWords c parameters i filename file size count words) :
    ∃ columns, getColumnDefsVector c parameters i = .ok columns ∧
      size = recordSize columns ∧ count = (linesOf file).length ∧
      words = ((linesOf file).map
        (lineWords c.hundredths c.manager.separator columns)).flatten := by
  obtain ⟨contents, ⟨columns, before, rows, hcolumns, rfl, rfl, hload⟩, hread⟩ :=
    h
  refine ⟨columns, hcolumns, rfl, ?_⟩
  have hrows := hfull columns hcolumns
  unfold writeDataFromCSVToMemory writeTableFromFileToMemory at hload
  cases file with
  | none => cases hload
  | some content =>
      simp only at hload
      split at hload
      · simp only [bind_eq_ok, Except.ok.injEq, Prod.mk.injEq] at hload
        obtain ⟨⟨cells, rowCounter⟩, hlines, rfl, rfl⟩ := hload
        have hcount := (writeLines_accepted hlines).2
        rw [Nat.zero_add] at hcount
        dsimp only at hcount hread
        subst hcount
        refine ⟨rfl, ?_⟩
        obtain ⟨hnonneg, -, rfl⟩ := readWords_eq_ok.mp hread
        by_cases hnone : linesOf (some content) = []
        · simp [hnone]
        · -- The record size is the length of a row.
          obtain ⟨line, hline⟩ := List.exists_mem_of_ne_nil _ hnone
          have hstride := hrows line hline
          generalize hlength : (lineWords c.hundredths c.manager.separator columns
            line).length = stride at hstride
          have hfullRows : ∀ line ∈ linesOf (some content),
              (lineWords c.hundredths c.manager.separator columns line).length =
                stride := by
            intro line hline
            have := hrows line hline
            omega
          obtain ⟨rest, rfl⟩ := writeLines_front hstride.symm hfullRows hlines
          have htake : (((linesOf (some content)).length : Int) *
              recordSize columns).toNat = ((linesOf (some content)).map
                (lineWords c.hundredths c.manager.separator
                  columns)).flatten.length := by
            rw [length_flatten_of_forall (List.forall_mem_map.mpr hfullRows),
              List.length_map, ← hstride,
              ← Int.natCast_mul, Int.toNat_natCast]
          rw [htake, List.take_left]
      · cases hload

/-! ## Values -/

section Values

variable {V : Type} (c : Conversions) (acc : Accelerator V) (P : Plan)
  (files : String → File)

inductive Carries : Port → V → Prop where
  | read (n : NodeId) (m : Nat) (filename : String) (shape : StreamShape)
      (count : Int) (words : List Nat) : n ∈ P.nodes →
      (P.heap n).previousNodes[m]? = some none →
      (P.heap n).inputDataDefinitionFiles[m]? = some filename →
      inputShape c P n m = .ok shape →
      LoadsWords c (P.heap n).operationParameters.inputStreamParameters m
        filename (files filename) shape.recordSize count words →
      Carries (.input n m) (acc.fetch (P.heap n).operationType
        (P.heap n).operationParameters.operationParameters shape count words)
  | handed (a : NodeId) (k : Nat) (n : NodeId) (m : Nat) (v : V) :
      a ∈ P.nodes → Stream P.heap a k n m → Carries (.output a k) v →
      Carries (.input n m) v
  | computed (n : NodeId) (k : Nat) (ins outs : List StreamShape)
      (values : List V) : n ∈ P.nodes →
      (P.heap n).operationType ≠ .kPassThrough →
      k < (P.heap n).nextNodes.length → inputShapes c P n = .ok ins →
      outputShapes c P n = .ok outs →
      values.length = (P.heap n).previousNodes.length →
      (∀ (m : Nat) v, values[m]? = some v → Carries (.input n m) v) →
      Carries (.output n k) (acc.kernel (P.heap n).operationType
        (P.heap n).operationParameters.operationParameters ins outs values k)
  | passed (n : NodeId) (i : Nat) (v : V) : n ∈ P.nodes →
      (P.heap n).operationType = .kPassThrough →
      i < (P.heap n).nextNodes.length → Carries (.input n i) v →
      Carries (.output n i) v

variable {c acc P files}

/-- Each stream has one value. -/
theorem Carries.unique (hsingle : P.SingleEdges)
    (hfull : ∀ n ∈ P.nodes, ∀ (m : Nat) filename,
      (P.heap n).previousNodes[m]? = some none →
      (P.heap n).inputDataDefinitionFiles[m]? = some filename →
      RowsFull c (P.heap n).operationParameters.inputStreamParameters m
        (files filename)) {p : Port} {v v' : V}
    (h : Carries c acc P files p v) (h' : Carries c acc P files p v') :
    v = v' := by
  induction h generalizing v' with
  | read n m filename shape count words hn hm hfile hshape hload =>
      cases h' with
      | read _ _ filename' shape' count' words' _ _ hfile' hshape' hload' =>
          rw [hfile, Option.some.injEq] at hfile'
          rw [hshape, Except.ok.injEq] at hshape'
          subst hfile' hshape'
          have hrows := hfull n hn m filename hm hfile
          obtain ⟨columns, hcolumns, -, rfl, rfl⟩ := hload.eq hrows
          obtain ⟨columns', hcolumns', -, rfl, rfl⟩ := hload'.eq hrows
          rw [hcolumns, Except.ok.injEq] at hcolumns'
          rw [hcolumns']
      | handed a k _ _ _ _ hstream _ =>
          rw [hstream.2] at hm
          cases hm
  | handed a k n m v ha hstream _ ih =>
      cases h' with
      | read _ _ _ _ _ _ _ hm =>
          rw [hstream.2] at hm
          cases hm
      | handed a' k' _ _ _ ha' hstream' hv' =>
          have heq := hstream.2
          rw [hstream'.2, Option.some.injEq, Option.some.injEq] at heq
          subst heq
          obtain rfl := (hsingle a' ha).1.index_unique hstream.1 hstream'.1
          exact ih hv'
  | computed n k ins outs values hn hop hk hins houts hlength _ ih =>
      cases h' with
      | computed _ _ ins' outs' values' _ _ _ hins' houts' hlength' hvalues' =>
          rw [hins, Except.ok.injEq] at hins'
          rw [houts, Except.ok.injEq] at houts'
          subst hins' houts'
          have hvalues : values = values' := by
            refine List.ext_getElem (hlength.trans hlength'.symm) ?_
            intro m hm hm'
            exact ih m _ (List.getElem?_eq_getElem hm)
              (hvalues' m _ (List.getElem?_eq_getElem hm'))
          rw [hvalues]
      | passed _ _ _ _ hop' => exact absurd hop' hop
  | passed n i v hn hop hi _ ih =>
      cases h' with
      | computed _ _ _ _ _ _ hop' => exact absurd hop hop'
      | passed _ _ _ _ _ _ hv' => exact ih hv'

end Values

/-! ## Texts -/

/-- The text that is written for output `k` of `n` when it carries `v`. -/
def TextOf {V : Type} (c : Conversions) (acc : Accelerator V) (P : Plan)
    (n : NodeId) (k : Nat) (v : V) (text : List Char) : Prop :=
  ∃ columns shape filename, getColumnDefsVector c
      (P.heap n).operationParameters.outputStreamParameters k = .ok columns ∧
    outputShape c P n k = .ok shape ∧
    RowTexts.writeTableData c.manager c.decimals filename true
      ⟨columns, acc.deposit shape v⟩ = .ok text

/-- Texts do not depend on the name of the file. -/
theorem TextOf.unique {V : Type} {c : Conversions} {acc : Accelerator V}
    {P : Plan} {n : NodeId} {k : Nat} {v : V} {text text' : List Char}
    (h : TextOf c acc P n k v text) (h' : TextOf c acc P n k v text') :
    text = text' := by
  obtain ⟨columns, shape, filename, hcolumns, hshape, hwrite⟩ := h
  obtain ⟨columns', shape', filename', hcolumns', hshape', hwrite'⟩ := h'
  rw [hcolumns, Except.ok.injEq] at hcolumns'
  rw [hshape, Except.ok.injEq] at hshape'
  subst hcolumns' hshape'
  simp only [RowTexts.writeTableData, bind_eq_ok, if_true, Except.ok.injEq]
    at hwrite hwrite'
  obtain ⟨rows, hrows, rfl⟩ := hwrite
  obtain ⟨rows', hrows', rfl⟩ := hwrite'
  rw [hrows, Except.ok.injEq] at hrows'
  rw [hrows']

end Orkhestra.Ports.PlanMeaning
