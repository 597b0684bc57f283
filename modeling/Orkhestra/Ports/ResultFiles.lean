import Orkhestra.Ports.DataPath
import Orkhestra.Ports.MemoryRelease

/-!
# Results in files

What processing the results of a run does to the storage: each result with a
file that is not checked is written to it, no block changes, and freeing the run
changes neither when every output is handed to one input.
-/

namespace Orkhestra.Ports.ResultFiles

open Orkhestra.Verified.Checked
open Orkhestra.Verified.VectorMap
open Orkhestra.Ports.NodeScheduler
open Orkhestra.Ports.CSVReader (recordSize)
open Orkhestra.Ports.QueryManager
open Orkhestra.Ports.RowTexts
open Orkhestra.Ports.MemoryRelease
open Orkhestra.Ports.StreamLanes
open Orkhestra.Ports.TableManager

/-! ## Processing -/

section Process

variable {c : Conversions} {resultSizes : List Int} {blocks : BlockMap}
  {sizes sizes' : SizeMap} {s s' : Storage}

/-- The result is written to its file. -/
def ToFile (p : StreamResultParameters) : Prop :=
  p.filename ≠ "" ∧ p.checkResults = false

/-- The text of a result: the records that have been counted, from the block of
the output. -/
def Produces (c : Conversions) (resultSizes : List Int) (blocks : BlockMap)
    (s : Storage) (filed : String × StreamResultParameters)
    (text : List Char) : Prop :=
  ∃ count block columns words, resultSizes[filed.2.outputId]? = some count ∧
    entry blocks filed.1 filed.2.streamIndex = some (some block) ∧
    TableManager.getColumnDefsVector c filed.2.streamSpecifications
      filed.2.streamIndex = .ok columns ∧
    readWords (s.blocks block) (count * recordSize columns) = .ok words ∧
    writeTableData c.manager c.decimals filed.2.filename true
      ⟨columns, words⟩ = .ok text

/-- The results `done` are processed. -/
structure Filed (c : Conversions) (resultSizes : List Int) (blocks : BlockMap)
    (s : Storage) (done : List (String × StreamResultParameters))
    (s' : Storage) : Prop where
  sameBlocks : s'.blocks = s.blocks
  sameOpen : s'.canOpen = s.canOpen
  written : ∀ filed ∈ done, ToFile filed.2 →
    (∀ other ∈ done, ToFile other.2 →
      other.2.filename = filed.2.filename → other = filed) →
    ∃ text, Produces c resultSizes blocks s filed text ∧
      s'.files filed.2.filename = some text
  kept : ∀ filename, (∀ filed ∈ done, ToFile filed.2 →
      filed.2.filename ≠ filename) → s'.files filename = s.files filename

/-- What one result does to the storage. -/
theorem processResult_storage {filed : String × StreamResultParameters}
    (hrun : DataPath.processResult c resultSizes blocks filed.1 (sizes, s)
      filed.2 = .ok (sizes', s')) :
    ¬ToFile filed.2 ∧ s' = s ∨
    ToFile filed.2 ∧ ∃ text, Produces c resultSizes blocks s filed text ∧
      s' = s.writeFile filed.2.filename text := by
  simp only [DataPath.processResult, bind_eq_ok, checkedAt_eq_ok] at hrun
  obtain ⟨count, hcount, size, -, sizes'', -, hrun⟩ := hrun
  split at hrun
  · next hfile =>
      simp only [bind_eq_ok, readAt_eq_ok] at hrun
      obtain ⟨row, hrow, block, hblock, hrun⟩ := hrun
      split at hrun
      · next hchecked =>
          simp only [bind_eq_ok, Except.ok.injEq, Prod.mk.injEq] at hrun
          obtain ⟨-, -, -, rfl⟩ := hrun
          refine .inl ⟨fun h => ?_, rfl⟩
          rw [h.2] at hchecked
          cases hchecked
      · next hchecked =>
          simp only [bind_eq_ok, Except.ok.injEq, Prod.mk.injEq] at hrun
          obtain ⟨storage, hwrite, -, rfl⟩ := hrun
          refine .inr ⟨⟨hfile, by simpa using hchecked⟩, ?_⟩
          simp only [TableManager.writeResults, readTableFromMemory, bind_eq_ok,
            Except.ok.injEq] at hwrite
          obtain ⟨contents, hdevice, table, ⟨columns, hcolumns, words, hwords,
            rfl⟩, text, htext, rfl⟩ := hwrite
          cases block with
          | none => cases hdevice
          | some block =>
              obtain rfl := Except.ok.inj hdevice
              refine ⟨text, ⟨count, block, columns, words, hcount, ?_, hcolumns,
                hwords, ?_⟩, rfl⟩
              · rw [entry, mapAt_eq_ok.mp hrow, Option.getD_some, hblock]
              · -- The file could be opened.
                cases hopen : s.canOpen filed.2.filename with
                | true => rwa [hopen] at htext
                | false =>
                    simp [writeTableData, hopen, bind_eq_ok] at htext
  · next hfile =>
      simp only [Except.ok.injEq, Prod.mk.injEq] at hrun
      exact .inl ⟨fun h => hfile h.1, hrun.2.symm⟩

/-- Both loops in one. -/
theorem processResults_eq (results : ResultMap) :
    DataPath.processResults c resultSizes results blocks sizes s =
      (filedResults results).foldlM (fun state filed =>
        DataPath.processResult c resultSizes blocks filed.1 state filed.2)
        (sizes, s) := by
  rw [DataPath.processResults, filedResults, foldlM_flatMap]
  simp only [List.foldlM_map]

theorem filed_of_run {results : ResultMap}
    (hrun : DataPath.processResults c resultSizes results blocks sizes s =
      .ok (sizes', s')) :
    Filed c resultSizes blocks s (filedResults results) s' := by
  rw [processResults_eq] at hrun
  refine foldlM_invariant (fun done (state : SizeMap × Storage) =>
    Filed c resultSizes blocks s done state.2) _
    ⟨rfl, rfl, by simp, fun _ _ => rfl⟩ ?_ hrun
  rintro before filed after ⟨sizes₁, s₁⟩ ⟨sizes₂, s₂⟩ - hs hbody
  rcases processResult_storage hbody with ⟨hnot, rfl⟩ | ⟨hto, text, htext, rfl⟩
  · refine ⟨hs.sameBlocks, hs.sameOpen, ?_, ?_⟩
    · refine forall_mem_concat (fun x hx hfile hunique => ?_)
        fun hfile _ => absurd hfile hnot
      exact hs.written x hx hfile fun other hother =>
        hunique other (List.mem_append_left _ hother)
    · exact fun filename hall =>
        hs.kept filename fun x hx => hall x (List.mem_append_left _ hx)
  · have htext' : Produces c resultSizes blocks s filed text := by
      obtain ⟨count, block, columns, words, hcount, hblock, hcolumns, hwords,
        hwrite⟩ := htext
      exact ⟨count, block, columns, words, hcount, hblock, hcolumns,
        hs.sameBlocks ▸ hwords, hwrite⟩
    refine ⟨hs.sameBlocks, hs.sameOpen, ?_, ?_⟩
    · refine forall_mem_concat (fun x hx hfile hunique => ?_) fun _ _ => ?_
      · by_cases hsame : filed.2.filename = x.2.filename
        · obtain rfl := hunique filed (by simp) hto hsame
          exact ⟨text, htext', s₁.writeFile_same _ _⟩
        · obtain ⟨text', hproduces, hfiles⟩ := hs.written x hx hfile
            fun other hother => hunique other (List.mem_append_left _ hother)
          refine ⟨text', hproduces, ?_⟩
          rw [s₁.writeFile_of_ne (Ne.symm hsame)]
          exact hfiles
      · exact ⟨text, htext', s₁.writeFile_same _ _⟩
    · intro filename hall
      rw [s₁.writeFile_of_ne (hall filed (by simp) hto).symm]
      exact hs.kept filename fun x hx => hall x (List.mem_append_left _ hx)

end Process

/-! ## Freeing -/

/-- Outputs that are handed over whole are not copied. -/
theorem freeMemoryBlocks_storage {r r' : RunData} {s s' : Storage}
    {links : LinkedNodes} {names : List String}
    (hone : ∀ x ∈ transfers links, ∃ target, x.2 = [target])
    (hrun : DataPath.freeMemoryBlocks r s links names = .ok (r', s')) :
    s' = s := by
  simp only [DataPath.freeMemoryBlocks, bind_eq_ok, Except.ok.injEq,
    Prod.mk.injEq] at hrun
  obtain ⟨⟨r₁, s₁⟩, hloop, rfl, rfl⟩ := hrun
  have hloop' : (transfers links).foldlM (fun state transfer =>
      DataPath.reuseOutput transfer.1.1 state (transfer.1.2, transfer.2))
      (names.foldl freeInputBlocks r, s) = .ok (r₁, s₁) := by
    rw [transfers, foldlM_flatMap]
    simp only [List.foldlM_map]
    exact hloop
  refine foldlM_invariant (fun _ (state : RunData × Storage) => state.2 = s) _
    rfl ?_ hloop'
  rintro before x after ⟨r₂, s₂⟩ ⟨r₃, s₃⟩ hsplit rfl hbody
  obtain ⟨target, htarget⟩ := hone x (by simp [hsplit])
  rw [htarget] at hbody
  simp only [DataPath.reuseOutput, bind_eq_ok, Except.ok.injEq,
    Prod.mk.injEq] at hbody
  obtain ⟨-, -, -, rfl⟩ := hbody
  rfl

end Orkhestra.Ports.ResultFiles
