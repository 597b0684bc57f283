import Orkhestra.Ports.TableLoaders
import Orkhestra.Ports.DataToString

/-!
# Rows written to a file and read again

`WriteTableData` puts the separator between the texts of a row, and both loaders
cut a line at every separator.  Quotes mean nothing to them: a text that
contains the separator is cut although it is quoted.  Nothing is read behind a
separator at the end of a line, so that an empty last text is lost unless the
line ends with a carriage return.
-/

namespace Orkhestra.Ports.RowTexts

open Orkhestra.Verified.Checked
open Orkhestra.Ports.TypesConverter
open Orkhestra.Ports.DataToString
open Orkhestra.Ports.CSVReader
open Orkhestra.Ports.TableLoaders

/-! ## Writing -/

/-- The texts of a row with the separator before each one but the first. -/
def joinFields (separator : Char) : List (List Char) → List Char
  | [] => []
  | first :: fields => first ++ fields.flatMap fun field => separator :: field

/-- `canOpen` is whether the file can be opened; the result is its content. -/
def writeTableData (m : DataManager) (decimals : Decimals) (filename : String)
    (canOpen : Bool) (tableData : TableData) : Outcome (List Char) := do
  let stringDataVector ← addStringDataFromIntegerData decimals
    tableData.tableDataVector [] tableData.tableColumnLabelVector
  if canOpen then
    .ok (stringDataVector.flatMap fun line =>
      joinFields m.separator line ++ ['\n'])
  else .error (.runtimeError ("Can't open " ++ filename))

theorem joinFields_cons (separator : Char) (field : List Char)
    {fields : List (List Char)} (hne : fields ≠ []) :
    joinFields separator (field :: fields) =
      field ++ separator :: joinFields separator fields := by
  obtain ⟨next, rest, rfl⟩ := List.exists_cons_of_ne_nil hne
  rw [joinFields, joinFields, List.flatMap_cons, List.cons_append]

theorem mem_joinFields {separator c : Char} {fields : List (List Char)}
    (hc : c ∈ joinFields separator fields) :
    c = separator ∨ ∃ field ∈ fields, c ∈ field := by
  cases fields with
  | nil => cases hc
  | cons first fields =>
      rcases List.mem_append.mp hc with hc | hc
      · exact .inr ⟨first, List.mem_cons_self, hc⟩
      · obtain ⟨field, hfield, hc⟩ := List.mem_flatMap.mp hc
        rcases List.mem_cons.mp hc with hc | hc
        · exact .inl hc
        · exact .inr ⟨field, List.mem_cons_of_mem first hfield, hc⟩

/-! ## Cutting -/

section Cutting

variable {delimiter : Char}

theorem getlines_append_delimiter {field : List Char} (hfield : delimiter ∉ field)
    (text : List Char) :
    getlines delimiter (field ++ delimiter :: text) =
      field :: getlines delimiter text := by
  induction field with
  | nil => rw [List.nil_append, getlines, if_pos rfl]
  | cons c field ih =>
      rw [List.mem_cons, not_or] at hfield
      rw [List.cons_append, getlines, if_neg (Ne.symm hfield.1), ih hfield.2]

theorem getlines_of_not_mem {field : List Char} (hfield : delimiter ∉ field)
    (hne : field ≠ []) : getlines delimiter field = [field] := by
  induction field with
  | nil => exact absurd rfl hne
  | cons c field ih =>
      rw [List.mem_cons, not_or] at hfield
      rw [getlines, if_neg (Ne.symm hfield.1)]
      cases field with
      | nil => rfl
      | cons d field => rw [ih hfield.2 (List.cons_ne_nil d field)]

theorem not_mem_of_mem_getlines {text part : List Char}
    (hpart : part ∈ getlines delimiter text) : delimiter ∉ part := by
  induction text generalizing part with
  | nil => cases hpart
  | cons c text ih =>
      rw [getlines] at hpart
      split at hpart
      · next hc =>
          rcases List.mem_cons.mp hpart with rfl | hpart
          · exact List.not_mem_nil
          · exact ih hpart
      · next hc =>
          have hne : delimiter ≠ c := Ne.symm hc
          cases hlines : getlines delimiter text with
          | nil =>
              rw [hlines] at hpart
              rw [List.mem_singleton.mp hpart, List.mem_singleton]
              exact hne
          | cons line lines =>
              rw [hlines] at hpart ih
              rcases List.mem_cons.mp hpart with rfl | hpart
              · rw [List.mem_cons, not_or]
                exact ⟨hne, ih List.mem_cons_self⟩
              · exact ih (List.mem_cons_of_mem line hpart)

/-- The lines of a file that ends with a newline. -/
theorem linesOf_flatMap {lines : List (List Char)}
    (hlines : ∀ line ∈ lines, '\n' ∉ line) :
    linesOf (some (lines.flatMap fun line => line ++ ['\n'])) = lines := by
  rw [linesOf, Option.getD_some]
  induction lines with
  | nil => rfl
  | cons line lines ih =>
      rw [List.flatMap_cons, List.append_assoc, List.singleton_append,
        getlines_append_delimiter (hlines line List.mem_cons_self),
        ih fun l hl => hlines l (List.mem_cons_of_mem line hl)]

/-- Texts without the separator are found again, the last one together with the
end of the line and only if anything is left of the two. -/
theorem getlines_joinFields {fields : List (List Char)} {last ending : List Char}
    (hfields : ∀ field ∈ fields, delimiter ∉ field) (hlast : delimiter ∉ last)
    (hending : delimiter ∉ ending) :
    getlines delimiter (joinFields delimiter (fields ++ [last]) ++ ending) =
      fields ++ if last ++ ending = [] then [] else [last ++ ending] := by
  induction fields with
  | nil =>
      rw [List.nil_append, List.nil_append, joinFields, List.flatMap_nil,
        List.append_nil]
      split
      · next hempty => rw [hempty]; rfl
      · next hne =>
          refine getlines_of_not_mem ?_ hne
          rw [List.mem_append, not_or]
          exact ⟨hlast, hending⟩
  | cons field fields ih =>
      rw [List.cons_append, joinFields_cons _ _ (by simp), List.append_assoc,
        List.cons_append,
        getlines_append_delimiter (hfields field List.mem_cons_self),
        ih fun f hf => hfields f (List.mem_cons_of_mem field hf),
        List.cons_append]

end Cutting

/-! ## Carriage returns -/

theorem eraseCarriageReturn_of_not_mem {token : List Char} (h : '\r' ∉ token) :
    eraseCarriageReturn token = token := by
  refine if_neg fun hlast => ?_
  exact h (List.mem_of_getLast? hlast)

theorem mem_of_mem_eraseCarriageReturn {token : List Char} {c : Char}
    (hc : c ∈ eraseCarriageReturn token) : c ∈ token := by
  unfold eraseCarriageReturn at hc
  split at hc
  · exact List.mem_of_mem_dropLast hc
  · exact hc

/-- What is in front of the newline: nothing or a carriage return. -/
inductive LineEnding where
  | lf
  | crlf
  deriving DecidableEq, Repr

def LineEnding.text : LineEnding → List Char
  | .lf => []
  | .crlf => ['\r']

theorem eraseCarriageReturn_append {token : List Char} (h : '\r' ∉ token)
    (ending : LineEnding) : eraseCarriageReturn (token ++ ending.text) = token := by
  cases ending with
  | lf =>
      rw [LineEnding.text, List.append_nil]
      exact eraseCarriageReturn_of_not_mem h
  | crlf =>
      rw [LineEnding.text, eraseCarriageReturn, List.getLast?_concat, if_pos rfl,
        List.dropLast_concat]

/-! ## Rows -/

section Rows

variable {separator : Char}

theorem not_mem_ending (hseparator : separator ≠ '\r') (ending : LineEnding) :
    separator ∉ ending.text := by
  cases ending with
  | lf => exact List.not_mem_nil
  | crlf => rwa [LineEnding.text, List.mem_singleton]

/-- Texts without the separator, the last one set apart. -/
theorem tokens_joinFields {fields : List (List Char)} {last : List Char}
    {ending : LineEnding} (hseparator : separator ≠ '\r')
    (hfields : ∀ field ∈ fields ++ [last], separator ∉ field)
    (hreturn : ∀ field ∈ fields ++ [last], '\r' ∉ field) :
    tokens separator (joinFields separator (fields ++ [last]) ++ ending.text) =
      fields ++ if last ++ ending.text = [] then [] else [last] := by
  have hlast : last ∈ fields ++ [last] := by simp
  have herase : fields.map eraseCarriageReturn = fields := by
    refine (List.map_congr_left fun field hfield => ?_).trans (List.map_id fields)
    exact eraseCarriageReturn_of_not_mem
      (hreturn field (List.mem_append_left _ hfield))
  rw [tokens, getlines_joinFields
      (fun field hfield => hfields field (List.mem_append_left _ hfield))
      (hfields last hlast) (not_mem_ending hseparator ending),
    List.map_append, herase]
  split
  · rfl
  · rw [List.map_singleton, eraseCarriageReturn_append (hreturn last hlast)]

/-- A row comes back from its line exactly when no text contains the separator
and the last text does not vanish. -/
theorem tokens_joinFields_iff {fields : List (List Char)} {ending : LineEnding}
    (hseparator : separator ≠ '\r') (hne : fields ≠ [])
    (hreturn : ∀ field ∈ fields, '\r' ∉ field) :
    tokens separator (joinFields separator fields ++ ending.text) = fields ↔
      (∀ field ∈ fields, separator ∉ field) ∧
        (ending = .lf → fields.getLast? ≠ some []) := by
  obtain ⟨init, last, rfl⟩ : ∃ init last, fields = init ++ [last] :=
    ⟨_, _, (List.dropLast_append_getLast hne).symm⟩
  have hempty : last ++ ending.text = [] ↔ ending = .lf ∧ last = [] := by
    cases ending <;> simp [LineEnding.text]
  have hgetLast : (init ++ [last]).getLast? = some [] ↔ last = [] := by
    rw [List.getLast?_concat, Option.some.injEq]
  rw [ne_eq, hgetLast, ← not_and, ← hempty]
  constructor
  · intro heq
    have hfields : ∀ field ∈ init ++ [last], separator ∉ field := by
      intro field hfield hmem
      rw [← heq, tokens] at hfield
      obtain ⟨part, hpart, rfl⟩ := List.mem_map.mp hfield
      exact not_mem_of_mem_getlines hpart (mem_of_mem_eraseCarriageReturn hmem)
    refine ⟨hfields, fun hvanish => ?_⟩
    rw [tokens_joinFields hseparator hfields hreturn, if_pos hvanish] at heq
    have hlength := congrArg List.length heq
    rw [List.length_append, List.length_append] at hlength
    exact Nat.zero_ne_one (Nat.add_left_cancel hlength)
  · rintro ⟨hfields, hlast⟩
    rw [tokens_joinFields hseparator hfields hreturn, if_neg hlast]

theorem newline_not_mem_row {fields : List (List Char)} {ending : LineEnding}
    (hseparator : separator ≠ '\n') (hnewline : ∀ field ∈ fields, '\n' ∉ field) :
    '\n' ∉ joinFields separator fields ++ ending.text := by
  rw [List.mem_append, not_or]
  refine ⟨fun hmem => ?_, not_mem_ending (by decide) ending⟩
  rcases mem_joinFields hmem with h | ⟨field, hfield, h⟩
  · exact hseparator h.symm
  · exact hnewline field hfield h

/-- The file of a row. -/
def rowFile (separator : Char) (fields : List (List Char))
    (ending : LineEnding) : File :=
  some (joinFields separator fields ++ ending.text ++ ['\n'])

/-- Both loops find the texts of the row: `ReadTableData`, and the loop of
`WriteTableFromFileToMemory`, which converts the tokens of each line. -/
def RowSurvives (separator : Char) (fields : List (List Char))
    (ending : LineEnding) : Prop :=
  (readTableData (rowFile separator fields ending) separator 0).1 = [fields] ∧
    (linesOf (rowFile separator fields ending)).map (tokens separator) = [fields]

theorem rowSurvives_iff {fields : List (List Char)} {ending : LineEnding}
    (hnewline : separator ≠ '\n') (hreturn : separator ≠ '\r')
    (hne : fields ≠ [])
    (hfields : ∀ field ∈ fields, '\n' ∉ field ∧ '\r' ∉ field) :
    RowSurvives separator fields ending ↔
      (∀ field ∈ fields, separator ∉ field) ∧
        (ending = .lf → fields.getLast? ≠ some []) := by
  have hlines : linesOf (rowFile separator fields ending) =
      [joinFields separator fields ++ ending.text] := by
    have hrow : ∀ line ∈ [joinFields separator fields ++ ending.text],
        '\n' ∉ line :=
      List.forall_mem_singleton.mpr
        (newline_not_mem_row hnewline fun field hfield =>
          (hfields field hfield).1)
    have h := linesOf_flatMap hrow
    rwa [List.flatMap_singleton] at h
  have hread : (readTableData (rowFile separator fields ending) separator 0).1 =
      [tokens separator (joinFields separator fields ++ ending.text)] := by
    have hone : 1 ≤ maxRows.toNat := by decide
    rw [readTableData_eq, hlines, List.take_of_length_le hone, List.map_singleton]
  rw [RowSurvives, hread, hlines, List.map_singleton, List.singleton_inj, and_self,
    tokens_joinFields_iff hreturn hne fun field hfield => (hfields field hfield).2]

/-- An empty text at the end of a line with a carriage return. -/
theorem rowSurvives_iff_at_empty_last :
    RowSurvives ',' ["a".toList, []] .crlf ↔
      (∀ field ∈ ["a".toList, []], ',' ∉ field) ∧
        (LineEnding.crlf = .lf → ["a".toList, []].getLast? ≠ some []) :=
  rowSurvives_iff (by decide) (by decide) (by decide) (by decide)

/-- A quoted text with the separator, and an empty text at the end. -/
theorem rows_do_not_survive :
    ¬RowSurvives ',' ["\"a,b\"".toList] .lf ∧
      ¬RowSurvives ',' ["a".toList, []] .lf := by
  constructor
  · rintro ⟨-, hlines⟩
    exact absurd hlines (by decide)
  · rintro ⟨-, hlines⟩
    exact absurd hlines (by decide)

end Rows

end Orkhestra.Ports.RowTexts
