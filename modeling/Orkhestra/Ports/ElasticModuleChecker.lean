import Orkhestra.Ports.QueryManager

/-!
# The elastic module checker

`ElasticModuleChecker` and `QueryManager::IsRunValid`: the check between the
set-up of a run and its execution.  Only a merge sort can fail it: its module
must have room for all records of its one input stream.
-/

namespace Orkhestra.Ports.ElasticModuleChecker

open Orkhestra.Verified.Checked
open Orkhestra.Ports.QuerySchedulingData
open Orkhestra.Ports.QueryManager

def isMergeSortWithOneStream
    (inputStreamParameters : List StreamDataParameters)
    (operationParameters : List (List Int)) : Outcome Bool := do
  if inputStreamParameters.length = 1 ∧ operationParameters.length = 1 then do
    let moduleParameters ← checkedAt operationParameters 0
    .ok (moduleParameters.length = 2)
  else .ok false

def isMergeSortBigEnough (inputStreamParameters : List StreamDataParameters)
    (operationParameters : List (List Int)) : Outcome Bool := do
  let stream ← checkedAt inputStreamParameters 0
  let moduleParameters ← checkedAt operationParameters 0
  let maxChannelCount ← checkedAt moduleParameters 0
  let recordsPerChannel ← checkedAt moduleParameters 1
  .ok (stream.streamRecordCount ≤ maxChannelCount * recordsPerChannel)

def isMergeSortConfiguredCorrectly
    (inputStreamParameters : List StreamDataParameters)
    (operationParameters : List (List Int)) : Outcome Bool := do
  let withOneStream ←
    isMergeSortWithOneStream inputStreamParameters operationParameters
  if withOneStream then
    isMergeSortBigEnough inputStreamParameters operationParameters
  else .ok false

/-- `ElasticModuleChecker::IsRunValid`. -/
def isNodeValid (inputStreamParameters : List StreamDataParameters)
    (operationType : QueryOperationType)
    (operationParameters : List (List Int)) : Outcome Bool :=
  if operationType ≠ .kMergeSort then .ok true
  else isMergeSortConfiguredCorrectly inputStreamParameters operationParameters

/-- `QueryManager::IsRunValid`: the first node that is not valid decides. -/
def isRunValid : List AcceleratedQueryNode → Outcome Bool
  | [] => .ok true
  | node :: rest => do
      let valid ← isNodeValid node.inputStreams node.operationType
        node.operationParameters
      if valid then isRunValid rest else .ok false

/-! ## What is accepted -/

/-- One input stream and the two parameters of its module: the number of
channels and the records that each of them takes, enough for the stream. -/
def MergeSortFits (inputStreamParameters : List StreamDataParameters)
    (operationParameters : List (List Int)) : Prop :=
  ∃ stream maxChannelCount recordsPerChannel,
    inputStreamParameters = [stream] ∧
    operationParameters = [[maxChannelCount, recordsPerChannel]] ∧
    stream.streamRecordCount ≤ maxChannelCount * recordsPerChannel

theorem isMergeSortConfiguredCorrectly_total
    (streams : List StreamDataParameters) (params : List (List Int)) :
    ∃ valid, isMergeSortConfiguredCorrectly streams params = .ok valid ∧
      (valid = true ↔ MergeSortFits streams params) := by
  unfold isMergeSortConfiguredCorrectly isMergeSortWithOneStream MergeSortFits
  match streams, params with
  | [], _ => simp
  | _ :: _ :: _, _ => simp
  | [_], [] => simp
  | [_], _ :: _ :: _ => simp
  | [_], [[]] => simp [checkedAt]
  | [_], [[_]] => simp [checkedAt]
  | [_], [_ :: _ :: _ :: _] => simp [checkedAt]
  | [stream], [[count, size]] =>
      simp [checkedAt, isMergeSortBigEnough]

/-- The check of a node always returns, and only refuses a merge sort. -/
theorem isNodeValid_total (streams : List StreamDataParameters)
    (op : QueryOperationType) (params : List (List Int)) :
    ∃ valid, isNodeValid streams op params = .ok valid ∧
      (valid = true ↔ (op = .kMergeSort → MergeSortFits streams params)) := by
  unfold isNodeValid
  by_cases hop : op = .kMergeSort
  · obtain ⟨valid, hvalid, hiff⟩ :=
      isMergeSortConfiguredCorrectly_total streams params
    exact ⟨valid, by simp [hop, hvalid], by simp [hop, hiff]⟩
  · exact ⟨true, by simp [hop], by simp [hop]⟩

/-- The check of a run always returns, and accepts it when each of its merge
sorts fits. -/
theorem isRunValid_total (nodes : List AcceleratedQueryNode) :
    ∃ valid, isRunValid nodes = .ok valid ∧
      (valid = true ↔ ∀ node ∈ nodes, node.operationType = .kMergeSort →
        MergeSortFits node.inputStreams node.operationParameters) := by
  induction nodes with
  | nil => exact ⟨true, rfl, by simp⟩
  | cons node rest ih =>
      obtain ⟨valid, hvalid, hiff⟩ := isNodeValid_total node.inputStreams
        node.operationType node.operationParameters
      obtain ⟨validRest, hrest, hiffRest⟩ := ih
      rw [isRunValid, hvalid, ok_bind]
      cases valid with
      | true =>
          refine ⟨validRest, hrest, ?_⟩
          rw [hiffRest, List.forall_mem_cons]
          exact ⟨fun h => ⟨hiff.mp rfl, h⟩, fun h => h.2⟩
      | false =>
          refine ⟨false, rfl, ?_⟩
          rw [List.forall_mem_cons, ← hiff]
          simp

end Orkhestra.Ports.ElasticModuleChecker
