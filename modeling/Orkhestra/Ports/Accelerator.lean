import Orkhestra.Ports.TableManager
import Orkhestra.Verified.LaneMachine

/-!
# The accelerator

What the query manager relies on when it runs a set of accelerated nodes.  The
hardware is not part of the program, so what its modules compute (`kernel`) and
how its DMA engine lays out records (`fetch`, `deposit`) are parameters; the
order in which they act on streams and blocks is `runQueryAcceleration`.

The streams that have an address are read from memory first.  Then the modules
of the bitstream work on the streams in the order of their positions, each with
the node that was last set up for its position; a position without a node lets
all streams pass.  At the end the output streams that have an address are
written to memory, and the records of each are counted under its id.
-/

namespace Orkhestra.Ports.Accelerator

open Orkhestra.Verified.Checked
open Orkhestra.Verified.Rows
open Orkhestra.Verified.LaneMachine
open Orkhestra.Ports.QuerySchedulingData
open Orkhestra.Ports.CSVReader
open Orkhestra.Ports.QueryManager
open Orkhestra.Ports.TableManager (Storage readWords)

/-! ## Parameters -/

/-- What a module is told about one of its streams. -/
structure StreamShape where
  recordSize : Int
  specification : List Int
  chunksPerRecord : Int
  deriving DecidableEq, Repr

def shapeOf (stream : StreamDataParameters) : StreamShape :=
  ⟨stream.streamRecordSize, stream.streamSpecification,
    stream.inputChunksPerRecord⟩

/-- The accelerator; `V` is what a stream carries.  Records are written whole. -/
structure Accelerator (V : Type) where
  /-- The stream that is read from the words of some number of records. -/
  fetch : QueryOperationType → List (List Int) → StreamShape → Int →
    List Nat → V
  /-- Output `k` of a module, from its inputs. -/
  kernel : QueryOperationType → List (List Int) → List StreamShape →
    List StreamShape → List V → Nat → V
  deposit : StreamShape → V → List Nat
  recordCount : StreamShape → V → Int
  whole : ∀ shape v,
    ((deposit shape v).length : Int) = recordCount shape v * shape.recordSize

/-- A stream in memory, with the node that it belongs to. -/
structure MemoryStream where
  node : AcceleratedQueryNode
  stream : StreamDataParameters
  block : Block
  deriving DecidableEq

/-- Streams that have an address. -/
def memoryStreams (streams : AcceleratedQueryNode → List StreamDataParameters)
    (nodes : List AcceleratedQueryNode) : List MemoryStream :=
  nodes.flatMap fun node => (streams node).filterMap fun stream =>
    stream.physicalAddress.map fun block => ⟨node, stream, block⟩

def memoryInputs (nodes : List AcceleratedQueryNode) : List MemoryStream :=
  memoryStreams (·.inputStreams) nodes

def memoryOutputs (nodes : List AcceleratedQueryNode) : List MemoryStream :=
  memoryStreams (·.outputStreams) nodes

theorem mem_memoryStreams
    {streams : AcceleratedQueryNode → List StreamDataParameters}
    {nodes : List AcceleratedQueryNode} {x : MemoryStream} :
    x ∈ memoryStreams streams nodes ↔
      x.node ∈ nodes ∧ x.stream ∈ streams x.node ∧
        x.stream.physicalAddress = some x.block := by
  simp only [memoryStreams, List.mem_flatMap, List.mem_filterMap,
    Option.map_eq_some_iff]
  constructor
  · rintro ⟨node, hnode, stream, hstream, block, hblock, rfl⟩
    exact ⟨hnode, hstream, hblock⟩
  · rintro ⟨hnode, hstream, hblock⟩
    exact ⟨x.node, hnode, x.stream, hstream, x.block, hblock, rfl⟩

/-! ## A run -/

section Run

variable {V : Type} [Inhabited V] (acc : Accelerator V)

/-- Size of a table in words. -/
def tableSize (stream : StreamDataParameters) : Int :=
  stream.streamRecordCount * stream.streamRecordSize

def fetchStream (s : Storage) (x : MemoryStream) : Outcome (Nat × V) := do
  let words ← readWords (s.blocks x.block) (tableSize x.stream)
  .ok (x.stream.streamId, acc.fetch x.node.operationType
    x.node.operationParameters (shapeOf x.stream) x.stream.streamRecordCount
    words)

/-- The streams, by id, before the first module. -/
def inputStreams (nodes : List AcceleratedQueryNode) (s : Storage) :
    Outcome (Nat → V) := do
  let fetched ← (memoryInputs nodes).mapM (fetchStream acc s)
  .ok fun id => (fetched.lookup id).getD default

/-- The node that was last set up for position `i`. -/
def moduleAt (nodes : List AcceleratedQueryNode) (i : Nat) :
    Option AcceleratedQueryNode :=
  (nodes.filter fun node => node.operationType ≠ .kPassThrough ∧
    node.operationModuleLocation - 1 = (i : Int)).getLast?

def moduleStage (operation : QueryOperation) (node : AcceleratedQueryNode) :
    Stage Nat V where
  reads := node.inputStreams.map (·.streamId)
  writes := node.outputStreams.map (·.streamId)
  kernel := acc.kernel operation.operationType node.operationParameters
    (node.inputStreams.map shapeOf) (node.outputStreams.map shapeOf)

/-- The modules of a bitstream in the order of their positions. -/
def moduleStages (modules : ConfigurableModulesVector)
    (nodes : List AcceleratedQueryNode) : List (Stage Nat V) :=
  modules.zipIdx.filterMap fun operation =>
    (moduleAt nodes operation.2).map (moduleStage acc operation.1)

def storeStream (streams : Nat → V) (s : Storage) (x : MemoryStream) :
    Outcome Storage :=
  let words := acc.deposit (shapeOf x.stream) (streams x.stream.streamId)
  if words.length ≤ (s.blocks x.block).words.length then
    .ok (s.writeBlock x.block { s.blocks x.block with
      words := splice (s.blocks x.block).words 0 words })
  else .error .undefined

def streamSize (nodes : List AcceleratedQueryNode) (streams : Nat → V)
    (id : Nat) : Int :=
  match (memoryOutputs nodes).find? (·.stream.streamId = id) with
  | some x => acc.recordCount (shapeOf x.stream) (streams id)
  | none => 0

/-- `SetupQueryAcceleration` and `RunQueryAcceleration` with the bitstream of
`modules`. -/
def runQueryAcceleration (modules : ConfigurableModulesVector)
    (nodes : List AcceleratedQueryNode) (s : Storage) :
    Outcome (List Int × Storage) :=
  if memoryInputs nodes = [] ∨ memoryOutputs nodes = [] then
    .error (.runtimeError "Input or output streams missing!")
  else do
    let streams ← inputStreams acc nodes s
    let streams := (moduleStages acc modules nodes).foldl Stage.run streams
    let s ← (memoryOutputs nodes).foldlM (storeStream acc streams) s
    .ok ((List.range kMaxIOStreamCount).map (streamSize acc nodes streams), s)

end Run

/-! ## What a run does to memory -/

section Memory

variable {V : Type} {acc : Accelerator V}
  {nodes : List AcceleratedQueryNode} {s s' : Storage} {streams : Nat → V}

/-- The stream of an id that no other input has is the one that is fetched. -/
theorem inputStreams_eq [Inhabited V] (hrun : inputStreams acc nodes s = .ok streams)
    {x : MemoryStream} (hx : x ∈ memoryInputs nodes)
    (hunique : ∀ y ∈ memoryInputs nodes,
      y.stream.streamId = x.stream.streamId → y = x) :
    ∃ words, readWords (s.blocks x.block) (tableSize x.stream) = .ok words ∧
      streams x.stream.streamId = acc.fetch x.node.operationType
        x.node.operationParameters (shapeOf x.stream)
        x.stream.streamRecordCount words := by
  simp only [inputStreams, bind_eq_ok, Except.ok.injEq] at hrun
  obtain ⟨fetched, hfetched, rfl⟩ := hrun
  obtain ⟨hlength, hall⟩ := mapM_eq_ok_iff.mp hfetched
  obtain ⟨i, hi⟩ := List.mem_iff_getElem?.mp hx
  obtain ⟨entry, hentry, hfetch⟩ := hall i x hi
  simp only [fetchStream, bind_eq_ok, Except.ok.injEq] at hfetch
  obtain ⟨words, hwords, rfl⟩ := hfetch
  refine ⟨words, hwords, ?_⟩
  obtain ⟨v, hv⟩ := Option.isSome_iff_exists.mp (List.lookup_isSome_iff.mpr
    ⟨_, List.mem_of_getElem? hentry, beq_self_eq_true x.stream.streamId⟩)
  -- What is found has been fetched for the same stream.
  obtain ⟨before, after, hsplit, -⟩ := List.lookup_eq_some_iff.mp hv
  obtain ⟨j, hj⟩ := List.mem_iff_getElem?.mp
    (show (x.stream.streamId, v) ∈ fetched by simp [hsplit])
  have hlt : j < (memoryInputs nodes).length :=
    hlength ▸ (List.getElem?_eq_some_iff.mp hj).1
  obtain ⟨y, hy, hfetch⟩ := hall j _ (List.getElem?_eq_getElem hlt)
  rw [hj, Option.some.injEq] at hy
  subst hy
  simp only [fetchStream, bind_eq_ok, Except.ok.injEq, Prod.mk.injEq] at hfetch
  obtain ⟨words', hwords', hid, rfl⟩ := hfetch
  have heq := hunique _ (List.getElem_mem hlt) hid
  rw [heq, hwords, Except.ok.injEq] at hwords'
  simp only [hv, Option.getD_some, heq, hwords']

/-- Outputs in different blocks are written to their own blocks only. -/
structure Stored (acc : Accelerator V) (streams : Nat → V) (s : Storage)
    (done : List MemoryStream) (s' : Storage) : Prop where
  files : s'.files = s.files
  canOpen : s'.canOpen = s.canOpen
  written : ∀ x ∈ done,
    acc.deposit (shapeOf x.stream) (streams x.stream.streamId) <+:
      (s'.blocks x.block).words
  kept : ∀ b, (∀ x ∈ done, x.block ≠ b) → s'.blocks b = s.blocks b

theorem stored_of_run {xs : List MemoryStream}
    (hblocks : (xs.map (·.block)).Nodup)
    (hrun : xs.foldlM (storeStream acc streams) s = .ok s') :
    Stored acc streams s xs s' := by
  refine foldlM_invariant (Stored acc streams s) xs
    ⟨rfl, rfl, by simp, fun _ _ => rfl⟩ ?_ hrun
  intro before x after t t' hsplit ht hbody
  simp only [storeStream] at hbody
  split at hbody
  · next hfits =>
      simp only [Except.ok.injEq] at hbody
      subst hbody
      refine ⟨ht.files, ht.canOpen, ?_, ?_⟩
      · refine forall_mem_concat (fun y hy => ?_) ?_
        · have hne : y.block ≠ x.block := by
            intro heq
            rw [hsplit, List.map_append, List.nodup_append] at hblocks
            exact hblocks.2.2 _ (List.mem_map_of_mem hy) _ (by simp) heq
          rw [Storage.writeBlock_of_ne _ hne]
          exact ht.written y hy
        · rw [Storage.writeBlock_same, splice, List.take_zero, List.nil_append]
          exact List.prefix_append _ _
      · intro b hb
        rw [Storage.writeBlock_of_ne _ (hb x (by simp)).symm]
        exact ht.kept b fun y hy => hb y (by simp [hy])
  · cases hbody

/-- The records of an output with an id of its own are counted. -/
theorem streamSize_eq {x : MemoryStream} (hx : x ∈ memoryOutputs nodes)
    (hunique : ∀ y ∈ memoryOutputs nodes,
      y.stream.streamId = x.stream.streamId → y = x) :
    streamSize acc nodes streams x.stream.streamId =
      acc.recordCount (shapeOf x.stream) (streams x.stream.streamId) := by
  have hsome : ((memoryOutputs nodes).find? fun y : MemoryStream =>
      decide (y.stream.streamId = x.stream.streamId)).isSome :=
    List.find?_isSome.mpr ⟨x, hx, decide_eq_true rfl⟩
  obtain ⟨y, hy⟩ := Option.isSome_iff_exists.mp hsome
  have hid : y.stream.streamId = x.stream.streamId := by
    simpa using List.find?_some hy
  rw [streamSize, hy, ← hunique y (List.mem_of_find?_eq_some hy) hid]

end Memory

end Orkhestra.Ports.Accelerator
