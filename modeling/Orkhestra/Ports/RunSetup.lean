import Orkhestra.Ports.QueryManager
import Orkhestra.Verified.Ownership
import Orkhestra.Verified.VectorMap

/-!
# The set-up of a run

What `SetupAccelerationNodesForExecution` does to the blocks and sizes, entry by
entry: outputs without a consumer in the run and inputs without a producer in
the run are backed by a block, inputs with a producer in the run take over its
size, and nothing else changes.  Blocks are conserved throughout.
-/

namespace Orkhestra.Ports.RunSetup

open Orkhestra.Verified.Checked
open Orkhestra.Verified.Ownership
open Orkhestra.Verified.VectorMap
open Orkhestra.Ports.QuerySchedulingData
open Orkhestra.Ports.NodeScheduler
open Orkhestra.Ports.IDManager
open Orkhestra.Ports.QueryManager

/-! ## Places of blocks -/

/-- Where a block can be when it is not free. -/
inductive Slot where
  | input (name : String) (i : Nat)
  | output (name : String) (i : Nat)
  deriving DecidableEq, Repr

/-- Contents of a slot. -/
def holds (inputs outputs : BlockMap) : Slot → Option Block
  | .input name i => (entry inputs name i).join
  | .output name i => (entry outputs name i).join

/-- Every block that has been created is in exactly one place. -/
def BlocksConserved (inputs outputs : BlockMap) (m : MemoryManager) : Prop :=
  Conserved (holds inputs outputs) m.availableMemoryBlocks m.memoryBlockCount

theorem conserved_get {p : Slot → Option Block} {m m' : MemoryManager}
    {block : Block} {slot : Slot}
    (h : Conserved p m.availableMemoryBlocks m.memoryBlockCount)
    (hempty : p slot = none)
    (hrun : getAvailableMemoryBlock m = .ok (block, m')) :
    Conserved (Function.update p slot (some block)) m'.availableMemoryBlocks
      m'.memoryBlockCount := by
  unfold getAvailableMemoryBlock at hrun
  split at hrun
  · next hnil =>
      unfold allocateMemoryBlock at hrun
      split at hrun
      · cases hrun
      · rw [hnil] at h
        cases hrun
        rw [hnil]
        exact h.create.take hempty
  · next block' rest hcons =>
      rw [hcons] at h
      cases hrun
      exact h.take hempty

/-- Writing one entry of the vector of a name. -/
theorem join_entry_insert_set {m : BlockMap} {name : String}
    {blocks : List (Option Block)} {i : Nat} {block : Option Block}
    (hi : i < blocks.length) (name' : String) (j : Nat) :
    (entry (m.insert name (blocks.set i block)) name' j).join =
      if name' = name ∧ j = i then block
      else (entry (m.insert name blocks) name' j).join := by
  simp only [entry_insert]
  by_cases hname : name' = name
  · rw [if_pos hname, if_pos hname, List.getElem?_set]
    by_cases hj : i = j
    · rw [if_pos hj, if_pos hi, Option.join_some, if_pos ⟨hname, hj.symm⟩]
    · rw [if_neg hj, if_neg fun h => hj h.2.symm]
  · rw [if_neg hname, if_neg hname, if_neg fun h => hname h.1]

theorem holds_insert_output {inputs outputs : BlockMap} {name : String}
    {blocks : List (Option Block)} {i : Nat} {block : Option Block}
    (hi : i < blocks.length) :
    holds inputs (outputs.insert name (blocks.set i block)) =
      Function.update (holds inputs (outputs.insert name blocks))
        (.output name i) block := by
  funext slot
  cases slot with
  | input name' j => rw [Function.update_of_ne (by simp)]; rfl
  | output name' j =>
      rw [holds, join_entry_insert_set hi, Function.update_apply]
      simp only [Slot.output.injEq]
      rfl

theorem holds_insert_input {inputs outputs : BlockMap} {name : String}
    {blocks : List (Option Block)} {i : Nat} {block : Option Block}
    (hi : i < blocks.length) :
    holds (inputs.insert name (blocks.set i block)) outputs =
      Function.update (holds (inputs.insert name blocks) outputs)
        (.input name i) block := by
  funext slot
  cases slot with
  | output name' j => rw [Function.update_of_ne (by simp)]; rfl
  | input name' j =>
      rw [holds, join_entry_insert_set hi, Function.update_apply]
      simp only [Slot.input.injEq]
      rfl

/-- Writing back the vector of a name changes nothing. -/
theorem entry_reinsert {β : Type} (m : Std.TreeMap String (List β))
    (name name' : String) (i : Nat) :
    entry (m.insert name (m[name]?.getD [])) name' i = entry m name' i := by
  rw [entry_insert]
  split
  · next heq =>
      subst heq
      rfl
  · rfl

/-! ## Outputs of one node -/

section Outputs

variable {data : DataManager} {node : QueryNode} {s₀ s s' : StreamData}
  {i : Nat}

/-- Outputs before `i` have their blocks and record sizes. -/
structure OutputsBacked (data : DataManager) (node : QueryNode)
    (s₀ : StreamData) (i : Nat) (s : StreamData) : Prop where
  blocks_length : s.blocks.length = s₀.blocks.length
  sizes_length : s.sizes.length = s₀.sizes.length
  backed : ∀ k < i, node.nextNodes[k]? = some none →
    ∃ block, s.blocks[k]? = some (some block)
  blocks_kept : ∀ k, (k < i → node.nextNodes[k]? ≠ some none) →
    s.blocks[k]? = s₀.blocks[k]?
  sized : ∀ k < i, ∃ recordSize size,
    getRecordSizeFromParameters data
      node.operationParameters.outputStreamParameters k = .ok recordSize ∧
      s₀.sizes[k]? = some size ∧ s.sizes[k]? = some (recordSize, size.2)
  sizes_kept : ∀ k, i ≤ k → s.sizes[k]? = s₀.sizes[k]?
  conserved : ∀ (inputs outputs : BlockMap) name,
    BlocksConserved inputs (outputs.insert name s₀.blocks) s₀.memory →
    (∀ k : Nat, (s₀.blocks[k]?).join = none) →
    BlocksConserved inputs (outputs.insert name s.blocks) s.memory

/-- The parts of an iteration that returns. -/
theorem allocateOutputMemoryBlock_cases
    (hrun : allocateOutputMemoryBlock data node s i = .ok s') :
    ∃ recordSize size,
      getRecordSizeFromParameters data
        node.operationParameters.outputStreamParameters i = .ok recordSize ∧
      s.sizes[i]? = some size ∧ s'.sizes = s.sizes.set i (recordSize, size.2) ∧
      ((∃ n, node.nextNodes[i]? = some (some n)) ∧ s'.memory = s.memory ∧
          s'.blocks = s.blocks ∨
        node.nextNodes[i]? = some none ∧ ∃ block,
          getAvailableMemoryBlock s.memory = .ok (block, s'.memory) ∧
          i < s.blocks.length ∧ s'.blocks = s.blocks.set i (some block)) := by
  rw [allocateOutputMemoryBlock, bind_eq_ok] at hrun
  obtain ⟨next, hnext, hrun⟩ := hrun
  obtain ⟨t, ht, hrun⟩ := bind_eq_ok.mp hrun
  simp only [bind_eq_ok, readAt_eq_ok, writeAt_eq_ok, Except.ok.injEq] at hnext hrun
  obtain ⟨recordSize, hsize, size, hread, sizes, ⟨-, rfl⟩, rfl⟩ := hrun
  cases next with
  | some n =>
      cases ht
      exact ⟨recordSize, size, hsize, hread, rfl, .inl ⟨⟨n, hnext⟩, rfl, rfl⟩⟩
  | none =>
      simp only [bind_eq_ok, writeAt_eq_ok, Except.ok.injEq] at ht
      obtain ⟨⟨block, memory⟩, hget, blocks, ⟨hlt, rfl⟩, rfl⟩ := ht
      exact ⟨recordSize, size, hsize, hread, rfl,
        .inr ⟨hnext, block, hget, hlt, rfl⟩⟩

theorem OutputsBacked.step (hs : OutputsBacked data node s₀ i s)
    (hrun : allocateOutputMemoryBlock data node s i = .ok s') :
    OutputsBacked data node s₀ (i + 1) s' := by
  obtain ⟨recordSize, size, hsize, hread, hsizes, hblocks⟩ :=
    allocateOutputMemoryBlock_cases hrun
  have hlt := (List.getElem?_eq_some_iff.mp hread).1
  have hsized : ∀ k < i + 1, ∃ recordSize size,
      getRecordSizeFromParameters data
        node.operationParameters.outputStreamParameters k = .ok recordSize ∧
      s₀.sizes[k]? = some size ∧
        s'.sizes[k]? = some (recordSize, size.2) := by
    intro k hk
    rw [hsizes]
    rcases Nat.lt_succ_iff_lt_or_eq.mp hk with hk | rfl
    · rw [List.getElem?_set_ne (by omega)]
      exact hs.sized k hk
    · refine ⟨recordSize, size, hsize, ?_, List.getElem?_set_self hlt⟩
      rw [← hs.sizes_kept k (Nat.le_refl k), hread]
  have hsizesKept : ∀ k, i + 1 ≤ k → s'.sizes[k]? = s₀.sizes[k]? := by
    intro k hk
    rw [hsizes, List.getElem?_set_ne (by omega)]
    exact hs.sizes_kept k (by omega)
  have hsizesLength : s'.sizes.length = s₀.sizes.length := by
    rw [hsizes, List.length_set, hs.sizes_length]
  rcases hblocks with ⟨⟨n, hnext⟩, hmemory, hsame⟩ |
    ⟨hnext, block, hget, hi, hset⟩
  · have hnot : node.nextNodes[i]? ≠ some none := by
      rw [hnext]
      simp
    refine ⟨by rw [hsame, hs.blocks_length], hsizesLength, ?_, ?_, hsized,
      hsizesKept, ?_⟩
    · intro k hk hnone
      rw [hsame]
      rcases Nat.lt_succ_iff_lt_or_eq.mp hk with hk | rfl
      · exact hs.backed k hk hnone
      · exact absurd hnone hnot
    · intro k hk
      rw [hsame]
      exact hs.blocks_kept k fun hlt => hk (Nat.lt_succ_of_lt hlt)
    · intro inputs outputs name h hempty
      rw [hsame, hmemory]
      exact hs.conserved inputs outputs name h hempty
  · refine ⟨by rw [hset, List.length_set, hs.blocks_length], hsizesLength, ?_,
      ?_, hsized, hsizesKept, ?_⟩
    · intro k hk hnone
      rw [hset]
      rcases Nat.lt_succ_iff_lt_or_eq.mp hk with hk | rfl
      · rw [List.getElem?_set_ne (by omega)]
        exact hs.backed k hk hnone
      · exact ⟨block, List.getElem?_set_self hi⟩
    · intro k hk
      have hki : i ≠ k := by
        rintro rfl
        exact hk (Nat.lt_succ_self i) hnext
      rw [hset, List.getElem?_set_ne hki]
      exact hs.blocks_kept k fun hlt => hk (Nat.lt_succ_of_lt hlt)
    · intro inputs outputs name h hempty
      unfold BlocksConserved
      rw [hset, holds_insert_output hi]
      refine conserved_get (hs.conserved inputs outputs name h hempty) ?_ hget
      simp only [holds, entry_insert, if_pos]
      rw [hs.blocks_kept i fun hlt => absurd hlt (Nat.lt_irrefl i)]
      exact hempty i

/-- The loop over the outputs. -/
theorem outputsBacked_of_run
    (hrun : allocateOutputMemoryBlocks data node s₀ = .ok s) :
    OutputsBacked data node s₀ node.nextNodes.length s := by
  refine forRange_invariant (OutputsBacked data node s₀) _ ?_
    (fun i s s' _ hs hbody => hs.step hbody) hrun
  exact ⟨rfl, rfl, by simp, by simp, by simp, by simp, fun _ _ _ h _ => h⟩

end Outputs

/-! ## Inputs of one node -/

section Inputs

variable {data : DataManager} {h : Heap} {node : QueryNode}
  {outputSizes : SizeMap} {s₀ s s' : StreamData} {i : Nat}

/-- What is done for input `i`. -/
inductive InputStep (h : Heap) (node : QueryNode) (outputSizes : SizeMap)
    (s : StreamData) (i : Nat) : StreamData → Prop where
  | handed (block : Block) : node.previousNodes[i]? = some none →
      s.blocks[i]? = some (some block) → InputStep h node outputSizes s i s
  | read (block : Block) (memory : MemoryManager) (size : RecordSizeAndCount) :
      node.previousNodes[i]? = some none → s.blocks[i]? = some none →
      getAvailableMemoryBlock s.memory = .ok (block, memory) →
      InputStep h node outputSizes s i
        ⟨memory, s.blocks.set i (some block), s.sizes.set i size⟩
  | unfed (a : NodeId) : node.previousNodes[i]? = some (some a) →
      findConsumer h node (h a).nextNodes 0 = .ok none →
      InputStep h node outputSizes s i s
  | fed (a : NodeId) (k : Nat) (size : RecordSizeAndCount) :
      node.previousNodes[i]? = some (some a) →
      findConsumer h node (h a).nextNodes 0 = .ok (some k) →
      entry outputSizes (h a).nodeName k = some size → i < s.sizes.length →
      InputStep h node outputSizes s i ⟨s.memory, s.blocks, s.sizes.set i size⟩

theorem allocateInputMemoryBlock_cases
    (hrun : allocateInputMemoryBlock data h node outputSizes s i = .ok s') :
    InputStep h node outputSizes s i s' := by
  rw [allocateInputMemoryBlock, bind_eq_ok] at hrun
  obtain ⟨previous, hprevious, hrun⟩ := hrun
  rw [readAt_eq_ok] at hprevious
  cases previous with
  | none =>
      obtain ⟨held, hheld, hrun⟩ := bind_eq_ok.mp hrun
      rw [readAt_eq_ok] at hheld
      cases held with
      | some block =>
          cases hrun
          exact .handed block hprevious hheld
      | none =>
          simp only [bind_eq_ok, readAt_eq_ok, writeAt_eq_ok,
            Except.ok.injEq] at hrun
          obtain ⟨⟨block, memory⟩, hget, blocks, ⟨-, rfl⟩, -, -, size, -, sizes,
            ⟨-, rfl⟩, rfl⟩ := hrun
          exact .read block memory size hprevious hheld hget
  | some a =>
      obtain ⟨found, hfound, hrun⟩ := bind_eq_ok.mp hrun
      cases found with
      | none =>
          cases hrun
          exact .unfed a hprevious hfound
      | some k =>
          simp only [bind_eq_ok, mapAt_eq_ok, readAt_eq_ok, writeAt_eq_ok,
            Except.ok.injEq] at hrun
          obtain ⟨producerSizes, hsizes, size, hsize, sizes, ⟨hlt, rfl⟩, rfl⟩ :=
            hrun
          exact .fed a k size hprevious hfound
            ((entry_eq hsizes k).trans hsize) hlt

/-- Inputs before `i` have their blocks and sizes. -/
structure InputsBacked (h : Heap) (node : QueryNode) (outputSizes : SizeMap)
    (s₀ : StreamData) (i : Nat) (s : StreamData) : Prop where
  blocks_length : s.blocks.length = s₀.blocks.length
  sizes_length : s.sizes.length = s₀.sizes.length
  blocks_kept : ∀ m : Nat, node.previousNodes[m]? ≠ some none →
    s.blocks[m]? = s₀.blocks[m]?
  fed : ∀ m < i, ∀ a k, node.previousNodes[m]? = some (some a) →
    findConsumer h node (h a).nextNodes 0 = .ok (some k) →
    ∃ size, entry outputSizes (h a).nodeName k = some size ∧
      s.sizes[m]? = some size
  conserved : ∀ (inputs outputs : BlockMap) name,
    BlocksConserved (inputs.insert name s₀.blocks) outputs s₀.memory →
    BlocksConserved (inputs.insert name s.blocks) outputs s.memory

theorem InputsBacked.step (hs : InputsBacked h node outputSizes s₀ i s)
    (hstep : InputStep h node outputSizes s i s') :
    InputsBacked h node outputSizes s₀ (i + 1) s' := by
  have hearlier : ∀ {p : Option NodeId} {sizes : List RecordSizeAndCount},
      node.previousNodes[i]? = some p →
      (∀ m < i, sizes[m]? = s.sizes[m]?) →
      (∀ a k, p = some a →
        findConsumer h node (h a).nextNodes 0 = .ok (some k) →
        ∃ size, entry outputSizes (h a).nodeName k = some size ∧
          sizes[i]? = some size) →
      ∀ m < i + 1, ∀ a k, node.previousNodes[m]? = some (some a) →
        findConsumer h node (h a).nextNodes 0 = .ok (some k) →
        ∃ size, entry outputSizes (h a).nodeName k = some size ∧
          sizes[m]? = some size := by
    intro p sizes hp hsame hlast m hm a k ha hfound
    rcases Nat.lt_succ_iff_lt_or_eq.mp hm with hm | rfl
    · rw [hsame m hm]
      exact hs.fed m hm a k ha hfound
    · rw [hp, Option.some.injEq] at ha
      exact hlast a k ha hfound
  cases hstep with
  | handed block hprevious hheld =>
      refine ⟨hs.blocks_length, hs.sizes_length, hs.blocks_kept, ?_,
        hs.conserved⟩
      exact hearlier hprevious (fun _ _ => rfl) (by simp)
  | read block memory size hprevious hempty hget =>
      have hlt := (List.getElem?_eq_some_iff.mp hempty).1
      refine ⟨by simp [hs.blocks_length], by simp [hs.sizes_length], ?_, ?_, ?_⟩
      · intro m hm
        have hne : i ≠ m := by
          rintro rfl
          exact hm hprevious
        rw [List.getElem?_set_ne hne]
        exact hs.blocks_kept m hm
      · refine hearlier hprevious (fun m hm => ?_) (by simp)
        rw [List.getElem?_set_ne (by omega)]
      · intro inputs outputs name hconserved
        unfold BlocksConserved
        rw [holds_insert_input hlt]
        refine conserved_get (hs.conserved inputs outputs name hconserved) ?_
          hget
        simp only [holds, entry_insert, if_pos, hempty, Option.join_some]
  | unfed a hprevious hfound =>
      refine ⟨hs.blocks_length, hs.sizes_length, hs.blocks_kept, ?_,
        hs.conserved⟩
      refine hearlier hprevious (fun _ _ => rfl) ?_
      intro b k hb hfound'
      cases hb
      rw [hfound] at hfound'
      cases hfound'
  | fed a k size hprevious hfound hentry hlt =>
      refine ⟨hs.blocks_length, by simp [hs.sizes_length], hs.blocks_kept, ?_,
        hs.conserved⟩
      refine hearlier hprevious (fun m hm => ?_) ?_
      · rw [List.getElem?_set_ne (by omega)]
      · intro b k' hb hfound'
        cases hb
        rw [hfound] at hfound'
        cases hfound'
        exact ⟨size, hentry, List.getElem?_set_self hlt⟩

/-- The loop over the inputs. -/
theorem inputsBacked_of_run
    (hrun : allocateInputMemoryBlocks data h node outputSizes s₀ = .ok s) :
    InputsBacked h node outputSizes s₀ node.previousNodes.length s := by
  refine forRange_invariant (InputsBacked h node outputSizes s₀) _ ?_
    (fun i s s' _ hs hbody => hs.step (allocateInputMemoryBlock_cases hbody))
    hrun
  exact ⟨rfl, rfl, fun _ _ => rfl, by simp, fun _ _ _ h => h⟩

end Inputs

/-! ## Result parameters of one node -/

section Results

variable {ids : List Nat} {node : QueryNode} {blocks : List (Option Block)}

/-- The result parameters of the outputs before `i` that have a block. -/
structure Stored (ids : List Nat) (node : QueryNode)
    (blocks : List (Option Block)) (i : Nat)
    (params : List StreamResultParameters) : Prop where
  sound : ∀ p ∈ params, ids[p.streamIndex]? = some p.outputId ∧
    node.outputDataDefinitionFiles[p.streamIndex]? = some p.filename ∧
    ∃ block, blocks[p.streamIndex]? = some (some block)
  complete : ∀ k < i, ∀ block, blocks[k]? = some (some block) →
    ∃ p ∈ params, p.streamIndex = k

theorem Stored.step {i : Nat} {params params' : List StreamResultParameters}
    (hs : Stored ids node blocks i params)
    (hrun : storeStreamResultParameter ids node blocks params i =
      .ok params') : Stored ids node blocks (i + 1) params' := by
  rw [storeStreamResultParameter, bind_eq_ok] at hrun
  obtain ⟨held, hheld, hrun⟩ := hrun
  rw [readAt_eq_ok] at hheld
  cases held with
  | none =>
      cases hrun
      refine ⟨hs.sound, ?_⟩
      intro k hk block hblock
      rcases Nat.lt_succ_iff_lt_or_eq.mp hk with hk | rfl
      · exact hs.complete k hk block hblock
      · rw [hheld] at hblock
        cases hblock
  | some block =>
      simp only [bind_eq_ok, readAt_eq_ok, Except.ok.injEq] at hrun
      obtain ⟨id, hid, filename, hfile, isChecked, -, rfl⟩ := hrun
      constructor
      · exact forall_mem_concat hs.sound ⟨hid, hfile, block, hheld⟩
      · intro k hk block' hblock
        rcases Nat.lt_succ_iff_lt_or_eq.mp hk with hk | rfl
        · obtain ⟨p, hp, hindex⟩ := hs.complete k hk block' hblock
          exact ⟨p, List.mem_append_left _ hp, hindex⟩
        · exact ⟨_, List.mem_append_right _ (List.mem_singleton_self _), rfl⟩

theorem stored_of_run {results results' : ResultMap}
    (hrun : storeStreamResultParameters results ids node blocks =
      .ok results') :
    ∃ params, results' = results.insertIfNew node.nodeName params ∧
      Stored ids node blocks ids.length params := by
  rw [storeStreamResultParameters, bind_eq_ok] at hrun
  obtain ⟨params, hparams, hrun⟩ := hrun
  refine ⟨params, (Except.ok.inj hrun).symm, ?_⟩
  refine forRange_invariant (Stored ids node blocks) _ ?_
    (fun i s s' _ hs hbody => hs.step hbody) hparams
  exact ⟨by simp, by simp⟩

end Results

/-! ## Stream parameters of one node -/

/-- Parameters of the streams on one side of a node. -/
structure StreamsOf (ids : IdMap) (blocks : BlockMap) (sizes : SizeMap)
    (name : String) (streams : List StreamDataParameters) : Prop where
  length : streams.length = (ids[name]?.getD []).length
  stream : ∀ i p, streams[i]? = some p → entry ids name i = some p.streamId ∧
    entry blocks name i = some p.physicalAddress ∧
    entry sizes name i = some (p.streamRecordSize, p.streamRecordCount)

theorem streamsOf_of_run {ids : IdMap} {blocks : BlockMap} {sizes : SizeMap}
    {name : String} {params : List (List Int)}
    {streamBlocks : List (Option Block)}
    {streamSizes : List RecordSizeAndCount}
    {streams : List StreamDataParameters}
    (hblocks : ∀ i, entry blocks name i = streamBlocks[i]?)
    (hsizes : ∀ i, entry sizes name i = streamSizes[i]?)
    (hrun : createStreamParams (ids[name]?.getD []) params streamBlocks
      streamSizes = .ok streams) : StreamsOf ids blocks sizes name streams := by
  have key := forRange_invariant
    (fun i (streams : List StreamDataParameters) => streams.length = i ∧
      ∀ j p, streams[j]? = some p → entry ids name j = some p.streamId ∧
        entry blocks name j = some p.physicalAddress ∧
        entry sizes name j =
          some (p.streamRecordSize, p.streamRecordCount)) _
    ⟨rfl, by simp⟩ ?_ hrun
  · exact ⟨key.1, key.2⟩
  · rintro i streams streams' hi ⟨hlen, hall⟩ hbody
    simp only [createStreamParam, bind_eq_ok, readAt_eq_ok, checkedAt_eq_ok,
      Except.ok.injEq] at hbody
    obtain ⟨block, hblock, chunks, -, id, hid, size, hsize, projection, -,
      rfl⟩ := hbody
    refine ⟨by simp [hlen], ?_⟩
    intro j p hp
    rcases Nat.lt_or_ge j streams.length with hj | hj
    · rw [List.getElem?_append_left hj] at hp
      exact hall j p hp
    · rw [List.getElem?_append_right hj, List.getElem?_singleton] at hp
      split at hp
      · next hzero =>
          cases hp
          have hji : j = i := by omega
          subst hji
          exact ⟨hid, (hblocks j).trans hblock, (hsizes j).trans hsize⟩
      · cases hp

/-- A stream that has an id has parameters. -/
theorem StreamsOf.exists_stream {ids : IdMap} {blocks : BlockMap}
    {sizes : SizeMap} {name : String} {streams : List StreamDataParameters}
    (h : StreamsOf ids blocks sizes name streams) {i id : Nat}
    (hid : entry ids name i = some id) : ∃ p, streams[i]? = some p ∧
      p.streamId = id ∧ entry blocks name i = some p.physicalAddress ∧
      entry sizes name i = some (p.streamRecordSize, p.streamRecordCount) := by
  have hi : i < streams.length := by
    rw [h.length]
    exact (List.getElem?_eq_some_iff.mp hid).1
  have hp := List.getElem?_eq_getElem hi
  obtain ⟨hstreamId, hblock, hsize⟩ := h.stream i _ hp
  rw [hid, Option.some.injEq] at hstreamId
  exact ⟨_, hp, hstreamId.symm, hblock, hsize⟩

theorem StreamsOf.congr {ids : IdMap} {blocks blocks' : BlockMap}
    {sizes sizes' : SizeMap} {name : String}
    {streams : List StreamDataParameters}
    (h : StreamsOf ids blocks sizes name streams)
    (hblocks : ∀ i, entry blocks' name i = entry blocks name i)
    (hsizes : ∀ i, entry sizes' name i = entry sizes name i) :
    StreamsOf ids blocks' sizes' name streams := by
  refine ⟨h.length, ?_⟩
  intro i p hp
  rw [hblocks i, hsizes i]
  exact h.stream i p hp

/-! ## The nodes of a run -/

/-- The nodes `done` are set up; `r₀` is the data with its vectors. -/
structure SetUp (data : DataManager) (inputIds outputIds : IdMap)
    (r₀ : RunData) (done : List NodeId) (t : SetupState) : Prop where
  heap : t.run.heap = r₀.heap
  out_backed : ∀ n ∈ done, ∀ k : Nat, (r₀.heap n).nextNodes[k]? = some none →
    ∃ block, entry t.run.outputMemoryBlocks (r₀.heap n).nodeName k =
      some (some block)
  out_kept : ∀ name k, (∀ n ∈ done, (r₀.heap n).nodeName = name →
      (r₀.heap n).nextNodes[k]? ≠ some none) →
    entry t.run.outputMemoryBlocks name k = entry r₀.outputMemoryBlocks name k
  out_sized : ∀ n ∈ done, ∀ k < (r₀.heap n).nextNodes.length,
    ∃ recordSize size, getRecordSizeFromParameters data
        (r₀.heap n).operationParameters.outputStreamParameters k =
          .ok recordSize ∧
      entry r₀.outputStreamSizes (r₀.heap n).nodeName k = some size ∧
      entry t.run.outputStreamSizes (r₀.heap n).nodeName k =
        some (recordSize, size.2)
  out_sizes_kept : ∀ name k, (∀ n ∈ done, (r₀.heap n).nodeName = name →
      (r₀.heap n).nextNodes.length ≤ k) →
    entry t.run.outputStreamSizes name k = entry r₀.outputStreamSizes name k
  in_kept : ∀ name m, (∀ n ∈ done, (r₀.heap n).nodeName = name →
      (r₀.heap n).previousNodes[m]? ≠ some none) →
    entry t.run.inputMemoryBlocks name m = entry r₀.inputMemoryBlocks name m
  in_fed : ∀ n ∈ done, ∀ (m : Nat) a k,
    (r₀.heap n).previousNodes[m]? = some (some a) →
    findConsumer r₀.heap (r₀.heap n) (r₀.heap a).nextNodes 0 = .ok (some k) →
    ∃ size, entry t.run.outputStreamSizes (r₀.heap a).nodeName k = some size ∧
      entry t.run.inputStreamSizes (r₀.heap n).nodeName m = some size
  in_others : ∀ name : String, (∀ n ∈ done, (r₀.heap n).nodeName ≠ name) →
    t.run.inputMemoryBlocks[name]? = r₀.inputMemoryBlocks[name]? ∧
      t.run.inputStreamSizes[name]? = r₀.inputStreamSizes[name]?
  nodes : ∀ (i : Nat) n, done[i]? = some n → ∃ q, t.queryNodes[i]? = some q ∧
    StreamsOf inputIds t.run.inputMemoryBlocks t.run.inputStreamSizes
      (r₀.heap n).nodeName q.inputStreams ∧
    StreamsOf outputIds t.run.outputMemoryBlocks t.run.outputStreamSizes
      (r₀.heap n).nodeName q.outputStreams
  nodes_length : t.queryNodes.length = done.length
  results : ∀ n ∈ done, ∃ params blocks,
    t.resultParameters[(r₀.heap n).nodeName]? = some params ∧
    t.run.outputMemoryBlocks[(r₀.heap n).nodeName]? = some blocks ∧
    Stored (outputIds[(r₀.heap n).nodeName]?.getD []) (r₀.heap n) blocks
      (outputIds[(r₀.heap n).nodeName]?.getD []).length params
  results_only : ∀ name, (∀ n ∈ done, (r₀.heap n).nodeName ≠ name) →
    t.resultParameters[name]? = none
  conserved : BlocksConserved r₀.inputMemoryBlocks r₀.outputMemoryBlocks
      r₀.memory →
    (∀ n ∈ done, ∀ k,
      (entry r₀.outputMemoryBlocks (r₀.heap n).nodeName k).join = none) →
    BlocksConserved t.run.inputMemoryBlocks t.run.outputMemoryBlocks
      t.run.memory

section Nodes

variable {data : DataManager} {inputIds outputIds : IdMap} {r₀ : RunData}
  {done : List NodeId} {t t' : SetupState} {n : NodeId}

theorem SetUp.initial (data : DataManager) (inputIds outputIds : IdMap)
    (r₀ : RunData) : SetUp data inputIds outputIds r₀ [] ⟨r₀, [], ∅⟩ := by
  constructor <;> simp

/-- The parts of one iteration. -/
theorem setupNode_cases (hrun : setupNode data inputIds outputIds t n = .ok t') :
    ∃ outputs inputs inputParams outputParams params,
      OutputsBacked data (t.run.heap n)
        ⟨t.run.memory,
          t.run.outputMemoryBlocks[(t.run.heap n).nodeName]?.getD [],
          t.run.outputStreamSizes[(t.run.heap n).nodeName]?.getD []⟩
        (t.run.heap n).nextNodes.length outputs ∧
      InputsBacked t.run.heap (t.run.heap n)
        (t.run.outputStreamSizes.insert (t.run.heap n).nodeName outputs.sizes)
        ⟨outputs.memory,
          t.run.inputMemoryBlocks[(t.run.heap n).nodeName]?.getD [],
          t.run.inputStreamSizes[(t.run.heap n).nodeName]?.getD []⟩
        (t.run.heap n).previousNodes.length inputs ∧
      createStreamParams (inputIds[(t.run.heap n).nodeName]?.getD [])
        (t.run.heap n).operationParameters.inputStreamParameters inputs.blocks
        inputs.sizes = .ok inputParams ∧
      createStreamParams (outputIds[(t.run.heap n).nodeName]?.getD [])
        (t.run.heap n).operationParameters.outputStreamParameters
        outputs.blocks outputs.sizes = .ok outputParams ∧
      Stored (outputIds[(t.run.heap n).nodeName]?.getD []) (t.run.heap n)
        outputs.blocks
        (outputIds[(t.run.heap n).nodeName]?.getD []).length params ∧
      t'.run = { t.run with
        memory := inputs.memory
        inputMemoryBlocks := t.run.inputMemoryBlocks.insert
          (t.run.heap n).nodeName inputs.blocks
        outputMemoryBlocks := t.run.outputMemoryBlocks.insert
          (t.run.heap n).nodeName outputs.blocks
        inputStreamSizes := t.run.inputStreamSizes.insert
          (t.run.heap n).nodeName inputs.sizes
        outputStreamSizes := t.run.outputStreamSizes.insert
          (t.run.heap n).nodeName outputs.sizes } ∧
      (∃ q, t'.queryNodes = t.queryNodes ++ [q] ∧
        q.inputStreams = inputParams ∧ q.outputStreams = outputParams) ∧
      t'.resultParameters =
        t.resultParameters.insertIfNew (t.run.heap n).nodeName params := by
  simp only [setupNode, bind_eq_ok, Except.ok.injEq] at hrun
  obtain ⟨outputs, houtputs, inputs, hinputs, inputParams, hin, outputParams,
    hout, results, hresults, rfl⟩ := hrun
  obtain ⟨params, hparams, hstored⟩ := stored_of_run hresults
  exact ⟨outputs, inputs, inputParams, outputParams, params,
    outputsBacked_of_run houtputs, inputsBacked_of_run hinputs, hin, hout,
    hstored, rfl, ⟨_, rfl, rfl, rfl⟩, hparams⟩

/-- The vectors of one node are replaced, those of the others stay. -/
structure Replaced (name : String) (outputs inputs : StreamData)
    (r r' : RunData) : Prop where
  outputBlocks : ∀ other k, entry r'.outputMemoryBlocks other k =
    if other = name then outputs.blocks[k]?
    else entry r.outputMemoryBlocks other k
  outputSizes : ∀ other k, entry r'.outputStreamSizes other k =
    if other = name then outputs.sizes[k]?
    else entry r.outputStreamSizes other k
  inputBlocks : ∀ other k, entry r'.inputMemoryBlocks other k =
    if other = name then inputs.blocks[k]?
    else entry r.inputMemoryBlocks other k
  inputSizes : ∀ other k, entry r'.inputStreamSizes other k =
    if other = name then inputs.sizes[k]?
    else entry r.inputStreamSizes other k

theorem replaced_insert (name : String) (outputs inputs : StreamData)
    (r : RunData) :
    Replaced name outputs inputs r { r with
      memory := inputs.memory
      inputMemoryBlocks := r.inputMemoryBlocks.insert name inputs.blocks
      outputMemoryBlocks := r.outputMemoryBlocks.insert name outputs.blocks
      inputStreamSizes := r.inputStreamSizes.insert name inputs.sizes
      outputStreamSizes := r.outputStreamSizes.insert name outputs.sizes } where
  outputBlocks := fun _ _ => entry_insert _ _ _ _ _
  outputSizes := fun _ _ => entry_insert _ _ _ _ _
  inputBlocks := fun _ _ => entry_insert _ _ _ _ _
  inputSizes := fun _ _ => entry_insert _ _ _ _ _

/-- The streams of an earlier node have the same parameters behind an
iteration. -/
theorem Replaced.streamsOf {name other : String} {outputs inputs : StreamData}
    {r r' : RunData} (h : Replaced name outputs inputs r r')
    (hne : other ≠ name) {q : AcceleratedQueryNode}
    (hin : StreamsOf inputIds r.inputMemoryBlocks r.inputStreamSizes other
      q.inputStreams)
    (hout : StreamsOf outputIds r.outputMemoryBlocks r.outputStreamSizes other
      q.outputStreams) :
    StreamsOf inputIds r'.inputMemoryBlocks r'.inputStreamSizes other
        q.inputStreams ∧
      StreamsOf outputIds r'.outputMemoryBlocks r'.outputStreamSizes other
        q.outputStreams := by
  constructor
  · refine hin.congr (fun m => ?_) fun m => ?_
    · rw [h.inputBlocks, if_neg hne]
    · rw [h.inputSizes, if_neg hne]
  · refine hout.congr (fun k => ?_) fun k => ?_
    · rw [h.outputBlocks, if_neg hne]
    · rw [h.outputSizes, if_neg hne]

/-- The vectors of a node that is not set up are those that the run has started
with. -/
theorem SetUp.unchanged (hs : SetUp data inputIds outputIds r₀ done t)
    {name : String} (hnew : ∀ b ∈ done, (r₀.heap b).nodeName ≠ name) (k : Nat) :
    entry t.run.outputMemoryBlocks name k = entry r₀.outputMemoryBlocks name k ∧
      entry t.run.outputStreamSizes name k =
        entry r₀.outputStreamSizes name k ∧
      entry t.run.inputMemoryBlocks name k =
        entry r₀.inputMemoryBlocks name k :=
  ⟨hs.out_kept name k fun b hb heq => absurd heq (hnew b hb),
    hs.out_sizes_kept name k fun b hb heq => absurd heq (hnew b hb),
    hs.in_kept name k fun b hb heq => absurd heq (hnew b hb)⟩

/-- The blocks are moved for the outputs of the node first, and then for its
inputs. -/
theorem blocksConserved_step {r : RunData} {node : QueryNode}
    {outputs inputs : StreamData} {h : Heap}
    (houtputs : OutputsBacked data node
      ⟨r.memory, r.outputMemoryBlocks[node.nodeName]?.getD [],
        r.outputStreamSizes[node.nodeName]?.getD []⟩
      node.nextNodes.length outputs)
    (hinputs : InputsBacked h node
      (r.outputStreamSizes.insert node.nodeName outputs.sizes)
      ⟨outputs.memory, r.inputMemoryBlocks[node.nodeName]?.getD [],
        r.inputStreamSizes[node.nodeName]?.getD []⟩
      node.previousNodes.length inputs)
    (hbefore : BlocksConserved r.inputMemoryBlocks r.outputMemoryBlocks
      r.memory)
    (hempty : ∀ k,
      (entry r.outputMemoryBlocks node.nodeName k).join = none) :
    BlocksConserved (r.inputMemoryBlocks.insert node.nodeName inputs.blocks)
      (r.outputMemoryBlocks.insert node.nodeName outputs.blocks)
      inputs.memory := by
  have hafter := houtputs.conserved r.inputMemoryBlocks r.outputMemoryBlocks
    node.nodeName
    (hbefore.congr fun slot => by
      cases slot with
      | input name i => rfl
      | output name i => simp only [holds, entry_reinsert])
    (fun k => by
      rw [← hempty k]
      rfl)
  exact hinputs.conserved _ _ _ (hafter.congr fun slot => by
    cases slot with
    | input name i => simp only [holds, entry_reinsert]
    | output name i => rfl)

/-- One more node, behind its producers. -/
theorem SetUp.step (hs : SetUp data inputIds outputIds r₀ done t)
    (hnew : ∀ b ∈ done, (r₀.heap b).nodeName ≠ (r₀.heap n).nodeName)
    (hproducers : ∀ b ∈ done ++ [n], ∀ a,
      some a ∈ (r₀.heap b).previousNodes → a ∈ done)
    (hrun : setupNode data inputIds outputIds t n = .ok t') :
    SetUp data inputIds outputIds r₀ (done ++ [n]) t' := by
  obtain ⟨outputs, inputs, inputParams, outputParams, params, houtputs,
    hinputs, hinParams, houtParams, hstored, hrun', ⟨q, hq, hqin, hqout⟩,
    hresults⟩ := setupNode_cases hrun
  rw [hs.heap] at houtputs hinputs hinParams houtParams hstored hrun' hresults
  have hreplaced : Replaced (r₀.heap n).nodeName outputs inputs t.run t'.run :=
    hrun' ▸ replaced_insert _ _ _ _
  have hbefore := hs.unchanged hnew
  refine ⟨?_, ?_, ?_, ?_, ?_, ?_, ?_, ?_, ?_, ?_, ?_, ?_, ?_⟩
  · rw [hrun']
    exact hs.heap
  · refine forall_mem_concat (fun b hb k hk => ?_) fun k hk => ?_
    · rw [hreplaced.outputBlocks, if_neg (hnew b hb)]
      exact hs.out_backed b hb k hk
    · rw [hreplaced.outputBlocks, if_pos rfl]
      exact houtputs.backed k (List.getElem?_eq_some_iff.mp hk).1 hk
  · intro name k hall
    rw [hreplaced.outputBlocks]
    split
    · next heq =>
        subst heq
        rw [houtputs.blocks_kept k fun _ => hall n (by simp) rfl]
        exact (hbefore k).1
    · exact hs.out_kept name k fun b hb => hall b (List.mem_append_left _ hb)
  · refine forall_mem_concat (fun b hb k hk => ?_) fun k hk => ?_
    · rw [hreplaced.outputSizes, if_neg (hnew b hb)]
      exact hs.out_sized b hb k hk
    · rw [hreplaced.outputSizes, if_pos rfl, ← (hbefore k).2.1]
      exact houtputs.sized k hk
  · intro name k hall
    rw [hreplaced.outputSizes]
    split
    · next heq =>
        subst heq
        rw [houtputs.sizes_kept k (hall n (by simp) rfl)]
        exact (hbefore k).2.1
    · exact hs.out_sizes_kept name k
        fun b hb => hall b (List.mem_append_left _ hb)
  · intro name m hall
    rw [hreplaced.inputBlocks]
    split
    · next heq =>
        subst heq
        rw [hinputs.blocks_kept m (hall n (by simp) rfl)]
        exact (hbefore m).2.2
    · exact hs.in_kept name m fun b hb => hall b (List.mem_append_left _ hb)
  · intro b hb m a k ha hfound
    have hmem := hproducers b hb a (List.mem_of_getElem? ha)
    rcases List.mem_append.mp hb with hb | hb
    · rw [hreplaced.inputSizes, if_neg (hnew b hb), hreplaced.outputSizes,
        if_neg (hnew a hmem)]
      exact hs.in_fed b hb m a k ha hfound
    · rw [List.mem_singleton.mp hb] at ha hfound ⊢
      obtain ⟨size, hentry, hsize⟩ := hinputs.fed m
        (List.getElem?_eq_some_iff.mp ha).1 a k ha hfound
      refine ⟨size, ?_, ?_⟩
      · rw [hrun']
        exact hentry
      · rw [hreplaced.inputSizes, if_pos rfl, hsize]
  · intro name hall
    have hne : name ≠ (r₀.heap n).nodeName := (hall n (by simp)).symm
    rw [hrun']
    dsimp only
    rw [getElem?_insert, getElem?_insert, if_neg hne, if_neg hne]
    exact hs.in_others name fun b hb => hall b (List.mem_append_left _ hb)
  · intro i b hb
    rw [hq]
    rcases Nat.lt_or_ge i done.length with hi | hi
    · rw [List.getElem?_append_left hi] at hb
      obtain ⟨q', hq', hin', hout'⟩ := hs.nodes i b hb
      refine ⟨q', ?_, hreplaced.streamsOf
        (hnew b (List.mem_of_getElem? hb)) hin' hout'⟩
      rw [List.getElem?_append_left (by rw [hs.nodes_length]; exact hi), hq']
    · rw [List.getElem?_append_right hi, List.getElem?_singleton] at hb
      split at hb
      · next hzero =>
          cases hb
          refine ⟨q, ?_, ?_, ?_⟩
          · rw [List.getElem?_append_right (by rw [hs.nodes_length]; exact hi),
              hs.nodes_length, hzero]
            rfl
          · rw [hqin]
            exact streamsOf_of_run
              (fun m => by rw [hreplaced.inputBlocks, if_pos rfl])
              (fun m => by rw [hreplaced.inputSizes, if_pos rfl]) hinParams
          · rw [hqout]
            exact streamsOf_of_run
              (fun k => by rw [hreplaced.outputBlocks, if_pos rfl])
              (fun k => by rw [hreplaced.outputSizes, if_pos rfl]) houtParams
      · cases hb
  · rw [hq, List.length_append, List.length_append, hs.nodes_length]
    rfl
  · intro b hb
    rcases List.mem_append.mp hb with hb | hb
    · obtain ⟨params', blocks, hparams, hblocks, hstored'⟩ := hs.results b hb
      refine ⟨params', blocks, ?_, ?_, hstored'⟩
      · rw [hresults, getElem?_insertIfNew_of_ne _ (hnew b hb), hparams]
      · rw [hrun']
        exact (getElem?_insert _ _ _ _).trans
          ((if_neg (hnew b hb)).trans hblocks)
    · rw [List.mem_singleton.mp hb]
      refine ⟨params, outputs.blocks, ?_, ?_, hstored⟩
      · have hfresh := hs.results_only (r₀.heap n).nodeName hnew
        rw [hresults, getElem?_insertIfNew hfresh, if_pos rfl]
      · rw [hrun']
        exact (getElem?_insert _ _ _ _).trans (if_pos rfl)
  · intro name hall
    rw [hresults, getElem?_insertIfNew_of_ne _
      fun heq => hall n (by simp) heq.symm]
    exact hs.results_only name fun b hb => hall b (List.mem_append_left _ hb)
  · intro hconserved hempty
    rw [hrun']
    refine blocksConserved_step houtputs hinputs
      (hs.conserved hconserved
        fun b hb => hempty b (List.mem_append_left _ hb)) fun k => ?_
    rw [(hbefore k).1]
    exact hempty n (by simp) k

/-- The loop over the nodes of a run. -/
theorem setUp_of_run {nodes : List NodeId}
    (hnames : (nodes.map fun n => (r₀.heap n).nodeName).Nodup)
    (hordered : ∀ before n after, nodes = before ++ n :: after →
      ∀ a, some a ∈ (r₀.heap n).previousNodes → a ∈ before)
    (hrun : nodes.foldlM (setupNode data inputIds outputIds) ⟨r₀, [], ∅⟩ =
      .ok t) : SetUp data inputIds outputIds r₀ nodes t := by
  refine foldlM_invariant (SetUp data inputIds outputIds r₀) nodes
    (SetUp.initial data inputIds outputIds r₀) ?_ hrun
  intro before n after t t' hsplit ht hbody
  refine ht.step ?_ ?_ hbody
  · intro b hb heq
    rw [hsplit, List.map_append, List.nodup_append] at hnames
    exact hnames.2.2 _ (List.mem_map_of_mem hb) _ (by simp) heq
  · intro b hb a ha
    rcases List.mem_append.mp hb with hb | hb
    · obtain ⟨earlier, later, rfl⟩ := List.append_of_mem hb
      exact List.mem_append_left _
        (hordered earlier b (later ++ n :: after) (by simp [hsplit]) a ha)
    · rw [List.mem_singleton.mp hb] at ha
      exact hordered before n after hsplit a ha

end Nodes

/-! ## Vectors of a run

Nodes of the run and their consumers get input vectors unless they have some;
nodes of the run get output vectors and forget the consumers in other runs.
-/

/-- A node that differs in its next nodes only. -/
def SameButNext (h h' : Heap) : Prop :=
  ∀ n, h' n = { h n with nextNodes := (h' n).nextNodes }

/-- The nodes that satisfy `who` have input vectors; `r` is the data before. -/
structure InputsInitialised (r : RunData) (who : NodeId → Prop) (s : RunData) :
    Prop where
  kept : ∀ name : String, r.inputMemoryBlocks[name]? ≠ none →
    s.inputMemoryBlocks[name]? = r.inputMemoryBlocks[name]? ∧
      s.inputStreamSizes[name]? = r.inputStreamSizes[name]?
  fresh : ∀ name : String, r.inputMemoryBlocks[name]? = none →
    s.inputMemoryBlocks[name]? = none ∧
      s.inputStreamSizes[name]? = r.inputStreamSizes[name]? ∨
    ∃ n, who n ∧ (r.heap n).nodeName = name ∧
      s.inputMemoryBlocks[name]? =
        some (List.replicate (r.heap n).previousNodes.length none) ∧
      (r.inputStreamSizes[name]? = none → s.inputStreamSizes[name]? =
        some (List.replicate (r.heap n).previousNodes.length (0, 0)))
  present : ∀ n, who n → s.inputMemoryBlocks[(r.heap n).nodeName]? ≠ none

/-- All but the input vectors is the same. -/
structure SameButInputs (s s' : RunData) : Prop where
  heap : s'.heap = s.heap
  memory : s'.memory = s.memory
  outputMemoryBlocks : s'.outputMemoryBlocks = s.outputMemoryBlocks
  outputStreamSizes : s'.outputStreamSizes = s.outputStreamSizes

theorem SameButInputs.rfl {s : RunData} : SameButInputs s s := by
  constructor <;> rfl

theorem SameButInputs.trans {s s' s'' : RunData} (h : SameButInputs s s')
    (h' : SameButInputs s' s'') : SameButInputs s s'' :=
  ⟨h'.heap.trans h.heap, h'.memory.trans h.memory,
    h'.outputMemoryBlocks.trans h.outputMemoryBlocks,
    h'.outputStreamSizes.trans h.outputStreamSizes⟩

section Initialise

variable {r s : RunData} {who who' : NodeId → Prop} {n : NodeId}
  {nodes done : List NodeId}

theorem InputsInitialised.congr (hs : InputsInitialised r who s)
    (hwho : ∀ n, who' n ↔ who n) {s' : RunData}
    (hblocks : s'.inputMemoryBlocks = s.inputMemoryBlocks)
    (hsizes : s'.inputStreamSizes = s.inputStreamSizes) :
    InputsInitialised r who' s' := by
  rw [show who' = who from funext fun n => propext (hwho n)]
  refine ⟨?_, ?_, ?_⟩
  · rw [hblocks, hsizes]
    exact hs.kept
  · rw [hblocks, hsizes]
    exact hs.fresh
  · rw [hblocks]
    exact hs.present

theorem initialiseInputs_same (s : RunData) (n : NodeId) :
    SameButInputs s (initialiseInputs s n) := by
  unfold initialiseInputs
  split
  · exact SameButInputs.rfl
  · constructor <;> rfl

theorem InputsInitialised.initialiseInputs (hs : InputsInitialised r who s)
    (hname : (s.heap n).nodeName = (r.heap n).nodeName)
    (hprevious : (s.heap n).previousNodes = (r.heap n).previousNodes) :
    InputsInitialised r (fun m => who m ∨ m = n) (initialiseInputs s n) := by
  unfold QueryManager.initialiseInputs
  split
  · next hcontains =>
      rw [contains_iff_ne_none, hname] at hcontains
      refine ⟨hs.kept, ?_, ?_⟩
      · intro name hnone
        rcases hs.fresh name hnone with h | ⟨m, hm, h⟩
        · exact .inl h
        · exact .inr ⟨m, .inl hm, h⟩
      · rintro m (hm | rfl)
        · exact hs.present m hm
        · exact hcontains
  · next hcontains =>
      rw [contains_iff_ne_none, hname, not_not] at hcontains
      rw [hname, hprevious]
      have hnone : r.inputMemoryBlocks[(r.heap n).nodeName]? = none := by
        by_contra hsome
        exact hsome ((hs.kept _ hsome).1 ▸ hcontains)
      have hsizes : s.inputStreamSizes[(r.heap n).nodeName]? =
          r.inputStreamSizes[(r.heap n).nodeName]? := by
        rcases hs.fresh _ hnone with h | ⟨m, -, -, hblocks, -⟩
        · exact h.2
        · rw [hcontains] at hblocks
          cases hblocks
      have hother : ∀ name, name ≠ (r.heap n).nodeName →
          (s.inputMemoryBlocks.insertIfNew (r.heap n).nodeName
            (List.replicate (r.heap n).previousNodes.length none))[name]? =
              s.inputMemoryBlocks[name]? ∧
          (s.inputStreamSizes.insertIfNew (r.heap n).nodeName
            (List.replicate (r.heap n).previousNodes.length (0, 0)))[name]? =
              s.inputStreamSizes[name]? := fun name hne =>
        ⟨getElem?_insertIfNew_of_ne _ hne _, getElem?_insertIfNew_of_ne _ hne _⟩
      have hown : (s.inputMemoryBlocks.insertIfNew (r.heap n).nodeName
            (List.replicate (r.heap n).previousNodes.length none))[
              (r.heap n).nodeName]? =
            some (List.replicate (r.heap n).previousNodes.length none) := by
        rw [getElem?_insertIfNew hcontains, if_pos rfl]
      refine ⟨?_, ?_, ?_⟩
      · intro name hsome
        have hne : name ≠ (r.heap n).nodeName := by
          rintro rfl
          exact hsome hnone
        obtain ⟨hblocks, hsizes⟩ := hother name hne
        exact ⟨hblocks.trans (hs.kept name hsome).1,
          hsizes.trans (hs.kept name hsome).2⟩
      · intro name hfresh
        by_cases hne : name = (r.heap n).nodeName
        · subst hne
          refine .inr ⟨n, .inr rfl, rfl, hown, ?_⟩
          intro hnew
          exact (getElem?_insertIfNew (hsizes.trans hnew) _ _).trans
            (if_pos rfl)
        · obtain ⟨hblocks, hsizes⟩ := hother name hne
          rcases hs.fresh name hfresh with h | ⟨m, hm, hmname, h⟩
          · exact .inl ⟨hblocks.trans h.1, hsizes.trans h.2⟩
          · exact .inr ⟨m, .inl hm, hmname, hblocks.trans h.1,
              fun hnew => hsizes.trans (h.2 hnew)⟩
      · rintro m (hm | rfl)
        · by_cases hne : (r.heap m).nodeName = (r.heap n).nodeName
          · show (s.inputMemoryBlocks.insertIfNew _ _)[_]? ≠ none
            rw [hne, hown]
            simp
          · show (s.inputMemoryBlocks.insertIfNew _ _)[_]? ≠ none
            rw [(hother _ hne).1]
            exact hs.present m hm
        · show (s.inputMemoryBlocks.insertIfNew _ _)[_]? ≠ none
          rw [hown]
          simp

/-- The loop over the next nodes of one node. -/
theorem initialiseNextNodes (hs : InputsInitialised r who s)
    (hheap : SameButNext r.heap s.heap) (next : List (Option NodeId)) :
    SameButInputs s (next.foldl initialiseNextNode s) ∧
      InputsInitialised r (fun m => who m ∨ some m ∈ next)
        (next.foldl initialiseNextNode s) := by
  induction next generalizing s who with
  | nil => exact ⟨SameButInputs.rfl, hs.congr (by simp) rfl rfl⟩
  | cons pointer next ih =>
      rw [List.foldl_cons]
      cases pointer with
      | none =>
          obtain ⟨hsame, hrest⟩ := ih hs hheap
          exact ⟨hsame, hrest.congr (by simp) rfl rfl⟩
      | some n =>
          have hfirst := initialiseInputs_same s n
          obtain ⟨hsame, hrest⟩ := ih
            (hs.initialiseInputs (n := n) (by rw [hheap n]) (by rw [hheap n]))
            (by rw [hfirst.heap]; exact hheap)
          refine ⟨hfirst.trans hsame, hrest.congr ?_ rfl rfl⟩
          intro m
          simp only [List.mem_cons, Option.some.injEq]
          tauto

theorem foldl_initialiseNextNode_heap (next : List (Option NodeId))
    (s : RunData) : (next.foldl initialiseNextNode s).heap = s.heap := by
  induction next generalizing s with
  | nil => rfl
  | cons pointer next ih =>
      rw [List.foldl_cons, ih]
      cases pointer with
      | none => rfl
      | some n => exact (initialiseInputs_same s n).heap

theorem initialiseNode_heap (scheduled : List NodeId) (s : RunData)
    (n : NodeId) : (initialiseNode scheduled s n).heap =
      s.heap.modify n (clearNextNodes scheduled) := by
  have hfirst : (initialiseOutputs (initialiseInputs s n) n).heap = s.heap :=
    (initialiseInputs_same s n).heap
  simp only [initialiseNode, foldl_initialiseNextNode_heap, hfirst]

/-- Whatever the maps are, only next nodes change. -/
theorem initialiseVectorSizes_sameButNext (nodes : List NodeId) (r : RunData) :
    SameButNext r.heap (initialiseVectorSizes nodes r).heap := by
  unfold initialiseVectorSizes
  suffices key : ∀ (rest : List NodeId) s, SameButNext r.heap s.heap →
      SameButNext r.heap (rest.foldl (initialiseNode nodes) s).heap from
    key nodes r fun _ => rfl
  intro rest
  induction rest with
  | nil => exact fun _ hs => hs
  | cons n rest ih =>
      intro s hs
      refine ih _ fun m => ?_
      rw [initialiseNode_heap]
      by_cases hm : m = n
      · subst hm
        rw [Heap.modify_same, clearNextNodes, hs m]
      · rw [Heap.modify_of_ne _ hm]
        exact hs m

/-- The nodes of the run forget the consumers in other runs. -/
theorem initialiseVectorSizes_heap {nodes : List NodeId} (hnodup : nodes.Nodup)
    (r : RunData) (n : NodeId) : (initialiseVectorSizes nodes r).heap n =
      if n ∈ nodes then clearNextNodes nodes (r.heap n) else r.heap n := by
  unfold initialiseVectorSizes
  suffices key : ∀ (done rest : List NodeId) s, (done ++ rest).Nodup →
      (∀ m, s.heap m =
        if m ∈ done then clearNextNodes nodes (r.heap m) else r.heap m) →
      ∀ m, (rest.foldl (initialiseNode nodes) s).heap m =
        if m ∈ done ++ rest then clearNextNodes nodes (r.heap m)
        else r.heap m from
    key [] nodes r hnodup (by simp) n
  intro done rest
  induction rest generalizing done with
  | nil =>
      intro s _ hs m
      rw [List.append_nil]
      exact hs m
  | cons b rest ih =>
      intro s hall hs m
      rw [List.append_cons] at hall ⊢
      refine ih (done ++ [b]) _ hall ?_ m
      intro m
      rw [initialiseNode_heap]
      by_cases hm : m = b
      · subst hm
        have hnew : m ∉ done := by
          have := (List.nodup_append.mp (List.nodup_append.mp hall).1).2.2
          exact fun hmem => this m hmem m (by simp) rfl
        rw [Heap.modify_same, hs m, if_neg hnew, if_pos (by simp)]
      · rw [Heap.modify_of_ne _ hm, hs m]
        simp [hm]

/-- The nodes `done` of the run `scheduled` have their vectors; `r` is the data
before. -/
structure Initialised (r : RunData) (scheduled done : List NodeId)
    (s : RunData) : Prop where
  heap : ∀ n, s.heap n =
    if n ∈ done then clearNextNodes scheduled (r.heap n) else r.heap n
  memory : s.memory = r.memory
  inputs : InputsInitialised r
    (fun n => n ∈ done ∨ ∃ a ∈ done, some n ∈ (r.heap a).nextNodes) s
  outputs : ∀ n ∈ done, s.outputMemoryBlocks[(r.heap n).nodeName]? =
      some (List.replicate (r.heap n).nextNodes.length none) ∧
    s.outputStreamSizes[(r.heap n).nodeName]? =
      some (List.replicate (r.heap n).previousNodes.length (0, 0))
  outputs_kept : ∀ name : String, (∀ n ∈ done, (r.heap n).nodeName ≠ name) →
    s.outputMemoryBlocks[name]? = r.outputMemoryBlocks[name]? ∧
      s.outputStreamSizes[name]? = r.outputStreamSizes[name]?

theorem Initialised.initial (r : RunData) (scheduled : List NodeId) :
    Initialised r scheduled [] r := by
  refine ⟨by simp, rfl, ⟨fun _ _ => ⟨rfl, rfl⟩, ?_, by simp⟩, by simp,
    fun _ _ => ⟨rfl, rfl⟩⟩
  exact fun name hnone => .inl ⟨hnone, rfl⟩

/-- Nodes that have their vectors feed nodes of the run only. -/
theorem Initialised.next_mem {scheduled : List NodeId}
    (hs : Initialised r scheduled done s) (hn : n ∈ done) {b : NodeId}
    (hb : some b ∈ (s.heap n).nextNodes) : b ∈ scheduled := by
  rw [hs.heap, if_pos hn, clearNextNodes, List.mem_map] at hb
  obtain ⟨pointer, -, hb⟩ := hb
  split at hb
  · cases hb
  · next hin =>
      subst hb
      simpa [isNodeMissingFromTheVector] using hin

theorem Initialised.sameButNext {scheduled : List NodeId}
    (hs : Initialised r scheduled done s) : SameButNext r.heap s.heap := by
  intro m
  rw [hs.heap m]
  split <;> rfl

/-- One more node. -/
theorem Initialised.step {scheduled : List NodeId}
    (hs : Initialised r scheduled done s) (hn : n ∉ done)
    (hnew : ∀ b ∈ done, (r.heap b).nodeName ≠ (r.heap n).nodeName)
    (hfresh : r.outputMemoryBlocks[(r.heap n).nodeName]? = none ∧
      r.outputStreamSizes[(r.heap n).nodeName]? = none) :
    Initialised r scheduled (done ++ [n]) (initialiseNode scheduled s n) := by
  have hnode : s.heap n = r.heap n := by rw [hs.heap, if_neg hn]
  have hfirst := initialiseInputs_same s n
  have hfirstIn := hs.inputs.initialiseInputs (n := n) (by rw [hnode])
    (by rw [hnode])
  generalize hs₁ : initialiseInputs s n = s₁ at hfirst hfirstIn
  have hsecond : (initialiseOutputs s₁ n).heap = s₁.heap := rfl
  obtain ⟨hthird, hthirdIn⟩ := initialiseNextNodes
    (s := initialiseOutputs s₁ n) (hfirstIn.congr (fun _ => Iff.rfl) rfl rfl)
    (by rw [hsecond, hfirst.heap]; exact hs.sameButNext)
    (r.heap n).nextNodes
  have hrun : initialiseNode scheduled s n =
      { (r.heap n).nextNodes.foldl initialiseNextNode (initialiseOutputs s₁ n)
        with
        heap := ((r.heap n).nextNodes.foldl initialiseNextNode
          (initialiseOutputs s₁ n)).heap.modify n (clearNextNodes scheduled) } := by
    rw [initialiseNode, hs₁]
    dsimp only
    rw [hsecond, hfirst.heap, hnode]
  rw [hrun]
  generalize (r.heap n).nextNodes.foldl initialiseNextNode
    (initialiseOutputs s₁ n) = s₃ at hthird hthirdIn
  have hheap : s₃.heap = s.heap := hthird.heap.trans hfirst.heap
  have hblocksBefore := hs.outputs_kept (r.heap n).nodeName hnew
  have hblocks : ∀ name : String, s₃.outputMemoryBlocks[name]? =
      if name = (r.heap n).nodeName then
        some (List.replicate (r.heap n).nextNodes.length none)
      else s.outputMemoryBlocks[name]? := by
    intro name
    rw [hthird.outputMemoryBlocks, initialiseOutputs, hfirst.heap, hnode,
      hfirst.outputMemoryBlocks]
    exact getElem?_insertIfNew (hblocksBefore.1.trans hfresh.1) _ _
  have hsizes : ∀ name : String, s₃.outputStreamSizes[name]? =
      if name = (r.heap n).nodeName then
        some (List.replicate (r.heap n).previousNodes.length (0, 0))
      else s.outputStreamSizes[name]? := by
    intro name
    rw [hthird.outputStreamSizes, initialiseOutputs, hfirst.heap, hnode,
      hfirst.outputStreamSizes]
    exact getElem?_insertIfNew (hblocksBefore.2.trans hfresh.2) _ _
  refine ⟨?_, ?_, ?_, ?_, ?_⟩
  · intro m
    show s₃.heap.modify n (clearNextNodes scheduled) m = _
    rw [hheap]
    by_cases hm : m = n
    · subst hm
      rw [Heap.modify_same, hnode, if_pos (by simp)]
    · rw [Heap.modify_of_ne _ hm, hs.heap]
      simp [hm]
  · exact hthird.memory.trans (hfirst.memory.trans hs.memory)
  · refine hthirdIn.congr ?_ rfl rfl
    intro m
    simp only [List.mem_append, List.mem_singleton, or_and_right, exists_or,
      exists_eq_left]
    rw [or_or_or_comm, ← or_assoc]
  · refine forall_mem_concat (fun b hb => ?_) ?_ <;>
      show s₃.outputMemoryBlocks[_]? = _ ∧ s₃.outputStreamSizes[_]? = _
    · rw [hblocks, hsizes, if_neg (hnew b hb), if_neg (hnew b hb)]
      exact hs.outputs b hb
    · rw [hblocks, hsizes, if_pos rfl, if_pos rfl]
      exact ⟨rfl, rfl⟩
  · intro name hall
    show s₃.outputMemoryBlocks[_]? = _ ∧ s₃.outputStreamSizes[_]? = _
    have hne : name ≠ (r.heap n).nodeName := (hall n (by simp)).symm
    rw [hblocks, hsizes, if_neg hne, if_neg hne]
    exact hs.outputs_kept name fun b hb => hall b (List.mem_append_left _ hb)

/-- The loop over the nodes of a run. -/
theorem initialised_of_run
    (hnames : (nodes.map fun n => (r.heap n).nodeName).Nodup)
    (hfresh : ∀ n ∈ nodes, r.outputMemoryBlocks[(r.heap n).nodeName]? = none ∧
      r.outputStreamSizes[(r.heap n).nodeName]? = none) :
    Initialised r nodes nodes (initialiseVectorSizes nodes r) := by
  suffices key : ∀ done rest s, nodes = done ++ rest →
      Initialised r nodes done s →
      Initialised r nodes nodes (rest.foldl (initialiseNode nodes) s) from
    key [] nodes r rfl (Initialised.initial r nodes)
  intro done rest
  induction rest generalizing done with
  | nil =>
      intro s hsplit hs
      rw [List.append_nil] at hsplit
      rwa [hsplit] at hs ⊢
  | cons n rest ih =>
      intro s hsplit hs
      have hnew : ∀ b ∈ done, (r.heap b).nodeName ≠ (r.heap n).nodeName := by
        intro b hb heq
        rw [hsplit, List.map_append, List.nodup_append] at hnames
        exact hnames.2.2 _ (List.mem_map_of_mem hb) _ (by simp) heq
      refine ih (done ++ [n]) _ (by simpa using hsplit) (hs.step ?_ hnew ?_)
      · exact fun hmem => hnew n hmem rfl
      · exact hfresh n (by simp [hsplit])

/-- New vectors hold no blocks. -/
theorem Initialised.holds_eq {scheduled : List NodeId}
    (hs : Initialised r scheduled done s)
    (hfresh : ∀ n ∈ done, r.outputMemoryBlocks[(r.heap n).nodeName]? = none)
    (slot : Slot) : holds s.inputMemoryBlocks s.outputMemoryBlocks slot =
      holds r.inputMemoryBlocks r.outputMemoryBlocks slot := by
  have hempty : ∀ length i : Nat,
      ((List.replicate length (none : Option Block))[i]?).join = none := by
    intro length i
    rw [List.getElem?_replicate]
    split <;> rfl
  cases slot with
  | input name i =>
      show (entry s.inputMemoryBlocks name i).join =
        (entry r.inputMemoryBlocks name i).join
      by_cases hnone : r.inputMemoryBlocks[name]? = none
      · rw [entry_eq_none hnone]
        rcases hs.inputs.fresh name hnone with ⟨h, -⟩ | ⟨n, -, -, h, -⟩
        · rw [entry_eq_none h]
        · rw [entry_eq h, hempty]
          rfl
      · unfold entry
        rw [(hs.inputs.kept name hnone).1]
  | output name i =>
      show (entry s.outputMemoryBlocks name i).join =
        (entry r.outputMemoryBlocks name i).join
      by_cases hname : ∃ n ∈ done, (r.heap n).nodeName = name
      · obtain ⟨n, hn, rfl⟩ := hname
        rw [entry_eq_none (hfresh n hn), entry_eq (hs.outputs n hn).1, hempty]
        rfl
      · unfold entry
        rw [(hs.outputs_kept name fun n hn heq => hname ⟨n, hn, heq⟩).1]

end Initialise

end Orkhestra.Ports.RunSetup
