import Orkhestra.Ports.ActiveStreams
import Orkhestra.Ports.ElasticModuleChecker
import Orkhestra.Verified.Pieces

/-!
# The channels of a merge sort

`SetMultiChannelSetupData` cuts the input stream of a merge sort into channels.
The run check has compared the records with the channels of the module, so the
pieces are as many as the module takes, and every record is in one of them.
-/

namespace Orkhestra.Ports.MergeSortChannels

open Orkhestra.Verified.Checked
open Orkhestra.Verified.Pieces
open Orkhestra.Ports.QuerySchedulingData
open Orkhestra.Ports.QueryManager
open Orkhestra.Ports.DMACrossbarSpecifier
open Orkhestra.Ports.DMA
open Orkhestra.Ports.DMASetup
open Orkhestra.Ports.DMABurst
open Orkhestra.Ports.ActiveStreams
open Orkhestra.Ports.ElasticModuleChecker

/-! ## The partition -/

/-- The channels take the records of the stream one after the other: all
channels of the module, first the full ones, then the rest, then empty ones.  The
address of a channel is that of its first record unless its offset leaves
`int`. -/
structure PartitionsStream (s : StreamInitData)
    (channels : List DMAChannelSetupData) : Prop where
  ids : channels.map (·.channelId) =
    (List.range s.maxChannelCount.toNat).map fun (j : Nat) => (j : Int)
  count_le : ∀ c ∈ channels, 0 ≤ c.recordCount ∧
    c.recordCount ≤ s.recordsPerChannel
  sum_eq : (channels.map (·.recordCount)).sum = s.streamRecordCount
  start : ∀ (j : Nat) (c : DMAChannelSetupData), channels[j]? = some c →
    c.recordCount ≠ 0 →
      (IsInt (s.streamRecordSize * (s.recordsPerChannel * j)) →
        c.streamAddress = addressOf s.physicalAddress
          (s.streamRecordSize * (s.recordsPerChannel * j))) ∧
      s.recordsPerChannel * j =
        ((channels.take j).map (·.recordCount)).sum
  empty : ∀ (j : Nat) (c : DMAChannelSetupData), channels[j]? = some c →
    c.recordCount = 0 →
      c.streamAddress = addressOf s.physicalAddress 0 ∧
      ∀ c' ∈ channels.drop j, c'.recordCount = 0
  owner : ∀ r : Int, 0 ≤ r → r < s.streamRecordCount →
    ∃! j : Nat, ∃ c, channels[j]? = some c ∧
      s.recordsPerChannel * j ≤ r ∧
      r < s.recordsPerChannel * j + c.recordCount

/-- Channel `j` of a stream of `n` records with `p` records in a channel. -/
def channelOf (s : StreamInitData) (n p j : Nat) : DMAChannelSetupData where
  streamAddress := addressOf s.physicalAddress
    (if j * p < n then
      wrapInt (s.streamRecordSize * wrapInt (s.recordsPerChannel * j))
    else 0)
  recordCount := pieceSize n p j
  channelId := j

section Channels

variable {s : StreamInitData} {n p m : Nat}

theorem activeChannelCount_eq (hp : 0 < p) :
    ((n : Int) + p - 1).tdiv p = (pieceCount n p : Nat) := by
  rw [show (n : Int) + p - 1 = ((n + p - 1 : Nat) : Int) by omega, pieceCount]
  exact (Int.ofNat_tdiv _ _).symm

theorem activeChannel_eq (hn : s.streamRecordCount = n)
    (hrecords : s.recordsPerChannel = p) (hp : 0 < p) {j : Nat}
    (hj : j < pieceCount n p) :
    activeChannel s (pieceCount n p : Nat) j = channelOf s n p j := by
  have hlast : (j : Int) = (pieceCount n p : Int) - 1 ↔
      j + 1 = pieceCount n p := by
    omega
  have hmod : (n : Int).tmod p = ((n % p : Nat) : Int) :=
    (Int.ofNat_tmod n p).symm
  simp only [activeChannel, channelOf, (lt_pieceCount_iff hp).mp hj, if_true,
    DMAChannelSetupData.mk.injEq, true_and, and_true]
  simp only [pieceSize_eq hp hj, hn, hrecords, hmod, hlast, ne_eq,
    Int.natCast_eq_zero]
  split <;> rfl

theorem unusedChannel_eq (hp : 0 < p) {j : Nat} (hj : pieceCount n p ≤ j) :
    unusedChannel s j = channelOf s n p j := by
  have hend : n ≤ j * p := by
    have := mt (lt_pieceCount_iff (n := n) (j := j) hp).mpr (by omega)
    omega
  simp only [unusedChannel, channelOf, (pieceSize_eq_zero_iff hp).mpr hend,
    Nat.not_lt.mpr hend, if_false, Nat.cast_zero]

/-- All channels in closed form. -/
theorem setMultiChannelSetupData_eq (hn : s.streamRecordCount = n)
    (hrecords : s.recordsPerChannel = p) (hmax : s.maxChannelCount = m)
    (hp : 0 < p) (hfits : n ≤ m * p) :
    setMultiChannelSetupData s =
      .ok (m, (List.range m).map (channelOf s n p)) := by
  have hne : (p : Int) ≠ 0 := by omega
  have hle : pieceCount n p ≤ m := by
    have := mt (lt_pieceCount_iff (n := n) (j := m) hp).mp (by omega)
    omega
  obtain ⟨rest, rfl⟩ := Nat.exists_eq_add_of_le hle
  have hrest : (((pieceCount n p + rest : Nat) : Int) -
      (pieceCount n p : Nat)).toNat = rest := by
    omega
  have hactive : (List.range (pieceCount n p)).map
      (activeChannel s (pieceCount n p : Nat)) =
      (List.range (pieceCount n p)).map (channelOf s n p) :=
    List.map_congr_left fun j hj =>
      activeChannel_eq hn hrecords hp (List.mem_range.mp hj)
  have hunused : (List.range rest).map
      (fun k : Nat => unusedChannel s ((pieceCount n p : Nat) + k)) =
      (List.range rest).map (fun k => channelOf s n p (pieceCount n p + k)) :=
    List.map_congr_left fun k _ => by
      rw [← unusedChannel_eq hp (Nat.le_add_right _ k)]
      push_cast
      rfl
  simp only [setMultiChannelSetupData, hn, hrecords, divide, hne, if_false,
    ok_bind, activeChannelCount_eq hp, hmax, hrest, Int.toNat_natCast, hactive,
    hunused]
  rw [List.range_add, List.map_append, List.map_map]
  rfl

theorem getElem?_map_channelOf {j : Nat} {c : DMAChannelSetupData} :
    ((List.range m).map (channelOf s n p))[j]? = some c ↔
      j < m ∧ channelOf s n p j = c := by
  rw [List.getElem?_map, Option.map_eq_some_iff]
  constructor
  · rintro ⟨k, hk, rfl⟩
    obtain ⟨hlt, hk⟩ := List.getElem?_eq_some_iff.mp hk
    rw [List.getElem_range] at hk
    subst hk
    exact ⟨by simpa using hlt, rfl⟩
  · rintro ⟨hlt, rfl⟩
    exact ⟨j, by simp [hlt], rfl⟩

/-- The records of the first channels. -/
theorem sum_map_channelOf (k : Nat) :
    (((List.range k).map (channelOf s n p)).map (·.recordCount)).sum =
      ((min n (k * p) : Nat) : Int) := by
  rw [← sum_pieceSize, List.map_map]
  induction k with
  | zero => rfl
  | succ k ih =>
      rw [List.range_succ, List.map_append, List.map_append, List.sum_append,
        List.sum_append, ih]
      simp [channelOf]

theorem partitionsStream_channelOf (hn : s.streamRecordCount = n)
    (hrecords : s.recordsPerChannel = p) (hmax : s.maxChannelCount = m)
    (hp : 0 < p) (hfits : n ≤ m * p) :
    PartitionsStream s ((List.range m).map (channelOf s n p)) := by
  refine ⟨?_, ?_, ?_, ?_, ?_, ?_⟩
  · rw [hmax, Int.toNat_natCast, List.map_map]
    rfl
  · intro c hc
    obtain ⟨j, -, rfl⟩ := List.mem_map.mp hc
    have hle := pieceSize_le n p j
    rw [hrecords]
    simp only [channelOf]
    omega
  · rw [sum_map_channelOf, hn, Nat.min_eq_left hfits]
  · intro j c hc hne
    obtain ⟨hj, rfl⟩ := getElem?_map_channelOf.mp hc
    have hstart : j * p < n := by
      rw [← pieceSize_pos_iff hp]
      simp only [channelOf] at hne
      omega
    refine ⟨fun hint => ?_, ?_⟩
    · simp only [channelOf, hstart, if_true, wrapInt_mul_wrapInt,
        wrapInt_of_isInt hint]
    · rw [← List.map_take, List.take_range, Nat.min_eq_left hj.le,
        sum_map_channelOf, Nat.min_eq_right hstart.le, hrecords, Int.mul_comm]
      push_cast
      rfl
  · intro j c hc hzero
    obtain ⟨hj, rfl⟩ := getElem?_map_channelOf.mp hc
    have hend : n ≤ j * p := by
      rw [← pieceSize_eq_zero_iff hp]
      simp only [channelOf] at hzero
      omega
    refine ⟨by simp only [channelOf, Nat.not_lt.mpr hend, if_false], ?_⟩
    intro c' hc'
    obtain ⟨i, hi⟩ := List.mem_iff_getElem?.mp hc'
    rw [List.getElem?_drop] at hi
    obtain ⟨-, rfl⟩ := getElem?_map_channelOf.mp hi
    have hmul := Nat.mul_le_mul_right p (Nat.le_add_right j i)
    simp only [channelOf, (pieceSize_eq_zero_iff hp).mpr (hend.trans hmul),
      Nat.cast_zero]
  · intro r hr0 hr
    obtain ⟨r, rfl⟩ := Int.eq_ofNat_of_zero_le hr0
    rw [hn] at hr
    obtain ⟨j, ⟨hlow, hhigh⟩, hunique⟩ :=
      existsUnique_piece hp (show r < n by omega)
    have hmem : ∀ k : Nat, (∃ c, ((List.range m).map (channelOf s n p))[k]? =
        some c ∧ s.recordsPerChannel * k ≤ r ∧
          (r : Int) < s.recordsPerChannel * k + c.recordCount) ↔
        k < m ∧ k * p ≤ r ∧ r < k * p + pieceSize n p k := by
      intro k
      rw [hrecords, Int.mul_comm]
      constructor
      · rintro ⟨c, hc, hlow, hhigh⟩
        obtain ⟨hk, rfl⟩ := getElem?_map_channelOf.mp hc
        simp only [channelOf] at hhigh
        exact ⟨hk, by exact_mod_cast hlow, by exact_mod_cast hhigh⟩
      · rintro ⟨hk, hlow, hhigh⟩
        refine ⟨_, getElem?_map_channelOf.mpr ⟨hk, rfl⟩,
          by exact_mod_cast hlow, ?_⟩
        simp only [channelOf]
        exact_mod_cast hhigh
    have hj : j < m := by
      refine Nat.lt_of_mul_lt_mul_right (a := p) ?_
      omega
    exact ⟨j, (hmem j).mpr ⟨hj, hlow, hhigh⟩,
      fun k hk => hunique k ((hmem k).mp hk).2⟩

end Channels

/-! ## The streams of a run -/

section Run

variable {board : Board} {nodes : List AcceleratedQueryNode}

theorem mem_findIOStreams {streams : List StreamDataParameters}
    {params : List (List Int)} {multichannel : Bool} {t t' : FoundStreams}
    (h : findIOStreams board streams params multichannel t = .ok t')
    {s : StreamInitData} (hs : s ∈ t'.1) :
    s ∈ t.1 ∨ ∃ stream ∈ streams,
      streamInitData board params multichannel stream = .ok s := by
  have key := foldlM_invariant (fun done (u : FoundStreams) => ∀ s ∈ u.1,
    s ∈ t.1 ∨ ∃ stream ∈ done,
      streamInitData board params multichannel stream = .ok s)
    streams (fun s hs => .inl hs) ?_ h
  · exact key s hs
  · intro before stream after u u' _ hu hstep s hs
    unfold findIOStream at hstep
    split at hstep
    · simp only [bind_eq_ok, Except.ok.injEq] at hstep
      obtain ⟨found, hfound, status, -, rfl⟩ := hstep
      rcases List.mem_append.mp hs with hs | hs
      · refine (hu s hs).imp_right ?_
        rintro ⟨stream', hstream', hdata⟩
        exact ⟨stream', List.mem_append_left _ hstream', hdata⟩
      · rw [List.mem_singleton] at hs
        subst hs
        exact .inr ⟨stream, by simp, hfound⟩
    · rw [← Except.ok.inj hstep] at hs
      refine (hu s hs).imp_right ?_
      rintro ⟨stream', hstream', hdata⟩
      exact ⟨stream', List.mem_append_left _ hstream', hdata⟩

/-- An input stream that is found belongs to a node of the run. -/
theorem mem_findNodeStreams {t t' : FoundStreams × FoundStreams}
    (h : nodes.foldlM (findNodeStreams board) t = .ok t')
    {s : StreamInitData} (hs : s ∈ t'.1.1) :
    s ∈ t.1.1 ∨ ∃ node ∈ nodes, ∃ stream ∈ node.inputStreams,
      streamInitData board node.operationParameters
        (node.operationType = .kMergeSort) stream = .ok s := by
  have key := foldlM_invariant (fun done (u : FoundStreams × FoundStreams) =>
    ∀ s ∈ u.1.1, s ∈ t.1.1 ∨ ∃ node ∈ done, ∃ stream ∈ node.inputStreams,
      streamInitData board node.operationParameters
        (node.operationType = .kMergeSort) stream = .ok s)
    nodes (fun s hs => .inl hs) ?_ h
  · exact key s hs
  · intro before node after u u' _ hu hstep s hs
    simp only [findNodeStreams, bind_eq_ok, Except.ok.injEq] at hstep
    obtain ⟨inputs, hinputs, outputs, -, rfl⟩ := hstep
    rcases mem_findIOStreams hinputs hs with hs | ⟨stream, hstream, hdata⟩
    · refine (hu s hs).imp_right ?_
      rintro ⟨node', hnode', hdata⟩
      exact ⟨node', List.mem_append_left _ hnode', hdata⟩
    · exact .inr ⟨node, by simp, stream, hstream, hdata⟩

/-- A stream with several channels is the one of a merge sort, with the
parameters of its module. -/
theorem streamInitData_multi {node : AcceleratedQueryNode}
    {stream : StreamDataParameters} {s : StreamInitData}
    (h : streamInitData board node.operationParameters
      (node.operationType = .kMergeSort) stream = .ok s)
    (hmulti : s.maxChannelCount ≠ -1) :
    node.operationType = .kMergeSort ∧
      s.streamRecordCount = stream.streamRecordCount ∧
      ∃ params rest, node.operationParameters = params :: rest ∧
        params[0]? = some s.maxChannelCount ∧
        params[1]? = some s.recordsPerChannel := by
  unfold streamInitData at h
  by_cases hsort : node.operationType = .kMergeSort
  · simp only [hsort, decide_true, if_true, bind_eq_ok, readAt_eq_ok,
      Except.ok.injEq] at h
    obtain ⟨params, hparams, count, hcount, records, hrecords, rfl⟩ := h
    cases hlist : node.operationParameters with
    | nil => simp [hlist] at hparams
    | cons first rest =>
        rw [hlist, List.getElem?_cons_zero, Option.some.injEq] at hparams
        subst hparams
        exact ⟨hsort, rfl, first, rest, rfl, hcount, hrecords⟩
  · simp only [hsort, decide_false, Bool.false_eq_true, if_false,
      Except.ok.injEq] at h
    rw [← h] at hmulti
    exact absurd rfl hmulti

/-- A run that is accepted has room for the records of its merge sorts. -/
theorem records_fit_channels {inputs outputs : FoundStreams}
    {inputStatus outputStatus : StreamStatus}
    (hvalid : isRunValid nodes = .ok true)
    (hfound : nodes.foldlM (findNodeStreams board)
      (([], inputStatus), ([], outputStatus)) = .ok (inputs, outputs))
    {s : StreamInitData} (hs : s ∈ inputs.1) (hmulti : s.maxChannelCount ≠ -1) :
    s.streamRecordCount ≤ s.maxChannelCount * s.recordsPerChannel := by
  rcases mem_findNodeStreams hfound hs with
    hs | ⟨node, hnode, stream, hstream, hdata⟩
  · exact absurd hs (by simp)
  · obtain ⟨hsort, hcount, params, rest, hparams, hmax, hrecords⟩ :=
      streamInitData_multi hdata hmulti
    obtain ⟨valid, hrun, hiff⟩ := isRunValid_total nodes
    rw [hvalid, Except.ok.injEq] at hrun
    obtain ⟨stream', max, records, hstreams, hlist, hfits⟩ :=
      hiff.mp hrun.symm node hnode hsort
    rw [hstreams, List.mem_singleton] at hstream
    rw [hparams, List.cons.injEq] at hlist
    rw [hlist.1, List.getElem?_cons_zero, Option.some.injEq] at hmax
    rw [hlist.1, List.getElem?_cons_succ, List.getElem?_cons_zero,
      Option.some.injEq] at hrecords
    rw [hcount, hstream, ← hmax, ← hrecords]
    exact hfits

end Run

/-- A merge sort of 25 records with four channels of ten, and its filter. -/
def sortedRun : List AcceleratedQueryNode :=
  [{ inputStreams := [⟨0, 4, 25, some 0, [], 1⟩]
     outputStreams := [⟨0, 4, 0, none, [], 1⟩]
     operationType := .kMergeSort
     operationModuleLocation := 1
     operationParameters := [[4, 10]] },
   { inputStreams := [⟨0, 4, 25, none, [], 1⟩]
     outputStreams := [⟨0, 4, 0, some 1, [], 1⟩]
     operationType := .kFilter
     operationModuleLocation := 2
     operationParameters := [] }]

def sortedStream : StreamInitData where
  streamId := 0
  streamRecordSize := 4
  streamRecordCount := 25
  physicalAddress := 4096
  streamSpecification := []
  inputChunksPerRecord := 1
  maxChannelCount := 4
  recordsPerChannel := 10

example : setMultiChannelSetupData sortedStream =
    .ok (4, [⟨4096, 10, 0⟩, ⟨4256, 10, 1⟩, ⟨4416, 5, 2⟩, ⟨4096, 0, 3⟩]) := by
  decide

end Orkhestra.Ports.MergeSortChannels
