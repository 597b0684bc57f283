import Orkhestra.Ports.MergeSortChannels

/-!
# The fetch size of a merge sort

The DMA engine computes the burst of a merge sort from the size of a record as
it is stored, the module from the size behind the projection.  Both divide the
sort buffer by the chunks of the projected record; the size only decides whether
a fetch of an odd number of records is allowed, and no smaller fetch is left
where it is not.  So the two sides agree whenever they both complete.
-/

namespace Orkhestra.Ports.FetchAgreement

open Orkhestra.Verified.Checked
open Orkhestra.Ports.QuerySchedulingData
open Orkhestra.Ports.QueryManager
open Orkhestra.Ports.StreamParameterCalculator
open Orkhestra.Ports.MergeSortSetup
open Orkhestra.Ports.DMACrossbarSpecifier
open Orkhestra.Ports.DMA
open Orkhestra.Ports.DMASetup
open Orkhestra.Ports.DMABurst
open Orkhestra.Ports.DMADomain
open Orkhestra.Ports.ActiveStreams
open Orkhestra.Ports.MergeSortChannels

/-! ## The set-up of the module -/

/-- `FPGAManager::GetStreamRecordSize`. -/
def getStreamRecordSize (streamParameters : StreamDataParameters) : Int :=
  if streamParameters.streamSpecification = [] then
    streamParameters.streamRecordSize
  else streamParameters.streamSpecification.length

/-- The case of a merge sort in `SetupQueryAcceleration`. -/
def setupMergeSortNode (queryNode : AcceleratedQueryNode) :
    Outcome (List MergeSortCall) := do
  let inputStream ← readAt queryNode.inputStreams 0
  setupMergeSortModule inputStream.streamId (getStreamRecordSize inputStream) 0
    true

/-- The calls for a record of the given chunks. -/
theorem setupMergeSortModule_calls {streamId c : Nat} {recordSize : Int}
    {calls : List MergeSortCall} (hc : 0 < c)
    (hchunks : calculateChunksPerRecord recordSize = c)
    (h : setupMergeSortModule streamId recordSize 0 true = .ok calls) :
    (∀ (id : Nat) (chunks : Int), .setStreamParams id chunks ∈ calls ↔
      id = streamId ∧ chunks = c) ∧
    ∀ records : Int, .setRecordCountPerFetch records ∈ calls ↔
      records = recordsPerFetch c := by
  unfold setupMergeSortModule at h
  simp only [hchunks] at h
  split at h
  · cases h
  · simp only [bind_eq_ok, Except.ok.injEq] at h
    obtain ⟨sortBufferSize, hbuffer, records, hrecords, rfl⟩ := h
    have hfetch : (do
        let sortBufferSize ← calculateSortBufferSize 2048 64 c
        calculateRecordCountPerFetch sortBufferSize recordSize) =
        .ok records := by rw [hbuffer, ok_bind, hrecords]
    rcases recordCountPerFetch_cases hc recordSize with
      ⟨-, hok⟩ | ⟨-, what, herror⟩
    · rw [hok, Except.ok.injEq] at hfetch
      subst hfetch
      simp
    · rw [herror] at hfetch
      cases hfetch

/-! ## The set-up of the stream -/

section Stream

variable {s : StreamInitData} {d : DMAStreamSetupData}
  {writes : List RegisterWrite} {bufferSize : Int} {i : Nat}

theorem setUpDMAIOStream_input (hinput : d.isInputStream = true)
    (h : setUpDMAIOStream d = .ok writes) :
    setRecordSize d.streamId d.chunksPerRecord ∈ writes ∧
      (d.activeChannelCount ≠ -1 →
        setRecordsPerBurstForMultiChannelStreams d.streamId
          d.recordsPerDdrBurst ∈ writes) := by
  unfold setUpDMAIOStream at h
  simp only [hinput, if_true, bind_eq_ok] at h
  obtain ⟨params, -, h⟩ := h
  split at h
  · next hsingle =>
      simp only [bind_eq_ok, Except.ok.injEq] at h
      obtain ⟨channel, -, rfl⟩ := h
      exact ⟨by simp, fun hmulti => absurd hsingle hmulti⟩
  · rw [Except.ok.injEq] at h
    subst h
    exact ⟨by simp, fun _ => by simp⟩

/-- What is written for an input stream. -/
theorem setupStream_input
    (h : setupStream true bufferSize s i = .ok (d, writes)) :
    d.streamId = s.streamId ∧
      d.chunksPerRecord =
        calculateChunksPerRecord (streamSpecificationOf s).length ∧
      setRecordSize s.streamId d.chunksPerRecord ∈ writes ∧
      (s.maxChannelCount ≠ -1 →
        setRecordsPerBurstForMultiChannelStreams s.streamId
          d.recordsPerDdrBurst ∈ writes) := by
  simp only [setupStream, calculateDMAStreamSetupData, chunksPerRecordOf,
    if_true, bind_eq_ok, Except.ok.injEq, Prod.mk.injEq] at h
  obtain ⟨⟨active, channels⟩, hactive, _, rfl, d₁,
    ⟨ids, -, records, -, rfl⟩, ioWrites, hio, crossbar, hcrossbar, rfl, rfl⟩ := h
  obtain ⟨xs, rfl⟩ := calculateCrossbarSetupData_frame hcrossbar
  obtain ⟨hsize, hburst⟩ := setUpDMAIOStream_input rfl hio
  refine ⟨rfl, rfl, List.mem_append_left _ hsize, fun hmulti => ?_⟩
  refine List.mem_append_left _ (hburst ?_)
  rw [if_pos hmulti] at hactive
  simp only [setMultiChannelSetupData, bind_eq_ok, Except.ok.injEq,
    Prod.mk.injEq] at hactive
  obtain ⟨_, -, rfl, -⟩ := hactive
  exact hmulti

end Stream

/-! ## The streams of a run -/

section Run

variable {board : Board} {nodes : List AcceleratedQueryNode}

/-- A stream with memory is found. -/
theorem findIOStreams_finds {streams : List StreamDataParameters}
    {params : List (List Int)} {multichannel : Bool} {t t' : FoundStreams}
    (h : findIOStreams board streams params multichannel t = .ok t') :
    (∀ s ∈ t.1, s ∈ t'.1) ∧
      ∀ stream ∈ streams, streamAddress board stream ≠ 0 →
        ∃ s ∈ t'.1, streamInitData board params multichannel stream = .ok s := by
  refine foldlM_invariant (fun done (u : FoundStreams) =>
    (∀ s ∈ t.1, s ∈ u.1) ∧
      ∀ stream ∈ done, streamAddress board stream ≠ 0 →
        ∃ s ∈ u.1, streamInitData board params multichannel stream = .ok s)
    streams ⟨fun _ hs => hs, by simp⟩ ?_ h
  intro before stream after u u' _ hu hstep
  have hgrows : ∀ s ∈ u.1, s ∈ u'.1 := by
    intro s hs
    unfold findIOStream at hstep
    split at hstep
    · simp only [bind_eq_ok, Except.ok.injEq] at hstep
      obtain ⟨found, -, status, -, rfl⟩ := hstep
      exact List.mem_append_left _ hs
    · rwa [← Except.ok.inj hstep]
  refine ⟨fun s hs => hgrows s (hu.1 s hs),
    forall_mem_concat (fun stream' hbefore hmemory => ?_) fun hmemory => ?_⟩
  · obtain ⟨s, hs, hdata⟩ := hu.2 stream' hbefore hmemory
    exact ⟨s, hgrows s hs, hdata⟩
  · rw [findIOStream, if_pos hmemory] at hstep
    simp only [bind_eq_ok, Except.ok.injEq] at hstep
    obtain ⟨found, hfound, status, -, rfl⟩ := hstep
    exact ⟨found, by simp, hfound⟩

theorem findNodeStreams_finds {t t' : FoundStreams × FoundStreams}
    (h : nodes.foldlM (findNodeStreams board) t = .ok t')
    {node : AcceleratedQueryNode} (hnode : node ∈ nodes)
    {stream : StreamDataParameters} (hstream : stream ∈ node.inputStreams)
    (hmemory : streamAddress board stream ≠ 0) :
    ∃ s ∈ t'.1.1, streamInitData board node.operationParameters
      (node.operationType = .kMergeSort) stream = .ok s := by
  have key := foldlM_invariant (fun done (u : FoundStreams × FoundStreams) =>
    ∀ node ∈ done, ∀ stream ∈ node.inputStreams,
      streamAddress board stream ≠ 0 →
      ∃ s ∈ u.1.1, streamInitData board node.operationParameters
        (node.operationType = .kMergeSort) stream = .ok s)
    nodes (by simp) ?_ h
  · exact key node hnode stream hstream hmemory
  · intro before node after u u' _ hu hstep
    simp only [findNodeStreams, bind_eq_ok, Except.ok.injEq] at hstep
    obtain ⟨inputs, hinputs, outputs, -, rfl⟩ := hstep
    obtain ⟨hgrows, hfinds⟩ := findIOStreams_finds hinputs
    refine forall_mem_concat (fun node' hbefore stream hstream hmemory => ?_)
      hfinds
    obtain ⟨s, hs, hdata⟩ := hu node' hbefore stream hstream hmemory
    exact ⟨s, hgrows s hs, hdata⟩

end Run

/-! ## Agreement -/

/-- The registers of the stream and the calls to the module have the same
chunks and, for a stream with several channels, the same records. -/
structure FetchesAgree (streamId : Nat) (isMultichannelStream : Prop)
    (d : DMAStreamSetupData) (writes : List RegisterWrite)
    (calls : List MergeSortCall) : Prop where
  chunks : setRecordSize streamId d.chunksPerRecord ∈ writes ∧
    ∀ id chunks, .setStreamParams id chunks ∈ calls ↔
      id = streamId ∧ chunks = d.chunksPerRecord
  records : isMultichannelStream →
    setRecordsPerBurstForMultiChannelStreams streamId d.recordsPerDdrBurst ∈
      writes ∧
    ∀ records, .setRecordCountPerFetch records ∈ calls ↔
      records = d.recordsPerDdrBurst

/-- The size of a record behind the projection is what the DMA counts chunks
of. -/
theorem calculateChunksPerRecord_getStreamRecordSize
    {board : Board} {params : List (List Int)}
    {stream : StreamDataParameters} {s : StreamInitData}
    (hdata : streamInitData board params true stream = .ok s)
    (hpos : 0 < calculateChunksPerRecord (streamSpecificationOf s).length) :
    calculateChunksPerRecord (getStreamRecordSize stream) =
      calculateChunksPerRecord (streamSpecificationOf s).length := by
  simp only [streamInitData, if_true, bind_eq_ok, Except.ok.injEq] at hdata
  obtain ⟨moduleParameters, -, count, -, records, -, rfl⟩ := hdata
  unfold getStreamRecordSize
  unfold streamSpecificationOf at hpos ⊢
  by_cases hempty : stream.streamSpecification = []
  · simp only [hempty, if_true, List.length_map, List.length_range] at hpos ⊢
    have hsize : 0 ≤ stream.streamRecordSize := by
      by_contra hneg
      rw [Int.toNat_of_nonpos (Int.le_of_lt (Int.not_le.mp hneg))] at hpos
      exact absurd hpos (by decide)
    rw [Int.toNat_of_nonneg hsize]
  · simp only [hempty, if_false]

theorem fetchesAgree_of_setups {board : Board} {params : List (List Int)}
    {stream : StreamDataParameters} {s : StreamInitData} {bufferSize : Int}
    {i : Nat} {d : DMAStreamSetupData} {writes : List RegisterWrite}
    {calls : List MergeSortCall}
    (hdata : streamInitData board params true stream = .ok s)
    (hdma : setupStream true bufferSize s i = .ok (d, writes))
    (hcalls : setupMergeSortModule stream.streamId (getStreamRecordSize stream) 0
      true = .ok calls) :
    FetchesAgree stream.streamId (s.maxChannelCount ≠ -1) d writes calls := by
  obtain ⟨hid, hchunks, hsize, hburst⟩ := setupStream_input hdma
  obtain ⟨-, hpos, hrecords, -⟩ := setupStream_ok hdma
  have hstream : s.streamId = stream.streamId := by
    simp only [streamInitData, if_true, bind_eq_ok, Except.ok.injEq] at hdata
    obtain ⟨_, -, _, -, _, -, rfl⟩ := hdata
    rfl
  rw [hstream] at hsize hburst
  have hcount : recordChunks true s = d.chunksPerRecord := hchunks.symm
  rw [hcount] at hpos hrecords
  obtain ⟨c, hc⟩ := Int.eq_ofNat_of_zero_le (Int.le_of_lt hpos)
  rw [hc] at hpos hrecords
  have hmodule : calculateChunksPerRecord (getStreamRecordSize stream) = c := by
    rw [calculateChunksPerRecord_getStreamRecordSize hdata (by omega), ← hchunks,
      hc]
  obtain ⟨hparams, hfetch⟩ :=
    setupMergeSortModule_calls (by omega) hmodule hcalls
  refine ⟨⟨hsize, fun id chunks => ?_⟩, fun hmulti => ⟨hburst hmulti, ?_⟩⟩
  · rw [hparams, hc]
  · rw [decide_eq_true hmulti] at hrecords
    rw [(recordsPerBurst_multi (by omega) hrecords).1]
    exact hfetch

/-- For each merge sort of a run: when both set-ups complete, the DMA engine
fetches as many records at once from its input as the module expects, of as many
chunks. -/
theorem fetch_sizes_agree {board : Board} {nodes : List AcceleratedQueryNode}
    {inputs outputs : FoundStreams} {inputStatus outputStatus : StreamStatus}
    {node : AcceleratedQueryNode} {stream : StreamDataParameters}
    {setup : DMAModuleSetup} {calls : List MergeSortCall}
    (hfound : nodes.foldlM (findNodeStreams board)
      (([], inputStatus), ([], outputStatus)) = .ok (inputs, outputs))
    (hnode : node ∈ nodes) (hsort : node.operationType = .kMergeSort)
    (hstream : node.inputStreams[0]? = some stream)
    (hmemory : streamAddress board stream ≠ 0)
    (hdma : setupDMAModule inputs.1 true = .ok setup)
    (hcalls : setupMergeSortNode node = .ok calls) :
    ∃ s ∈ inputs.1, ∃ d writes,
      streamInitData board node.operationParameters true stream = .ok s ∧
      (d, writes) ∈ setup.streams ∧
      (∃ bufferSize i, setupStream true bufferSize s i = .ok (d, writes)) ∧
      FetchesAgree stream.streamId (s.maxChannelCount ≠ -1) d writes calls := by
  obtain ⟨s, hs, hdata⟩ := findNodeStreams_finds hfound hnode
    (List.mem_of_getElem? hstream) hmemory
  rw [decide_eq_true hsort] at hdata
  obtain ⟨bufferSize, hsetups⟩ := setupDMAModule_ok hdma
  obtain ⟨k, hk, rfl⟩ := List.getElem_of_mem hs
  have hk' : k < setup.streams.length := by rwa [← hsetups.length_eq]
  obtain ⟨i, hsetup⟩ := hsetups.get hk hk'
  rw [setupMergeSortNode, readAt_eq_ok.mpr hstream, ok_bind] at hcalls
  exact ⟨inputs.1[k], hs, setup.streams[k].1, setup.streams[k].2, hdata,
    List.getElem_mem hk', ⟨bufferSize, i, hsetup⟩,
    fetchesAgree_of_setups hdata hsetup hcalls⟩

/-- A merge sort of records of 20 integers, of which four are left by the
projection. -/
def projectedSort : AcceleratedQueryNode where
  inputStreams := [⟨0, 20, 25, some 0, [3, 1, 18, 0], 1⟩]
  outputStreams := [⟨0, 4, 0, some 1, [], 1⟩]
  operationType := .kMergeSort
  operationModuleLocation := 1
  operationParameters := [[4, 10]]

def projectedStream : StreamInitData where
  streamId := 0
  streamRecordSize := 20
  streamRecordCount := 25
  physicalAddress := 4096
  streamSpecification := [3, 1, 18, 0]
  inputChunksPerRecord := 1
  maxChannelCount := 4
  recordsPerChannel := 10

theorem fetch_sizes_agree_projectedSort :
    ∃ setup calls, setupDMAModule [projectedStream] true = .ok setup ∧
      setupMergeSortNode projectedSort = .ok calls ∧
      ∃ s ∈ [projectedStream], ∃ d writes,
        streamInitData sevens [[4, 10]] true
          ⟨0, 20, 25, some 0, [3, 1, 18, 0], 1⟩ = .ok s ∧
        (d, writes) ∈ setup.streams ∧
        (∃ bufferSize i, setupStream true bufferSize s i = .ok (d, writes)) ∧
        FetchesAgree 0 (s.maxChannelCount ≠ -1) d writes calls := by
  obtain ⟨setup, hsetup⟩ := setupDMAModule_total [projectedStream] true
    (by decide) (by decide +kernel)
  have hfound : ∃ outputs, [projectedSort].foldlM (findNodeStreams sevens)
      (([], noStreams), ([], noStreams)) =
      .ok (([projectedStream], Function.update noStreams ⟨0, by decide⟩ true),
        outputs) := ⟨_, rfl⟩
  obtain ⟨outputs, hfound⟩ := hfound
  exact ⟨setup, _, hsetup, rfl, fetch_sizes_agree hfound List.mem_cons_self rfl
    rfl (by decide) hsetup rfl⟩

end Orkhestra.Ports.FetchAgreement
