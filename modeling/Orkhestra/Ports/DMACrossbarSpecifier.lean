import Orkhestra.Ports.StreamParameterCalculator
import Mathlib.Data.List.Dedup

/-!
# The crossbar specifier

`DMACrossbarSpecifier`: clash detection for a column selection and the
extension of a selection for one record to a whole DDR burst.

The extension writes chunks of sixteen integers back to front: an element that
is the `k`-th to be pushed ends up at index `16 * (k / 16) + (15 - k % 16)`.
`Extended` is the closed form that the crossbar configurations build on.
-/

namespace Orkhestra.Ports.DMACrossbarSpecifier

open Orkhestra.Verified.Checked
open Orkhestra.Ports.StreamParameterCalculator

/-! ## Clash detection -/

/-- The `c`-th block of `kDatapathWidth` consecutive selections. -/
def chunkOfSpecification (spec : List Int) (c : Nat) : List Int :=
  (spec.drop (kDatapathWidth * c)).take kDatapathWidth

/-- Does inserting the keys one after the other into an empty `std::map` meet a
key that is already there? -/
def insertsTwice (keys : List Int) : Bool := !decide keys.Nodup

/-- Two different selections of one chunk must not have the same modulo. -/
def isInputClashing (spec : List Int) : Bool :=
  (List.range ((spec.length + kDatapathWidth - 1) / kDatapathWidth)).any
    fun c => insertsTwice
      ((chunkOfSpecification spec c).dedup.map (·.tmod kDatapathWidth))

/-- Selections of one position of the interface, over all chunks. -/
def currentPositionLocations (spec : List Int) (position : Nat) : List Int :=
  (List.range
    ((spec.length - position + kDatapathWidth - 1) / kDatapathWidth)).filterMap
      fun chunkId => spec[position + kDatapathWidth * chunkId]?

/-- Two selections of one position must not have the same division result. -/
def isOutputClashing (spec : List Int) : Bool :=
  if spec.length ≤ kDatapathWidth then false
  else (List.range kDatapathWidth).any fun position =>
    insertsTwice (((currentPositionLocations spec position).filter
      (fun location => location ≠ -1)).map (·.tdiv kDatapathWidth))

/-! ## Extending a specification to a burst -/

/-- `chunk_specfication` and `extended_specification`, the two vectors that
`ExtendSpecification` hands through its helpers. -/
structure SpecificationBuffer where
  chunk : List Int
  extended : List Int
  deriving DecidableEq, Repr

/-- A full chunk is moved to the end of the extended specification, mirrored. -/
def insertChunkIfFull (b : SpecificationBuffer) : SpecificationBuffer :=
  if b.chunk.length = kDatapathWidth then
    ⟨[], b.extended ++ b.chunk.reverse⟩
  else b

/-- `chunk_specfication.push_back` followed by `InsertChunkIfFull`. -/
def pushSelection (b : SpecificationBuffer) (x : Int) : SpecificationBuffer :=
  insertChunkIfFull { b with chunk := b.chunk ++ [x] }

/-- Location of integer `selection` of the record that starts at `startPoint`:
the position is reversed such that the first integer is at the LSB side. -/
def extendSelection (startPoint selection : Int) : Int :=
  if selection ≠ -1 then
    let extendedSelection := selection + startPoint
    kDatapathWidth * extendedSelection.tdiv kDatapathWidth +
      (kDatapathWidth - 1 - extendedSelection.tmod kDatapathWidth)
  else selection

def insertValidRecordData (spec : List Int) (startPoint : Int)
    (b : SpecificationBuffer) : SpecificationBuffer :=
  spec.foldl (fun b selection =>
    pushSelection b (extendSelection startPoint selection)) b

def insertJunkDataAfterRecord (startPoint endPoint junkData : Int)
    (b : SpecificationBuffer) : SpecificationBuffer :=
  (List.range (endPoint - startPoint).toNat).foldl
    (fun b _ => pushSelection b junkData) b

/-- Size and largest entry against the burst size; the maximum of an empty
range is undefined. -/
def isSpecificationValid (spec : List Int) : Outcome Bool :=
  if spec.length ≤ kDdrBurstSize then
    match spec.max? with
    | some largest => .ok (largest < kDdrBurstSize)
    | none => .error .undefined
  else .ok false

/-- One iteration over the records of a burst. -/
def insertRecord (spec : List Int) (recordSize postRecordJunkData
    junkDataEndPoint : Int) (b : SpecificationBuffer) (recordIndex : Nat) :
    SpecificationBuffer :=
  insertJunkDataAfterRecord spec.length junkDataEndPoint postRecordJunkData
    (insertValidRecordData spec (recordSize * recordIndex) b)

def extendSpecification (recordsPerDdrBurst : Int) (spec : List Int)
    (recordSize postRecordJunkData junkDataEndPoint : Int) :
    Outcome (List Int) := do
  let b := (List.range recordsPerDdrBurst.toNat).foldl
    (insertRecord spec recordSize postRecordJunkData junkDataEndPoint) ⟨[], []⟩
  if ← isSpecificationValid b.extended then
    .ok b.extended
  else
    .error (.runtimeError
      "Incorrect parameters created a specification which doesn't fit!")

/-- Integer division of two `int`s; the quotient by zero is undefined. -/
def divide (a b : Int) : Outcome Int :=
  if b = 0 then .error .undefined else .ok (a.tdiv b)

def extendSpecificationSingleChannel (recordSize : Int) (spec : List Int)
    (recordsPerDdrBurst : Int) : Outcome (List Int) := do
  extendSpecification recordsPerDdrBurst spec recordSize (-1)
    (← divide kDdrBurstSize recordsPerDdrBurst)

def extendSpecificationMultiChannel (recordSize : Int) (spec : List Int)
    (recordsPerDdrBurst chunksPerRecord : Int) : Outcome (List Int) := do
  extendSpecification recordsPerDdrBurst spec recordSize (-1)
    ((← findNextPowerOfTwo chunksPerRecord) * kDatapathWidth)

/-- `-2` denotes a backspace kind of symbol that says where a record ends, to
keep track of the garbage data between records. -/
def extendOutputSpecification (spec : List Int)
    (recordsPerDdrBurst chunksPerRecord : Int) : Outcome (List Int) := do
  extendSpecification recordsPerDdrBurst spec (chunksPerRecord * kDatapathWidth)
    (-2) (← divide kDdrBurstSize recordsPerDdrBurst)

/-! ## What a selection without clashes looks like -/

theorem insertsTwice_map_eq_false {xs : List Int} {f : Int → Int} :
    insertsTwice (xs.map f) = false ↔ (xs.map f).Nodup := by
  simp [insertsTwice]

/-- Without an input clash, two selections of one chunk with the same position
are the same selection. -/
theorem eq_of_not_isInputClashing {spec : List Int}
    (h : isInputClashing spec = false) {i i' : Nat} {s s' : Int}
    (hchunk : i / 16 = i' / 16) (hs : spec[i]? = some s)
    (hs' : spec[i']? = some s') (hmod : s.tmod 16 = s'.tmod 16) : s = s' := by
  have hi : i < spec.length := (List.getElem?_eq_some_iff.mp hs).1
  simp only [isInputClashing, kDatapathWidth_eq, List.any_eq_false,
    List.mem_range, Bool.not_eq_true, insertsTwice_map_eq_false] at h
  have hnodup := h (i / 16) (by omega)
  have hmem : ∀ {k : Nat} {x : Int}, k / 16 = i / 16 → spec[k]? = some x →
      x ∈ (chunkOfSpecification spec (i / 16)).dedup := by
    intro k x hk hx
    rw [List.mem_dedup]
    refine List.mem_of_getElem? (i := k % 16) ?_
    simp only [chunkOfSpecification, kDatapathWidth_eq]
    rw [List.getElem?_take_of_lt (by omega), List.getElem?_drop,
      show 16 * (i / 16) + k % 16 = k by omega, hx]
  exact List.inj_on_of_nodup_map hnodup (hmem rfl hs)
    (hmem hchunk.symm hs') hmod

/-- Without an output clash, two selections of one position come from different
chunks. -/
theorem ne_of_not_isOutputClashing {spec : List Int}
    (h : isOutputClashing spec = false) {i i' : Nat} {s s' : Int}
    (hlt : i < i') (hpos : i % 16 = i' % 16) (hs : spec[i]? = some s)
    (hs' : spec[i']? = some s') (hne : s ≠ -1) (hne' : s' ≠ -1) :
    s.tdiv 16 ≠ s'.tdiv 16 := by
  have hi' : i' < spec.length := (List.getElem?_eq_some_iff.mp hs').1
  rw [isOutputClashing, kDatapathWidth_eq, if_neg (by omega)] at h
  simp only [List.any_eq_false, List.mem_range, Bool.not_eq_true,
    insertsTwice_map_eq_false] at h
  have hnodup := h (i % 16) (by omega)
  rw [List.Nodup, List.pairwise_map, List.pairwise_filter,
    currentPositionLocations, List.pairwise_filterMap] at hnodup
  have hsorted := List.pairwise_iff_getElem.mp hnodup (i / 16) (i' / 16)
    (by simp only [List.length_range, kDatapathWidth_eq]; omega)
    (by simp only [List.length_range, kDatapathWidth_eq]; omega) (by omega)
  simp only [List.getElem_range] at hsorted
  rw [show i % 16 + kDatapathWidth * (i / 16) = i by
      simp only [kDatapathWidth_eq]; omega,
    show i % 16 + kDatapathWidth * (i' / 16) = i' by
      simp only [kDatapathWidth_eq]; omega] at hsorted
  exact hsorted s hs s' hs' (by simpa using hne) (by simpa using hne')

/-! ## Closed form of the extension -/

/-- Everything pushed for record `recordIndex`, in order. -/
def recordBlock (spec : List Int) (recordSize postRecordJunkData
    junkDataEndPoint : Int) (recordIndex : Nat) : List Int :=
  spec.map (extendSelection (recordSize * recordIndex)) ++
    List.replicate (junkDataEndPoint - spec.length).toNat postRecordJunkData

theorem insertRecord_eq_foldl (spec : List Int) (recordSize junk e : Int)
    (b : SpecificationBuffer) (j : Nat) :
    insertRecord spec recordSize junk e b j =
      (recordBlock spec recordSize junk e j).foldl pushSelection b := by
  have hconst : (List.range (e - spec.length).toNat).map (fun _ => junk) =
      List.replicate (e - spec.length).toNat junk := by
    simp
  rw [recordBlock, List.foldl_append, List.foldl_map, ← hconst,
    List.foldl_map]
  rfl

/-- Index at which the `k`-th pushed element ends up. -/
def mirrorIndex (k : Nat) : Nat := 16 * (k / 16) + (15 - k % 16)

theorem mirrorIndex_mirrorIndex (k : Nat) : mirrorIndex (mirrorIndex k) = k := by
  simp only [mirrorIndex]
  omega

/-- What the buffer holds after `xs` has been pushed: the full chunks mirrored
in `extended`, the rest in `chunk`. -/
structure Pushed (xs : List Int) (b : SpecificationBuffer) : Prop where
  chunk : b.chunk = xs.drop (16 * (xs.length / 16))
  length : b.extended.length = 16 * (xs.length / 16)
  mirrored : ∀ k < 16 * (xs.length / 16),
    b.extended[mirrorIndex k]? = xs[k]?
  perm : (b.extended ++ b.chunk).Perm xs

theorem Pushed.nil : Pushed [] ⟨[], []⟩ := by
  constructor <;> simp

theorem Pushed.push {xs : List Int} {b : SpecificationBuffer}
    (h : Pushed xs b) (x : Int) : Pushed (xs ++ [x]) (pushSelection b x) := by
  have hchunk : b.chunk.length = xs.length % 16 := by
    rw [h.chunk, List.length_drop]
    omega
  have hext := h.length
  simp only [pushSelection, insertChunkIfFull, kDatapathWidth_eq,
    List.length_append, List.length_singleton]
  by_cases hfull : b.chunk.length + 1 = 16
  · rw [if_pos hfull]
    have hnext : (xs.length + 1) / 16 = xs.length / 16 + 1 := by omega
    have hlen : (xs ++ [x]).length / 16 = xs.length / 16 + 1 := by
      simpa using hnext
    refine ⟨?_, ?_, ?_, ?_⟩
    · rw [hlen, List.drop_of_length_le]
      simp only [List.length_append, List.length_singleton]
      omega
    · rw [hlen]
      simp only [List.length_append, List.length_reverse, List.length_singleton,
        hext]
      omega
    · intro k hk
      rw [hlen] at hk
      by_cases hold : k < 16 * (xs.length / 16)
      · have hlt : mirrorIndex k < b.extended.length := by
          rw [hext]
          simp only [mirrorIndex]
          omega
        rw [List.getElem?_append_left hlt, h.mirrored k hold,
          List.getElem?_append_left (by omega)]
      · -- `k` lies in the chunk that was completed by this push.
        have hdiv : k / 16 = xs.length / 16 := by omega
        have hmod : k = 16 * (xs.length / 16) + k % 16 := by omega
        have hge : b.extended.length ≤ mirrorIndex k := by
          rw [hext]
          simp only [mirrorIndex, hdiv]
          omega
        have hoff : mirrorIndex k - b.extended.length = 15 - k % 16 := by
          rw [hext]
          simp only [mirrorIndex, hdiv]
          omega
        rw [List.getElem?_append_right hge, hoff]
        rw [List.getElem?_reverse (by simp; omega)]
        have hidx : (b.chunk ++ [x]).length - 1 - (15 - k % 16) = k % 16 := by
          simp
          omega
        rw [hidx, h.chunk]
        rw [show xs.drop (16 * (xs.length / 16)) ++ [x] =
          (xs ++ [x]).drop (16 * (xs.length / 16)) by
            rw [List.drop_append_of_le_length (by omega)],
          List.getElem?_drop, ← hmod]
    · rw [List.append_nil]
      refine ((List.reverse_perm _).append_left _).trans ?_
      rw [← List.append_assoc]
      exact h.perm.append_right [x]
  · rw [if_neg hfull]
    have hlen : (xs ++ [x]).length / 16 = xs.length / 16 := by
      simp only [List.length_append, List.length_singleton]
      omega
    refine ⟨?_, ?_, ?_, ?_⟩
    · rw [hlen, List.drop_append_of_le_length (by omega), h.chunk]
    · rw [hlen, hext]
    · intro k hk
      rw [hlen] at hk
      rw [h.mirrored k hk, List.getElem?_append_left (by omega)]
    · rw [← List.append_assoc]
      exact h.perm.append_right [x]

theorem Pushed.foldl {done : List Int} {b : SpecificationBuffer}
    (h : Pushed done b) (xs : List Int) :
    Pushed (done ++ xs) (xs.foldl pushSelection b) := by
  induction xs generalizing done b with
  | nil => simpa using h
  | cons x xs ih => simpa using ih (h.push x)

/-- Everything pushed for a burst of `n` records, in order. -/
def burstStream (n : Nat) (spec : List Int) (recordSize junk e : Int) :
    List Int :=
  (List.range n).flatMap (recordBlock spec recordSize junk e)

theorem pushed_burst (n : Nat) (spec : List Int) (recordSize junk e : Int) :
    Pushed (burstStream n spec recordSize junk e)
      ((List.range n).foldl (insertRecord spec recordSize junk e) ⟨[], []⟩) := by
  have hfold : (List.range n).foldl (insertRecord spec recordSize junk e)
      ⟨[], []⟩ =
      (burstStream n spec recordSize junk e).foldl pushSelection ⟨[], []⟩ := by
    rw [burstStream, List.foldl_flatMap]
    congr 1
    funext b j
    exact insertRecord_eq_foldl spec recordSize junk e b j
  rw [hfold]
  simpa using Pushed.nil.foldl (burstStream n spec recordSize junk e)

/-! ### Reading the burst

From here on a record fits its slot and the slot is a whole number of chunks,
so no chunk is shared by two records.
-/

section Burst

variable {n e : Nat} {spec : List Int} {recordSize junk : Int}

theorem recordBlock_length (hfit : spec.length ≤ e) (j : Nat) :
    (recordBlock spec recordSize junk e j).length = e := by
  simp only [recordBlock, List.length_append, List.length_map,
    List.length_replicate]
  omega

theorem burstStream_length (hfit : spec.length ≤ e) :
    (burstStream n spec recordSize junk e).length = n * e := by
  simp [burstStream, List.length_flatMap, recordBlock_length hfit]

theorem burstStream_getElem? (hfit : spec.length ≤ e) {j i : Nat}
    (hj : j < n) (hi : i < e) :
    (burstStream n spec recordSize junk e)[j * e + i]? =
      (recordBlock spec recordSize junk e j)[i]? := by
  induction n with
  | zero => omega
  | succ n ih =>
      have hsplit : burstStream (n + 1) spec recordSize junk e =
          burstStream n spec recordSize junk e ++
            recordBlock spec recordSize junk e n := by
        simp [burstStream, List.range_succ]
      have hlen : (burstStream n spec recordSize junk e).length = n * e :=
        burstStream_length hfit
      rw [hsplit]
      by_cases hlast : j = n
      · subst hlast
        rw [List.getElem?_append_right (by omega), hlen, Nat.add_sub_cancel_left]
      · have hlt : j * e + i < n * e := by
          calc j * e + i < j * e + e := by omega
            _ = (j + 1) * e := by rw [Nat.add_mul, Nat.one_mul]
            _ ≤ n * e := Nat.mul_le_mul_right e (by omega)
        rw [List.getElem?_append_left (by omega), ih (by omega)]

theorem recordBlock_getElem? (hfit : spec.length ≤ e) (j : Nat) {i : Nat}
    (hi : i < e) :
    (recordBlock spec recordSize junk e j)[i]? =
      some (((spec[i]?).map (extendSelection (recordSize * j))).getD junk) := by
  by_cases hlt : i < spec.length
  · simp [recordBlock, hlt, List.getElem?_append_left]
  · have hge : spec.length ≤ i := Nat.le_of_not_lt hlt
    simp only [recordBlock]
    rw [List.getElem?_append_right (by simpa using hge),
      List.getElem?_eq_none hge, List.getElem?_replicate, if_pos]
    · rfl
    · simp only [List.length_map]
      omega

/-- What `ExtendSpecification` returns: `n` whole records of `e` entries, the
entries mirrored within their chunk. -/
structure Extended (n : Nat) (spec : List Int) (recordSize junk : Int) (e : Nat)
    (ext : List Int) : Prop where
  length : ext.length = n * e
  size_le : n * e ≤ 512
  perm : ext.Perm (burstStream n spec recordSize junk e)
  entry_lt : ∀ x ∈ ext, x < 512
  entry : ∀ j i, j < n → i < e → ext[mirrorIndex (j * e + i)]? =
    some (((spec[i]?).map (extendSelection (recordSize * j))).getD junk)

/-- The buffer `ExtendSpecification` checks and returns. -/
theorem burst_extended (n : Nat) (recordSize junk : Int)
    (hfit : spec.length ≤ e) (hchunks : 16 ∣ e) :
    let ext := ((List.range n).foldl (insertRecord spec recordSize junk e)
      ⟨[], []⟩).extended
    ext.length = n * e ∧ ext.Perm (burstStream n spec recordSize junk e) ∧
      ∀ j i, j < n → i < e → ext[mirrorIndex (j * e + i)]? =
      some (((spec[i]?).map (extendSelection (recordSize * j))).getD junk) := by
  have hpushed := pushed_burst n spec recordSize junk e
  have hlen : (burstStream n spec recordSize junk e).length = n * e :=
    burstStream_length hfit
  have hwhole : 16 * (n * e / 16) = n * e :=
    Nat.mul_div_cancel' (Nat.dvd_trans hchunks (Nat.dvd_mul_left e n))
  refine ⟨?_, ?_, ?_⟩
  · rw [hpushed.length, hlen, hwhole]
  · have hperm := hpushed.perm
    rwa [hpushed.chunk, hlen, hwhole, ← hlen, List.drop_length,
      List.append_nil] at hperm
  · intro j i hj hi
    have hlt : j * e + i < n * e := by
      calc j * e + i < j * e + e := by omega
        _ = (j + 1) * e := by rw [Nat.add_mul, Nat.one_mul]
        _ ≤ n * e := Nat.mul_le_mul_right e (by omega)
    rw [hpushed.mirrored _ (by rw [hlen, hwhole]; exact hlt),
      burstStream_getElem? hfit hj hi, recordBlock_getElem? hfit j hi]

theorem isSpecificationValid_eq_true {ext : List Int} :
    isSpecificationValid ext = .ok true ↔
      ext ≠ [] ∧ ext.length ≤ 512 ∧ ∀ x ∈ ext, x < 512 := by
  simp only [isSpecificationValid, kDdrBurstSize_eq]
  cases hmax : ext.max? with
  | none =>
      rw [List.max?_eq_none_iff] at hmax
      simp [hmax]
  | some largest =>
      have hlargest := List.max?_eq_some_iff.mp hmax
      have hne : ext ≠ [] := List.ne_nil_of_mem hlargest.1
      by_cases hsize : ext.length ≤ 512
      · simp only [hsize, if_true, Except.ok.injEq, true_and, hne, ne_eq,
          not_false_eq_true]
        constructor
        · intro hlt x hx
          exact lt_of_le_of_lt (hlargest.2 x hx) (of_decide_eq_true hlt)
        · intro hall
          exact decide_eq_true (hall largest hlargest.1)
      · simp [hsize]

theorem extendSpecification_extended {ext : List Int}
    (hfit : spec.length ≤ e) (hchunks : 16 ∣ e)
    (hrun : extendSpecification n spec recordSize junk e = .ok ext) :
    Extended n spec recordSize junk e ext := by
  obtain ⟨hlen, hperm, hentry⟩ := burst_extended n recordSize junk hfit hchunks
  simp only [extendSpecification, Int.toNat_natCast, bind_eq_ok] at hrun
  obtain ⟨valid, hvalid, hrun⟩ := hrun
  cases valid with
  | false => simp at hrun
  | true =>
      simp only [if_true, Except.ok.injEq] at hrun
      rw [hrun] at hvalid hlen hperm hentry
      obtain ⟨-, hsize, hlt⟩ := isSpecificationValid_eq_true.mp hvalid
      exact ⟨hlen, by omega, hperm, hlt, hentry⟩

/-- A burst whose entries all lie in the buffer is accepted. -/
theorem extendSpecification_total (recordSize junk : Int) (hfit : spec.length ≤ e) (hchunks : 16 ∣ e)
    (hpos : 0 < n * e) (hsize : n * e ≤ 512) (hjunk : junk < 512)
    (hentry : ∀ j < n, ∀ s ∈ spec, extendSelection (recordSize * j) s < 512) :
    ∃ ext, extendSpecification n spec recordSize junk e = .ok ext ∧
      Extended n spec recordSize junk e ext := by
  obtain ⟨hlen, hperm, hread⟩ := burst_extended n recordSize junk hfit hchunks
  generalize hext : ((List.range n).foldl (insertRecord spec recordSize junk e)
    ⟨[], []⟩).extended = ext at hlen hperm hread
  have hlt : ∀ x ∈ ext, x < 512 := by
    intro x hx
    obtain ⟨k, hk, rfl⟩ := List.mem_iff_getElem.mp hx
    rw [hlen] at hk
    have he : 0 < e := Nat.pos_of_mul_pos_left hpos
    obtain ⟨c, rfl⟩ := hchunks
    -- `k` is the mirror image of some position `m` of the stream.
    have hm := mirrorIndex_mirrorIndex k
    have hmlt : mirrorIndex k < n * (16 * c) := by
      rw [Nat.mul_left_comm] at hk ⊢
      simp only [mirrorIndex]
      omega
    have hj : mirrorIndex k / (16 * c) < n := Nat.div_lt_of_lt_mul (by
      rwa [Nat.mul_comm])
    have hread := hread (mirrorIndex k / (16 * c)) (mirrorIndex k % (16 * c)) hj
      (Nat.mod_lt _ he)
    rw [Nat.div_add_mod', hm, List.getElem?_eq_getElem (by rwa [hlen]),
      Option.some.injEq] at hread
    rw [hread]
    cases hs : spec[mirrorIndex k % (16 * c)]? with
    | none => simpa using hjunk
    | some s => simpa using hentry _ hj s (List.mem_of_getElem? hs)
  have hvalid : isSpecificationValid ext = .ok true := by
    refine isSpecificationValid_eq_true.mpr ⟨?_, by omega, hlt⟩
    intro hnil
    rw [hnil, List.length_nil] at hlen
    omega
  refine ⟨ext, ?_, hlen, hsize, hperm, hlt, hread⟩
  simp only [extendSpecification, Int.toNat_natCast, hext, hvalid, ok_bind,
    if_true]

end Burst

/-! ## Reading an extended selection -/

/-- A selected integer of record `j`, mirrored. -/
theorem extendSelection_natCast (recordSize j s : Nat) :
    extendSelection ((recordSize : Int) * j) s =
      (mirrorIndex (j * recordSize + s) : Nat) := by
  have hne : (s : Int) ≠ -1 := by omega
  have hcast : (s : Int) + (recordSize : Int) * j =
      ((j * recordSize + s : Nat) : Int) := by
    push_cast
    rw [Int.mul_comm, Int.add_comm]
  simp only [extendSelection, ne_eq, hne, not_false_eq_true, if_true, hcast,
    kDatapathWidth_eq, ← Int.ofNat_tdiv, ← Int.ofNat_tmod, mirrorIndex]
  omega

section Selection

variable {n e recordSize : Nat} {sel ext : List Int}

/-- Every entry of an extended selection comes from one record and one place of
its slot. -/
theorem Extended.entry_of_lt {junk : Int}
    (h : Extended n sel recordSize junk e ext) (hchunks : 16 ∣ e) {id : Nat}
    (hid : id < ext.length) :
    mirrorIndex id / e < n ∧ mirrorIndex id % e < e ∧
      ext[id]? = some (((sel[mirrorIndex id % e]?).map
        (extendSelection ((recordSize : Int) *
          (mirrorIndex id / e : Nat)))).getD junk) := by
  have hlt : id < n * e := h.length ▸ hid
  have he : 0 < e := Nat.pos_of_ne_zero (by rintro rfl; simp at hlt)
  have hmlt : mirrorIndex id < n * e := by
    obtain ⟨c, rfl⟩ := hchunks
    rw [Nat.mul_left_comm] at hlt ⊢
    simp only [mirrorIndex]
    omega
  have hj : mirrorIndex id / e < n :=
    Nat.div_lt_of_lt_mul (by rwa [Nat.mul_comm])
  have hi : mirrorIndex id % e < e := Nat.mod_lt _ he
  refine ⟨hj, hi, ?_⟩
  have hentry := h.entry _ _ hj hi
  rwa [Nat.div_add_mod', mirrorIndex_mirrorIndex] at hentry

theorem Extended.nonneg_or_junk
    (h : Extended n sel recordSize (-1) e ext) (hchunks : 16 ∣ e)
    (hsel : ∀ s ∈ sel, s = -1 ∨ 0 ≤ s) : ∀ x ∈ ext, x = -1 ∨ 0 ≤ x := by
  intro x hx
  obtain ⟨id, hid, rfl⟩ := List.mem_iff_getElem.mp hx
  obtain ⟨-, -, hentry⟩ := h.entry_of_lt hchunks hid
  rw [List.getElem?_eq_getElem hid, Option.some.injEq] at hentry
  rw [hentry]
  cases hs : sel[mirrorIndex id % e]? with
  | none => left; rfl
  | some s =>
      rcases hsel s (List.mem_of_getElem? hs) with rfl | hs0
      · left; rfl
      · right
        obtain ⟨s, rfl⟩ := Int.eq_ofNat_of_zero_le hs0
        simp only [Option.map_some, Option.getD_some]
        rw [extendSelection_natCast]
        omega

/-- Only junk data is counted as junk data. -/
theorem Extended.count_junk
    (h : Extended n sel recordSize (-2) e ext) (hfit : sel.length ≤ e)
    (hsel : ∀ s ∈ sel, s = -1 ∨ 0 ≤ s) :
    ext.count (-2) = n * (e - sel.length) := by
  have hdata : ∀ j : Nat, (sel.map
      (extendSelection ((recordSize : Int) * j))).count (-2) = 0 := by
    intro j
    rw [List.count_eq_zero, List.mem_map]
    rintro ⟨s, hs, heq⟩
    rcases hsel s hs with rfl | hs0
    · simp [extendSelection] at heq
    · obtain ⟨s, rfl⟩ := Int.eq_ofNat_of_zero_le hs0
      rw [extendSelection_natCast] at heq
      omega
  have hblock : ∀ j : Nat,
      (recordBlock sel recordSize (-2) e j).count (-2) = e - sel.length := by
    intro j
    rw [recordBlock, List.count_append, hdata j, List.count_replicate_self,
      Nat.zero_add]
    omega
  rw [h.perm.count_eq, burstStream, List.count_flatMap]
  simp only [Function.comp_def, hblock, List.map_const', List.length_range,
    List.sum_replicate_nat]

/-- An entry with data names a selected integer of its own record. -/
theorem Extended.target_eq
    (h : Extended n sel recordSize (-1) e ext) (hchunks : 16 ∣ e)
    (hsel : ∀ s ∈ sel, s = -1 ∨ 0 ≤ s) {id target : Nat}
    (htarget : ext[id]? = some (target : Int)) :
    ∃ s : Nat, sel[mirrorIndex id % e]? = some (s : Int) ∧
      target = mirrorIndex (mirrorIndex id / e * recordSize + s) := by
  have hid : id < ext.length := (List.getElem?_eq_some_iff.mp htarget).1
  obtain ⟨-, -, hentry⟩ := h.entry_of_lt hchunks hid
  rw [htarget, Option.some.injEq] at hentry
  cases hs : sel[mirrorIndex id % e]? with
  | none =>
      rw [hs] at hentry
      simp only [Option.map_none, Option.getD_none] at hentry
      omega
  | some s =>
      rw [hs] at hentry
      simp only [Option.map_some, Option.getD_some] at hentry
      rcases hsel s (List.mem_of_getElem? hs) with rfl | hs0
      · simp only [extendSelection, ne_eq, not_true_eq_false, if_false] at hentry
        omega
      · obtain ⟨s, rfl⟩ := Int.eq_ofNat_of_zero_le hs0
        rw [extendSelection_natCast] at hentry
        exact ⟨s, rfl, Int.ofNat_inj.mp hentry⟩

end Selection

end Orkhestra.Ports.DMACrossbarSpecifier
