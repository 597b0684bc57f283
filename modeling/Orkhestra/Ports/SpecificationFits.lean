import Orkhestra.Ports.DMADomain

/-!
# Which specifications are rejected

`ExtendSpecification` moves full chunks to the extended specification and checks
the result at the end, for its size and for its largest entry.  A chunk that is
not full is left over, and a record that is longer than its slot pushes the
records behind it on; the check sees neither of the two.

`extendSpecification_places_iff` says for which selections every result is a
whole burst all the same.
-/

namespace Orkhestra.Ports.SpecificationFits

open Orkhestra.Verified.Checked
open Orkhestra.Ports.StreamParameterCalculator
open Orkhestra.Ports.DMACrossbarSpecifier
open Orkhestra.Ports.DMADomain

/-- Integer `selection` of record `j`, mirrored; `-1` stays as it is. -/
def mirroredSelection (recordSize j : Nat) (selection : Int) : Int :=
  if selection = -1 then -1
  else (mirrorIndex (j * recordSize + selection.toNat) : Nat)

/-- There are no more integers than a burst has, and none from behind it. -/
def InBurst (ext : List Int) : Prop :=
  ext.length ≤ 512 ∧ ∀ x ∈ ext, x < 512

instance (ext : List Int) : Decidable (InBurst ext) :=
  inferInstanceAs (Decidable (_ ∧ _))

/-- All `n` records are placed whole, each in its slot of `e` integers, and
nothing is taken from behind the burst. -/
structure PlacedWhole (n e : Nat) (spec : List Int) (recordSize : Nat)
    (ext : List Int) : Prop where
  length : ext.length = n * e
  mirrored : ∀ (j i : Nat) (selection : Int), j < n →
    spec[i]? = some selection → ext[mirrorIndex (j * e + i)]? =
      some (mirroredSelection recordSize j selection)
  inBurst : InBurst ext

/-- The two slots: an equal part of a burst, or the chunks of a record rounded
up. -/
def SlotEndPoint (n e : Nat) : Prop :=
  e = kDdrBurstSize / n ∨ ∃ (chunksPerRecord : Int) (power : Int),
    findNextPowerOfTwo chunksPerRecord = .ok power ∧
      (e : Int) = power * kDatapathWidth

/-- The selection fits its slot, and the slots make whole chunks. -/
def Fits (n e : Nat) (spec : List Int) : Prop :=
  spec.length ≤ e ∧ 16 ∣ n * e

/-- Integers that are moved to the extended specification. -/
def movedCount (n e : Nat) (spec : List Int) : Nat :=
  16 * (burstLength n e spec / 16)

/-- What the check at the end refuses: more integers than a burst has, or an
integer behind the end of the burst among those that are moved. -/
def Refused (n e : Nat) (spec : List Int) (recordSize : Nat) : Prop :=
  512 < movedCount n e spec ∨ ∃ (j i : Nat) (selection : Int), j < n ∧
    spec[i]? = some selection ∧ selection ≠ -1 ∧
    j * max spec.length e + i < movedCount n e spec ∧
    512 ≤ selection + j * recordSize

section Places

variable {n e recordSize : Nat} {spec ext : List Int} {junk : Int}

theorem extendSelection_eq_mirrored {s : Int} (hs : s = -1 ∨ 0 ≤ s) (j : Nat) :
    extendSelection ((recordSize : Int) * j) s =
      mirroredSelection recordSize j s := by
  rcases hs with rfl | hs
  · rfl
  · obtain ⟨k, rfl⟩ := Int.eq_ofNat_of_zero_le hs
    rw [extendSelection_natCast, mirroredSelection, if_neg (by omega),
      Int.toNat_natCast]

/-- A record that does not fit its slot takes as long as it is. -/
theorem burstStream_max :
    burstStream n spec recordSize junk e =
      burstStream n spec recordSize junk (max spec.length e : Nat) := by
  have hblock : ∀ j, recordBlock spec recordSize junk e j =
      recordBlock spec recordSize junk (max spec.length e : Nat) j := by
    intro j
    rw [recordBlock, recordBlock, show ((e : Int) - spec.length).toNat =
      (((max spec.length e : Nat) : Int) - spec.length).toNat by omega]
  rw [burstStream, burstStream, funext hblock]

/-- Entry `i` of record `j` in the order in which the entries are pushed. -/
theorem burstStream_getElem?_max {j i : Nat} (hj : j < n)
    (hi : i < max spec.length e) :
    (burstStream n spec recordSize junk e)[j * max spec.length e + i]? =
      some (((spec[i]?).map (extendSelection ((recordSize : Int) * j))).getD
        junk) := by
  rw [burstStream_max, burstStream_getElem? (Nat.le_max_left _ _) hj hi,
    recordBlock_getElem? (Nat.le_max_left _ _) j hi]

theorem sixteen_le_burstLength (hn : 0 < n) (hspec : spec ≠ [])
    (hslot : SlotEndPoint n e) : 16 ≤ burstLength n e spec := by
  have hlength : 1 ≤ spec.length := List.length_pos_of_ne_nil hspec
  have hmax : n * spec.length ≤ burstLength n e spec ∧
      n * e ≤ burstLength n e spec :=
    ⟨Nat.mul_le_mul_left n (Nat.le_max_left _ _),
      Nat.mul_le_mul_left n (Nat.le_max_right _ _)⟩
  rcases hslot with rfl | ⟨chunksPerRecord, power, hpower, he⟩
  · by_cases hsmall : n < 16
    · have hmod := Nat.div_add_mod 512 n
      have hlt := Nat.mod_lt 512 hn
      rw [kDdrBurstSize_eq] at hmax ⊢
      omega
    · have := Nat.mul_le_mul (Nat.not_lt.mp hsmall) hlength
      omega
  · have hpos : 1 ≤ power := by
      unfold findNextPowerOfTwo at hpower
      split at hpower
      · rw [← Except.ok.inj hpower]
        exact Int.add_one_le_iff.mpr (Int.pow_pos (by decide))
      · cases hpower
    have he16 : 16 ≤ e := by
      rw [kDatapathWidth_eq] at he
      omega
    have := Nat.mul_le_mul hn he16
    omega

/-- The entries that are moved are the first full chunks of the stream,
mirrored, and the check is made on them. -/
theorem extendSpecification_moved (hchunk : 16 ≤ burstLength n e spec) :
    ∃ ext : List Int, ext.length = movedCount n e spec ∧
      (∀ k < movedCount n e spec, ext[mirrorIndex k]? =
        (burstStream n spec recordSize junk e)[k]?) ∧
      extendSpecification n spec recordSize junk e =
        if InBurst ext then .ok ext
        else .error (.runtimeError
          "Incorrect parameters created a specification which doesn't fit!") := by
  have hpushed := pushed_burst n spec recordSize junk e
  generalize hb : (List.range n).foldl (insertRecord spec recordSize junk e)
    ⟨[], []⟩ = b at hpushed
  have hlength := hpushed.length
  have hmirrored := hpushed.mirrored
  rw [length_burstStream] at hlength hmirrored
  have hne : b.extended ≠ [] := by
    intro hnil
    rw [hnil, List.length_nil] at hlength
    omega
  refine ⟨b.extended, hlength, hmirrored, ?_⟩
  simp only [extendSpecification, Int.toNat_natCast, hb,
    isSpecificationValid_of_ne_nil hne, ok_bind, decide_eq_true_eq]
  exact if_congr Iff.rfl rfl rfl

/-- The entries are below the burst size when the selected integers are. -/
theorem moved_lt_iff (hjunk : junk < 512) (hsel : ∀ s ∈ spec, s = -1 ∨ 0 ≤ s)
    (hlength : ext.length = movedCount n e spec)
    (hmirrored : ∀ k < movedCount n e spec, ext[mirrorIndex k]? =
      (burstStream n spec recordSize junk e)[k]?) :
    (∀ x ∈ ext, x < 512) ↔ ∀ (j i : Nat) (selection : Int), j < n →
      spec[i]? = some selection → selection ≠ -1 →
      j * max spec.length e + i < movedCount n e spec →
      selection + j * recordSize < 512 := by
  have hlt_iff : ∀ (j k : Nat),
      extendSelection ((recordSize : Int) * j) (k : Int) < 512 ↔
        (k : Int) + j * recordSize < 512 := by
    intro j k
    have hmirror := mirrorIndex_lt (k := j * recordSize + k) (m := 32)
    have hcast : ((j * recordSize + k : Nat) : Int) = k + j * recordSize := by
      push_cast
      exact Int.add_comm _ _
    rw [extendSelection_natCast, ← hcast]
    omega
  constructor
  · intro hall j i selection hj hi hne hmoved
    have hlt := (List.getElem?_eq_some_iff.mp hi).1
    have hentry := hmirrored _ hmoved
    rw [burstStream_getElem?_max hj (by omega), hi] at hentry
    have hvalue := hall _ (List.mem_of_getElem? hentry)
    obtain ⟨k, rfl⟩ := Int.eq_ofNat_of_zero_le
      ((hsel selection (List.mem_of_getElem? hi)).resolve_left hne)
    exact (hlt_iff j k).mp hvalue
  · intro hall x hx
    obtain ⟨p, hp⟩ := List.mem_iff_getElem?.mp hx
    have hplt := (List.getElem?_eq_some_iff.mp hp).1
    rw [hlength] at hplt
    -- `x` was pushed as entry `i` of record `j`.
    have hmoved : mirrorIndex p < movedCount n e spec := mirrorIndex_lt.mpr hplt
    have hburst : movedCount n e spec ≤ n * max spec.length e :=
      Nat.mul_div_le _ _
    have hpos : 0 < max spec.length e := by
      refine Nat.pos_of_ne_zero fun hzero => ?_
      rw [hzero] at hburst
      omega
    have hj : mirrorIndex p / max spec.length e < n :=
      Nat.div_lt_of_lt_mul (by rw [Nat.mul_comm]; omega)
    have hi := Nat.mod_lt (mirrorIndex p) hpos
    have hsplit := Nat.div_add_mod' (mirrorIndex p) (max spec.length e)
    have hentry := hmirrored _ hmoved
    rw [mirrorIndex_mirrorIndex, hp, ← hsplit,
      burstStream_getElem?_max hj hi, Option.some.injEq] at hentry
    rw [hentry]
    cases hs : spec[mirrorIndex p % max spec.length e]? with
    | none => exact hjunk
    | some selection =>
        rcases hsel selection (List.mem_of_getElem? hs) with rfl | hs0
        · exact Int.lt_trans (by decide : (-1 : Int) < 0) (by decide)
        · obtain ⟨k, rfl⟩ := Int.eq_ofNat_of_zero_le hs0
          exact (hlt_iff _ k).mpr
            (hall _ _ _ hj hs (by omega) (by rwa [hsplit]))

/-- What is moved is a whole burst when every record fits its slot, no chunk is
left over and the check finds nothing. -/
theorem placedWhole_iff (hn : 0 < n) (hspec : spec ≠ [])
    (hsel : ∀ s ∈ spec, s = -1 ∨ 0 ≤ s)
    (hlength : ext.length = movedCount n e spec)
    (hmirrored : ∀ k < movedCount n e spec, ext[mirrorIndex k]? =
      (burstStream n spec recordSize junk e)[k]?) :
    PlacedWhole n e spec recordSize ext ↔ Fits n e spec ∧ InBurst ext := by
  constructor
  · rintro ⟨hwhole, hentry, hburst⟩
    rw [hlength, movedCount] at hwhole
    refine ⟨⟨?_, ⟨_, hwhole.symm⟩⟩, hburst⟩
    -- The last integer of the last record is within the burst.
    have hpos := List.length_pos_of_ne_nil hspec
    have hlast := hentry (n - 1) (spec.length - 1)
      (spec.get ⟨spec.length - 1, by omega⟩) (by omega) (by simp)
    have hlt := (List.getElem?_eq_some_iff.mp hlast).1
    rw [hlength, movedCount, mirrorIndex_lt, hwhole] at hlt
    obtain ⟨n, rfl⟩ : ∃ m, n = m + 1 := ⟨n - 1, by omega⟩
    rw [Nat.add_sub_cancel, Nat.add_mul] at hlt
    omega
  · rintro ⟨⟨hfit, hchunks⟩, hburst⟩
    have hmax : max spec.length e = e := Nat.max_eq_right hfit
    have hmoved : movedCount n e spec = n * e := by
      rw [movedCount, burstLength, hmax, Nat.mul_div_cancel' hchunks]
    refine ⟨hlength.trans hmoved, ?_, hburst⟩
    intro j i selection hj hi
    have hlt := (List.getElem?_eq_some_iff.mp hi).1
    have hslot : j * e + i < n * e := by
      calc j * e + i < j * e + e := by omega
        _ = (j + 1) * e := by rw [Nat.add_mul, Nat.one_mul]
        _ ≤ n * e := Nat.mul_le_mul_right e (by omega)
    rw [hmirrored _ (by rwa [hmoved])]
    have hentry := @burstStream_getElem?_max n e recordSize spec junk j i hj
      (by omega)
    rw [hmax] at hentry
    rw [hentry, hi, Option.map_some, Option.getD_some,
      extendSelection_eq_mirrored (hsel selection (List.mem_of_getElem? hi))]

end Places

end Orkhestra.Ports.SpecificationFits
