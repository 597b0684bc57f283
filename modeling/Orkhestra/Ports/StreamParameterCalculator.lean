import Orkhestra.Verified.Checked
import Mathlib.Data.Nat.Log
import Mathlib.Algebra.Ring.Int.Defs
import Mathlib.Algebra.Ring.Nat

/-!
# Acceleration constants and stream parameters

`query_acceleration_constants.hpp` and the integer part of
`StreamParameterCalculator`.  `log2`, `ceil` and `pow` are taken as exact on
integers; the logarithm of a value that is not positive is undefined.
-/

namespace Orkhestra.Ports.StreamParameterCalculator

open Orkhestra.Verified.Checked

/-- How much data can fit the datapath concurrently in the same cycle. -/
abbrev kDatapathWidth : Nat := 16

/-- How many cycles of data the datapath fits. -/
abbrev kDatapathLength : Nat := 32

/-- How many integers are transferred with a DDR burst. -/
abbrev kDdrBurstSize : Nat := 512

theorem kDatapathWidth_eq : kDatapathWidth = 16 := rfl

theorem kDatapathLength_eq : kDatapathLength = 32 := rfl

theorem kDdrBurstSize_eq : kDdrBurstSize = 512 := rfl

/-- `pow(2, ceil(log2(value)))`. -/
def findNextPowerOfTwo (value : Int) : Outcome Int :=
  if 0 < value then .ok (2 ^ Nat.clog 2 value.toNat) else .error .undefined

/-- Chunks needed for `recordSize` integers, rounded up. -/
def calculateChunksPerRecord (recordSize : Int) : Int :=
  (recordSize + kDatapathWidth - 1).tdiv kDatapathWidth

theorem findNextPowerOfTwo_natCast {n : Nat} (hn : 0 < n) :
    findNextPowerOfTwo (n : Int) = .ok ((2 ^ Nat.clog 2 n : Nat) : Int) := by
  simp [findNextPowerOfTwo, hn]

theorem calculateChunksPerRecord_natCast (n : Nat) :
    calculateChunksPerRecord (n : Int) = ((n + 15) / 16 : Nat) := by
  simp only [calculateChunksPerRecord, kDatapathWidth_eq]
  rw [show ((n : Int) + ((16 : Nat) : Int) - 1) = ((n + 15 : Nat) : Int) by
    push_cast; omega]
  exact (Int.ofNat_tdiv _ _).symm

end Orkhestra.Ports.StreamParameterCalculator
