import Mathlib.Algebra.Ring.Nat
import Mathlib.Algebra.Ring.Int.Defs

/-!
# Machine integers and ABIs

The monitor, the tracer and the daemon are each built for both pointer widths,
and the monitor keeps one record for each of the two zygotes.  Numbers are
`Nat` and `Int` with the C conversions written out where the code
depends on them.
-/

namespace ReZygisk
namespace Kernel

inductive Lp where
  | lp32
  | lp64
  deriving DecidableEq, Repr

def Lp.bits : Lp -> Nat
  | Lp.lp32 => 32
  | Lp.lp64 => 64

def Lp.bytes : Lp -> Nat
  | Lp.lp32 => 4
  | Lp.lp64 => 8

/-- Largest value of `ptrdiff_t`, hence the largest size of a C++ vector of
bytes and of a Rust allocation. -/
def Lp.ptrdiffMax (lp : Lp) : Nat :=
  2 ^ (lp.bits - 1) - 1

def Lp.sizeT (lp : Lp) (n : Int) : Nat :=
  (n % (2 ^ lp.bits : Nat)).toNat

/-- The `int` whose 32 bits are those of `n`. -/
def int32 (n : Nat) : Int :=
  if n % 2 ^ 32 < 2 ^ 31 then (n % 2 ^ 32 : Nat) else (n % 2 ^ 32 : Nat) - 2 ^ 32

theorem Lp.sizeT_of_fits {lp : Lp} {n : Int} (hlow : 0 ≤ n)
    (hhigh : n ≤ lp.ptrdiffMax) :
    lp.sizeT n = n.toNat := by
  unfold Lp.sizeT
  cases lp <;> simp [Lp.bits, Lp.ptrdiffMax] at * <;> omega

/-- A negative size, or one past the largest, converts to a `size_t` that no
allocation can serve. -/
theorem Lp.ptrdiffMax_lt_sizeT {lp : Lp} {n : Int}
    (hrange : -2 ^ 31 ≤ n) (hbound : n < 2 ^ 31 + 8)
    (hout : n < 0 ∨ (lp.ptrdiffMax : Int) < n) :
    lp.ptrdiffMax < lp.sizeT n := by
  unfold Lp.sizeT
  cases lp <;> simp [Lp.bits, Lp.ptrdiffMax] at * <;> omega

theorem Lp.int_le_ptrdiffMax (lp : Lp) : 2 ^ 31 ≤ lp.ptrdiffMax + 1 := by
  cases lp with
  | lp32 => decide
  | lp64 => decide

/-- Every size of an allocation has a `usize` of its own. -/
theorem Lp.fits_usize {lp : Lp} {n : Nat} (h : n ≤ lp.ptrdiffMax + 1) :
    n < 256 ^ lp.bytes := by
  cases lp with
  | lp32 => exact Nat.lt_of_le_of_lt h (by decide)
  | lp64 => exact Nat.lt_of_le_of_lt h (by decide)

theorem Lp.sizeT_sub {lp : Lp} {a b : Nat} (h : b ≤ a) (ha : a < 2 ^ lp.bits) :
    lp.sizeT ((a : Int) - b) = a - b := by
  unfold Lp.sizeT
  cases lp <;> simp [Lp.bits] at * <;> omega

theorem Lp.sizeT_natCast {lp : Lp} {n : Nat} (h : n < 2 ^ lp.bits) :
    lp.sizeT (n : Int) = n := by
  have hsub := Lp.sizeT_sub (Nat.zero_le n) h
  rw [Int.natCast_zero, Int.sub_zero, Nat.sub_zero] at hsub
  exact hsub

theorem int32_of_lt {n : Nat} (h : n < 2 ^ 31) : int32 n = n := by
  unfold int32
  rw [if_pos (by omega)]
  omega

theorem int32_bounds (n : Nat) : -2 ^ 31 ≤ int32 n ∧ int32 n < 2 ^ 31 := by
  unfold int32
  split <;> omega

/-!
# The two zygotes
-/

/-- The suffix of the monitor's two expansions of each macro. -/
inductive Abi where
  | abi64
  | abi32
  deriving DecidableEq, Repr

def Abi.suffix : Abi -> String
  | Abi.abi64 => "64"
  | Abi.abi32 => "32"

def Abi.other : Abi -> Abi
  | Abi.abi64 => Abi.abi32
  | Abi.abi32 => Abi.abi64

/-!
# Device numbers
-/

def makedev (major minor : Nat) : Nat :=
  major / 4096 * 4096 * 2 ^ 32 + major % 4096 * 256 +
    minor / 256 * 256 * 4096 + minor % 256

/-- `major()` of `<sys/sysmacros.h>` -/
def devMajor (dev : Nat) : Nat :=
  dev / 2 ^ 44 % 2 ^ 20 * 4096 + dev / 256 % 4096

/-- `minor()` of `<sys/sysmacros.h>` -/
def devMinor (dev : Nat) : Nat :=
  dev / 2 ^ 20 % 2 ^ 24 * 256 + dev % 256

theorem makedev_eq (major minor : Nat) :
    makedev major minor =
      ((major / 4096 * 2 ^ 24 + minor / 256) * 4096 + major % 4096) * 256 +
        minor % 256 := by
  unfold makedev
  omega

/-- The kernel has 12 bits for the major number and 20 for the minor one, which
fit a `dev_t` of either size. -/
theorem makedev_lt {major minor : Nat} (hmajor : major < 2 ^ 12)
    (hminor : minor < 2 ^ 20) : makedev major minor < 2 ^ 32 := by
  unfold makedev
  omega

theorem devMajor_makedev {major minor : Nat} (hmajor : major < 2 ^ 32)
    (hminor : minor < 2 ^ 32) : devMajor (makedev major minor) = major := by
  have hhigh : makedev major minor / 2 ^ 44 = major / 4096 := by
    rw [makedev_eq]
    omega
  have hlow : makedev major minor / 256 % 4096 = major % 4096 := by
    rw [makedev_eq]
    omega
  unfold devMajor
  rw [hhigh, hlow]
  omega

theorem devMinor_makedev {major minor : Nat} (hminor : minor < 2 ^ 32) :
    devMinor (makedev major minor) = minor := by
  have hhigh : makedev major minor / 2 ^ 20 =
      major / 4096 * 2 ^ 24 + minor / 256 := by
    rw [makedev_eq]
    omega
  have hlow : makedev major minor % 256 = minor % 256 := by
    rw [makedev_eq]
    omega
  unfold devMinor
  rw [hhigh, hlow]
  omega

end Kernel
end ReZygisk
