import ReZygisk.Foundation.Bytes

/-!
# Address spaces

A mapped address holds a byte and belongs to a region, of which it knows the
permissions, the device and the path.  Two address spaces look alike to a process
if they hold the same bytes under the same permissions: what differs is then only
what the kernel says of the regions.
-/

namespace ReZygisk
namespace Kernel

open Foundation

structure Cell where
  byte : Byte
  perms : Nat
  dev : Nat
  path : List Byte
  deriving DecidableEq

abbrev AddressSpace := Nat -> Option Cell

def InRange (addr size a : Nat) : Prop :=
  addr ≤ a ∧ a < addr + size

instance (addr size a : Nat) : Decidable (InRange addr size a) :=
  inferInstanceAs (Decidable (_ ∧ _))

namespace AddressSpace

section Calls

variable (space : AddressSpace)

/-- What a process can tell of an address by using it. -/
def view (a : Nat) : Option (Byte × Nat) :=
  (space a).map (fun cell => (cell.byte, cell.perms))

/-- The cells of a range, changed alike. -/
def modify (addr size : Nat) (f : Cell -> Cell) : AddressSpace :=
  fun a => if InRange addr size a then (space a).map f else space a

def mprotect (addr size perms : Nat) : AddressSpace :=
  space.modify addr size (fun cell => { cell with perms := perms })

/-- A new region of zeros. -/
def mmap (addr size perms dev : Nat) (path : List Byte) : AddressSpace :=
  fun a => if InRange addr size a then some ⟨0, perms, dev, path⟩ else space a

/-- `mremap` of a whole region onto a fixed address, which unmaps what was there.
Ranges that overlap are refused. -/
def mremap (old size new : Nat) : AddressSpace :=
  fun a =>
    if old < new + size ∧ new < old + size then space a
    else if InRange new size a then space (old + (a - new))
    else if InRange old size a then none
    else space a

def Allows (perm addr size : Nat) : Prop :=
  forall i, i < size -> exists cell, space (addr + i) = some cell ∧ cell.perms &&& perm ≠ 0

instance (perm addr size : Nat) : Decidable (space.Allows perm addr size) :=
  decidable_of_iff
    (forall i, i < size -> ((space (addr + i)).any (fun cell => cell.perms &&& perm ≠ 0)) = true)
    (by simp [Allows, Option.any_eq_true])

/-- `memcpy`; `none` is a fault. -/
def memcpy (read write dst src size : Nat) : Option AddressSpace :=
  if space.Allows read src size ∧ space.Allows write dst size then
    some (fun a =>
      if InRange dst size a then
        match space a, space (src + (a - dst)) with
        | some cell, some source => some { cell with byte := source.byte }
        | _, _ => none
      else space a)
  else none

end Calls

section Ranges

variable {space : AddressSpace} {addr size a : Nat}

theorem modify_of_mem {f : Cell -> Cell} (h : InRange addr size a) :
    space.modify addr size f a = (space a).map f :=
  if_pos h

theorem modify_of_not_mem {f : Cell -> Cell} (h : ¬ InRange addr size a) :
    space.modify addr size f a = space a :=
  if_neg h

theorem mmap_of_mem {perms dev : Nat} {path : List Byte} (h : InRange addr size a) :
    space.mmap addr size perms dev path a = some ⟨0, perms, dev, path⟩ :=
  if_pos h

theorem mmap_of_not_mem {perms dev : Nat} {path : List Byte} (h : ¬ InRange addr size a) :
    space.mmap addr size perms dev path a = space a :=
  if_neg h

/-- What is free and what is mapped do not overlap. -/
theorem apart_of_free {copy : Nat} (hfree : forall a, InRange copy size a -> space a = none)
    (hmapped : forall a, InRange addr size a -> space a ≠ none) :
    ¬ (copy < addr + size ∧ addr < copy + size) := by
  intro hoverlap
  by_cases hle : addr ≤ copy
  · exact hmapped copy ⟨hle, hoverlap.left⟩ (hfree copy ⟨Nat.le_refl _, by omega⟩)
  · exact hmapped addr ⟨Nat.le_refl _, by omega⟩ (hfree addr ⟨by omega, hoverlap.right⟩)

theorem modify_modify (f g : Cell -> Cell) :
    (space.modify addr size f).modify addr size g = space.modify addr size (g ∘ f) := by
  funext a
  by_cases h : InRange addr size a
  · rw [modify_of_mem h, modify_of_mem h, modify_of_mem h, Option.map_map]
  · rw [modify_of_not_mem h, modify_of_not_mem h, modify_of_not_mem h]

/-- The same cells, changed in the same way as far as they are mapped. -/
theorem modify_congr {f g : Cell -> Cell}
    (h : forall a, InRange addr size a -> forall cell, space a = some cell -> f cell = g cell) :
    space.modify addr size f = space.modify addr size g := by
  funext a
  by_cases ha : InRange addr size a
  · rw [modify_of_mem ha, modify_of_mem ha]
    cases hcell : space a with
    | none => rfl
    | some cell => exact congrArg some (h a ha cell hcell)
  · rw [modify_of_not_mem ha, modify_of_not_mem ha]

theorem modify_mmap {copy len perms dev : Nat} {path : List Byte} (f : Cell -> Cell)
    (hapart : forall a, InRange addr size a -> ¬ InRange copy len a) :
    (space.mmap copy len perms dev path).modify addr size f =
      (space.modify addr size f).mmap copy len perms dev path := by
  funext a
  by_cases h : InRange addr size a
  · rw [modify_of_mem h, mmap_of_not_mem (hapart a h), mmap_of_not_mem (hapart a h),
      modify_of_mem h]
  · rw [modify_of_not_mem h]
    by_cases hcopy : InRange copy len a
    · rw [mmap_of_mem hcopy, mmap_of_mem hcopy]
    · rw [mmap_of_not_mem hcopy, mmap_of_not_mem hcopy, modify_of_not_mem h]

theorem inRange_add {i : Nat} (h : i < size) : InRange addr size (addr + i) :=
  ⟨Nat.le_add_right addr i, Nat.add_lt_add_left h addr⟩

/-- A region that can be read is copied to a new one, which then takes its place:
every cell keeps its byte and gets the rest from the new region. -/
theorem copy_and_move {copy read write perms dev : Nat} {path : List Byte} (final : Nat)
    (hread : space.Allows read addr size)
    (hfree : forall a, InRange copy size a -> space a = none) (hwrite : perms &&& write ≠ 0) :
    ((space.mmap copy size perms dev path).memcpy read write copy addr size).map
        (fun space => (space.mremap copy size addr).mprotect addr size final) =
      some (space.modify addr size (fun cell => ⟨cell.byte, final, dev, path⟩)) := by
  have hmapped : forall a, InRange addr size a -> space a ≠ none := by
    intro a ha hnone
    rcases hread (a - addr) (by have := ha.right; have := ha.left; omega) with ⟨cell, hcell, _⟩
    rw [Nat.add_sub_cancel' ha.left, hnone] at hcell
    cases hcell
  have hapart := apart_of_free hfree hmapped
  have hsource : forall i, i < size -> ¬ InRange copy size (addr + i) :=
    fun i hi hno => hmapped _ (inRange_add hi) (hfree _ hno)
  have hallowed : (space.mmap copy size perms dev path).Allows read addr size ∧
      (space.mmap copy size perms dev path).Allows write copy size := by
    constructor
    · intro i hi
      rw [mmap_of_not_mem (hsource i hi)]
      exact hread i hi
    · intro i hi
      exact ⟨_, mmap_of_mem (inRange_add hi), hwrite⟩
  rw [memcpy, if_pos hallowed, Option.map_some]
  congr 1
  funext a
  by_cases ha : InRange addr size a
  · rcases Nat.exists_eq_add_of_le ha.left with ⟨i, hi⟩
    have hlt : i < size := by
      have := ha.right
      omega
    rcases hread i hlt with ⟨cell, hcell, _⟩
    subst hi
    rw [mprotect, modify_of_mem ha, modify_of_mem ha, mremap, if_neg hapart, if_pos ha,
      Nat.add_sub_cancel_left, if_pos (inRange_add hlt), mmap_of_mem (inRange_add hlt),
      Nat.add_sub_cancel_left, mmap_of_not_mem (hsource i hlt), hcell]
    rfl
  · rw [mprotect, modify_of_not_mem ha, modify_of_not_mem ha, mremap, if_neg hapart, if_neg ha]
    by_cases hcopy : InRange copy size a
    · rw [if_pos hcopy, hfree a hcopy]
    · rw [if_neg hcopy, if_neg hcopy, mmap_of_not_mem hcopy]

end Ranges

end AddressSpace

end Kernel
end ReZygisk
