import Mathlib.Data.Finset.Card
import Mathlib.Data.Finset.Range
import Mathlib.Logic.Function.Basic
import ReZygisk.Foundation.Bytes

/-!
# Files in memory

A file of `memfd_create` is shared by everyone who is sent a descriptor of it.  Seals
forbid changes for good; none can be taken off.
-/

namespace ReZygisk
namespace Kernel

open Foundation

/-- `F_SEAL_SHRINK` and the others, as a set. -/
structure Seals where
  sealShrink : Bool
  sealGrow : Bool
  sealWrite : Bool
  sealSeal : Bool
  deriving DecidableEq

def Seals.union (s t : Seals) : Seals :=
  { sealShrink := s.sealShrink || t.sealShrink, sealGrow := s.sealGrow || t.sealGrow,
    sealWrite := s.sealWrite || t.sealWrite, sealSeal := s.sealSeal || t.sealSeal }

structure Memfd where
  content : List Byte
  seals : Seals
  deriving DecidableEq

/-- What anyone can try who has a descriptor.  A hole that is punched and a shared
mapping that is written to are writes. -/
inductive MemfdOp where
  | write (offset : Nat) (bytes : List Byte)
  | ftruncate (length : Nat)
  | addSeals (seals : Seals)

/-- The file without what there is at these bytes, zeros filling a gap. -/
def splice (content : List Byte) (offset : Nat) (bytes : List Byte) : List Byte :=
  content.take offset ++ List.replicate (offset - content.length) 0 ++ bytes ++
    content.drop (offset + bytes.length)

/-- A call that the seals forbid has no effect. -/
def Memfd.apply (f : Memfd) : MemfdOp -> Memfd
  | MemfdOp.write offset bytes =>
      if f.seals.sealWrite then f
      else if f.seals.sealGrow ∧ f.content.length < offset + bytes.length then f
      else { f with content := splice f.content offset bytes }
  | MemfdOp.ftruncate length =>
      if f.seals.sealShrink ∧ length < f.content.length then f
      else if f.seals.sealGrow ∧ f.content.length < length then f
      else { f with content :=
        f.content.take length ++ List.replicate (length - f.content.length) 0 }
  | MemfdOp.addSeals seals =>
      if f.seals.sealSeal then f else { f with seals := f.seals.union seals }

/-- What is sealed against every change of its content. -/
def Memfd.Fixed (f : Memfd) : Prop :=
  f.seals.sealShrink = true ∧ f.seals.sealGrow = true ∧ f.seals.sealWrite = true

theorem Memfd.Fixed.apply {f : Memfd} (h : f.Fixed) (op : MemfdOp) :
    (f.apply op).content = f.content ∧ (f.apply op).Fixed := by
  rcases h with ⟨hshrink, hgrow, hwrite⟩
  cases op with
  | write offset bytes =>
      rw [Memfd.apply, if_pos hwrite]
      exact ⟨rfl, hshrink, hgrow, hwrite⟩
  | ftruncate length =>
      rcases Nat.lt_trichotomy length f.content.length with hless | hsame | hmore
      · rw [Memfd.apply, if_pos ⟨hshrink, hless⟩]
        exact ⟨rfl, hshrink, hgrow, hwrite⟩
      · rw [Memfd.apply, if_neg (fun hno => Nat.ne_of_lt hno.right hsame),
          if_neg (fun hno => Nat.ne_of_gt hno.right hsame)]
        refine ⟨?_, hshrink, hgrow, hwrite⟩
        rw [hsame, Nat.sub_self, List.take_length]
        exact List.append_nil _
      · rw [Memfd.apply, if_neg (fun hno => Nat.lt_asymm hno.right hmore),
          if_pos ⟨hgrow, hmore⟩]
        exact ⟨rfl, hshrink, hgrow, hwrite⟩
  | addSeals seals =>
      rw [Memfd.apply]
      split
      · exact ⟨rfl, hshrink, hgrow, hwrite⟩
      · refine ⟨rfl, ?_, ?_, ?_⟩
        · exact Bool.or_eq_true_iff.mpr (Or.inl hshrink)
        · exact Bool.or_eq_true_iff.mpr (Or.inl hgrow)
        · exact Bool.or_eq_true_iff.mpr (Or.inl hwrite)

/-!
# Descriptors
-/

/-- The descriptors of a process, all below its limit, and which of them are files in
memory. -/
structure OpenFiles where
  limit : Nat
  opened : Finset Nat
  below : opened ⊆ Finset.range limit
  memfds : Nat -> Option Memfd

namespace OpenFiles

/-- A new descriptor gets the lowest number that is free. -/
def lowestFree (files : OpenFiles) : Option Nat :=
  (List.range files.limit).find? (fun fd => decide (fd ∉ files.opened))

theorem lowestFree_spec {files : OpenFiles} {fd : Nat} (h : files.lowestFree = some fd) :
    fd < files.limit ∧ fd ∉ files.opened := by
  unfold lowestFree at h
  have hfree := List.find?_some h
  exact ⟨List.mem_range.mp (List.mem_of_find?_eq_some h), of_decide_eq_true hfree⟩

theorem lowestFree_isSome_iff (files : OpenFiles) :
    files.lowestFree.isSome = true <-> files.opened.card < files.limit := by
  constructor
  · intro h
    rcases Option.isSome_iff_exists.mp h with ⟨fd, hfd⟩
    rcases lowestFree_spec hfd with ⟨hlt, hfree⟩
    have hsub : insert fd files.opened ⊆ Finset.range files.limit :=
      Finset.insert_subset (Finset.mem_range.mpr hlt) files.below
    have hcard := Finset.card_le_card hsub
    rw [Finset.card_insert_of_notMem hfree, Finset.card_range] at hcard
    exact hcard
  · intro h
    rw [lowestFree, List.find?_isSome]
    have hne : files.opened ≠ Finset.range files.limit := by
      intro hno
      rw [hno, Finset.card_range] at h
      exact absurd h (Nat.lt_irrefl _)
    rcases Finset.exists_of_ssubset (Finset.ssubset_iff_subset_ne.mpr ⟨files.below, hne⟩) with
      ⟨fd, hfd, hfree⟩
    exact ⟨fd, List.mem_range.mpr (Finset.mem_range.mp hfd), decide_eq_true hfree⟩

/-- The process after something has got a descriptor: a file in memory, or anything else. -/
def install (files : OpenFiles) (fd : Nat) (hfd : fd < files.limit) (f : Option Memfd) :
    OpenFiles where
  limit := files.limit
  opened := insert fd files.opened
  below := Finset.insert_subset (Finset.mem_range.mpr hfd) files.below
  memfds := Function.update files.memfds fd f

def close (files : OpenFiles) (fd : Nat) : OpenFiles where
  limit := files.limit
  opened := files.opened.erase fd
  below := (Finset.erase_subset fd files.opened).trans files.below
  memfds := Function.update files.memfds fd none

/-- Someone uses a descriptor of one of the files. -/
def use (files : OpenFiles) (call : Nat × MemfdOp) : OpenFiles :=
  { files with
    memfds := Function.update files.memfds call.1
      ((files.memfds call.1).map (fun f => f.apply call.2)) }

def uses (files : OpenFiles) (calls : List (Nat × MemfdOp)) : OpenFiles :=
  calls.foldl use files

def content (files : OpenFiles) (fd : Nat) : Option (List Byte) :=
  (files.memfds fd).map Memfd.content

/-- The file at a descriptor is fixed with this content. -/
def Holds (files : OpenFiles) (fd : Nat) (content : List Byte) : Prop :=
  exists f, files.memfds fd = some f ∧ f.content = content ∧ f.Fixed

theorem Holds.content {files : OpenFiles} {fd : Nat} {content : List Byte}
    (h : files.Holds fd content) : files.content fd = some content := by
  rcases h with ⟨f, hf, hcontent, _⟩
  rw [OpenFiles.content, hf, Option.map_some, hcontent]

/-- Descriptors that go to other things do not matter. -/
theorem Holds.of_ne {files files' : OpenFiles} {fd other : Nat} {content : List Byte}
    {f : Option Memfd} (h : files.Holds fd content) (hne : fd ≠ other)
    (hfiles : files'.memfds = Function.update files.memfds other f) :
    files'.Holds fd content := by
  rcases h with ⟨g, hg, hcontent, hfixed⟩
  refine ⟨g, ?_, hcontent, hfixed⟩
  rw [hfiles, Function.update_of_ne hne, hg]

theorem Holds.use {files : OpenFiles} {fd : Nat} {content : List Byte}
    (h : files.Holds fd content) (call : Nat × MemfdOp) : (files.use call).Holds fd content := by
  by_cases hfd : fd = call.1
  · rcases h with ⟨f, hf, hcontent, hfixed⟩
    rcases hfixed.apply call.2 with ⟨hsame, hstill⟩
    refine ⟨f.apply call.2, ?_, hsame.trans hcontent, hstill⟩
    show Function.update files.memfds call.1 _ fd = _
    rw [← hfd, Function.update_self, hf]
    rfl
  · exact h.of_ne hfd rfl

/-- What is fixed stays as it is, whatever is tried with whichever descriptor. -/
theorem Holds.uses {files : OpenFiles} {fd : Nat} {content : List Byte}
    (h : files.Holds fd content) (calls : List (Nat × MemfdOp)) :
    (files.uses calls).Holds fd content := by
  induction calls generalizing files with
  | nil => exact h
  | cons call rest ih => exact ih (h.use call)

end OpenFiles

end Kernel
end ReZygisk
