import Mathlib.Data.Finset.Sort
import Mathlib.Data.Nat.Find
import ReZygisk.Injector.Fork
import ReZygisk.Kernel.Wait

/-!
# Descriptors of a specialised process

The zygote aborts an app that has a descriptor open which it did not know at the
fork and is not told to ignore.  `fork_pre` records the open descriptors of the
child, modules may exempt others, and `sanitize_fds` extends the list of
descriptors to ignore and closes what is on neither.
-/

namespace ReZygisk
namespace Injector

open Foundation
open Kernel

def MAX_FD_SIZE : Nat := 1024

/-!
# Descriptor tables
-/

def parseIntFrom (val : Int) : List Byte -> Int
  | [] => val
  | c :: rest =>
      if c = 0 then val
      else if c > 57 ∨ c < 48 then -1
      else parseIntFrom (val * 10 + c.toNat - 48) rest

def parseInt (s : List Byte) : Int :=
  parseIntFrom 0 s

/-- A new descriptor gets the lowest number that is free. -/
def lowestFree (fds : Finset Nat) : Nat :=
  Nat.find (Infinite.exists_notMem_finset fds)

def close (fds : Finset Nat) (fd : Int) : Finset Nat :=
  if 0 ≤ fd then fds.erase fd.toNat else fds

/-- The names in `/proc/self/fd`.  Its entries are found by number, so closing
one that has been read leaves the others in place. -/
def fdEntries (fds : Finset Nat) : List (List Byte) :=
  bytesOf "." :: bytesOf ".." :: fds.sort.map decText

/-!
# The context and its process
-/

structure FdContext extends ZygiskContext where
  appForkAndSpecialize : Bool
  postSpecialize : Bool
  skipFdSanitization : Bool
  allowedFds : Finset Nat
  exemptedFds : List Int

/-- A process with its context; `fdsToIgnore` is the array that the original
method is going to be passed. -/
structure Specialization where
  fds : Finset Nat
  ctx : FdContext
  fdsToIgnore : Option (List Int)

namespace Specialization

/-- A replaced method is entered. -/
def start (fds : Finset Nat) (fdsToIgnore : Option (List Int)) : Specialization :=
  { fds := fds
    ctx :=
      { toZygiskContext := ZygiskContext.new, appForkAndSpecialize := false,
        postSpecialize := false, skipFdSanitization := false, allowedFds := ∅,
        exemptedFds := [] }
    fdsToIgnore := fdsToIgnore }

/-!
# Before and during the modules
-/

def recordEntry (tables : Finset Nat × Finset Nat) (fd : Int) :
    Finset Nat × Finset Nat :=
  if fd < 0 ∨ fd ≥ MAX_FD_SIZE then (close tables.1 fd, tables.2)
  else (tables.1, insert fd.toNat tables.2)

/-- The scan of `fork_pre`.  The bitset has no bit for a directory whose number
is not below `MAX_FD_SIZE`; then there is no result. -/
def recordFds (s : Specialization) : Option Specialization :=
  let dir := lowestFree s.fds
  let opened := insert dir s.fds
  let scanned := (fdEntries opened).foldl
    (fun tables name => recordEntry tables (parseInt name))
    (opened, s.ctx.allowedFds)
  if dir < MAX_FD_SIZE then
    some { s with
      fds := close scanned.1 dir
      ctx := { s.ctx with allowedFds := scanned.2.erase dir } }
  else none

def forkPre (fork : ForkOutcome) (s : Specialization) : Option Specialization :=
  let forked : Specialization :=
    { s with ctx :=
      { s.ctx with toZygiskContext := s.ctx.toZygiskContext.forkPre fork } }
  if forked.ctx.pid ≠ 0 ∨ forked.ctx.skipFdSanitization = true then some forked
  else forked.recordFds

def exemptFd (s : Specialization) (fd : Int) : Bool × Specialization :=
  if s.ctx.postSpecialize || s.ctx.skipFdSanitization then (true, s)
  else if s.ctx.appForkAndSpecialize = false then (false, s)
  else
    (true, { s with ctx :=
      { s.ctx with exemptedFds := s.ctx.exemptedFds ++ [fd] } })

/-- What the code that runs before the specialisation does with descriptors. -/
inductive ModuleOp where
  | opens (fd : Nat)
  | closes (fd : Nat)
  | exempts (fd : Int)

def moduleStep (s : Specialization) : ModuleOp -> Specialization
  | ModuleOp.opens fd => { s with fds := insert fd s.fds }
  | ModuleOp.closes fd => { s with fds := close s.fds fd }
  | ModuleOp.exempts fd => (s.exemptFd fd).2

def runModules (ops : List ModuleOp) (s : Specialization) : Specialization :=
  ops.foldl moduleStep s

/-!
# Sanitizing
-/

def newIntArray (alloc : Bool) (len : Nat) : Option (List Int) :=
  if alloc then some (List.replicate len 0) else none

def setIntArrayRegion (array : List Int) (start : Nat) (buf : List Int) : List Int :=
  array.take start ++ buf ++ array.drop (start + buf.length)

def allowFd (allowed : Finset Nat) (fd : Int) : Finset Nat :=
  if 0 ≤ fd ∧ fd < MAX_FD_SIZE then insert fd.toNat allowed else allowed

def allowFds (s : Specialization) (fds : List Int) : Specialization :=
  { s with ctx := { s.ctx with allowedFds := fds.foldl allowFd s.ctx.allowedFds } }

/-- `update_fd_array`: the process with the new array, if there is one. -/
def updateFdArray (alloc : Bool) (off : Nat) (s : Specialization) :
    Option Specialization :=
  if s.ctx.exemptedFds = [] then none
  else
    (newIntArray alloc (off + s.ctx.exemptedFds.length)).map (fun array =>
      let allowed := s.allowFds s.ctx.exemptedFds
      { allowed with
        fdsToIgnore := some (setIntArrayRegion array off s.ctx.exemptedFds)
        ctx := { allowed.ctx with skipFdSanitization := true } })

def updateIgnored (alloc : Bool) (s : Specialization) : Specialization :=
  match s.fdsToIgnore with
  | some arr =>
      match updateFdArray alloc arr.length (s.allowFds arr) with
      | some updated =>
          { updated with fdsToIgnore :=
              updated.fdsToIgnore.map (fun newFdList =>
                setIntArrayRegion newFdList 0 arr) }
      | none => s.allowFds arr
  | none => (updateFdArray alloc 0 s).getD s

def sweepEntry (allowed : Finset Nat) (dfd : Nat) (fds : Finset Nat) (fd : Int) :
    Finset Nat :=
  if (fd < 0 ∨ fd ≥ MAX_FD_SIZE ∨ fd.toNat ∉ allowed) ∧ fd ≠ dfd then close fds fd
  else fds

def closeForbidden (s : Specialization) : Specialization :=
  let dfd := lowestFree s.fds
  let opened := insert dfd s.fds
  let swept := (fdEntries opened).foldl
    (fun fds name => sweepEntry s.ctx.allowedFds dfd fds (parseInt name)) opened
  { s with fds := close swept dfd }

def sanitizeFds (alloc : Bool) (s : Specialization) : Specialization :=
  if s.ctx.skipFdSanitization then s
  else
    let updated := if s.ctx.appForkAndSpecialize then s.updateIgnored alloc else s
    if updated.ctx.pid ≠ 0 then updated else updated.closeForbidden

/-!
# The two fork hooks
-/

/-- `nativeForkAndSpecialize_pre` up to `sanitize_fds`. -/
def appPrepared (fork : ForkOutcome) (logFd : Int) (ops : List ModuleOp)
    (s : Specialization) : Option Specialization :=
  let logged : List Int := if logFd ≠ -1 then [logFd] else []
  (forkPre fork { s with ctx :=
    { s.ctx with
      appForkAndSpecialize := true
      exemptedFds := s.ctx.exemptedFds ++ logged } }).map (fun forked =>
        if forked.ctx.pid = 0 then forked.runModules ops else forked)

def nativeForkAndSpecializePre (fork : ForkOutcome) (logFd : Int)
    (ops : List ModuleOp) (alloc : Bool) (s : Specialization) :
    Option Specialization :=
  (s.appPrepared fork logFd ops).map (sanitizeFds alloc)

/-- `nativeForkSystemServer_pre` up to `sanitize_fds`. -/
def serverPrepared (fork : ForkOutcome) (ops : List ModuleOp) (s : Specialization) :
    Option Specialization :=
  (forkPre fork s).map (fun forked =>
    if forked.ctx.pid = 0 then forked.runModules ops else forked)

def nativeForkSystemServerPre (fork : ForkOutcome) (ops : List ModuleOp)
    (alloc : Bool) (s : Specialization) : Option Specialization :=
  (s.serverPrepared fork ops).map (fun prepared =>
    if prepared.ctx.pid ≠ 0 then prepared else prepared.sanitizeFds alloc)

end Specialization

/-!
# Reading a directory
-/

section Directory

theorem parseIntFrom_digits {ds : List Nat} (h : forall d, d ∈ ds -> d < 10)
    (val : Nat) (tail : List Byte) :
    parseIntFrom val (ds.map digitByte ++ tail) =
      parseIntFrom (ds.foldl (fun val d => val * 10 + d) val : Nat) tail := by
  induction ds generalizing val with
  | nil => rfl
  | cons d rest ih =>
      have hd : d < 10 := h d List.mem_cons_self
      have hbyte : (digitByte d).toNat = 48 + d :=
        UInt8.toNat_ofNat_of_lt (Nat.lt_of_lt_of_le (Nat.add_lt_add_left hd 48) (by decide))
      have hzero : digitByte d ≠ 0 := by
        intro heq
        rw [heq] at hbyte
        have : (0 : Byte).toNat = 0 := rfl
        omega
      have hdigit : ¬ (digitByte d > 57 ∨ digitByte d < 48) := by
        rw [gt_iff_lt, UInt8.lt_iff_toNat_lt, UInt8.lt_iff_toNat_lt, hbyte]
        have hlow : (48 : Byte).toNat = 48 := rfl
        have hhigh : (57 : Byte).toNat = 57 := rfl
        omega
      rw [List.map_cons, List.cons_append, parseIntFrom, if_neg hzero, if_neg hdigit, List.foldl_cons,
        ← ih (fun d' hd' => h d' (List.mem_cons_of_mem d hd'))]
      congr 1
      omega

theorem parseInt_append (n : Nat) (tail : List Byte) :
    parseInt (decText n ++ tail) = parseIntFrom n tail := by
  rcases decText_digits n with ⟨ds, htext, _, hds, hvalue⟩
  have hparse := parseIntFrom_digits hds 0 tail
  rw [hvalue] at hparse
  unfold parseInt
  rw [htext]
  exact hparse

theorem parseInt_decText (n : Nat) : parseInt (decText n) = n := by
  have hparse := parseInt_append n []
  rw [List.append_nil] at hparse
  exact hparse

/-- A scan sees the two entries that are no numbers and then the descriptors. -/
theorem foldl_fdEntries {state : Type} (g : state -> Int -> state) (s : state)
    (hdots : forall s, g s (-1) = s) (fds : Finset Nat) :
    (fdEntries fds).foldl (fun s name => g s (parseInt name)) s =
      fds.sort.foldl (fun s (fd : Nat) => g s fd) s := by
  have hdot : parseInt (bytesOf ".") = -1 := by decide
  have hdots' : parseInt (bytesOf "..") = -1 := by decide
  unfold fdEntries
  rw [List.foldl_cons, List.foldl_cons, hdot, hdots', hdots, hdots, List.foldl_map]
  simp only [parseInt_decText]

end Directory

/-!
# What the scans leave
-/

section Scans

theorem lowestFree_not_mem (fds : Finset Nat) : lowestFree fds ∉ fds :=
  Nat.find_spec (Infinite.exists_notMem_finset fds)

theorem lowestFree_lt {fds : Finset Nat} {bound : Nat}
    (h : exists fd, fd < bound ∧ fd ∉ fds) : lowestFree fds < bound := by
  rcases h with ⟨fd, hlt, hfree⟩
  exact Nat.lt_of_le_of_lt (Nat.find_min' _ hfree) hlt

theorem mem_close {fds : Finset Nat} {fd n : Nat} :
    n ∈ close fds fd <-> n ≠ fd ∧ n ∈ fds := by
  unfold close
  rw [if_pos (Int.natCast_nonneg fd), Int.toNat_natCast]
  exact Finset.mem_erase

namespace Specialization

theorem recordEntry_dots (tables : Finset Nat × Finset Nat) :
    recordEntry tables (-1) = tables := by
  unfold recordEntry close
  rw [if_pos (Or.inl (by decide)), if_neg (by decide)]

theorem recordEntry_small {fd : Nat} (h : fd < MAX_FD_SIZE)
    (tables : Finset Nat × Finset Nat) :
    recordEntry tables fd = (tables.1, insert fd tables.2) := by
  unfold recordEntry
  rw [if_neg, Int.toNat_natCast]
  intro hno
  rcases hno with hneg | hbig
  · exact absurd hneg (Int.not_lt.mpr (Int.natCast_nonneg fd))
  · exact absurd (Int.ofNat_le.mp hbig) (Nat.not_le.mpr h)

theorem recordEntry_large {fd : Nat} (h : MAX_FD_SIZE ≤ fd)
    (tables : Finset Nat × Finset Nat) :
    recordEntry tables fd = (close tables.1 fd, tables.2) := by
  unfold recordEntry
  rw [if_pos]
  exact Or.inr (Int.ofNat_le.mpr h)

/-- The first scan allows what is below the bound and closes the rest. -/
theorem mem_record (fds : List Nat) (tables : Finset Nat × Finset Nat) (n : Nat) :
    (n ∈ (fds.foldl (fun tables (fd : Nat) => recordEntry tables fd) tables).1 <->
      n ∈ tables.1 ∧ ¬ (n ∈ fds ∧ MAX_FD_SIZE ≤ n)) ∧
    (n ∈ (fds.foldl (fun tables (fd : Nat) => recordEntry tables fd) tables).2 <->
      n ∈ tables.2 ∨ (n ∈ fds ∧ n < MAX_FD_SIZE)) := by
  induction fds generalizing tables with
  | nil => simp only [List.foldl_nil, List.not_mem_nil, false_and, not_false_eq_true,
      and_true, or_false, and_self]
  | cons fd rest ih =>
      rw [List.foldl_cons]
      rcases Nat.lt_or_ge fd MAX_FD_SIZE with hsmall | hlarge
      · rw [recordEntry_small hsmall]
        rcases ih (tables.1, insert fd tables.2) with ⟨hopen, hallowed⟩
        rw [hopen, hallowed]
        simp only [Finset.mem_insert, List.mem_cons]
        grind
      · rw [recordEntry_large hlarge]
        rcases ih (close tables.1 fd, tables.2) with ⟨hopen, hallowed⟩
        rw [hopen, hallowed]
        simp only [mem_close, List.mem_cons]
        grind

theorem recordFds_eq {s : Specialization}
    (hfree : exists fd, fd < MAX_FD_SIZE ∧ fd ∉ s.fds)
    (hnone : s.ctx.allowedFds = ∅) :
    exists fds allowed,
      s.recordFds = some { s with
        fds := fds, ctx := { s.ctx with allowedFds := allowed } } ∧
      forall n, n ∈ allowed <-> n ∈ s.fds ∧ n < MAX_FD_SIZE := by
  have hlow := lowestFree_lt hfree
  have hnew := lowestFree_not_mem s.fds
  refine ⟨_, _, if_pos hlow, ?_⟩
  intro n
  rw [foldl_fdEntries recordEntry _ recordEntry_dots, Finset.mem_erase,
    (mem_record _ _ n).right, hnone]
  simp only [Finset.notMem_empty, false_or, Finset.mem_sort, Finset.mem_insert]
  constructor
  · intro h
    exact ⟨h.right.left.resolve_left h.left, h.right.right⟩
  · intro h
    refine ⟨?_, Or.inr h.left, h.right⟩
    intro heq
    rw [heq] at h
    exact hnew h.left

theorem sweepEntry_dots (allowed : Finset Nat) (dfd : Nat) (fds : Finset Nat) :
    sweepEntry allowed dfd fds (-1) = fds := by
  unfold sweepEntry close
  split
  · exact if_neg (by decide)
  · rfl

/-- Whether the second scan closes a descriptor. -/
def Forbidden (allowed : Finset Nat) (dfd n : Nat) : Prop :=
  (MAX_FD_SIZE ≤ n ∨ n ∉ allowed) ∧ n ≠ dfd

theorem mem_sweepEntry {allowed fds : Finset Nat} {dfd fd n : Nat} :
    n ∈ sweepEntry allowed dfd fds fd <->
      n ∈ fds ∧ ¬ (n = fd ∧ Forbidden allowed dfd n) := by
  have hforbidden : (((fd : Int) < 0 ∨ (fd : Int) ≥ MAX_FD_SIZE ∨
      (fd : Int).toNat ∉ allowed) ∧ (fd : Int) ≠ dfd) <-> Forbidden allowed dfd fd := by
    have hneg : ¬ (fd : Int) < 0 := Int.not_lt.mpr (Int.natCast_nonneg fd)
    have hlarge : (fd : Int) ≥ MAX_FD_SIZE <-> MAX_FD_SIZE ≤ fd := Int.ofNat_le
    have hne : (fd : Int) ≠ dfd <-> fd ≠ dfd := Int.ofNat_inj.not
    rw [Int.toNat_natCast, or_iff_right hneg, hlarge, hne]
    rfl
  unfold sweepEntry
  by_cases hclose : Forbidden allowed dfd fd
  · rw [if_pos (hforbidden.mpr hclose), mem_close]
    constructor
    · intro h
      exact ⟨h.right, fun hboth => h.left hboth.left⟩
    · intro h
      refine ⟨?_, h.left⟩
      intro heq
      rw [heq] at h
      exact h.right ⟨rfl, hclose⟩
  · rw [if_neg (fun h => hclose (hforbidden.mp h))]
    constructor
    · intro h
      refine ⟨h, ?_⟩
      intro hboth
      rw [hboth.left] at hboth
      exact hclose hboth.right
    · intro h
      exact h.left

theorem mem_sweep (allowed : Finset Nat) (dfd : Nat) (l : List Nat)
    (fds : Finset Nat) (n : Nat) :
    n ∈ l.foldl (fun fds (fd : Nat) => sweepEntry allowed dfd fds fd) fds <->
      n ∈ fds ∧ ¬ (n ∈ l ∧ Forbidden allowed dfd n) := by
  induction l generalizing fds with
  | nil => simp only [List.foldl_nil, List.not_mem_nil, false_and, not_false_eq_true,
      and_true]
  | cons fd rest ih =>
      rw [List.foldl_cons, ih, mem_sweepEntry, List.mem_cons]
      constructor
      · intro h
        refine ⟨h.left.left, ?_⟩
        intro hboth
        rcases hboth with ⟨heq | hrest, hforbidden⟩
        · exact h.left.right ⟨heq, hforbidden⟩
        · exact h.right ⟨hrest, hforbidden⟩
      · intro h
        refine ⟨⟨h.left, ?_⟩, ?_⟩
        · intro hboth
          exact h.right ⟨Or.inl hboth.left, hboth.right⟩
        · intro hboth
          exact h.right ⟨Or.inr hboth.left, hboth.right⟩

/-- The second scan leaves the allowed descriptors below the bound. -/
theorem mem_closeForbidden (s : Specialization) (n : Nat) :
    n ∈ s.closeForbidden.fds <->
      n ∈ s.fds ∧ n < MAX_FD_SIZE ∧ n ∈ s.ctx.allowedFds := by
  have hnew := lowestFree_not_mem s.fds
  unfold closeForbidden
  simp only
  rw [foldl_fdEntries (sweepEntry s.ctx.allowedFds (lowestFree s.fds)) _
    (sweepEntry_dots _ _), mem_close, mem_sweep, Finset.mem_sort, Finset.mem_insert]
  constructor
  · intro h
    rcases h with ⟨hne, hopen, hallowed⟩
    have hold : n ∈ s.fds := hopen.resolve_left hne
    by_contra hno
    apply hallowed
    refine ⟨Or.inr hold, ?_, hne⟩
    by_contra hneither
    rw [not_or, Nat.not_le, not_not] at hneither
    exact hno ⟨hold, hneither⟩
  · intro h
    rcases h with ⟨hold, hsmall, hallowed⟩
    refine ⟨?_, Or.inr hold, ?_⟩
    · intro heq
      rw [heq] at hold
      exact hnew hold
    · intro hclosed
      rcases hclosed.right.left with hlarge | hforbidden
      · exact absurd hsmall (Nat.not_lt.mpr hlarge)
      · exact hforbidden hallowed

end Specialization

end Scans

/-!
# The array
-/

namespace Specialization

section Array

theorem mem_allowFds (l : List Int) (allowed : Finset Nat) (n : Nat) :
    n ∈ l.foldl allowFd allowed <->
      n ∈ allowed ∨ ((n : Int) ∈ l ∧ n < MAX_FD_SIZE) := by
  induction l generalizing allowed with
  | nil => simp only [List.foldl_nil, List.not_mem_nil, false_and, or_false]
  | cons fd rest ih =>
      have hfirst : n ∈ allowFd allowed fd <->
          n ∈ allowed ∨ ((n : Int) = fd ∧ n < MAX_FD_SIZE) := by
        unfold allowFd
        split
        · rename_i hrange
          have heq : n = fd.toNat <-> (n : Int) = fd ∧ n < MAX_FD_SIZE := by omega
          rw [Finset.mem_insert, heq, or_comm]
        · rename_i hrange
          have hno : ¬ ((n : Int) = fd ∧ n < MAX_FD_SIZE) := by omega
          rw [or_iff_left hno]
      rw [List.foldl_cons, ih, hfirst, List.mem_cons, or_assoc, ← or_and_right]

theorem setIntArrayRegion_new (off : Nat) (exempted : List Int) :
    setIntArrayRegion (List.replicate (off + exempted.length) 0) off exempted =
      List.replicate off 0 ++ exempted := by
  unfold setIntArrayRegion
  rw [List.take_replicate, List.drop_replicate, Nat.sub_self, List.replicate_zero,
    List.append_nil, Nat.min_eq_left (Nat.le_add_right _ _)]

theorem setIntArrayRegion_front (arr exempted : List Int) :
    setIntArrayRegion (List.replicate arr.length 0 ++ exempted) 0 arr =
      arr ++ exempted := by
  unfold setIntArrayRegion
  rw [List.take_zero, List.nil_append, Nat.zero_add, List.drop_left']
  exact List.length_replicate

/-- The array that the original method is passed. -/
def passedArray (alloc : Bool) (exempted : List Int) (fdsToIgnore : Option (List Int)) :
    Option (List Int) :=
  if exempted = [] ∨ alloc = false then fdsToIgnore
  else some (fdsToIgnore.getD [] ++ exempted)

/-- What the update of the array gives the sweep. -/
structure Updated (alloc : Bool) (s updated : Specialization) : Prop where
  fds : updated.fds = s.fds
  pid : updated.ctx.pid = s.ctx.pid
  passed : updated.fdsToIgnore =
    passedArray alloc s.ctx.exemptedFds s.fdsToIgnore
  allowed : forall n, n ∈ updated.ctx.allowedFds <->
    n ∈ s.ctx.allowedFds ∨
      ((n : Int) ∈ updated.fdsToIgnore.getD [] ∧ n < MAX_FD_SIZE)

theorem updateFdArray_none {alloc : Bool} {s : Specialization} (off : Nat)
    (h : s.ctx.exemptedFds = [] ∨ alloc = false) :
    updateFdArray alloc off s = none := by
  unfold updateFdArray
  by_cases hempty : s.ctx.exemptedFds = []
  · exact if_pos hempty
  · rw [if_neg hempty, h.resolve_left hempty]
    rfl

theorem updateFdArray_some {alloc : Bool} {s : Specialization} (off : Nat)
    (h : ¬ (s.ctx.exemptedFds = [] ∨ alloc = false)) :
    exists updated, updateFdArray alloc off s = some updated ∧
      updated.fds = s.fds ∧ updated.ctx.pid = s.ctx.pid ∧
      updated.fdsToIgnore = some (List.replicate off 0 ++ s.ctx.exemptedFds) ∧
      updated.ctx.allowedFds = s.ctx.exemptedFds.foldl allowFd s.ctx.allowedFds := by
  rw [not_or, Bool.not_eq_false] at h
  unfold updateFdArray newIntArray
  rw [if_neg h.left, if_pos h.right, Option.map_some, setIntArrayRegion_new]
  exact ⟨_, rfl, rfl, rfl, rfl, rfl⟩

/-- A null array: the new one has the exempted descriptors alone. -/
theorem updated_of_null {alloc : Bool} {s : Specialization}
    (hignore : s.fdsToIgnore = none) :
    Updated alloc s ((updateFdArray alloc 0 s).getD s) := by
  by_cases hkeep : s.ctx.exemptedFds = [] ∨ alloc = false
  · rw [updateFdArray_none 0 hkeep]
    constructor
    · rfl
    · rfl
    · exact (if_pos hkeep).symm
    · intro n
      show _ <-> _ ∨ ((n : Int) ∈ s.fdsToIgnore.getD [] ∧ _)
      rw [hignore]
      simp only [Option.getD_none, List.not_mem_nil, false_and, or_false]
  · rcases updateFdArray_some 0 hkeep with
      ⟨updated, hupdated, hfds, hpid, hpassed, hallowed⟩
    rw [hupdated]
    constructor
    · exact hfds
    · exact hpid
    · rw [passedArray, if_neg hkeep, hignore]
      exact hpassed
    · intro n
      rw [Option.getD_some, hpassed, hallowed, mem_allowFds]
      rfl

theorem updated_of_array {alloc : Bool} {s : Specialization} {arr : List Int}
    (hignore : s.fdsToIgnore = some arr) :
    Updated alloc s (s.updateIgnored alloc) := by
  unfold updateIgnored
  simp only [hignore]
  by_cases hkeep : s.ctx.exemptedFds = [] ∨ alloc = false
  · have hnone := updateFdArray_none (s := s.allowFds arr) arr.length hkeep
    simp only [hnone]
    constructor
    · rfl
    · rfl
    · exact (if_pos hkeep).symm
    · intro n
      show n ∈ arr.foldl allowFd s.ctx.allowedFds <->
        _ ∨ ((n : Int) ∈ s.fdsToIgnore.getD [] ∧ _)
      rw [hignore, mem_allowFds]
      rfl
  · rcases updateFdArray_some (s := s.allowFds arr) arr.length hkeep with
      ⟨updated, hupdated, hfds, hpid, hpassed, hallowed⟩
    have hboth : updated.fdsToIgnore.map (fun newFdList =>
        setIntArrayRegion newFdList 0 arr) = some (arr ++ s.ctx.exemptedFds) := by
      rw [hpassed, Option.map_some]
      exact congrArg some (setIntArrayRegion_front arr s.ctx.exemptedFds)
    simp only [hupdated, hboth]
    constructor
    · exact hfds
    · exact hpid
    · rw [passedArray, if_neg hkeep, hignore]
      rfl
    · intro n
      show n ∈ updated.ctx.allowedFds <->
        _ ∨ ((n : Int) ∈ arr ++ s.ctx.exemptedFds ∧ _)
      rw [hallowed, mem_allowFds]
      show n ∈ arr.foldl allowFd s.ctx.allowedFds ∨
        ((n : Int) ∈ s.ctx.exemptedFds ∧ _) <-> _
      rw [mem_allowFds, List.mem_append, or_assoc, ← or_and_right]

theorem updated_updateIgnored (alloc : Bool) (s : Specialization) :
    Updated alloc s (s.updateIgnored alloc) := by
  cases hignore : s.fdsToIgnore with
  | none =>
      have heq : s.updateIgnored alloc = (updateFdArray alloc 0 s).getD s := by
        unfold updateIgnored
        rw [hignore]
      rw [heq]
      exact updated_of_null hignore
  | some arr => exact updated_of_array hignore

end Array

/-!
# The child after the hooks
-/

section Hooks

def ModuleOp.exemption : ModuleOp -> Option Int
  | ModuleOp.exempts fd => some fd
  | _ => none

/-- The descriptors exempted by the log and by calls of `exempt_fd`, in order. -/
def exemptions (logFd : Int) (ops : List ModuleOp) : List Int :=
  (if logFd ≠ -1 then [logFd] else []) ++ ops.filterMap ModuleOp.exemption

/-- Of the descriptors open before `sanitize_fds`, those below the bound stay
that were open at the fork or are in the array that is passed on. -/
def Sanitized (atFork : Finset Nat) (before after : Finset Nat)
    (passed : Option (List Int)) : Prop :=
  forall fd, fd ∈ after <-> fd ∈ before ∧ fd < MAX_FD_SIZE ∧
    (fd ∈ atFork ∨ (fd : Int) ∈ passed.getD [])

/-- The context of the child between `fork_pre` and `sanitize_fds`. -/
structure Prepared (atFork : Finset Nat) (app : Bool) (exempted : List Int)
    (fdsToIgnore : Option (List Int)) (s : Specialization) : Prop where
  pid : s.ctx.pid = 0
  app : s.ctx.appForkAndSpecialize = app
  post : s.ctx.postSpecialize = false
  skip : s.ctx.skipFdSanitization = false
  exempted : s.ctx.exemptedFds = exempted
  array : s.fdsToIgnore = fdsToIgnore
  allowed : forall n, n ∈ s.ctx.allowedFds <-> n ∈ atFork ∧ n < MAX_FD_SIZE

variable {atFork : Finset Nat} {app : Bool} {exempted : List Int}
  {fdsToIgnore : Option (List Int)} {s : Specialization}

theorem prepared_moduleStep (h : Prepared atFork app exempted fdsToIgnore s)
    (op : ModuleOp) :
    Prepared atFork app
      (exempted ++ if app then op.exemption.toList else []) fdsToIgnore
      (s.moduleStep op) := by
  have hkeep : forall fds, Prepared atFork app (exempted ++ []) fdsToIgnore
      { s with fds := fds } := by
    intro fds
    rw [List.append_nil]
    exact ⟨h.pid, h.app, h.post, h.skip, h.exempted, h.array, h.allowed⟩
  cases op with
  | opens fd =>
      simp only [ModuleOp.exemption, Option.toList_none, ite_self]
      exact hkeep _
  | closes fd =>
      simp only [ModuleOp.exemption, Option.toList_none, ite_self]
      exact hkeep _
  | exempts fd =>
      have happ := h.app
      cases app with
      | false =>
          have hsame : s.moduleStep (ModuleOp.exempts fd) = s := by
            simp only [moduleStep, exemptFd, h.post, h.skip, happ, Bool.or_self,
              Bool.false_eq_true, if_false, if_true]
          rw [hsame]
          exact hkeep s.fds
      | true =>
          have hpush : s.moduleStep (ModuleOp.exempts fd) =
              { s with ctx := { s.ctx with
                exemptedFds := s.ctx.exemptedFds ++ [fd] } } := by
            simp only [moduleStep, exemptFd, h.post, h.skip, happ, Bool.or_self,
              Bool.false_eq_true, if_false, Bool.true_eq_false]
          rw [hpush]
          exact ⟨h.pid, h.app, h.post, h.skip, congrArg (fun l => l ++ [fd]) h.exempted,
            h.array, h.allowed⟩

theorem prepared_runModules (h : Prepared atFork app exempted fdsToIgnore s)
    (ops : List ModuleOp) :
    Prepared atFork app
      (exempted ++ if app then ops.filterMap ModuleOp.exemption else [])
      fdsToIgnore (s.runModules ops) := by
  induction ops generalizing s exempted with
  | nil =>
      simp only [List.filterMap_nil, ite_self, List.append_nil]
      exact h
  | cons op rest ih =>
      have hstep := ih (prepared_moduleStep h op)
      have hexempted : (exempted ++ if app then op.exemption.toList else []) ++
          (if app then rest.filterMap ModuleOp.exemption else []) =
          exempted ++
            if app then (op :: rest).filterMap ModuleOp.exemption else [] := by
        cases app with
        | false => simp only [Bool.false_eq_true, if_false, List.append_nil]
        | true =>
            simp only [if_true, List.append_assoc]
            cases hop : op.exemption with
            | none => rw [List.filterMap_cons_none hop, Option.toList_none, List.nil_append]
            | some fd =>
                rw [List.filterMap_cons_some hop]
                rfl
      rw [← hexempted]
      exact hstep

theorem sanitizeFds_app (h : Prepared atFork true exempted fdsToIgnore s)
    (alloc : Bool) :
    Sanitized atFork s.fds (s.sanitizeFds alloc).fds
        (s.sanitizeFds alloc).fdsToIgnore ∧
      (s.sanitizeFds alloc).fdsToIgnore =
        passedArray alloc exempted fdsToIgnore := by
  have hupdated := updated_updateIgnored alloc s
  have heq : s.sanitizeFds alloc = (s.updateIgnored alloc).closeForbidden := by
    have hpid : (s.updateIgnored alloc).ctx.pid = 0 := hupdated.pid.trans h.pid
    simp only [sanitizeFds, h.skip, h.app, Bool.false_eq_true, if_false, if_true, hpid,
      ne_eq, not_true_eq_false]
  have harray : (s.sanitizeFds alloc).fdsToIgnore =
      (s.updateIgnored alloc).fdsToIgnore := by
    rw [heq]
    rfl
  constructor
  · intro fd
    rw [harray, heq, mem_closeForbidden, hupdated.fds, hupdated.allowed, h.allowed]
    constructor
    · intro hfd
      rcases hfd with ⟨hopen, hsmall, hknown | hignored⟩
      · exact ⟨hopen, hsmall, Or.inl hknown.left⟩
      · exact ⟨hopen, hsmall, Or.inr hignored.left⟩
    · intro hfd
      rcases hfd with ⟨hopen, hsmall, hknown | hignored⟩
      · exact ⟨hopen, hsmall, Or.inl ⟨hknown, hsmall⟩⟩
      · exact ⟨hopen, hsmall, Or.inr ⟨hignored, hsmall⟩⟩
  · rw [harray, hupdated.passed, h.exempted, h.array]

theorem sanitizeFds_server (h : Prepared atFork false exempted fdsToIgnore s)
    (alloc : Bool) :
    Sanitized atFork s.fds (s.sanitizeFds alloc).fds none := by
  have heq : s.sanitizeFds alloc = s.closeForbidden := by
    simp only [sanitizeFds, h.skip, h.app, Bool.false_eq_true, if_false, h.pid, ne_eq,
      not_true_eq_false]
  intro fd
  rw [heq, mem_closeForbidden, h.allowed]
  simp only [Option.getD_none, List.not_mem_nil, or_false]
  constructor
  · intro hfd
    exact ⟨hfd.left, hfd.right.left, hfd.right.right.left⟩
  · intro hfd
    exact ⟨hfd.left, hfd.right.left, hfd.right.right, hfd.right.left⟩

/-- The process that `old_fork` returns zero in. -/
def asChild (s : Specialization) : Specialization :=
  { s with ctx :=
    { s.ctx with
      toZygiskContext := s.ctx.toZygiskContext.forkPre ForkOutcome.child } }

theorem forkPre_child (hskip : s.ctx.skipFdSanitization = false) :
    s.forkPre ForkOutcome.child = s.asChild.recordFds := by
  apply if_neg
  intro hno
  rcases hno with hpid | hskipped
  · exact hpid rfl
  · exact Bool.noConfusion (hskip.symm.trans hskipped)

/-- The child has recorded the descriptors of the fork. -/
theorem prepared_forkPre (hfree : exists fd, fd < MAX_FD_SIZE ∧ fd ∉ s.fds)
    (happ : s.ctx.appForkAndSpecialize = app) (hpost : s.ctx.postSpecialize = false)
    (hskip : s.ctx.skipFdSanitization = false) (hnone : s.ctx.allowedFds = ∅) :
    exists forked, s.forkPre ForkOutcome.child = some forked ∧
      Prepared s.fds app s.ctx.exemptedFds s.fdsToIgnore forked := by
  rcases recordFds_eq (s := s.asChild) hfree hnone with ⟨fds, allowed, hrecord, hallowed⟩
  rw [forkPre_child hskip, hrecord]
  exact ⟨_, rfl, rfl, happ, hpost, hskip, rfl, rfl, hallowed⟩

/-- The child of an app's fork runs its modules from one state, whatever they
do. -/
theorem appPrepared_eq {fds : Finset Nat} (fdsToIgnore : Option (List Int)) (logFd : Int)
    (hfree : exists fd, fd < MAX_FD_SIZE ∧ fd ∉ fds) :
    exists forked,
      Prepared fds true (if logFd ≠ -1 then [logFd] else []) fdsToIgnore forked ∧
      forall ops, (start fds fdsToIgnore).appPrepared ForkOutcome.child logFd ops =
        some (forked.runModules ops) := by
  let entered : Specialization :=
    { start fds fdsToIgnore with ctx :=
      { (start fds fdsToIgnore).ctx with
        appForkAndSpecialize := true
        exemptedFds := [] ++ if logFd ≠ -1 then [logFd] else [] } }
  rcases prepared_forkPre (s := entered) hfree rfl rfl rfl rfl with
    ⟨forked, hfork, hprepared⟩
  refine ⟨forked, hprepared, ?_⟩
  intro ops
  show (entered.forkPre ForkOutcome.child).map _ = _
  rw [hfork, Option.map_some, if_pos hprepared.pid]

/-- The descriptors of both kinds of child, whatever was open at the fork, was
opened, closed or exempted since, and whether the array could be allocated. -/
theorem fds_sanitized (fds : Finset Nat) (fdsToIgnore : Option (List Int))
    (logFd : Int) (ops : List ModuleOp) (alloc : Bool)
    (hfree : exists fd, fd < MAX_FD_SIZE ∧ fd ∉ fds) :
    (exists before after,
      (start fds fdsToIgnore).appPrepared ForkOutcome.child logFd ops = some before ∧
      (start fds fdsToIgnore).nativeForkAndSpecializePre ForkOutcome.child logFd ops
        alloc = some after ∧
      Sanitized fds before.fds after.fds after.fdsToIgnore ∧
      after.fdsToIgnore = passedArray alloc (exemptions logFd ops) fdsToIgnore) ∧
    (exists before after,
      (start fds none).serverPrepared ForkOutcome.child ops = some before ∧
      (start fds none).nativeForkSystemServerPre ForkOutcome.child ops alloc =
        some after ∧
      Sanitized fds before.fds after.fds none) := by
  constructor
  · rcases appPrepared_eq fdsToIgnore logFd hfree with ⟨forked, hprepared, happ⟩
    have hbefore := prepared_runModules hprepared ops
    have hafter : (start fds fdsToIgnore).nativeForkAndSpecializePre ForkOutcome.child
        logFd ops alloc = some ((forked.runModules ops).sanitizeFds alloc) := by
      unfold nativeForkAndSpecializePre
      rw [happ, Option.map_some]
    rcases sanitizeFds_app hbefore alloc with ⟨hsanitized, hpassed⟩
    exact ⟨_, _, happ ops, hafter, hsanitized, hpassed⟩
  · rcases prepared_forkPre (s := start fds none) hfree rfl rfl rfl rfl with
      ⟨forked, hfork, hprepared⟩
    have hbefore := prepared_runModules hprepared ops
    have hserver : (start fds none).serverPrepared ForkOutcome.child ops =
        some (forked.runModules ops) := by
      unfold serverPrepared
      rw [hfork, Option.map_some, if_pos hprepared.pid]
    have hafter : (start fds none).nativeForkSystemServerPre ForkOutcome.child ops
        alloc = some ((forked.runModules ops).sanitizeFds alloc) := by
      unfold nativeForkSystemServerPre
      rw [hserver, Option.map_some, if_neg (not_not_intro hbefore.pid)]
    exact ⟨_, _, hserver, hafter, sanitizeFds_server hbefore alloc⟩

/-- Three descriptors at the fork; a module opens two and exempts one of them. -/
theorem fds_sanitized_exempted :
    exists before after,
      (start {0, 1, 2} none).appPrepared ForkOutcome.child (-1)
        [ModuleOp.opens 3, ModuleOp.opens 4, ModuleOp.exempts 4] = some before ∧
      (start {0, 1, 2} none).nativeForkAndSpecializePre ForkOutcome.child (-1)
        [ModuleOp.opens 3, ModuleOp.opens 4, ModuleOp.exempts 4] true = some after ∧
      Sanitized {0, 1, 2} before.fds after.fds after.fdsToIgnore ∧
      after.fdsToIgnore = some [4] :=
  (fds_sanitized {0, 1, 2} none (-1)
    [ModuleOp.opens 3, ModuleOp.opens 4, ModuleOp.exempts 4] true
    ⟨3, by decide, by decide⟩).left

end Hooks

end Specialization

end Injector
end ReZygisk
