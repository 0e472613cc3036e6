import Mathlib.Data.List.Forall2
import Mathlib.Data.List.Infix
import ReZygisk.Kernel.Memfd
import ReZygisk.Zygiskd.Wire

/-!
# Loading the modules of the device

When it starts, the daemon goes through the directory of the modules and copies the
library of each that is enabled, for its own architecture, into a file in memory.  It
seals the files, for it is going to send their descriptors to every process.
-/

namespace ReZygisk
namespace Zygiskd

open Foundation
open Kernel

/-!
# The device
-/

/-- A directory in the directory of the modules: its files by their paths, and whether
the system does what it is asked for when its library is copied. -/
structure Entry where
  name : List Byte
  file : List Byte -> Option (List Byte)
  creates : Bool
  opens : Bool
  copies : Bool
  addsSeals : Bool

/-- `modulesDir` is what `read_dir` gives, if it can read the directory; an entry that
it fails to read is `none`. -/
structure Device where
  abi : List Byte
  modulesDir : Option (List (Option Entry))

def Device.entries (d : Device) : List Entry :=
  (d.modulesDir.getD []).filterMap id

def lpSelect (lp : Lp) (lp32 lp64 : List Byte) : List Byte :=
  match lp with
  | Lp.lp32 => lp32
  | Lp.lp64 => lp64

/-- `get_arch`; without a result the architecture is not supported. -/
def getArch (lp : Lp) (systemArch : List Byte) : Option (List Byte) :=
  if bytesOf "arm" <:+: systemArch then
    some (lpSelect lp (bytesOf "armeabi-v7a") (bytesOf "arm64-v8a"))
  else if bytesOf "x86" <:+: systemArch then
    some (lpSelect lp (bytesOf "x86") (bytesOf "x86_64"))
  else none

/-!
# Copying a library
-/

inductive LoadError where
  | arch
  | dir
  | memfd
  | open
  | copy
  | seals
  | entry
  deriving DecidableEq

def soPath (arch : List Byte) : List Byte :=
  bytesOf "zygisk/" ++ arch ++ bytesOf ".so"

/-- `MemfdOptions::default().allow_sealing(true)` -/
def newMemfd : Memfd :=
  { content := [],
    seals := { sealShrink := false, sealGrow := false, sealWrite := false, sealSeal := false } }

def allSeals : Seals :=
  { sealShrink := true, sealGrow := true, sealWrite := true, sealSeal := true }

def sealedCopy (content : List Byte) : Memfd :=
  (newMemfd.apply (MemfdOp.write 0 content)).apply (MemfdOp.addSeals allSeals)

/-- `create_library_fd` when there is a number for the new descriptor.  A failure closes
what has been opened, and so does the end for the file that is copied. -/
def copyLibrary (e : Entry) (path : List Byte) (files : OpenFiles) (fd : Nat)
    (hfd : fd < files.limit) : Outcome OpenFiles LoadError Nat :=
  if e.creates = false then Outcome.err LoadError.memfd files
  else
    match e.file path with
    | none => Outcome.err LoadError.open files
    | some content =>
        if e.opens = false ∨ (files.install fd hfd (some newMemfd)).lowestFree = none then
          Outcome.err LoadError.open files
        else if e.copies = false then Outcome.err LoadError.copy files
        else if e.addsSeals = false then Outcome.err LoadError.seals files
        else Outcome.ok fd (files.install fd hfd (some (sealedCopy content)))

def createLibraryFd (e : Entry) (path : List Byte) : Prog OpenFiles LoadError Nat :=
  fun files =>
    match hfd : files.lowestFree with
    | none => Outcome.err LoadError.memfd files
    | some fd => copyLibrary e path files fd (OpenFiles.lowestFree_spec hfd).left

/-!
# The directory
-/

/-- The loop of `load_modules`: a name that is no UTF-8 panics, and a library that cannot
be copied is passed over. -/
def loadEntries (arch : List Byte) : List (Option Entry) -> Prog OpenFiles LoadError (List Module)
  | [] => pure []
  | none :: _ => Prog.fail LoadError.entry
  | some e :: rest =>
      if validUtf8 e.name = false then Prog.stop Stop.panicked
      else if (e.file (soPath arch)).isNone ∨ (e.file (bytesOf "disable")).isSome then
        loadEntries arch rest
      else do
        let libFd ← Prog.attempt (createLibraryFd e (soPath arch))
        let modules ← loadEntries arch rest
        pure ((libFd.map (fun fd => { name := e.name, libFd := fd : Module })).toList ++ modules)

/-- `fs::read_dir` needs a descriptor of its own while the loop goes on. -/
def openDir : Prog OpenFiles LoadError Nat :=
  fun files =>
    match hfd : files.lowestFree with
    | none => Outcome.err LoadError.dir files
    | some fd =>
        Outcome.ok fd (files.install fd (OpenFiles.lowestFree_spec hfd).left none)

def loadModules (arch : List Byte) (d : Device) : Prog OpenFiles LoadError (List Module) :=
  match d.modulesDir with
  | none => pure []
  | some entries => do
      match ← Prog.attempt openDir with
      | none => pure []
      | some dirFd =>
          let modules ← loadEntries arch entries
          Prog.modifyWorld (fun files => files.close dirFd)
          pure modules

/-- `main` up to the list of modules. -/
def startModules (lp : Lp) (d : Device) : Prog OpenFiles LoadError (List Module) :=
  match getArch lp d.abi with
  | none => Prog.fail LoadError.arch
  | some arch => loadModules arch d

/-!
# What is loaded
-/

/-- Everything that is asked for when the library is copied is done; two descriptors are
needed for that. -/
def Entry.copiesWith (e : Entry) (limit opened : Nat) : Bool :=
  e.creates && e.opens && e.copies && e.addsSeals && decide (opened + 2 ≤ limit)

/-- The library of an enabled module for this architecture. -/
def Entry.library (e : Entry) (arch : List Byte) : Option (List Byte) :=
  if (e.file (bytesOf "disable")).isSome then none else e.file (soPath arch)

/-- The modules that are to be loaded, each with its library, where `opened` of `limit`
descriptors are in use. -/
def offered (arch : List Byte) (limit : Nat) : Nat -> List Entry -> List (List Byte × List Byte)
  | _, [] => []
  | opened, e :: rest =>
      match e.library arch with
      | none => offered arch limit opened rest
      | some content =>
          if e.copiesWith limit opened then
            (e.name, content) :: offered arch limit (opened + 1) rest
          else offered arch limit opened rest

theorem sealedCopy_content (content : List Byte) : (sealedCopy content).content = content := by
  show splice [] 0 content = content
  rw [splice, List.take_nil, List.drop_nil, List.append_nil]
  rfl

theorem sealedCopy_fixed (content : List Byte) : (sealedCopy content).Fixed :=
  ⟨rfl, rfl, rfl⟩

section Copying

variable {files files' : OpenFiles} {e : Entry} {path content : List Byte}

theorem createLibraryFd_full (h : files.lowestFree = none) :
    createLibraryFd e path files = Outcome.err LoadError.memfd files := by
  unfold createLibraryFd
  split
  · rfl
  · rename_i fd hfd
    cases h.symm.trans hfd

theorem createLibraryFd_free {fd : Nat} (h : files.lowestFree = some fd) :
    createLibraryFd e path files =
      copyLibrary e path files fd (OpenFiles.lowestFree_spec h).left := by
  unfold createLibraryFd
  split
  · rename_i hnone
    cases h.symm.trans hnone
  · rename_i fd' hfd
    cases h.symm.trans hfd
    rfl

theorem copyLibrary_spec (hfile : e.file path = some content) {fd : Nat}
    (hfd : fd < files.limit) (hfree : fd ∉ files.opened) :
    if e.copiesWith files.limit files.opened.card then
      copyLibrary e path files fd hfd =
        Outcome.ok fd (files.install fd hfd (some (sealedCopy content)))
    else exists error, copyLibrary e path files fd hfd = Outcome.err error files := by
  have hsecond : (files.install fd hfd (some newMemfd)).lowestFree = none <->
      ¬ files.opened.card + 2 ≤ files.limit := by
    rw [← Option.not_isSome_iff_eq_none, OpenFiles.lowestFree_isSome_iff]
    show ¬ (insert fd files.opened).card < files.limit <-> _
    rw [Finset.card_insert_of_notMem hfree]
    rfl
  unfold Entry.copiesWith copyLibrary
  simp only [hfile, hsecond]
  by_cases hroom : files.opened.card + 2 ≤ files.limit
  · cases e.creates <;> cases e.opens <;> cases e.copies <;> cases e.addsSeals <;> simp [hroom]
  · cases e.creates <;> cases e.opens <;> simp [hroom]

/-- The library of one entry: a new descriptor for a sealed copy, or nothing. -/
theorem createLibraryFd_spec (hfile : e.file path = some content) :
    if e.copiesWith files.limit files.opened.card then
      exists fd, exists hfd : fd < files.limit, fd ∉ files.opened ∧
        createLibraryFd e path files =
          Outcome.ok fd (files.install fd hfd (some (sealedCopy content)))
    else exists error, createLibraryFd e path files = Outcome.err error files := by
  cases hfree : files.lowestFree with
  | none =>
      have hcard : ¬ files.opened.card + 2 ≤ files.limit := by
        have hfull := OpenFiles.lowestFree_isSome_iff files
        rw [hfree] at hfull
        intro hno
        cases hfull.mpr (Nat.lt_of_succ_lt hno)
      rw [Entry.copiesWith, decide_eq_false hcard, Bool.and_false]
      exact ⟨LoadError.memfd, createLibraryFd_full hfree⟩
  | some fd =>
      rcases OpenFiles.lowestFree_spec hfree with ⟨hfd, hnew⟩
      have hcopy := copyLibrary_spec hfile hfd hnew
      rw [createLibraryFd_free hfree]
      cases hok : e.copiesWith files.limit files.opened.card with
      | false =>
          rw [hok] at hcopy
          exact hcopy
      | true =>
          rw [hok] at hcopy
          exact ⟨fd, hfd, hnew, hcopy⟩

end Copying

/-!
# The whole directory
-/

/-- The modules are these libraries: each has a descriptor of its own, which was free
before, for a fixed copy; and other copies are left alone. -/
structure LoadedAs (files : OpenFiles) (modules : List Module)
    (libraries : List (List Byte × List Byte)) (files' : OpenFiles) : Prop where
  copied : List.Forall₂ (fun m lib => m.name = lib.1 ∧ files'.Holds m.libFd lib.2)
    modules libraries
  nodup : (modules.map Module.libFd).Nodup
  new : forall m, m ∈ modules -> m.libFd ∉ files.opened ∧ m.libFd < files.limit
  kept : forall fd content, fd ∈ files.opened -> files.Holds fd content ->
    files'.Holds fd content

section Loading

variable {arch : List Byte} {files files' : OpenFiles} {modules : List Module}
  {libraries : List (List Byte × List Byte)}

theorem loadedAs_nil (files : OpenFiles) : LoadedAs files [] [] files where
  copied := List.Forall₂.nil
  nodup := List.nodup_nil
  new m hm := by cases hm
  kept fd content hfd h := h

/-- What comes after a descriptor has been taken does not get that descriptor. -/
theorem LoadedAs.new_install {fd : Nat} {hfd : fd < files.limit} {f : Option Memfd}
    (h : LoadedAs (files.install fd hfd f) modules libraries files') {m : Module}
    (hm : m ∈ modules) : m.libFd ≠ fd ∧ m.libFd ∉ files.opened ∧ m.libFd < files.limit := by
  rcases h.new m hm with ⟨hinsert, hlt⟩
  change m.libFd ∉ insert fd files.opened at hinsert
  rw [Finset.mem_insert, not_or] at hinsert
  exact ⟨hinsert.left, hinsert.right, hlt⟩

theorem LoadedAs.kept_install {fd : Nat} {hfd : fd < files.limit} {f : Option Memfd}
    (h : LoadedAs (files.install fd hfd f) modules libraries files') (hfree : fd ∉ files.opened)
    {fd' : Nat} {content : List Byte} (hopen : fd' ∈ files.opened)
    (hholds : files.Holds fd' content) : fd' ≠ fd ∧ files'.Holds fd' content := by
  have hne : fd' ≠ fd := by
    intro hno
    rw [hno] at hopen
    exact hfree hopen
  exact ⟨hne, h.kept fd' content (Finset.mem_insert_of_mem hopen) (hholds.of_ne hne rfl)⟩

theorem loadedAs_cons {name content : List Byte} {fd : Nat} (hfd : fd < files.limit)
    (hfree : fd ∉ files.opened)
    (h : LoadedAs (files.install fd hfd (some (sealedCopy content))) modules libraries files') :
    LoadedAs files ({ name := name, libFd := fd } :: modules) ((name, content) :: libraries)
      files' := by
  constructor
  · refine List.Forall₂.cons ⟨rfl, ?_⟩ h.copied
    apply h.kept fd content (Finset.mem_insert_self fd files.opened)
    refine ⟨sealedCopy content, ?_, sealedCopy_content content, sealedCopy_fixed content⟩
    exact Function.update_self _ _ _
  · rw [List.map_cons, List.nodup_cons]
    refine ⟨?_, h.nodup⟩
    intro hno
    rcases List.mem_map.mp hno with ⟨m, hm, heq⟩
    exact (h.new_install hm).left heq
  · intro m hm
    rcases List.mem_cons.mp hm with heq | hrest
    · rw [heq]
      exact ⟨hfree, hfd⟩
    · exact (h.new_install hrest).right
  · intro fd' content' hopen hholds
    exact (h.kept_install hfree hopen hholds).right

/-- Closing what was opened before all of them leaves the modules alone. -/
theorem LoadedAs.close {fd : Nat} {hfd : fd < files.limit} {f : Option Memfd}
    (hfree : fd ∉ files.opened)
    (h : LoadedAs (files.install fd hfd f) modules libraries files') :
    LoadedAs files modules libraries (files'.close fd) := by
  constructor
  · have hpairs := h.copied
    rw [List.forall₂_iff_get] at hpairs ⊢
    refine ⟨hpairs.left, ?_⟩
    intro i hi hlib
    rcases hpairs.right i hi hlib with ⟨hname, hholds⟩
    exact ⟨hname, hholds.of_ne (h.new_install (List.get_mem _ _)).left rfl⟩
  · exact h.nodup
  · intro m hm
    exact (h.new_install hm).right
  · intro fd' content hopen hholds
    rcases h.kept_install hfree hopen hholds with ⟨hne, hstill⟩
    exact hstill.of_ne hne rfl

theorem library_skipped {e : Entry}
    (h : (e.file (soPath arch)).isNone = true ∨ (e.file (bytesOf "disable")).isSome = true) :
    e.library arch = none := by
  unfold Entry.library
  rcases h with hnone | hdisabled
  · rw [Option.isNone_iff_eq_none.mp hnone, ite_self]
  · rw [if_pos hdisabled]

theorem library_enabled {e : Entry}
    (h : ¬ ((e.file (soPath arch)).isNone = true ∨ (e.file (bytesOf "disable")).isSome = true)) :
    exists content, e.file (soPath arch) = some content ∧ e.library arch = some content := by
  rw [not_or] at h
  unfold Entry.library
  rw [if_neg h.right]
  cases hfile : e.file (soPath arch) with
  | none => exact absurd (by rw [hfile]; rfl) h.left
  | some content => exact ⟨content, rfl, rfl⟩

/-- An entry that is passed over, or whose library cannot be copied, changes nothing. -/
theorem loadEntries_ok {entries : List (Option Entry)}
    (h : loadEntries arch entries files = Outcome.ok modules files') :
    LoadedAs files modules
      (offered arch files.limit files.opened.card (entries.filterMap id)) files' := by
  induction entries generalizing files modules with
  | nil =>
      cases h
      exact loadedAs_nil _
  | cons entry rest ih =>
      cases entry with
      | none => cases h
      | some e =>
          show LoadedAs files modules (offered arch files.limit files.opened.card
            (e :: rest.filterMap id)) files'
          rw [loadEntries] at h
          rw [offered]
          split at h
          · cases h
          · split at h
            · rename_i hskip
              rw [library_skipped hskip]
              exact ih h
            · rename_i henabled
              rcases library_enabled henabled with ⟨content, hfile, hlibrary⟩
              rw [hlibrary]
              have hcopy := @createLibraryFd_spec files e _ _ hfile
              rcases Prog.exists_of_bind_ok h with ⟨libFd, files1, hattempt, hrest⟩
              rcases Prog.exists_of_bind_ok hrest with ⟨modules1, files2, hloaded, hpush⟩
              cases hpush
              show LoadedAs files _
                (if e.copiesWith files.limit files.opened.card then _ else _) files'
              cases hok : e.copiesWith files.limit files.opened.card with
              | false =>
                  rw [hok] at hcopy
                  rcases hcopy with ⟨error, hcopy⟩
                  rw [Prog.attempt, hcopy] at hattempt
                  cases hattempt
                  exact ih hloaded
              | true =>
                  rw [hok] at hcopy
                  rcases hcopy with ⟨fd, hfd, hfree, hcopy⟩
                  rw [Prog.attempt, hcopy] at hattempt
                  cases hattempt
                  have hlater := ih hloaded
                  change LoadedAs _ _ (offered arch files.limit (insert fd files.opened).card _)
                    _ at hlater
                  rw [Finset.card_insert_of_notMem hfree] at hlater
                  exact loadedAs_cons hfd hfree hlater

/-- Nothing can be copied when the directory has got the last descriptor. -/
theorem offered_full (arch : List Byte) {limit opened : Nat} (h : limit < opened + 2)
    (entries : List Entry) : offered arch limit opened entries = [] := by
  induction entries with
  | nil => rfl
  | cons e rest ih =>
      rw [offered]
      split
      · exact ih
      · rw [Entry.copiesWith, decide_eq_false (Nat.not_le_of_lt h), Bool.and_false]
        exact ih

theorem loadModules_ok {d : Device} (h : loadModules arch d files = Outcome.ok modules files') :
    LoadedAs files modules
      (offered arch files.limit (files.opened.card + 1) d.entries) files' := by
  unfold loadModules at h
  unfold Device.entries
  cases hdir : d.modulesDir with
  | none =>
      rw [hdir] at h
      cases h
      exact loadedAs_nil _
  | some entries =>
      rw [hdir] at h
      rcases Prog.exists_of_bind_ok h with ⟨dirFd, files1, hopen, hrest⟩
      unfold Prog.attempt openDir at hopen
      split at hopen
      · rename_i fd files2 hfd
        cases hopen
        split at hfd
        · cases hfd
        · rename_i fd' hfree
          cases hfd
          rcases OpenFiles.lowestFree_spec hfree with ⟨hlt, hnew⟩
          rcases Prog.exists_of_bind_ok hrest with ⟨modules1, files3, hloaded, hclose⟩
          cases hclose
          have hloop := loadEntries_ok hloaded
          change LoadedAs _ _ (offered arch files.limit (insert fd files.opened).card _) _ at hloop
          rw [Finset.card_insert_of_notMem hnew] at hloop
          exact hloop.close hnew
      · rename_i e files2 hfull
        cases hopen
        cases hrest
        split at hfull
        · rename_i hnone
          cases hfull
          have hcard : ¬ files.opened.card < files.limit := by
            rw [← OpenFiles.lowestFree_isSome_iff, hnone]
            exact Bool.false_ne_true
          rw [offered_full arch (by omega)]
          exact loadedAs_nil _
        · cases hfull
      · cases hopen

end Loading

end Zygiskd
end ReZygisk
