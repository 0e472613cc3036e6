import Mathlib.Data.List.GetD
import Mathlib.Data.List.Infix
import ReZygisk.Foundation.Loop
import ReZygisk.Kernel.AddressSpace
import ReZygisk.Tracer.MapsFile

/-!
# Remapping the modules

After a process is specialised, the regions of the modules' libraries still show
the name of the memfd they were loaded from.  `run_modules_post` puts anonymous
copies in their places, and then does the same with the anonymous code that the
modules may have added, which it also gives random names.
-/

namespace ReZygisk
namespace Injector

open Foundation
open Kernel
open Tracer

namespace Remap

/-- How the kernel answers: the place of a new region, which is free, if it gives
one at all; the device of shared memory; and whether anonymous regions can be
named.  Changing permissions and moving a region are taken to succeed. -/
structure MapAnswers where
  place : AddressSpace -> Nat -> Option Nat
  free : forall space size addr, place space size = some addr ->
    forall a, InRange addr size a -> space a = none
  sharedDev : Nat
  anonNames : Bool

def size (info : MapInfo) : Nat :=
  info.endAddr - info.start

/-- How the kernel shows memory that is anonymous and shared. -/
def devZero : List Byte := bytesOf "/dev/zero (deleted)"

section Loops

variable (k : MapAnswers)

/-- The region is copied to `copy` and the copy moved in its place; `none` is a
fault in `memcpy`. -/
def shareRegion (space : AddressSpace) (copy : Nat) (info : MapInfo) : Option AddressSpace :=
  let space := space.mmap copy (size info) PROT_WRITE k.sharedDev devZero
  let space := if info.perms &&& PROT_READ = 0 then
      space.mprotect info.start (size info) PROT_READ
    else space
  (space.memcpy PROT_READ PROT_WRITE copy info.start (size info)).map (fun space =>
    (space.mremap copy (size info) info.start).mprotect info.start (size info) info.perms)

/-!
# The libraries
-/

def jitCacheZygisk : List Byte := bytesOf "jit-cache-zygisk"

/-- `strstr(info.path.c_str(), "jit-cache-zygisk")` -/
def named (path : List Byte) : Bool :=
  decide (jitCacheZygisk <:+: cstr path)

/-- The address space, and the regions that an error has been logged for. -/
structure Hiding where
  space : AddressSpace
  failed : List MapInfo

def hideStep (p : Hiding) (info : MapInfo) : Option Hiding :=
  if named info.path then
    match k.place p.space (size info) with
    | none => some { p with failed := p.failed ++ [info] }
    | some copy =>
        (shareRegion k p.space copy info).map (fun space => { p with space := space })
  else some p

def hideJitCache (space : AddressSpace) (infos : List MapInfo) : Option Hiding :=
  infos.foldlM (hideStep k) { space := space, failed := [] }

/-!
# Anonymous code
-/

def charset : List Byte :=
  bytesOf "abcdefghijklmnopqrstuvwxyzABCDEFGHIJKLMNOPQRSTUVWXYZ0123456789"

/-- `rand` are the results of `rand()` since the seed was set. -/
def generateRandomString (rand : Nat -> Nat) (length : Nat) : List Byte :=
  (List.range length).map (fun i => charset.getD (rand i % charset.length) 0)

/-- How the kernel shows an anonymous region with this name. -/
def anonName (name : List Byte) : List Byte :=
  bytesOf "[anon:" ++ name ++ bytesOf "]"

def unnamedCode (info : MapInfo) : Bool :=
  info.executable && info.path.isEmpty

def anonCode (info : MapInfo) : Bool :=
  info.executable && info.dev == 0 && decide (bytesOf "anon" <:+: info.path)

def nameRegion (rand : Nat -> Nat) (space : AddressSpace) (info : MapInfo) : AddressSpace :=
  if unnamedCode info && k.anonNames then
    space.modify info.start (size info)
      (fun cell => { cell with path := anonName (generateRandomString rand 10) })
  else space

/-- The result of `mmap` is not checked here, so without a place `memcpy` writes to
`MAP_FAILED` and faults. -/
def randomiseStep (rands : MapInfo -> Nat -> Nat) (space : AddressSpace) (info : MapInfo) :
    Option AddressSpace :=
  if anonCode info then
    match k.place (nameRegion k (rands info) space info) (size info) with
    | none => none
    | some copy => shareRegion k (nameRegion k (rands info) space info) copy info
  else some (nameRegion k (rands info) space info)

def randomiseNames (rands : MapInfo -> Nat -> Nat) (space : AddressSpace)
    (infos : List MapInfo) : Option AddressSpace :=
  infos.foldlM (randomiseStep k rands) space

/-- Both loops, each over what `MapInfo::Scan` shows when it starts. -/
def remapModules (rands : MapInfo -> Nat -> Nat) (scan : AddressSpace -> List MapInfo)
    (space : AddressSpace) : Option Hiding :=
  (hideJitCache k space (scan space)).bind (fun p =>
    (randomiseNames k rands p.space (scan p.space)).map (fun space =>
      { p with space := space }))

end Loops

/-- The regions are those of the address space. -/
structure Scanned (space : AddressSpace) (infos : List MapInfo) : Prop where
  shows : forall info, info ∈ infos -> forall a, InRange info.start (size info) a ->
    exists cell, space a = some cell ∧ cell.perms = info.perms ∧ cell.path = info.path
  covers : forall a cell, space a = some cell ->
    exists info, info ∈ infos ∧ InRange info.start (size info) a

/-!
# One region
-/

section Region

variable {k : MapAnswers} {space : AddressSpace} {info : MapInfo}

/-- Every address of the region is mapped with its permissions. -/
def Mapped (space : AddressSpace) (info : MapInfo) : Prop :=
  forall a, InRange info.start (size info) a ->
    exists cell, space a = some cell ∧ cell.perms = info.perms

theorem Mapped.of_view {space' : AddressSpace} (h : Mapped space info)
    (hview : forall a, space'.view a = space.view a) : Mapped space' info := by
  intro a ha
  rcases h a ha with ⟨cell, hcell, hperms⟩
  have hsame := hview a
  unfold AddressSpace.view at hsame
  rw [hcell, Option.map_some, Option.map_eq_some_iff] at hsame
  rcases hsame with ⟨cell', hcell', heq⟩
  injection heq with _ hperms'
  exact ⟨cell', hcell', hperms'.trans hperms⟩

theorem shareRegion_eq {copy : Nat} (hplace : k.place space (size info) = some copy)
    (hmapped : Mapped space info) :
    shareRegion k space copy info =
      some (space.modify info.start (size info)
        (fun cell => { cell with dev := k.sharedDev, path := devZero })) := by
  have hfree := k.free _ _ _ hplace
  have hapart : forall a, InRange info.start (size info) a -> ¬ InRange copy (size info) a := by
    intro a ha hcopy
    rcases hmapped a ha with ⟨cell, hcell, _⟩
    rw [hfree a hcopy] at hcell
    cases hcell
  have hallows : forall space' perms, perms &&& PROT_READ ≠ 0 ->
      (forall a, InRange info.start (size info) a ->
        exists cell, space' a = some cell ∧ cell.perms = perms) ->
      AddressSpace.Allows space' PROT_READ info.start (size info) := by
    intro space' perms hread hcells i hi
    rcases hcells _ (AddressSpace.inRange_add hi) with ⟨cell, hcell, hperms⟩
    exact ⟨cell, hcell, by rw [hperms]; exact hread⟩
  have hcells : forall cell a, InRange info.start (size info) a -> space a = some cell ->
      cell.perms = info.perms := by
    intro cell a ha hcell
    rcases hmapped a ha with ⟨cell', hcell', hperms⟩
    rw [hcell] at hcell'
    cases hcell'
    exact hperms
  unfold shareRegion
  by_cases hread : info.perms &&& PROT_READ = 0
  · have hreadable := hallows (space.mprotect info.start (size info) PROT_READ) PROT_READ
      (by decide) (by
        intro a ha
        rcases hmapped a ha with ⟨cell, hcell, _⟩
        refine ⟨{ cell with perms := PROT_READ }, ?_, rfl⟩
        rw [AddressSpace.mprotect, AddressSpace.modify_of_mem ha, hcell]
        rfl)
    have hstillFree : forall a, InRange copy (size info) a ->
        space.mprotect info.start (size info) PROT_READ a = none := by
      intro a ha
      rw [AddressSpace.mprotect, AddressSpace.modify_of_not_mem (fun h => hapart a h ha),
        hfree a ha]
    have hmove := @AddressSpace.copy_and_move _ _ _ _ _ PROT_WRITE PROT_WRITE k.sharedDev devZero
      info.perms hreadable hstillFree (by decide)
    simp only [if_pos hread]
    rw [AddressSpace.mprotect, AddressSpace.modify_mmap _ hapart]
    rw [AddressSpace.mprotect] at hmove
    rw [hmove, AddressSpace.modify_modify]
    refine congrArg some (AddressSpace.modify_congr ?_)
    intro a ha cell hcell
    rw [← hcells cell a ha hcell]
    rfl
  · have hmove := @AddressSpace.copy_and_move _ _ _ _ _ PROT_WRITE PROT_WRITE k.sharedDev devZero
      info.perms (hallows space _ hread hmapped) hfree (by decide)
    simp only [if_neg hread]
    rw [hmove]
    refine congrArg some (AddressSpace.modify_congr ?_)
    intro a ha cell hcell
    rw [← hcells cell a ha hcell]

end Region

/-!
# Both loops
-/

section Whole

variable {k : MapAnswers} {space : AddressSpace}

theorem view_modify {space : AddressSpace} {addr size : Nat} {f : Cell -> Cell}
    (hf : forall cell, (f cell).byte = cell.byte ∧ (f cell).perms = cell.perms) (a : Nat) :
    (space.modify addr size f).view a = space.view a := by
  unfold AddressSpace.view
  by_cases ha : InRange addr size a
  · rw [AddressSpace.modify_of_mem ha, Option.map_map]
    refine congrFun (congrArg Option.map (funext ?_)) (space a)
    intro cell
    exact Prod.ext (hf cell).left (hf cell).right
  · rw [AddressSpace.modify_of_not_mem ha]

/-- The two address spaces look alike, and where the path is another one, it is one
of those that are new. -/
structure Renamed (fresh : List Byte -> Prop) (space space' : AddressSpace) : Prop where
  view : forall a, space'.view a = space.view a
  paths : forall a cell, space' a = some cell ->
    fresh cell.path ∨ exists cell0, space a = some cell0 ∧ cell0.path = cell.path

namespace Renamed

variable {fresh : List Byte -> Prop} {space' : AddressSpace}

theorem refl (fresh : List Byte -> Prop) (space : AddressSpace) : Renamed fresh space space where
  view _ := rfl
  paths _ cell h := Or.inr ⟨cell, h, rfl⟩

theorem modify (h : Renamed fresh space space') {addr size : Nat} {f : Cell -> Cell}
    {path : List Byte} (hfresh : fresh path)
    (hf : forall cell, (f cell).byte = cell.byte ∧ (f cell).perms = cell.perms ∧
      (f cell).path = path) :
    Renamed fresh space (space'.modify addr size f) where
  view a := (view_modify (fun cell => ⟨(hf cell).left, (hf cell).right.left⟩) a).trans (h.view a)
  paths a cell hcell := by
    by_cases ha : InRange addr size a
    · rw [AddressSpace.modify_of_mem ha, Option.map_eq_some_iff] at hcell
      rcases hcell with ⟨cell', _, heq⟩
      rw [← heq, (hf cell').right.right]
      exact Or.inl hfresh
    · rw [AddressSpace.modify_of_not_mem ha] at hcell
      exact h.paths a cell hcell

end Renamed

/-!
# New names
-/

theorem not_named_of_no_hyphen {path : List Byte} (h : (0x2d : Byte) ∉ path) :
    named path = false := by
  apply decide_eq_false
  intro hhas
  have hhyphen : (0x2d : Byte) ∈ jitCacheZygisk := by decide
  exact h ((List.takeWhile_prefix _).subset (hhas.subset hhyphen))

theorem not_named_devZero : named devZero = false :=
  not_named_of_no_hyphen (by decide)

/-- A random name has only letters and digits. -/
theorem not_named_anonName (rand : Nat -> Nat) (length : Nat) :
    named (anonName (generateRandomString rand length)) = false := by
  have hletters : forall c, c ∈ charset -> c ≠ 0x2d := by decide +kernel
  apply not_named_of_no_hyphen
  intro hno
  rw [anonName, List.mem_append, List.mem_append] at hno
  rcases hno with (hno | hno) | hno
  · exact absurd hno (by decide)
  · rcases List.mem_map.mp hno with ⟨i, _, hi⟩
    have hlt : rand i % charset.length < charset.length := Nat.mod_lt _ (by decide)
    rw [List.getD_eq_getElem _ _ hlt] at hi
    exact hletters _ (List.getElem_mem hlt) hi
  · exact absurd hno (by decide)

/-!
# The first loop
-/

/-- What the first loop has done when it has visited some regions. -/
structure Hidden (k : MapAnswers) (space : AddressSpace) (visited : List MapInfo) (p : Hiding) :
    Prop where
  renamed : Renamed (fun path => path = devZero) space p.space
  hidden : forall info, info ∈ visited -> named info.path = true -> info ∈ p.failed ∨
    forall a cell, InRange info.start (size info) a -> p.space a = some cell -> cell.path = devZero
  refused : forall info, info ∈ p.failed -> exists space', k.place space' (size info) = none

theorem hidden_step {visited : List MapInfo} {p : Hiding} (h : Hidden k space visited p)
    {info : MapInfo} (hmapped : Mapped space info) :
    exists p', hideStep k p info = some p' ∧ Hidden k space (visited ++ [info]) p' := by
  have hnow := hmapped.of_view h.renamed.view
  have hold : forall space' : AddressSpace, (forall a cell, space' a = some cell -> cell.path = devZero ∨
        p.space a = some cell) -> forall info', info' ∈ visited -> named info'.path = true ->
      info' ∈ p.failed ∨ forall a cell, InRange info'.start (size info') a ->
        space' a = some cell -> cell.path = devZero := by
    intro space' hspace info' hmem hnamed
    rcases h.hidden info' hmem hnamed with hfailed | hhidden
    · exact Or.inl hfailed
    · right
      intro a cell ha hcell
      rcases hspace a cell hcell with hzero | hsame
      · exact hzero
      · exact hhidden a cell ha hsame
  unfold hideStep
  by_cases hnamed : named info.path = true
  · rw [if_pos hnamed]
    cases hplace : k.place p.space (size info) with
    | none =>
        refine ⟨_, rfl, h.renamed, ?_, ?_⟩
        · intro info' hmem hnamed'
          rcases List.mem_append.mp hmem with hmem | hmem
          · rcases h.hidden info' hmem hnamed' with hfailed | hhidden
            · exact Or.inl (List.mem_append_left _ hfailed)
            · exact Or.inr hhidden
          · exact Or.inl (List.mem_append_right _ hmem)
        · intro info' hmem
          rcases List.mem_append.mp hmem with hmem | hmem
          · exact h.refused info' hmem
          · rw [List.mem_singleton.mp hmem]
            exact ⟨p.space, hplace⟩
    | some copy =>
        have hshared : forall a cell, p.space.modify info.start (size info)
            (fun cell => { cell with dev := k.sharedDev, path := devZero }) a = some cell ->
            cell.path = devZero ∨ p.space a = some cell := by
          intro a cell hcell
          by_cases ha : InRange info.start (size info) a
          · rw [AddressSpace.modify_of_mem ha, Option.map_eq_some_iff] at hcell
            rcases hcell with ⟨cell', _, heq⟩
            rw [← heq]
            exact Or.inl rfl
          · rw [AddressSpace.modify_of_not_mem ha] at hcell
            exact Or.inr hcell
        show exists p', (shareRegion k p.space copy info).map _ = some p' ∧ _
        rw [shareRegion_eq hplace hnow]
        refine ⟨_, rfl, h.renamed.modify rfl (fun cell => ⟨rfl, rfl, rfl⟩), ?_, h.refused⟩
        intro info' hmem hnamed'
        rcases List.mem_append.mp hmem with hmem | hmem
        · exact hold _ hshared info' hmem hnamed'
        · right
          intro a cell ha hcell
          rw [List.mem_singleton.mp hmem] at ha
          change p.space.modify info.start (size info) _ a = some cell at hcell
          rw [AddressSpace.modify_of_mem ha, Option.map_eq_some_iff] at hcell
          rcases hcell with ⟨cell', _, heq⟩
          rw [← heq]
  · rw [if_neg hnamed]
    refine ⟨p, rfl, h.renamed, ?_, h.refused⟩
    intro info' hmem hnamed'
    rcases List.mem_append.mp hmem with hmem | hmem
    · exact h.hidden info' hmem hnamed'
    · rw [List.mem_singleton.mp hmem] at hnamed'
      exact absurd hnamed' hnamed

/-- The first loop never faults. -/
theorem hidden_run {infos : List MapInfo} (hmapped : forall info, info ∈ infos -> Mapped space info) :
    exists p, hideJitCache k space infos = some p ∧ Hidden k space infos p := by
  have hstart : Hidden k space [] { space := space, failed := [] } := by
    refine ⟨Renamed.refl _ _, ?_, ?_⟩
    · intro info hno
      cases hno
    · intro info hno
      cases hno
  have hstep : forall visited info p p', info ∈ infos -> Hidden k space visited p ->
      hideStep k p info = some p' -> Hidden k space (visited ++ [info]) p' := by
    intro visited info p p' hmem hp hrun
    rcases hidden_step hp (hmapped info hmem) with ⟨p1, hp1, hhidden⟩
    rw [hp1] at hrun
    cases hrun
    exact hhidden
  unfold hideJitCache
  cases hrun : infos.foldlM (hideStep k) { space := space, failed := [] } with
  | some p => exact ⟨p, rfl, foldlM_prefix hstart hstep hrun⟩
  | none =>
      rcases foldlM_eq_none_iff.mp hrun with ⟨before, info, after, p, hinfos, hbefore, hfault⟩
      have hmem : forall info', info' ∈ before -> info' ∈ infos := by
        intro info' hmem
        rw [hinfos]
        exact List.mem_append_left _ hmem
      have hp := foldlM_prefix hstart (fun visited info' p p' h => hstep visited info' p p' (hmem info' h))
        hbefore
      rcases hidden_step hp (hmapped info (by rw [hinfos]; exact List.mem_append_right _ List.mem_cons_self))
        with ⟨p', hp', _⟩
      rw [hp'] at hfault
      cases hfault

/-!
# The second loop
-/

/-- The paths that the second loop brings in. -/
def RandomPath (path : List Byte) : Prop :=
  path = devZero ∨ exists rand, path = anonName (generateRandomString rand 10)

theorem not_named_randomPath {path : List Byte} (h : RandomPath path) : named path = false := by
  rcases h with hzero | ⟨rand, hname⟩
  · rw [hzero]
    exact not_named_devZero
  · rw [hname]
    exact not_named_anonName rand 10

theorem renamed_nameRegion {space' : AddressSpace} (h : Renamed RandomPath space space')
    (rand : Nat -> Nat) (info : MapInfo) :
    Renamed RandomPath space (nameRegion k rand space' info) := by
  unfold nameRegion
  split
  · exact h.modify (Or.inr ⟨rand, rfl⟩) (fun cell => ⟨rfl, rfl, rfl⟩)
  · exact h

/-- A region is left alone, named or shared, unless its copy is refused. -/
theorem randomiseStep_cases {space' : AddressSpace} (h : Renamed RandomPath space space')
    {info : MapInfo} (hmapped : Mapped space info) (rands : MapInfo -> Nat -> Nat) :
    (exists next, randomiseStep k rands space' info = some next ∧
      Renamed RandomPath space next) ∨
    randomiseStep k rands space' info = none ∧ anonCode info = true ∧
      k.place (nameRegion k (rands info) space' info) (size info) = none := by
  have hnamed := renamed_nameRegion (k := k) h (rands info) info
  unfold randomiseStep
  by_cases hcode : anonCode info = true
  · rw [if_pos hcode]
    cases hplace : k.place (nameRegion k (rands info) space' info) (size info) with
    | none => exact Or.inr ⟨rfl, hcode, rfl⟩
    | some copy =>
        left
        refine ⟨_, shareRegion_eq hplace (hmapped.of_view hnamed.view), ?_⟩
        exact hnamed.modify (Or.inl rfl) (fun cell => ⟨rfl, rfl, rfl⟩)
  · rw [if_neg hcode]
    exact Or.inl ⟨_, rfl, hnamed⟩

theorem renamed_run {infos : List MapInfo} (hmapped : forall info, info ∈ infos -> Mapped space info)
    {rands : MapInfo -> Nat -> Nat} {space' : AddressSpace}
    (hrun : randomiseNames k rands space infos = some space') :
    Renamed RandomPath space space' := by
  apply foldlM_prefix (I := fun _ space' => Renamed RandomPath space space')
    (Renamed.refl RandomPath space) ?_ hrun
  intro _ info space1 space2 hmem h hstep
  rcases randomiseStep_cases h (hmapped info hmem) rands with ⟨next, hnext, hrenamed⟩ | ⟨hno, _⟩
  · rw [hnext] at hstep
    cases hstep
    exact hrenamed
  · rw [hno] at hstep
    cases hstep

/-- The second loop faults exactly at the first anonymous code whose copy is refused. -/
theorem randomiseNames_eq_none_iff {infos : List MapInfo}
    (hmapped : forall info, info ∈ infos -> Mapped space info) {rands : MapInfo -> Nat -> Nat} :
    randomiseNames k rands space infos = none <->
      exists before info after space', infos = before ++ info :: after ∧
        randomiseNames k rands space before = some space' ∧ anonCode info = true ∧
        k.place (nameRegion k (rands info) space' info) (size info) = none := by
  unfold randomiseNames
  rw [foldlM_eq_none_iff]
  constructor
  · rintro ⟨before, info, after, space', hinfos, hbefore, hfault⟩
    refine ⟨before, info, after, space', hinfos, hbefore, ?_⟩
    have hbeforeMapped : forall info', info' ∈ before -> Mapped space info' := by
      intro info' hmem
      apply hmapped
      rw [hinfos]
      exact List.mem_append_left _ hmem
    have hinfo : Mapped space info := by
      apply hmapped
      rw [hinfos]
      exact List.mem_append_right _ List.mem_cons_self
    rcases randomiseStep_cases (renamed_run hbeforeMapped hbefore) hinfo rands with
      ⟨next, hnext, _⟩ | ⟨_, hrefused⟩
    · rw [hnext] at hfault
      cases hfault
    · exact hrefused
  · rintro ⟨before, info, after, space', hinfos, hbefore, hcode, hplace⟩
    refine ⟨before, info, after, space', hinfos, hbefore, ?_⟩
    unfold randomiseStep
    rw [if_pos hcode, hplace]

/-!
# The whole
-/

theorem Scanned.mapped {infos : List MapInfo} (h : Scanned space infos) :
    forall info, info ∈ infos -> Mapped space info := by
  intro info hmem a ha
  rcases h.shows info hmem a ha with ⟨cell, hcell, hperms, _⟩
  exact ⟨cell, hcell, hperms⟩

end Whole

/-- A scan that shows every address below the limit as a region of its own. -/
def scanCells (limit : Nat) (space : AddressSpace) : List MapInfo :=
  (List.range limit).filterMap (fun a => (space a).map (fun cell =>
    { start := a, endAddr := a + 1, perms := cell.perms, isPrivate := true, offset := 0,
      dev := cell.dev, inode := 0, path := cell.path }))

theorem scanned_scanCells {space : AddressSpace} {limit : Nat}
    (h : forall a, limit ≤ a -> space a = none) : Scanned space (scanCells limit space) := by
  constructor
  · intro info hinfo a ha
    rcases List.mem_filterMap.mp hinfo with ⟨start, _, hstart⟩
    rcases Option.map_eq_some_iff.mp hstart with ⟨cell, hcell, heq⟩
    rw [← heq] at ha ⊢
    have hsame : a = start := by
      have hleft := ha.left
      have hright := ha.right
      change a < start + (start + 1 - start) at hright
      change start ≤ a at hleft
      omega
    rw [hsame]
    exact ⟨cell, hcell, rfl, rfl⟩
  · intro a cell hcell
    have hlt : a < limit := by
      apply Nat.lt_of_not_le
      intro hle
      rw [h a hle] at hcell
      cases hcell
    refine ⟨_, List.mem_filterMap.mpr ⟨a, List.mem_range.mpr hlt, congrArg (Option.map _) hcell⟩, ?_⟩
    show a ≤ a ∧ a < a + (a + 1 - a)
    omega

/-- A library that cannot be read but executed, and anonymous code. -/
def twoRegions : AddressSpace
  | 0 => some ⟨0xc3, PROT_EXEC, 1, bytesOf "/memfd:jit-cache-zygisk (deleted)"⟩
  | 1 => some ⟨0x90, PROT_READ ||| PROT_EXEC, 0, bytesOf "[anon:linker_alloc]"⟩
  | _ => none

def oneFreePlace : MapAnswers where
  place space size := if forall i, i < size -> space (16 + i) = none then some 16 else none
  free := by
    intro space size addr hplace a ha
    split at hplace
    · rename_i hfree
      cases hplace
      rcases Nat.exists_eq_add_of_le ha.left with ⟨i, hi⟩
      rw [hi]
      exact hfree i (Nat.lt_of_add_lt_add_left (hi ▸ ha.right))
    · cases hplace
  sharedDev := 1
  anonNames := true

end Remap

end Injector
end ReZygisk
