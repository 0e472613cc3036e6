import Mathlib.Data.List.DropRight
import ReZygisk.Foundation.Bytes
import ReZygisk.Kernel.Abi

/-!
# Memory maps and remote symbols

The tracer finds a function of the zygote by resolving it in its own address
space and moving it by the distance between the two copies of the library.
-/

namespace ReZygisk
namespace Tracer

open Foundation
open Kernel

structure MapInfo where
  start : Nat
  endAddr : Nat
  perms : Nat
  isPrivate : Bool
  offset : Nat
  dev : Nat
  inode : Nat
  path : List Byte

def PROT_EXEC : Nat := 4

def MapInfo.executable (map : MapInfo) : Bool :=
  (map.perms / PROT_EXEC) % 2 == 1

def firstStart (info : List MapInfo) (p : MapInfo -> Bool) : Nat :=
  match info.find? p with
  | some map => map.start
  | none => 0

def findModuleReturnAddr (info : List MapInfo) (suffix : List Byte) : Nat :=
  firstStart info (fun map => !map.executable && suffix.isSuffixOf map.path)

def findModuleBase (info : List MapInfo) (suffix : List Byte) : Nat :=
  firstStart info (fun map => map.offset == 0 && suffix.isSuffixOf map.path)

/-- `sym` is what `dlopen` and `dlsym` give for the function in the tracer
itself; the null pointer stands for either of them failing. -/
def findFuncAddr (lp : Lp) (sym : Nat) (localInfo remoteInfo : List MapInfo)
    (module : List Byte) : Nat :=
  let localBase := findModuleBase localInfo module
  let remoteBase := findModuleBase remoteInfo module
  if sym = 0 ∨ localBase = 0 ∨ remoteBase = 0 then 0
  else lp.sizeT ((sym : Int) - localBase + remoteBase)

/-!
# The library of a symbol
-/

/-- The last component of a path. -/
def fileName (path : List Byte) : List Byte :=
  path.rtakeWhile (fun b => b != 0x2f)

/-- The mapping whose start is the base of a module. -/
def findModuleMap (info : List MapInfo) (suffix : List Byte) : Option MapInfo :=
  info.find? (fun map => map.offset == 0 && suffix.isSuffixOf map.path)

/-- The beginning of the file of `lib`, which has the name of the module. -/
structure BeginsLibrary (lib : MapInfo) (module : List Byte) (map : MapInfo) : Prop where
  offset : map.offset = 0
  dev : map.dev = lib.dev
  inode : map.inode = lib.inode
  name : fileName map.path = module

/-- The address is as far from the beginning of the library in the zygote as the
symbol is from that in the tracer. -/
def OwnOffset (lp : Lp) (sym : Nat) (localInfo remoteInfo : List MapInfo)
    (module : List Byte) (lib : MapInfo) (addr : Nat) : Prop :=
  exists l r, findModuleMap localInfo module = some l ∧
    findModuleMap remoteInfo module = some r ∧
    BeginsLibrary lib module l ∧ BeginsLibrary lib module r ∧
    addr = lp.sizeT (r.start + ((sym : Int) - l.start))

/-- A beginning of the library comes before all other beginnings of files whose
paths end in the name. -/
def ComesFirst (lib : MapInfo) (module : List Byte) (info : List MapInfo) : Prop :=
  exists before map after, info = before ++ map :: after ∧
    BeginsLibrary lib module map ∧
    forall other, other ∈ before -> other.offset = 0 -> ¬ module <:+ other.path

section Symbols

variable {lp : Lp} {sym : Nat} {info localInfo remoteInfo : List MapInfo}
  {module : List Byte} {lib : MapInfo}

theorem findModuleBase_of_found {map : MapInfo}
    (h : findModuleMap info module = some map) :
    findModuleBase info module = map.start := by
  unfold findModuleMap at h
  rw [findModuleBase, firstStart, h]

theorem BeginsLibrary.matches {map : MapInfo} (h : BeginsLibrary lib module map) :
    (map.offset == 0 && module.isSuffixOf map.path) = true := by
  have hsuffix : module <:+ map.path := by
    rw [← h.name]
    exact List.rtakeWhile_suffix _ _
  rw [h.offset, List.isSuffixOf_iff_suffix.mpr hsuffix]
  rfl

/-- The search finds a beginning of the library if that comes first. -/
theorem comesFirst_iff :
    ComesFirst lib module info <->
      exists map, findModuleMap info module = some map ∧ BeginsLibrary lib module map := by
  have hother : forall other : MapInfo,
      (!(other.offset == 0 && module.isSuffixOf other.path)) = true <->
        (other.offset = 0 -> ¬ module <:+ other.path) := by
    intro other
    rw [Bool.not_eq_true', ← Bool.not_eq_true, Bool.and_eq_true, beq_iff_eq,
      List.isSuffixOf_iff_suffix, not_and]
  constructor
  · rintro ⟨before, map, after, hsplit, hlib, hbefore⟩
    refine ⟨map, List.find?_eq_some_iff_append.mpr ⟨hlib.matches, before, after, hsplit, ?_⟩,
      hlib⟩
    intro other hmem
    exact (hother other).mpr (hbefore other hmem)
  · rintro ⟨map, hfound, hlib⟩
    rcases List.find?_eq_some_iff_append.mp hfound with ⟨_, before, after, hsplit, hbefore⟩
    refine ⟨before, map, after, hsplit, hlib, ?_⟩
    intro other hmem
    exact (hother other).mp (hbefore other hmem)

/-- What an address that is not null is computed from. -/
theorem findFuncAddr_of_ne_zero (h : findFuncAddr lp sym localInfo remoteInfo module ≠ 0) :
    findFuncAddr lp sym localInfo remoteInfo module =
      lp.sizeT ((sym : Int) - findModuleBase localInfo module +
        findModuleBase remoteInfo module) := by
  simp only [findFuncAddr] at h ⊢
  split
  · rename_i hnull
    rw [if_pos hnull] at h
    exact absurd rfl h
  · rfl

/-- The address is the symbol's own exactly if the library comes first in both
address spaces. -/
theorem findFuncAddr_ownOffset_iff (lib : MapInfo)
    (h : findFuncAddr lp sym localInfo remoteInfo module ≠ 0) :
    OwnOffset lp sym localInfo remoteInfo module lib
        (findFuncAddr lp sym localInfo remoteInfo module) <->
      ComesFirst lib module localInfo ∧ ComesFirst lib module remoteInfo := by
  rw [comesFirst_iff, comesFirst_iff]
  constructor
  · rintro ⟨l, r, hlocal, hremote, hl, hr, _⟩
    exact ⟨⟨l, hlocal, hl⟩, ⟨r, hremote, hr⟩⟩
  · rintro ⟨⟨l, hlocal, hl⟩, ⟨r, hremote, hr⟩⟩
    refine ⟨l, r, hlocal, hremote, hl, hr, ?_⟩
    rw [findFuncAddr_of_ne_zero h, findModuleBase_of_found hlocal,
      findModuleBase_of_found hremote]
    congr 1
    omega

/-- The first mapping of a library. -/
def libraryMap (start inode : Nat) (path : List Byte) : MapInfo :=
  { start := start, endAddr := start + 0x1000, perms := 1, isPrivate := true, offset := 0,
    dev := 1, inode := inode, path := path }

def libdlMap (start : Nat) : MapInfo :=
  libraryMap start 7 (bytesOf "/apex/com.android.runtime/lib64/bionic/libdl.so")

theorem findFuncAddr_ownOffset_libdl :
    findFuncAddr Lp.lp64 0x1100 [libdlMap 0x1000] [libdlMap 0x9000] (bytesOf "libdl.so") ≠ 0 ∧
    (OwnOffset Lp.lp64 0x1100 [libdlMap 0x1000] [libdlMap 0x9000] (bytesOf "libdl.so")
        (libdlMap 0x1000)
        (findFuncAddr Lp.lp64 0x1100 [libdlMap 0x1000] [libdlMap 0x9000]
          (bytesOf "libdl.so")) <->
      ComesFirst (libdlMap 0x1000) (bytesOf "libdl.so") [libdlMap 0x1000] ∧
        ComesFirst (libdlMap 0x1000) (bytesOf "libdl.so") [libdlMap 0x9000]) := by
  have hfound : findFuncAddr Lp.lp64 0x1100 [libdlMap 0x1000] [libdlMap 0x9000]
      (bytesOf "libdl.so") ≠ 0 := by
    decide
  exact ⟨hfound, findFuncAddr_ownOffset_iff (libdlMap 0x1000) hfound⟩

/-- A library with a longer name lies below the one that is meant. -/
theorem not_ownOffset_lookalike :
    BeginsLibrary (libdlMap 0x1000) (bytesOf "libdl.so") (libdlMap 0x1000) ∧
    findFuncAddr Lp.lp64 0x1100 [libdlMap 0x1000]
        [libraryMap 0x5000 8 (bytesOf "/vendor/lib64/mylibdl.so"), libdlMap 0x9000]
        (bytesOf "libdl.so") = 0x5100 ∧
    ¬ OwnOffset Lp.lp64 0x1100 [libdlMap 0x1000]
        [libraryMap 0x5000 8 (bytesOf "/vendor/lib64/mylibdl.so"), libdlMap 0x9000]
        (bytesOf "libdl.so") (libdlMap 0x1000) 0x5100 := by
  refine ⟨⟨rfl, rfl, rfl, by decide⟩, by decide, ?_⟩
  rintro ⟨l, r, _, hremote, _, hr, _⟩
  have hfound : findModuleMap
      [libraryMap 0x5000 8 (bytesOf "/vendor/lib64/mylibdl.so"), libdlMap 0x9000]
      (bytesOf "libdl.so") =
        some (libraryMap 0x5000 8 (bytesOf "/vendor/lib64/mylibdl.so")) :=
    List.find?_cons_of_pos (by decide)
  rw [hfound] at hremote
  cases hremote
  cases hr.inode

end Symbols

end Tracer
end ReZygisk
