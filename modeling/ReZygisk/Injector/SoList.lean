import Mathlib.Data.List.Infix
import ReZygisk.Foundation.Chains
import ReZygisk.Foundation.Memory
import ReZygisk.Kernel.Abi

/-!
# Hiding from the list of loaded libraries

The dynamic linker keeps its libraries in a linked list.  The injector finds the
list by its symbol names, guesses where an entry keeps the link to the next one,
and then "empties" the path of every entry that mentions the injected library.
It takes the characters of the path for a pointer variable, so what it writes
over the first characters is an address.
-/

namespace ReZygisk
namespace Injector

open Foundation
open Kernel

namespace SoInfo

/-- What the linker's own getters return for an entry: where the characters of
its path and of its name are. -/
structure Getters where
  realpath : Nat -> Nat
  soname : Nat -> Nat

/-- The static variables of `SoList`. -/
structure Statics where
  solist : Nat
  somain : Nat
  nextOffset : Nat
  deriving DecidableEq, Repr

def defaultNextOffset : Lp -> Nat
  | Lp.lp64 => 0x30
  | Lp.lp32 => 0xa4

def pointerAt (lp : Lp) (m : Memory) (addr : Nat) : Nat :=
  leValue (m.read addr lp.bytes)

/-- `symbol` gives the address of a symbol of the linker, or 0. -/
def getStaticPointer (lp : Lp) (m : Memory) (symbol : List Byte -> Nat) (name : List Byte) : Nat :=
  let addr := symbol name
  if addr = 0 then 0 else pointerAt lp m addr

/-- A slot of the first entry that holds one of the two entries that may come
second. -/
def possibleNext (lp : Lp) (m : Memory) (solist somain vdso : Nat) (i : Nat) : Bool :=
  let next := pointerAt lp m (solist + i * lp.bytes)
  next == somain || (vdso != 0 && next == vdso)

def findNextOffset (lp : Lp) (m : Memory) (solist somain vdso : Nat) : Nat :=
  match (List.range (1024 / lp.bytes)).find? (possibleNext lp m solist somain vdso) with
  | some i => i * lp.bytes
  | none => defaultNextOffset lp

/-- `none` is a failed `Initialize`. -/
def initializeSoList (lp : Lp) (m : Memory) (symbol : List Byte -> Nat) : Option Statics :=
  let solist := getStaticPointer lp m symbol (bytesOf "__dl__ZL6solist")
  let somain := getStaticPointer lp m symbol (bytesOf "__dl__ZL6somain")
  if solist ≠ 0 ∧ somain ≠ 0 then
    let vdso := getStaticPointer lp m symbol (bytesOf "__dl__ZL4vdso")
    if symbol (bytesOf "__dl__ZNK6soinfo12get_realpathEv") ≠ 0 ∧
        symbol (bytesOf "__dl__ZNK6soinfo10get_sonameEv") ≠ 0 then
      some { solist := solist, somain := somain,
             nextOffset := findNextOffset lp m solist somain vdso }
    else none
  else none

/-!
# Emptying the paths
-/

/-- The address of a variable and the end of the mapped memory. -/
structure Image where
  emptyString : Nat
  limit : Nat
  deriving Repr

section Emptying

variable (lp : Lp) (getters : Getters) (img : Image) (target : List Byte) (nextOffset : Nat)

def toEntry (addr : Nat) : Option Nat :=
  if addr = 0 then none else some addr

def getNext (m : Memory) (this : Nat) : Option Nat :=
  toEntry (pointerAt lp m (this + nextOffset))

/-- The text `get_path` points to. -/
def pathOf (m : Memory) (this : Nat) : List Byte :=
  cstr (m.read (getters.realpath this) (img.limit - getters.realpath this))

def mentions (m : Memory) (this : Nat) : Bool :=
  getters.soname this != 0 && getters.realpath this != 0 &&
    decide (target <:+: pathOf getters img m this)

/-- `nullify_path` writes the address of the empty string's variable where the
path's characters are. -/
def nullifyPath (m : Memory) (this : Nat) : Memory :=
  m.write (getters.realpath this) (leBytes lp.bytes img.emptyString)

/-- The body of the first loop. -/
def visit (m : Memory) (this : Nat) : Memory :=
  if mentions getters img target m this then nullifyPath lp getters img m this else m

/-- The body of the second loop, which leaves at the first entry it empties. -/
def emptied (m : Memory) (this : Nat) : Option Memory :=
  if mentions getters img target m this then some (nullifyPath lp getters img m this) else none

/-- `none` is a list whose links do not end within the fuel. -/
def nullifySoName (fuel : Nat) (m : Memory) (solist somain : Nat) : Option Memory :=
  match iterate (walk (getNext lp nextOffset) (visit lp getters img target)) fuel
      (m, toEntry solist) with
  | none => none
  | some m =>
      (iterate (chase (getNext lp nextOffset m) (emptied lp getters img target m)) fuel
        (toEntry somain)).map (fun found => found.getD m)

end Emptying

/-- The part of `run_modules_post` that hides the library. -/
def hideFromSoList (lp : Lp) (getters : Getters) (img : Image) (symbol : List Byte -> Nat)
    (fuel : Nat) (m : Memory) : Option Memory :=
  match initializeSoList lp m symbol with
  | none => some m
  | some statics =>
      nullifySoName lp getters img (bytesOf "jit-cache") statics.nextOffset fuel m statics.solist
        statics.somain

/-!
# The memory of the list

The characters of a path lie in a buffer of their own.
-/

structure Layout (lp : Lp) (getters : Getters) (img : Image) (nextOffset : Nat)
    (room : Nat -> Nat) (ns : List Nat) : Prop where
  named : forall n, n ∈ ns -> getters.soname n ≠ 0 ∧ getters.realpath n ≠ 0
  room_ge : forall n, n ∈ ns -> lp.bytes ≤ room n
  mapped : forall n, n ∈ ns -> getters.realpath n + room n ≤ img.limit
  links : forall n, n ∈ ns -> forall n', n' ∈ ns ->
    getters.realpath n + lp.bytes ≤ n' + nextOffset ∨
      n' + nextOffset + lp.bytes ≤ getters.realpath n
  buffers : forall n, n ∈ ns -> forall n', n' ∈ ns -> n ≠ n' ->
    getters.realpath n + lp.bytes ≤ getters.realpath n' ∨
      getters.realpath n' + room n' ≤ getters.realpath n

/-- Every path ends within its buffer. -/
def Terminated (getters : Getters) (room : Nat -> Nat) (ns : List Nat) (m : Memory) : Prop :=
  forall n, n ∈ ns -> (0 : Byte) ∈ m.read (getters.realpath n) (room n)

/-- What the write makes of a path that mentions the target. -/
def overwritten (lp : Lp) (img : Image) (target path : List Byte) : List Byte :=
  if target <:+: path then cstr (leBytes lp.bytes img.emptyString ++ path.drop lp.bytes) else path

section Visits

variable {lp : Lp} {getters : Getters} {img : Image} {target : List Byte} {nextOffset : Nat}
variable {room : Nat -> Nat} {ns : List Nat} {m : Memory}

theorem pathOf_eq (hlayout : Layout lp getters img nextOffset room ns)
    (hterm : Terminated getters room ns m) {n : Nat} (hn : n ∈ ns) :
    pathOf getters img m n = cstr (m.read (getters.realpath n) (room n)) := by
  have hmapped := hlayout.mapped n hn
  have hfits : room n ≤ img.limit - getters.realpath n := by omega
  unfold pathOf
  rw [Memory.read_split m (getters.realpath n) hfits, cstr_append_of_mem (hterm n hn)]

theorem not_mem_pathOf (m : Memory) (n : Nat) : (0 : Byte) ∉ pathOf getters img m n :=
  not_mem_cstr _

theorem mentions_iff (hlayout : Layout lp getters img nextOffset room ns) {n : Nat}
    (hn : n ∈ ns) :
    mentions getters img target m n = true <-> target <:+: pathOf getters img m n := by
  have hnamed := hlayout.named n hn
  simp [mentions, hnamed.left, hnamed.right]

/-- A path that mentions a target as long as a pointer goes on past the pointer
written over it, up to its terminator. -/
theorem read_nullifyPath (hlayout : Layout lp getters img nextOffset room ns)
    (hterm : Terminated getters room ns m) (hlong : lp.bytes ≤ target.length) {n : Nat}
    (hn : n ∈ ns) (hmention : target <:+: pathOf getters img m n) :
    exists rest, (nullifyPath lp getters img m n).read (getters.realpath n) (room n) =
      leBytes lp.bytes img.emptyString ++ (pathOf getters img m n).drop lp.bytes ++ 0 :: rest := by
  have hpath : lp.bytes ≤ (pathOf getters img m n).length :=
    Nat.le_trans hlong hmention.length_le
  rcases exists_rest_of_mem (hterm n hn) with ⟨rest, hrest⟩
  rw [← pathOf_eq hlayout hterm hn] at hrest
  refine ⟨rest, ?_⟩
  unfold nullifyPath
  rw [Memory.read_write _ _ _ (by rw [leBytes_length]; exact hlayout.room_ge n hn),
    leBytes_length]
  conv_lhs => rw [hrest, List.drop_append_of_le_length hpath]
  rw [List.append_assoc]

theorem terminated_visit (hlayout : Layout lp getters img nextOffset room ns)
    (hlong : lp.bytes ≤ target.length) {n : Nat} (hn : n ∈ ns)
    (hterm : Terminated getters room ns m) :
    Terminated getters room ns (visit lp getters img target m n) := by
  unfold visit
  split
  · next hmention =>
      intro n' hn'
      rw [mentions_iff hlayout hn] at hmention
      rcases eq_or_ne n n' with heq | hne
      · rcases read_nullifyPath hlayout hterm hlong hn hmention with ⟨rest, hread⟩
        rw [← heq, hread]
        exact List.mem_append_right _ List.mem_cons_self
      · have hapart := hlayout.buffers n hn n' hn' hne
        unfold nullifyPath
        rw [Memory.read_write_apart (by rw [leBytes_length]; exact hapart)]
        exact hterm n' hn'
  · exact hterm

theorem getNext_visit (hlayout : Layout lp getters img nextOffset room ns) {n n' : Nat}
    (hn : n ∈ ns) (hn' : n' ∈ ns) :
    getNext lp nextOffset (visit lp getters img target m n) n' = getNext lp nextOffset m n' := by
  unfold visit
  split
  · have hapart := hlayout.links n hn n' hn'
    unfold getNext pointerAt nullifyPath
    rw [Memory.read_write_apart (by rw [leBytes_length]; exact hapart)]
  · rfl

theorem pathOf_visit_self (hlayout : Layout lp getters img nextOffset room ns)
    (hlong : lp.bytes ≤ target.length) {n : Nat} (hn : n ∈ ns)
    (hterm : Terminated getters room ns m) :
    pathOf getters img (visit lp getters img target m n) n =
      overwritten lp img target (pathOf getters img m n) := by
  rw [pathOf_eq hlayout (terminated_visit hlayout hlong hn hterm) hn]
  unfold visit overwritten
  by_cases hmention : target <:+: pathOf getters img m n
  · rcases read_nullifyPath hlayout hterm hlong hn hmention with ⟨rest, hread⟩
    have hwhole : (0 : Byte) ∈ leBytes lp.bytes img.emptyString ++
          (pathOf getters img m n).drop lp.bytes ++ [0] := by
      exact List.mem_append_right _ List.mem_cons_self
    rw [if_pos ((mentions_iff hlayout hn).mpr hmention), if_pos hmention, hread]
    have hcons : (0 : Byte) :: rest = [0] ++ rest := rfl
    rw [hcons, ← List.append_assoc, cstr_append_of_mem hwhole]
    -- The terminator adds nothing to the text.
    by_cases hzero : (0 : Byte) ∈ leBytes lp.bytes img.emptyString ++
        (pathOf getters img m n).drop lp.bytes
    · exact cstr_append_of_mem hzero [0]
    · rw [cstr_terminated hzero, cstr_eq_self hzero]
  · rw [if_neg (by rw [mentions_iff hlayout hn]; exact hmention), if_neg hmention,
      ← pathOf_eq hlayout hterm hn]

theorem pathOf_visit_other (hlayout : Layout lp getters img nextOffset room ns)
    (hlong : lp.bytes ≤ target.length) {n n' : Nat} (hn : n ∈ ns) (hn' : n' ∈ ns) (hne : n ≠ n')
    (hterm : Terminated getters room ns m) :
    pathOf getters img (visit lp getters img target m n) n' = pathOf getters img m n' := by
  rw [pathOf_eq hlayout (terminated_visit hlayout hlong hn hterm) hn', pathOf_eq hlayout hterm hn']
  unfold visit
  split
  · have hapart := hlayout.buffers n hn n' hn' hne
    unfold nullifyPath
    rw [Memory.read_write_apart (by rw [leBytes_length]; exact hapart)]
  · rfl

/-- A pointer with a zero byte ends the text before the target fits. -/
theorem not_infix_overwritten {target path : List Byte} (hlong : lp.bytes ≤ target.length)
    (hzero : (0 : Byte) ∈ leBytes lp.bytes img.emptyString) :
    ¬ target <:+: overwritten lp img target path := by
  unfold overwritten
  split
  · intro hstill
    rw [cstr_append_of_mem hzero] at hstill
    have hlen := hstill.length_le
    rcases exists_rest_of_mem hzero with ⟨rest, hrest⟩
    have hpointer := congrArg List.length hrest
    rw [leBytes_length, List.length_append, List.length_cons] at hpointer
    omega
  · next hnot => exact hnot

/-- Writing the same address twice changes nothing more. -/
theorem overwritten_idem {path : List Byte} (hlong : lp.bytes ≤ target.length)
    (hpath : (0 : Byte) ∉ path) :
    overwritten lp img target (overwritten lp img target path) =
      overwritten lp img target path := by
  unfold overwritten
  by_cases hmention : target <:+: path
  · simp only [if_pos hmention]
    by_cases hzero : (0 : Byte) ∈ leBytes lp.bytes img.emptyString
    · have hgone := @not_infix_overwritten lp img target path hlong hzero
      rw [overwritten, if_pos hmention] at hgone
      rw [if_neg hgone]
    · have hdrop : (0 : Byte) ∉ path.drop lp.bytes := fun h => hpath (List.mem_of_mem_drop h)
      rw [cstr_append hzero, cstr_eq_self hdrop, List.drop_left' (leBytes_length _ _),
        cstr_append hzero, cstr_eq_self hdrop, ite_self]
  · rw [if_neg hmention, if_neg hmention]

/-- What a memory shows of a list whose entries `done` have been visited. -/
structure Visited (lp : Lp) (getters : Getters) (img : Image) (target : List Byte)
    (nextOffset : Nat) (room : Nat -> Nat) (ns done : List Nat) (m m' : Memory) : Prop where
  terminated : Terminated getters room ns m'
  links : forall n, n ∈ ns -> getNext lp nextOffset m' n = getNext lp nextOffset m n
  paths : forall n, n ∈ ns ->
    pathOf getters img m' n =
      if n ∈ done then overwritten lp img target (pathOf getters img m n)
      else pathOf getters img m n

theorem visited_foldl (hlayout : Layout lp getters img nextOffset room ns)
    (hlong : lp.bytes ≤ target.length) (hterm : Terminated getters room ns m) {done : List Nat}
    (hsub : forall n, n ∈ done -> n ∈ ns) (hnodup : done.Nodup) :
    Visited lp getters img target nextOffset room ns done m
      (done.foldl (visit lp getters img target) m) := by
  induction done using List.reverseRecOn with
  | nil =>
      refine ⟨hterm, fun _ _ => rfl, ?_⟩
      intro n _
      rw [List.foldl_nil, if_neg List.not_mem_nil]
  | append_singleton done n ih =>
      rcases List.nodup_append.mp hnodup with ⟨hdone, _, hapart⟩
      have hbefore := ih (fun n' hn' => hsub n' (List.mem_append_left [n] hn')) hdone
      have hn : n ∈ ns := hsub n (List.mem_append_right done List.mem_cons_self)
      have hnew : n ∉ done := by
        intro hold
        exact hapart n hold n List.mem_cons_self rfl
      rw [List.foldl_append, List.foldl_cons, List.foldl_nil]
      constructor
      · exact terminated_visit hlayout hlong hn hbefore.terminated
      · intro n' hn'
        rw [getNext_visit hlayout hn hn', hbefore.links n' hn']
      · intro n' hn'
        rcases eq_or_ne n n' with heq | hne
        · rw [← heq, pathOf_visit_self hlayout hlong hn hbefore.terminated, hbefore.paths n hn,
            if_neg hnew, if_pos (List.mem_append_right done List.mem_cons_self)]
        · rw [pathOf_visit_other hlayout hlong hn hn' hne hbefore.terminated, hbefore.paths n' hn']
          simp [hne.symm]

/-- An entry visited a second time shows the same path as before. -/
theorem Visited.again {m' : Memory} (hlayout : Layout lp getters img nextOffset room ns)
    (hlong : lp.bytes ≤ target.length) {n : Nat} (hn : n ∈ ns)
    (h : Visited lp getters img target nextOffset room ns ns m m') :
    Visited lp getters img target nextOffset room ns ns m
      (visit lp getters img target m' n) := by
  constructor
  · exact terminated_visit hlayout hlong hn h.terminated
  · intro n' hn'
    rw [getNext_visit hlayout hn hn', h.links n' hn']
  · intro n' hn'
    rcases eq_or_ne n n' with heq | hne
    · rw [← heq, pathOf_visit_self hlayout hlong hn h.terminated, h.paths n hn, if_pos hn,
        overwritten_idem hlong (not_mem_pathOf m n)]
    · rw [pathOf_visit_other hlayout hlong hn hn' hne h.terminated]
      exact h.paths n' hn'

theorem emptied_eq_some {n : Nat} {m' : Memory} (h : emptied lp getters img target m n = some m') :
    m' = visit lp getters img target m n := by
  unfold emptied at h
  unfold visit
  split at h
  · next hmention =>
      injection h with h
      rw [if_pos hmention, h]
  · cases h

/-- Both loops end, and together they have visited every entry. -/
theorem nullifySoName_visited {solist somain fuel : Nat}
    (hchain : Chain (getNext lp nextOffset m) (toEntry solist) ns)
    (hmain : somain = 0 ∨ somain ∈ ns) (hlayout : Layout lp getters img nextOffset room ns)
    (hterm : Terminated getters room ns m) (hlong : lp.bytes ≤ target.length)
    (hfuel : ns.length < fuel) :
    exists m', nullifySoName lp getters img target nextOffset fuel m solist somain = some m' ∧
      Visited lp getters img target nextOffset room ns ns m m' := by
  have hfirst := visited_foldl hlayout hlong hterm (fun _ h => h) hchain.nodup
  have hwalk : iterate (walk (getNext lp nextOffset) (visit lp getters img target)) fuel
      (m, toEntry solist) = some (ns.foldl (visit lp getters img target) m) := by
    apply iterate_walk (I := fun m' => Terminated getters room ns m' ∧
      forall n, n ∈ ns -> getNext lp nextOffset m' n = getNext lp nextOffset m n) hchain
    · intro m' n hn hm'
      constructor
      · exact terminated_visit hlayout hlong hn hm'.left
      · intro n' hn'
        rw [getNext_visit hlayout hn hn', hm'.right n' hn']
    · intro m' n hn hm'
      exact hm'.right n hn
    · exact ⟨hterm, fun _ _ => rfl⟩
    · exact hfuel
  generalize ns.foldl (visit lp getters img target) m = m1 at hfirst hwalk
  -- The second loop starts at an entry of the same list.
  have hsecond : exists ns', Chain (getNext lp nextOffset m1) (toEntry somain) ns' ∧
      ns'.length < fuel ∧ forall n, n ∈ ns' -> n ∈ ns := by
    have hchain1 := hchain.congr hfirst.links
    rcases hmain with hzero | hmem
    · refine ⟨[], ?_, Nat.zero_lt_of_lt hfuel, fun _ h => absurd h List.not_mem_nil⟩
      rw [hzero]
      exact Chain.nil
    · rcases eq_or_ne somain 0 with hzero | hnonzero
      · refine ⟨[], ?_, Nat.zero_lt_of_lt hfuel, fun _ h => absurd h List.not_mem_nil⟩
        rw [hzero]
        exact Chain.nil
      · rcases hchain1.suffix_of_mem hmem with ⟨ns', hchain', hsuffix⟩
        have hlen := hsuffix.length_le
        refine ⟨somain :: ns', ?_, Nat.lt_of_le_of_lt hlen hfuel, fun n hn => hsuffix.mem hn⟩
        rw [toEntry, if_neg hnonzero]
        exact hchain'
  rcases hsecond with ⟨ns', hchain', hlen, hsub⟩
  unfold nullifySoName
  rw [hwalk]
  simp only
  rw [iterate_chase_of_lt hchain' hlen, Option.map_some]
  cases hfound : ns'.findSome? (emptied lp getters img target m1) with
  | none => exact ⟨m1, rfl, hfirst⟩
  | some m2 =>
      rcases List.exists_of_findSome?_eq_some hfound with ⟨n, hn, hhit⟩
      refine ⟨m2, rfl, ?_⟩
      rw [emptied_eq_some hhit]
      exact hfirst.again hlayout hlong (hsub n hn)

end Visits

/-!
# What the paths show afterwards
-/

section Shown

variable {lp : Lp} {getters : Getters} {img : Image} {room : Nat -> Nat} {ns : List Nat}
variable {m : Memory} {symbol : List Byte -> Nat}

/-- The linker's symbols are found, and the link of the first entry is in its
`slot`-th pointer, none of the pointers before it being one of the two entries
that may come second. -/
structure Resolves (lp : Lp) (m : Memory) (symbol : List Byte -> Nat) (solist somain vdso : Nat)
    (slot : Nat) : Prop where
  solist_eq : getStaticPointer lp m symbol (bytesOf "__dl__ZL6solist") = solist
  somain_eq : getStaticPointer lp m symbol (bytesOf "__dl__ZL6somain") = somain
  vdso_eq : getStaticPointer lp m symbol (bytesOf "__dl__ZL4vdso") = vdso
  realpath : symbol (bytesOf "__dl__ZNK6soinfo12get_realpathEv") ≠ 0
  soname : symbol (bytesOf "__dl__ZNK6soinfo10get_sonameEv") ≠ 0
  present : solist ≠ 0 ∧ somain ≠ 0
  slot_lt : slot < 1024 / lp.bytes
  link : possibleNext lp m solist somain vdso slot = true
  first : forall i, i < slot -> possibleNext lp m solist somain vdso i = false

theorem findNextOffset_eq {solist somain vdso slot : Nat} (hslot : slot < 1024 / lp.bytes)
    (hlink : possibleNext lp m solist somain vdso slot = true)
    (hfirst : forall i, i < slot -> possibleNext lp m solist somain vdso i = false) :
    findNextOffset lp m solist somain vdso = slot * lp.bytes := by
  have hfind : (List.range (1024 / lp.bytes)).find? (possibleNext lp m solist somain vdso) =
      some slot := by
    rw [List.find?_range_eq_some]
    refine ⟨hlink, List.mem_range.mpr hslot, ?_⟩
    intro i hi
    rw [hfirst i hi]
    rfl
  unfold findNextOffset
  rw [hfind]

theorem initializeSoList_eq {solist somain vdso slot : Nat}
    (h : Resolves lp m symbol solist somain vdso slot) :
    initializeSoList lp m symbol =
      some { solist := solist, somain := somain, nextOffset := slot * lp.bytes } := by
  unfold initializeSoList
  simp only [h.solist_eq, h.somain_eq, h.vdso_eq]
  rw [if_pos h.present, if_pos ⟨h.realpath, h.soname⟩,
    findNextOffset_eq h.slot_lt h.link h.first]

/-- The linker and one library, whose link is in the third pointer. -/
def twoEntries : Memory :=
  ((((Memory.write (fun _ => 0) 8 (leBytes 8 64)).write 16 (leBytes 8 128)).write 80
    (leBytes 8 128)).write 200 (bytesOf "/system/bin/linker64")).write 240
    (bytesOf "/memfd:jit-cache-zygisk")

def twoEntriesSymbol (name : List Byte) : Nat :=
  if name = bytesOf "__dl__ZL6solist" then 8
  else if name = bytesOf "__dl__ZL6somain" then 16
  else if name = bytesOf "__dl__ZL4vdso" then 0
  else 1000

def twoEntriesGetters : Getters :=
  { realpath := fun this => if this = 64 then 200 else 240, soname := fun this => this }

end Shown

end SoInfo

end Injector
end ReZygisk
