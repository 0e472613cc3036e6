import Mathlib.Data.Finset.Max
import ReZygisk.Foundation.Bytes
import ReZygisk.Foundation.Forest
import ReZygisk.Kernel.Wait

/-!
# Mounts

The mounts of a namespace form a tree: each names its parent, and is mounted
somewhere in what its parent shows.  A mount on the root of another one has the
same path and covers it.
-/

namespace ReZygisk
namespace Kernel

open Foundation

/-- What the kernel says of the propagation of a mount. -/
inductive OptionalField where
  | shared (group : Nat)
  | master (group : Nat)
  | propagateFrom (group : Nat)
  | unbindable
  deriving DecidableEq

structure Mount where
  id : Nat
  parent : Nat
  major : Nat
  minor : Nat
  root : List Byte
  target : List Byte
  vfsOptions : List Byte
  optional : List OptionalField
  fsType : List Byte
  source : List Byte
  fsOptions : List Byte
  deriving DecidableEq

/-!
# The listing
-/

def octal (b : Byte) : List Byte :=
  [0x5c, 48 + b / 64, 48 + b / 8 % 8, 48 + b % 8]

/-- The kernel writes some bytes as a backslash and three octal digits. -/
def mangle (escaped text : List Byte) : List Byte :=
  text.flatMap (fun b => if b ∈ escaped then octal b else [b])

/-- The bytes that are escaped in a path. -/
def PATH_ESCAPED : List Byte := bytesOf " \t\n\\"

/-- The bytes that are escaped in the type and in the source. -/
def NAME_ESCAPED : List Byte := bytesOf " \t\n\\#"

def OptionalField.text : OptionalField -> List Byte
  | OptionalField.shared group => bytesOf "shared:" ++ decText group
  | OptionalField.master group => bytesOf "master:" ++ decText group
  | OptionalField.propagateFrom group => bytesOf "propagate_from:" ++ decText group
  | OptionalField.unbindable => bytesOf "unbindable"

def Mount.optionalText (m : Mount) : List Byte :=
  m.optional.flatMap (fun field => 0x20 :: field.text)

/-- The line of a mount in `/proc/self/mountinfo`. -/
def Mount.line (m : Mount) : List Byte :=
  decText m.id ++ 0x20 :: (decText m.parent ++ 0x20 ::
    (decText m.major ++ 0x3a :: (decText m.minor ++ 0x20 ::
      (mangle PATH_ESCAPED m.root ++ 0x20 :: (mangle PATH_ESCAPED m.target ++ 0x20 ::
        (m.vfsOptions ++ (m.optionalText ++ 0x20 :: 0x2d :: 0x20 ::
          (mangle NAME_ESCAPED m.fsType ++ 0x20 ::
            (mangle NAME_ESCAPED m.source ++ 0x20 ::
              (m.fsOptions ++ [0x0a]))))))))))

def mountinfo (mounts : List Mount) : List Byte :=
  mounts.flatMap Mount.line

/-!
# The tree
-/

/-- The root of a namespace names itself, or a mount that is not listed. -/
def parentOf (mounts : List Mount) (m : Mount) : Option Mount :=
  if m.parent = m.id then none
  else mounts.find? (fun p => p.id = m.parent)

def ancestors (mounts : List Mount) : Nat -> Mount -> List Mount
  | 0, _ => []
  | fuel + 1, m =>
      match parentOf mounts m with
      | none => []
      | some p => p :: ancestors mounts fuel p

/-- The mounts of a namespace in the order in which they are listed.  The way
from each to its root ends, and goes through paths that contain the mount. -/
structure MountTree where
  mounts : List Mount
  distinct : (mounts.map Mount.id).Nodup
  rooted : forall m, m ∈ mounts ->
    (ancestors mounts mounts.length m).length < mounts.length
  within : forall m p, m ∈ mounts -> parentOf mounts m = some p ->
    p.target <+: m.target

namespace MountTree

/-- The mounts that a mount hangs from, its parent first. -/
def way (tree : MountTree) (m : Mount) : List Mount :=
  ancestors tree.mounts tree.mounts.length m

/-- `x` is mounted beneath `y`. -/
def Beneath (tree : MountTree) (x y : Mount) : Prop :=
  x ∈ tree.mounts ∧ y ∈ tree.way x

instance (tree : MountTree) (x y : Mount) : Decidable (tree.Beneath x y) :=
  inferInstanceAs (Decidable (_ ∧ _))

/-- The mount that a path leads to, of those that are attached. -/
def topmost (tree : MountTree) (p : List Byte) (attached : List Mount) : Option Mount :=
  attached.reverse.find? (fun m =>
    m.target = p ∧ forall z, z ∈ attached -> z.target = p -> ¬ tree.Beneath z m)

/-- `umount2(p, MNT_DETACH)`: the topmost mount goes with all that is mounted
beneath it.  Without a mount there it fails. -/
def umount2 (tree : MountTree) (p : List Byte) (attached : List Mount) : List Mount :=
  match tree.topmost p attached with
  | none => attached
  | some y => attached.filter (fun z => z ≠ y ∧ ¬ tree.Beneath z y)

def umountAll (tree : MountTree) (paths : List (List Byte)) (attached : List Mount) :
    List Mount :=
  paths.foldl (fun attached p => tree.umount2 p attached) attached

end MountTree

/-!
# Escapes
-/

section Mangle

variable {escaped text text' : List Byte}

theorem mangle_cons (escaped : List Byte) (b : Byte) (rest : List Byte) :
    mangle escaped (b :: rest) =
      (if b ∈ escaped then octal b else [b]) ++ mangle escaped rest :=
  List.flatMap_cons

theorem mangle_eq_nil (h : mangle escaped text = []) : text = [] := by
  cases text with
  | nil => rfl
  | cons b rest =>
      rw [mangle_cons] at h
      by_cases hb : b ∈ escaped
      · rw [if_pos hb] at h
        cases h
      · rw [if_neg hb] at h
        cases h

theorem mangle_eq_self (h : forall b, b ∈ text -> b ∉ escaped) :
    mangle escaped text = text := by
  induction text with
  | nil => rfl
  | cons b rest ih =>
      rw [mangle_cons, if_neg (h b List.mem_cons_self),
        ih (fun c hc => h c (List.mem_cons_of_mem b hc)), List.singleton_append]

theorem octal_injective {b c : Byte} (h : octal b = octal c) : b = c := by
  have hvalue : forall b : Byte,
      ((octal b).getD 1 0 - 48) * 64 + ((octal b).getD 2 0 - 48) * 8 +
        ((octal b).getD 3 0 - 48) = b := by
    apply forall_byte
    decide +kernel
  rw [← hvalue b, h, hvalue c]

/-- Escaped texts differ if the texts do, as the backslash is escaped too. -/
theorem mangle_injective (hback : 0x5c ∈ escaped)
    (h : mangle escaped text = mangle escaped text') : text = text' := by
  induction text generalizing text' with
  | nil => exact (mangle_eq_nil h.symm).symm
  | cons b rest ih =>
      cases text' with
      | nil => exact mangle_eq_nil h
      | cons c rest' =>
          -- The first byte of a code tells which kind it is.
          rw [mangle_cons, mangle_cons] at h
          by_cases hb : b ∈ escaped
          · rw [if_pos hb] at h
            by_cases hc : c ∈ escaped
            · rw [if_pos hc] at h
              rcases List.append_inj h rfl with ⟨hhead, htail⟩
              rw [octal_injective hhead, ih htail]
            · rw [if_neg hc] at h
              injection h with hhead _
              rw [← hhead] at hc
              exact absurd hback hc
          · rw [if_neg hb] at h
            by_cases hc : c ∈ escaped
            · rw [if_pos hc] at h
              injection h with hhead _
              rw [hhead] at hb
              exact absurd hback hb
            · rw [if_neg hc] at h
              injection h with hhead htail
              rw [hhead, ih htail]

end Mangle

/-!
# The way to the root
-/

section Way

variable {mounts : List Mount} {tree : MountTree} {m p x y z : Mount}

theorem mem_of_parentOf (h : parentOf mounts m = some p) : p ∈ mounts := by
  unfold parentOf at h
  split at h
  · cases h
  · exact List.mem_of_find?_eq_some h

/-- A parent is one of the mounts, so that only these need to be looked at. -/
theorem within_of_mounts
    (h : forall m, m ∈ mounts -> forall p, p ∈ mounts ->
      parentOf mounts m = some p -> p.target <+: m.target) :
    forall m p, m ∈ mounts -> parentOf mounts m = some p -> p.target <+: m.target := by
  intro m p hm hp
  exact h m hm p (mem_of_parentOf hp) hp

/-- Fuel that is not used up is enough. -/
theorem ancestors_succ {fuel : Nat} (h : (ancestors mounts fuel m).length < fuel) :
    ancestors mounts (fuel + 1) m = ancestors mounts fuel m := by
  induction fuel generalizing m with
  | zero => exact absurd h (Nat.not_lt_zero _)
  | succ fuel ih =>
      rw [ancestors] at h
      conv => lhs; rw [ancestors]
      conv => rhs; rw [ancestors]
      cases hp : parentOf mounts m with
      | none => rfl
      | some p =>
          rw [hp] at h
          simp only [List.length_cons] at h
          simp only
          rw [ih (Nat.lt_of_succ_lt_succ h)]

namespace MountTree

/-- The way of a mount is its parent, and then the way of the parent. -/
theorem way_eq (hmem : m ∈ tree.mounts) :
    tree.way m =
      match parentOf tree.mounts m with
      | none => []
      | some p => p :: tree.way p := by
  have hfuel := tree.rooted m hmem
  cases hp : parentOf tree.mounts m with
  | none =>
      rw [way, ← ancestors_succ hfuel, ancestors, hp]
  | some p =>
      rw [way, ← ancestors_succ hfuel, ancestors, hp]
      rfl

theorem way_cons {rest : List Mount} (hmem : m ∈ tree.mounts)
    (h : tree.way m = p :: rest) :
    parentOf tree.mounts m = some p ∧ p ∈ tree.mounts ∧ rest = tree.way p := by
  rw [way_eq hmem] at h
  cases hp : parentOf tree.mounts m with
  | none =>
      rw [hp] at h
      cases h
  | some p' =>
      rw [hp] at h
      injection h with hhead htail
      rw [← hhead]
      exact ⟨rfl, mem_of_parentOf hp, htail.symm⟩

/-- What is on the way from a mount has a shorter way, on paths that contain
it. -/
theorem way_mem (hmem : x ∈ tree.mounts) (h : y ∈ tree.way x) :
    y ∈ tree.mounts ∧ (tree.way y).length < (tree.way x).length ∧
      y.target <+: x.target ∧ tree.way y ⊆ tree.way x := by
  induction hway : tree.way x generalizing x with
  | nil =>
      rw [hway] at h
      cases h
  | cons p rest ih =>
      rcases way_cons hmem hway with ⟨hparent, hp, hrest⟩
      have hwithin := tree.within x p hmem hparent
      rw [hway, hrest] at h
      rw [hrest, List.length_cons]
      rcases List.mem_cons.mp h with h | h
      · rw [h]
        exact ⟨hp, Nat.lt_succ_self _, hwithin, List.subset_cons_self _ _⟩
      · rcases ih hp h hrest.symm with ⟨hy, hless, hprefix, hsub⟩
        rw [hrest] at hless hsub
        exact ⟨hy, Nat.lt_succ_of_lt hless, List.IsPrefix.trans hprefix hwithin,
          List.Subset.trans hsub (List.subset_cons_self _ _)⟩

theorem way_comparable (hmem : x ∈ tree.mounts) (hy : y ∈ tree.way x)
    (hz : z ∈ tree.way x) : y = z ∨ z ∈ tree.way y ∨ y ∈ tree.way z := by
  induction hway : tree.way x generalizing x with
  | nil =>
      rw [hway] at hy
      cases hy
  | cons p rest ih =>
      rcases way_cons hmem hway with ⟨_, hp, hrest⟩
      rw [hway, hrest] at hy hz
      rcases List.mem_cons.mp hy with hy | hy
      · rcases List.mem_cons.mp hz with hz | hz
        · exact Or.inl (hy.trans hz.symm)
        · rw [hy]
          exact Or.inr (Or.inl hz)
      · rcases List.mem_cons.mp hz with hz | hz
        · rw [hz]
          exact Or.inr (Or.inr hy)
        · exact ih hp hy hz hrest.symm

/-- The tree as a forest, with the paths as its keys. -/
def forest (tree : MountTree) : Forest Mount (List Byte) where
  keyOf := Mount.target
  hangs := tree.Beneath
  trans := by
    intro x y z hxy hyz
    exact ⟨hxy.left, (way_mem hxy.left hxy.right).right.right.right hyz.right⟩
  irrefl := by
    intro x hx
    exact Nat.lt_irrefl _ (way_mem hx.left hx.right).right.left
  comparable := by
    intro x y z hxy hxz
    have hy := (way_mem hxy.left hxy.right).left
    have hz := (way_mem hxz.left hxz.right).left
    rcases way_comparable hxy.left hxy.right hxz.right with h | h | h
    · exact Or.inl h
    · exact Or.inr (Or.inl ⟨hy, h⟩)
    · exact Or.inr (Or.inr ⟨hz, h⟩)
  convex := by
    intro x y z hxy hyz heq
    have hy := (way_mem hxy.left hxy.right).right.right.left
    have hz := (way_mem hyz.left hyz.right).right.right.left
    rw [heq] at hy
    exact List.IsPrefix.eq_of_length hy
      (Nat.le_antisymm hy.length_le hz.length_le)

/-!
# Unmounting
-/

/-- Among the mounts at a path one is not covered. -/
theorem exists_uncovered (tree : MountTree) {attached : List Mount}
    {path : List Byte} (hmem : m ∈ attached) (hat : m.target = path) :
    exists y, y ∈ attached ∧ y.target = path ∧
      forall z, z ∈ attached -> z.target = path -> ¬ tree.Beneath z y := by
  have hsome : (attached.filter (fun z => z.target = path)).toFinset.Nonempty :=
    ⟨m, List.mem_toFinset.mpr (List.mem_filter.mpr ⟨hmem, by simpa using hat⟩)⟩
  -- a mount with the longest way
  rcases Finset.exists_max_image _ (fun z => (tree.way z).length) hsome with
    ⟨y, hy, hmax⟩
  rcases List.mem_filter.mp (List.mem_toFinset.mp hy) with ⟨hy, hpath⟩
  refine ⟨y, hy, by simpa using hpath, ?_⟩
  intro z hz hzpath hbeneath
  have hlonger := (way_mem hbeneath.left hbeneath.right).right.left
  have hle := hmax z (List.mem_toFinset.mpr
    (List.mem_filter.mpr ⟨hz, by simpa using hzpath⟩))
  exact Nat.lt_irrefl _ (Nat.lt_of_lt_of_le hlonger hle)

theorem umount2_detach (tree : MountTree) (path : List Byte) (attached : List Mount) :
    tree.forest.Detach path attached.toFinset (tree.umount2 path attached).toFinset := by
  unfold umount2
  cases htop : tree.topmost path attached with
  | none =>
      refine Forest.Detach.nothing ?_ rfl
      intro y hy hpath
      rcases exists_uncovered tree (List.mem_toFinset.mp hy) hpath with
        ⟨y', hy', hpath', htop'⟩
      have hno := List.find?_eq_none.mp htop y' (List.mem_reverse.mpr hy')
      exact hno (decide_eq_true ⟨hpath', htop'⟩)
  | some y =>
      have hy := List.mem_reverse.mp (List.mem_of_find?_eq_some htop)
      have hfound := List.find?_some htop
      rcases of_decide_eq_true hfound with ⟨hpath, htop'⟩
      refine Forest.Detach.picked y
        ⟨List.mem_toFinset.mpr hy, hpath, ?_⟩ ?_
      · intro z hz hzpath
        exact htop' z (List.mem_toFinset.mp hz) hzpath
      · intro z
        rw [List.mem_toFinset, List.mem_toFinset, List.mem_filter, decide_eq_true_iff]
        rfl

theorem umountAll_detaches (tree : MountTree) (paths : List (List Byte))
    (attached : List Mount) :
    tree.forest.Detaches paths attached.toFinset
      (tree.umountAll paths attached).toFinset := by
  induction paths generalizing attached with
  | nil => exact Forest.Detaches.nil _
  | cons path rest ih =>
      exact Forest.Detaches.cons (umount2_detach tree path attached) (ih _)

end MountTree

end Way

end Kernel
end ReZygisk
