import Mathlib.Algebra.BigOperators.Group.List.Basic
import ReZygisk.Injector.MountInfo

/-!
# Reverting the mounts of a root manager

Before an app starts, the mounts of the manager and of its modules are taken out
of its namespace: one detach call for each criterion that an entry of the mount
table meets, in the reverse order of the entries.
-/

namespace ReZygisk
namespace Injector

open Foundation
open Kernel

def MODULE_DIR : List Byte := bytesOf "/data/adb/modules"

def KSU_OVERLAY_SOURCE : List Byte := bytesOf "KSU"

def AP_OVERLAY_SOURCE : List Byte := bytesOf "APatch"

def DEVICE_PARTITIONS : List (List Byte) :=
  [bytesOf "/system", bytesOf "/vendor", bytesOf "/product", bytesOf "/system_ext",
    bytesOf "/odm", bytesOf "/oem"]

/-!
# Criteria
-/

def inDataAdb (info : MountInfo) : Bool :=
  (bytesOf "/data/adb").isPrefixOf info.target

def isOverlay (overlaySource : List Byte) (info : MountInfo) : Bool :=
  info.type == bytesOf "overlay" && info.source == overlaySource &&
    DEVICE_PARTITIONS.contains info.target

def isTempDir (overlaySource : List Byte) (info : MountInfo) : Bool :=
  info.type == bytesOf "tmpfs" && info.source == overlaySource

def isFromLoop (loop : List Byte) (info : MountInfo) : Bool :=
  info.source == loop

def isMagisk (info : MountInfo) : Bool :=
  info.source == bytesOf "magisk" || info.source == bytesOf "worker" ||
    (bytesOf "/adb/modules").isPrefixOf info.root

/-- The target of an entry, if it meets the criterion. -/
def pick (criterion : MountInfo -> Bool) (info : MountInfo) : List (List Byte) :=
  if criterion info then [info.target] else []

/-!
# Targets
-/

/-- `ksu_loop` and `ap_loop` after the first pass: the source of the last entry
of the module directory. -/
def loopSource (infos : List MountInfo) : List Byte :=
  infos.foldl (fun loop info => if info.target = MODULE_DIR then info.source else loop) []

def firstPass (overlaySource : List Byte) (info : MountInfo) : List (List Byte) :=
  if info.target = MODULE_DIR then []
  else
    pick inDataAdb info ++ (pick (isOverlay overlaySource) info ++
      pick (isTempDir overlaySource) info)

def secondPass (loop : List Byte) (info : MountInfo) : List (List Byte) :=
  if info.target = MODULE_DIR then [] else pick (isFromLoop loop) info

/-- The targets of `revert_unmount_ksu` and `revert_unmount_apatch`. -/
def overlayTargets (overlaySource : List Byte) (infos : List MountInfo) :
    List (List Byte) :=
  MODULE_DIR :: (infos.flatMap (firstPass overlaySource) ++
    infos.flatMap (secondPass (loopSource infos)))

def magiskTargets (infos : List MountInfo) : List (List Byte) :=
  infos.flatMap (fun info => pick isMagisk info ++ pick inDataAdb info)

/-- `lazy_unmount` of the targets in reverse order, in a namespace with these
mounts. -/
def unmountReversed (tree : MountTree) (targets : List (List Byte)) : List Mount :=
  tree.umountAll targets.reverse tree.mounts

def revertUnmountKsu (tree : MountTree) (infos : List MountInfo) : List Mount :=
  unmountReversed tree (overlayTargets KSU_OVERLAY_SOURCE infos)

def revertUnmountApatch (tree : MountTree) (infos : List MountInfo) : List Mount :=
  unmountReversed tree (overlayTargets AP_OVERLAY_SOURCE infos)

def revertUnmountMagisk (tree : MountTree) (infos : List MountInfo) : List Mount :=
  unmountReversed tree (magiskTargets infos)

/-- The root managers, each with its function. -/
inductive Manager where
  | ksu
  | apatch
  | magisk
  deriving DecidableEq

def revertTargets (manager : Manager) (infos : List MountInfo) : List (List Byte) :=
  match manager with
  | Manager.ksu => overlayTargets KSU_OVERLAY_SOURCE infos
  | Manager.apatch => overlayTargets AP_OVERLAY_SOURCE infos
  | Manager.magisk => magiskTargets infos

def revertUnmount (manager : Manager) (tree : MountTree) (infos : List MountInfo) :
    List Mount :=
  match manager with
  | Manager.ksu => revertUnmountKsu tree infos
  | Manager.apatch => revertUnmountApatch tree infos
  | Manager.magisk => revertUnmountMagisk tree infos

/-- The function on what the kernel lists, if reading it throws nothing. -/
def revertUnmountSelf (manager : Manager) (tree : MountTree) (uninit : Nat -> Nat) :
    Option (List Mount) :=
  (parseMountInfo uninit (mountinfo tree.mounts)).map (revertUnmount manager tree)

/-!
# Selected mounts
-/

/-- The criteria of the manager's function; the last of KernelSU's and APatch's
depends on the table. -/
def criteria (manager : Manager) (infos : List MountInfo) : List (MountInfo -> Bool) :=
  match manager with
  | Manager.ksu =>
      [inDataAdb, isOverlay KSU_OVERLAY_SOURCE, isTempDir KSU_OVERLAY_SOURCE,
        isFromLoop (loopSource infos)]
  | Manager.apatch =>
      [inDataAdb, isOverlay AP_OVERLAY_SOURCE, isTempDir AP_OVERLAY_SOURCE,
        isFromLoop (loopSource infos)]
  | Manager.magisk => [isMagisk, inDataAdb]

/-- The number of criteria that an entry meets. -/
def met (manager : Manager) (infos : List MountInfo) (info : MountInfo) : Nat :=
  (criteria manager infos).countP (fun criterion => criterion info)

/-- A mount as an entry of the table, with its own fields. -/
def info (m : Mount) : MountInfo :=
  { entry m with
    root := m.root
    target := m.target
    type := m.fsType
    source := m.source }

def infos (tree : MountTree) : List MountInfo :=
  tree.mounts.map info

def metBy (manager : Manager) (tree : MountTree) (m : Mount) : Nat :=
  met manager (infos tree) (info m)

def Selected (manager : Manager) (tree : MountTree) (m : Mount) : Prop :=
  0 < metBy manager tree m

instance (manager : Manager) (tree : MountTree) (m : Mount) :
    Decidable (Selected manager tree m) :=
  inferInstanceAs (Decidable (_ < _))

/-- At each path, the selected mounts lie on top of the others. -/
def SelectedAbove (manager : Manager) (tree : MountTree) : Prop :=
  forall s u, s ∈ tree.mounts -> u ∈ tree.mounts -> s.target = u.target ->
    Selected manager tree s -> ¬ Selected manager tree u -> tree.Beneath s u

instance (manager : Manager) (tree : MountTree) :
    Decidable (SelectedAbove manager tree) :=
  decidable_of_iff
    (forall s, s ∈ tree.mounts -> forall u, u ∈ tree.mounts -> s.target = u.target ->
      Selected manager tree s -> ¬ Selected manager tree u -> tree.Beneath s u)
    ⟨fun h s u hs hu => h s hs u hu, fun h s hs u hu => h s u hs hu⟩

/-- The calls at a path that its entries cause. -/
def callsAt (manager : Manager) (tree : MountTree) (path : List Byte) : Nat :=
  ((tree.mounts.filter (fun m => m.target = path)).map (metBy manager tree)).sum

theorem revertUnmount_eq (manager : Manager) (tree : MountTree) (infos : List MountInfo) :
    revertUnmount manager tree infos =
      unmountReversed tree (revertTargets manager infos) := by
  cases manager with
  | ksu => rfl
  | apatch => rfl
  | magisk => rfl

/-!
# Counting the calls
-/

section Calls

variable {path : List Byte} {tree : MountTree} {manager : Manager} {m : Mount}

theorem count_pick (criterion : MountInfo -> Bool) (i : MountInfo) (path : List Byte) :
    (pick criterion i).count path =
      if i.target = path then (if criterion i then 1 else 0) else 0 := by
  unfold pick
  cases criterion i with
  | false => simp
  | true => simp [List.count_singleton]

/-- The calls of a pass that picks targets of the entries. -/
theorem count_pass {pass : MountInfo -> List (List Byte)} {calls : MountInfo -> Nat}
    (hpass : forall i, (pass i).count path = if i.target = path then calls i else 0)
    (mounts : List Mount) :
    ((mounts.map info).flatMap pass).count path =
      ((mounts.filter (fun m => m.target = path)).map (fun m => calls (info m))).sum := by
  induction mounts with
  | nil => rfl
  | cons m rest ih =>
      have htarget : (info m).target = m.target := rfl
      rw [List.map_cons, List.flatMap_cons, List.count_append, ih, hpass, htarget,
        List.filter_cons]
      by_cases heq : m.target = path
      · simp only [heq, decide_true, if_true, List.map_cons, List.sum_cons]
      · simp only [heq, decide_false, if_false, Bool.false_eq_true, Nat.zero_add]

theorem count_firstPass {overlaySource : List Byte} (hpath : path ≠ MODULE_DIR)
    (i : MountInfo) :
    (firstPass overlaySource i).count path =
      if i.target = path then
        [inDataAdb, isOverlay overlaySource, isTempDir overlaySource].countP
          (fun criterion => criterion i)
      else 0 := by
  unfold firstPass
  by_cases heq : i.target = path
  · have hother : i.target ≠ MODULE_DIR := by
      rw [heq]
      exact hpath
    rw [if_neg hother, List.count_append, List.count_append, count_pick, count_pick,
      count_pick]
    simp only [if_pos heq, List.countP_cons, List.countP_nil]
    omega
  · rw [if_neg heq]
    split
    · exact List.count_nil
    · rw [List.count_append, List.count_append, count_pick, count_pick, count_pick]
      simp only [if_neg heq]

theorem count_secondPass {loop : List Byte} (hpath : path ≠ MODULE_DIR) (i : MountInfo) :
    (secondPass loop i).count path =
      if i.target = path then (if isFromLoop loop i then 1 else 0) else 0 := by
  unfold secondPass
  by_cases heq : i.target = MODULE_DIR
  · have hother : i.target ≠ path := by
      rw [heq]
      exact hpath.symm
    rw [if_pos heq, if_neg hother, List.count_nil]
  · rw [if_neg heq, count_pick]

theorem count_overlayTargets {overlaySource : List Byte} (hpath : path ≠ MODULE_DIR) :
    (overlayTargets overlaySource (infos tree)).count path =
      ((tree.mounts.filter (fun m => m.target = path)).map (fun m =>
        [inDataAdb, isOverlay overlaySource, isTempDir overlaySource,
          isFromLoop (loopSource (infos tree))].countP
            (fun criterion => criterion (info m)))).sum := by
  unfold overlayTargets
  rw [List.count_cons_of_ne hpath.symm, List.count_append, infos,
    count_pass (count_firstPass hpath), count_pass (count_secondPass hpath),
    ← List.sum_map_add]
  congr 1
  apply List.map_congr_left
  intro m _
  simp only [List.countP_cons, List.countP_nil]
  omega

/-- Other paths than the module directory are called as often as entries there
meet criteria. -/
theorem count_revertTargets (hpath : path ≠ MODULE_DIR ∨ manager = Manager.magisk) :
    (revertTargets manager (infos tree)).count path = callsAt manager tree path := by
  cases manager with
  | ksu => exact count_overlayTargets (hpath.resolve_right (fun hno => by cases hno))
  | apatch => exact count_overlayTargets (hpath.resolve_right (fun hno => by cases hno))
  | magisk =>
      apply count_pass
      intro i
      rw [List.count_append, count_pick, count_pick]
      by_cases heq : i.target = path
      · simp only [if_pos heq, met, criteria, List.countP_cons, List.countP_nil]
        omega
      · simp only [if_neg heq]

/-- Each element that counts adds one at least. -/
theorem countP_le_sum {α : Type} (f : α -> Nat) (l : List α) :
    l.countP (fun a => 0 < f a) ≤ (l.map f).sum := by
  induction l with
  | nil => exact Nat.le_refl 0
  | cons a rest ih =>
      rw [List.countP_cons, List.map_cons, List.sum_cons]
      split
      · rename_i hpos
        have := of_decide_eq_true hpos
        omega
      · omega

theorem countP_lt_sum_iff {α : Type} (f : α -> Nat) (l : List α) :
    l.countP (fun a => 0 < f a) < (l.map f).sum <-> exists a, a ∈ l ∧ 2 ≤ f a := by
  induction l with
  | nil => simp
  | cons a rest ih =>
      have hle := countP_le_sum f rest
      rw [List.countP_cons, List.map_cons, List.sum_cons]
      simp only [List.exists_mem_cons_iff, ← ih, decide_eq_true_eq]
      split
      · omega
      · omega

theorem exists_pos_of_sum {α : Type} {f : α -> Nat} {l : List α}
    (h : 0 < (l.map f).sum) : exists a, a ∈ l ∧ 0 < f a := by
  by_contra hno
  have hzero : (l.map f).sum = 0 := by
    apply List.sum_eq_zero
    intro n hn
    rcases List.mem_map.mp hn with ⟨a, ha, heq⟩
    rw [← heq]
    exact Nat.eq_zero_of_not_pos (fun hpos => hno ⟨a, ha, hpos⟩)
  omega

def selectedAt (manager : Manager) (tree : MountTree) (path : List Byte) : Finset Mount :=
  ((tree.mounts.filter (fun m => m.target = path)).filter
    (fun m => 0 < metBy manager tree m)).toFinset

theorem mem_selectedAt :
    m ∈ selectedAt manager tree path <->
      m ∈ tree.mounts ∧ m.target = path ∧ Selected manager tree m := by
  simp only [selectedAt, List.mem_toFinset, List.mem_filter, decide_eq_true_eq, and_assoc]
  rfl

theorem card_selectedAt (manager : Manager) (tree : MountTree) (path : List Byte) :
    (selectedAt manager tree path).card =
      (tree.mounts.filter (fun m => m.target = path)).countP
        (fun m => 0 < metBy manager tree m) := by
  have hnodup : tree.mounts.Nodup := List.Nodup.of_map _ tree.distinct
  rw [selectedAt, List.toFinset_card_of_nodup ((hnodup.filter _).filter _),
    List.countP_eq_length_filter]

theorem card_selectedAt_le (manager : Manager) (tree : MountTree) (path : List Byte) :
    (selectedAt manager tree path).card ≤ callsAt manager tree path := by
  rw [card_selectedAt]
  exact countP_le_sum _ _

/-- There are more calls at a path than selected mounts if one of them meets two
criteria. -/
theorem card_selectedAt_lt_iff :
    (selectedAt manager tree path).card < callsAt manager tree path <->
      exists m, m ∈ tree.mounts ∧ m.target = path ∧ 2 ≤ metBy manager tree m := by
  rw [card_selectedAt, callsAt, countP_lt_sum_iff]
  simp only [List.mem_filter, decide_eq_true_eq, and_assoc]

theorem exists_selected_of_callsAt (h : 0 < callsAt manager tree path) :
    exists s, s ∈ tree.mounts ∧ s.target = path ∧ Selected manager tree s := by
  rcases exists_pos_of_sum h with ⟨s, hs, hpos⟩
  rcases List.mem_filter.mp hs with ⟨hs, hpath⟩
  exact ⟨s, hs, of_decide_eq_true hpath, hpos⟩

/-- Whatever lies in `/data/adb` is selected, the module directory with it. -/
theorem selected_of_dataAdb (hdata : bytesOf "/data/adb" <+: m.target) :
    Selected manager tree m := by
  have hcriterion : inDataAdb (info m) = true := List.isPrefixOf_iff_prefix.mpr hdata
  unfold Selected metBy met
  rw [List.countP_pos_iff]
  refine ⟨inDataAdb, ?_, hcriterion⟩
  cases manager with
  | ksu => exact List.mem_cons_self
  | apatch => exact List.mem_cons_self
  | magisk => exact List.mem_cons_of_mem _ List.mem_cons_self

theorem selected_of_moduleDir (h : MODULE_DIR <+: m.target) : Selected manager tree m :=
  selected_of_dataAdb (List.IsPrefix.trans (by decide) h)

theorem selected_at_moduleDir (h : m.target = MODULE_DIR) : Selected manager tree m := by
  apply selected_of_moduleDir
  rw [h]

end Calls

/-!
# What goes

The calls are taken as those of a forest.  A list of calls is ordinary for a path
if it has those that the entries there cause.
-/

section Goes

variable {manager : Manager} {tree : MountTree} {calls : List (List Byte)}
  {left : Finset Mount} {x y z s u : Mount}

/-- What can go before a selected mount is selected. -/
theorem card_before_selected (habove : SelectedAbove manager tree)
    (hy : y ∈ tree.mounts) (hselected : Selected manager tree y) :
    (tree.forest.before tree.mounts.toFinset y).card <
      (selectedAt manager tree y.target).card := by
  have hmem : y ∈ selectedAt manager tree y.target :=
    mem_selectedAt.mpr ⟨hy, rfl, hselected⟩
  apply Finset.card_lt_card
  refine ⟨?_, ?_⟩
  · intro z hz
    rcases Forest.mem_before.mp hz with ⟨hz, hpath, _, hfree⟩
    rw [List.mem_toFinset] at hz
    refine mem_selectedAt.mpr ⟨hz, hpath, ?_⟩
    by_contra hno
    exact hfree (habove y z hy hz hpath.symm hselected hno)
  · intro hsub
    exact (Forest.mem_before.mp (hsub hmem)).right.right.left rfl

/-- A selected mount goes if its path gets the calls of its entries. -/
theorem selected_goes (habove : SelectedAbove manager tree)
    (hrun : tree.forest.Detaches calls tree.mounts.toFinset left)
    (hcalls : calls.count y.target = callsAt manager tree y.target)
    (hy : y ∈ tree.mounts) (hselected : Selected manager tree y) : y ∉ left := by
  apply hrun.not_mem
  change _ < calls.count y.target
  rw [hcalls]
  exact Nat.lt_of_lt_of_le (card_before_selected habove hy hselected)
    (card_selectedAt_le manager tree y.target)

/-- At a path with a selected mount, all that can go before one that is not
selected lies on top of it. -/
theorem covers_of_selected (habove : SelectedAbove manager tree) (hs : s ∈ tree.mounts)
    (hpath : s.target = u.target) (hselected : Selected manager tree s)
    (hu : u ∈ tree.mounts) (hnot : ¬ Selected manager tree u) :
    tree.forest.Covers tree.mounts.toFinset u := by
  intro z hz
  rcases Forest.mem_before.mp hz with ⟨hz, hzpath, hne, hfree⟩
  rw [List.mem_toFinset] at hz
  by_cases hzselected : Selected manager tree z
  · exact habove z u hz hu hzpath hzselected hnot
  · have hsu := habove s u hs hu hpath hselected hnot
    have hsz := habove s z hs hz (hpath.trans hzpath.symm) hselected hzselected
    rcases tree.forest.comparable hsu hsz with heq | hdown | hup
    · exact absurd heq.symm hne
    · exact absurd hdown hfree
    · exact hup

/-- Selected mounts can go before one that is not. -/
theorem selectedAt_subset_before (habove : SelectedAbove manager tree)
    (hu : u ∈ tree.mounts) (hnot : ¬ Selected manager tree u) :
    selectedAt manager tree u.target ⊆ tree.forest.before tree.mounts.toFinset u := by
  intro s hs
  rcases mem_selectedAt.mp hs with ⟨hs, hpath, hselected⟩
  have hsu := habove s u hs hu hpath hselected hnot
  refine Forest.mem_before.mpr ⟨List.mem_toFinset.mpr hs, hpath, ?_, ?_⟩
  · intro heq
    rw [heq] at hselected
    exact hnot hselected
  · intro hus
    exact tree.forest.irrefl s (tree.forest.trans hsu hus)

/-- A mount that goes is, or is mounted beneath, one with fewer mounts over it
than its path has calls. -/
theorem exists_reached (habove : SelectedAbove manager tree)
    (hrun : tree.forest.Detaches calls tree.mounts.toFinset left)
    (hx : x ∈ tree.mounts) (hgone : x ∉ left) :
    exists r, r ∈ tree.mounts ∧ r ∉ left ∧ (x = r ∨ tree.Beneath x r) ∧
      r.target ∈ calls ∧
      (calls.count r.target = callsAt manager tree r.target ->
        (tree.forest.before tree.mounts.toFinset r).card <
          callsAt manager tree r.target) := by
  rcases hrun.exists_root (List.mem_toFinset.mpr hx) hgone with
    ⟨r, hr, hrgone, hxr, hcall, hcovers⟩
  rw [List.mem_toFinset] at hr
  refine ⟨r, hr, hrgone, hxr, hcall, ?_⟩
  intro hcount
  by_cases hselected : Selected manager tree r
  · exact Nat.lt_of_lt_of_le (card_before_selected habove hr hselected)
      (card_selectedAt_le manager tree r.target)
  · have hpos : 0 < callsAt manager tree r.target := by
      rw [← hcount]
      exact List.count_pos_iff.mpr hcall
    rcases exists_selected_of_callsAt hpos with ⟨s, hs, hpath, hsel⟩
    rw [← hcount]
    exact hcovers (covers_of_selected habove hs hpath hsel hr hselected)

end Goes

/-!
# Mounts that must stay
-/

/-- A mount that goes is selected, or is mounted beneath one that goes. -/
def OnlySelectedGo (manager : Manager) (tree : MountTree) (left : List Mount) : Prop :=
  forall x, x ∈ tree.mounts -> x ∉ left ->
    Selected manager tree x ∨
      exists y, y ∈ tree.mounts ∧ y ∉ left ∧ tree.Beneath x y

instance (manager : Manager) (tree : MountTree) (left : List Mount) :
    Decidable (OnlySelectedGo manager tree left) :=
  inferInstanceAs (Decidable (forall x, x ∈ tree.mounts -> x ∉ left ->
    Selected manager tree x ∨
      exists y, y ∈ tree.mounts ∧ y ∉ left ∧ tree.Beneath x y))

/-- A mount that meets two criteria lies over others only where these are mounted
beneath a selected mount. -/
def NoSurplus (manager : Manager) (tree : MountTree) : Prop :=
  forall m u, m ∈ tree.mounts -> u ∈ tree.mounts -> m.target = u.target ->
    2 ≤ metBy manager tree m -> ¬ Selected manager tree u ->
    exists z, tree.Beneath u z ∧ Selected manager tree z

section Stay

variable {manager : Manager} {tree : MountTree} {left : List Mount} {x u : Mount}

theorem revertUnmount_detaches (manager : Manager) (tree : MountTree)
    (infos : List MountInfo) :
    tree.forest.Detaches (revertTargets manager infos).reverse tree.mounts.toFinset
      (revertUnmount manager tree infos).toFinset := by
  rw [revertUnmount_eq]
  exact MountTree.umountAll_detaches tree _ _

theorem count_reverse_revertTargets (manager : Manager) (tree : MountTree)
    {path : List Byte} (hpath : path ≠ MODULE_DIR) :
    (revertTargets manager (infos tree)).reverse.count path =
      callsAt manager tree path := by
  rw [List.count_reverse]
  exact count_revertTargets (Or.inl hpath)

theorem moduleDir_ne_of_not_selected (h : ¬ Selected manager tree u) :
    u.target ≠ MODULE_DIR :=
  fun heq => h (selected_at_moduleDir heq)

/-- A selected mount over one that is not selected is not at the module
directory. -/
theorem moduleDir_ne_of_beneath {z : Mount} (hbeneath : tree.Beneath u z)
    (h : ¬ Selected manager tree u) : z.target ≠ MODULE_DIR := by
  intro heq
  have hwithin := (MountTree.way_mem hbeneath.left hbeneath.right).right.right.left
  rw [heq] at hwithin
  exact h (selected_of_moduleDir hwithin)

/-- If only selected mounts go, every mount that goes is, or is mounted beneath,
a selected one that goes. -/
theorem exists_selected_root (h : OnlySelectedGo manager tree left)
    (hx : x ∈ tree.mounts) (hgone : x ∉ left) :
    exists r, r ∈ tree.mounts ∧ r ∉ left ∧ Selected manager tree r ∧
      (x = r ∨ tree.Beneath x r) := by
  induction hway : (tree.way x).length using Nat.strongRecOn generalizing x with
  | ind n ih =>
      rcases h x hx hgone with hselected | ⟨y, hy, hygone, hxy⟩
      · exact ⟨x, hx, hgone, hselected, Or.inl rfl⟩
      · have hless := (MountTree.way_mem hxy.left hxy.right).right.left
        rw [hway] at hless
        rcases ih _ hless hy hygone rfl with ⟨r, hr, hrgone, hselected, hyr⟩
        refine ⟨r, hr, hrgone, hselected, Or.inr ?_⟩
        rcases hyr with heq | hyr
        · rw [← heq]
          exact hxy
        · exact tree.forest.trans hxy hyr

theorem onlySelectedGo_of_noSurplus (habove : SelectedAbove manager tree)
    (h : NoSurplus manager tree) :
    OnlySelectedGo manager tree (revertUnmount manager tree (infos tree)) := by
  have hrun := revertUnmount_detaches manager tree (infos tree)
  intro x hx hgone
  by_contra hno
  rw [not_or] at hno
  rcases hno with ⟨hnot, hnone⟩
  rcases exists_reached habove hrun hx (fun hmem => hgone (List.mem_toFinset.mp hmem)) with
    ⟨r, hr, hrgone, hxr, hcall, hreached⟩
  -- `x` itself was called, since nothing that it is mounted beneath goes.
  have hself : x = r := by
    rcases hxr with heq | hbeneath
    · exact heq
    · exact absurd ⟨r, hr, fun hmem => hrgone (List.mem_toFinset.mpr hmem), hbeneath⟩ hnone
  rw [← hself] at hcall hreached
  have hcount := count_reverse_revertTargets manager tree
    (moduleDir_ne_of_not_selected hnot)
  have hfewer := Nat.lt_of_le_of_lt
    (Finset.card_le_card (selectedAt_subset_before habove hx hnot)) (hreached hcount)
  rcases card_selectedAt_lt_iff.mp hfewer with ⟨m, hm, hpath, htwo⟩
  rcases h m x hm hx hpath htwo hnot with ⟨z, hbeneath, hselected⟩
  have hz := (MountTree.way_mem hbeneath.left hbeneath.right).left
  have hzgone := selected_goes habove hrun
    (count_reverse_revertTargets manager tree (moduleDir_ne_of_beneath hbeneath hnot))
    hz hselected
  exact hnone ⟨z, hz, fun hmem => hzgone (List.mem_toFinset.mpr hmem), hbeneath⟩

/-- The topmost of the mounts at a path that are not selected. -/
theorem exists_topmost_not_selected (habove : SelectedAbove manager tree) {m : Mount}
    (hm : m ∈ tree.mounts) (hselected : Selected manager tree m) (hu : u ∈ tree.mounts)
    (hpath : m.target = u.target) (hnot : ¬ Selected manager tree u) :
    exists t, t ∈ tree.mounts ∧ t.target = u.target ∧ ¬ Selected manager tree t ∧
      (u = t ∨ tree.Beneath t u) ∧
      tree.forest.before tree.mounts.toFinset t ⊆ selectedAt manager tree u.target := by
  let others := tree.mounts.filter
    (fun t => t.target = u.target ∧ ¬ Selected manager tree t)
  have hmem : forall t, t ∈ others <->
      t ∈ tree.mounts ∧ t.target = u.target ∧ ¬ Selected manager tree t := by
    intro t
    simp only [others, List.mem_filter, decide_eq_true_eq]
  rcases tree.exists_uncovered ((hmem u).mpr ⟨hu, rfl, hnot⟩) rfl with
    ⟨t, ht, _, htop⟩
  rcases (hmem t).mp ht with ⟨ht, htpath, htnot⟩
  have hcovers := covers_of_selected habove hm (hpath.trans htpath.symm) hselected ht htnot
  refine ⟨t, ht, htpath, htnot, ?_, ?_⟩
  · rcases tree.forest.comparable (habove m u hm hu hpath hselected hnot)
      (habove m t hm ht (hpath.trans htpath.symm) hselected htnot) with heq | hut | htu
    · exact Or.inl heq
    · exact absurd hut (htop u ((hmem u).mpr ⟨hu, rfl, hnot⟩) rfl)
    · exact Or.inr htu
  · intro z hz
    have hzt := hcovers z hz
    rcases Forest.mem_before.mp hz with ⟨hz, hzpath, _⟩
    rw [List.mem_toFinset] at hz
    have hzpath' : z.target = u.target := hzpath.trans htpath
    refine mem_selectedAt.mpr ⟨hz, hzpath', ?_⟩
    by_contra hznot
    exact htop z ((hmem z).mpr ⟨hz, hzpath', hznot⟩) hzpath' hzt

theorem noSurplus_of_onlySelectedGo (habove : SelectedAbove manager tree)
    (h : OnlySelectedGo manager tree (revertUnmount manager tree (infos tree))) :
    NoSurplus manager tree := by
  have hrun := revertUnmount_detaches manager tree (infos tree)
  intro m u hm hu hpath htwo hnot
  have hselected : Selected manager tree m := Nat.lt_of_lt_of_le Nat.zero_lt_two htwo
  rcases exists_topmost_not_selected habove hm hselected hu hpath hnot with
    ⟨t, ht, htpath, htnot, hut, hbefore⟩
  -- The surplus call takes the topmost unselected mount.
  have hgone : t ∉ (revertUnmount manager tree (infos tree)).toFinset := by
    apply hrun.not_mem
    change _ < (revertTargets manager (infos tree)).reverse.count t.target
    rw [count_reverse_revertTargets manager tree (moduleDir_ne_of_not_selected htnot), htpath]
    exact Nat.lt_of_le_of_lt (Finset.card_le_card hbefore)
      (card_selectedAt_lt_iff.mpr ⟨m, hm, hpath, htwo⟩)
  rcases exists_selected_root h ht (fun hmem => hgone (List.mem_toFinset.mpr hmem)) with
    ⟨r, hr, _, hrselected, htr⟩
  rcases htr with heq | htr
  · rw [← heq] at hrselected
    exact absurd hrselected htnot
  · rcases hut with heq | htu
    · rw [heq]
      exact ⟨r, htr, hrselected⟩
    · rcases tree.forest.comparable htu htr with heq | hur | hru
      · rw [← heq] at hrselected
        exact absurd hrselected hnot
      · exact ⟨r, hur, hrselected⟩
      · -- then `r` is at this path too, and on top of what it is mounted beneath
        have hrpath := tree.forest.convex htr hru htpath
        have hrt := habove r t hr ht (Eq.trans hrpath htpath.symm) hrselected htnot
        exact absurd (tree.forest.trans htr hrt) (tree.forest.irrefl t)

/-- No other mount goes exactly if no mount that meets two criteria lies over
one that is to stay. -/
theorem onlySelectedGo_iff (manager : Manager) (tree : MountTree)
    (habove : SelectedAbove manager tree) :
    OnlySelectedGo manager tree (revertUnmount manager tree (infos tree)) <->
      NoSurplus manager tree :=
  ⟨noSurplus_of_onlySelectedGo habove, onlySelectedGo_of_noSurplus habove⟩

/-- Outside of `/data/adb`, only the overlay's own name as the source of the
module directory lets an entry meet two criteria. -/
theorem countP_overlay_le_one {overlaySource loop : List Byte} {i : MountInfo}
    (hdata : inDataAdb i = false) (hloop : loop ≠ overlaySource) :
    [inDataAdb, isOverlay overlaySource, isTempDir overlaySource, isFromLoop loop].countP
      (fun criterion => criterion i) ≤ 1 := by
  by_cases hsource : i.source = overlaySource
  · have hfrom : isFromLoop loop i = false :=
      beq_eq_false_iff_ne.mpr (fun heq => hloop (heq.symm.trans hsource))
    by_cases htype : i.type = bytesOf "tmpfs"
    · have hoverlay : isOverlay overlaySource i = false := by
        have hother : (bytesOf "tmpfs" == bytesOf "overlay") = false := by decide
        rw [isOverlay, htype, hother, Bool.false_and, Bool.false_and]
      simp only [List.countP_cons, List.countP_nil, hdata, hfrom, hoverlay,
        Bool.false_eq_true, if_false]
      split <;> decide
    · have htemp : isTempDir overlaySource i = false := by
        rw [isTempDir, beq_eq_false_iff_ne.mpr htype, Bool.false_and]
      simp only [List.countP_cons, List.countP_nil, hdata, hfrom, htemp,
        Bool.false_eq_true, if_false]
      split <;> decide
  · have hoverlay : isOverlay overlaySource i = false := by
      rw [isOverlay, beq_eq_false_iff_ne.mpr hsource, Bool.and_false, Bool.false_and]
    have htemp : isTempDir overlaySource i = false := by
      rw [isTempDir, beq_eq_false_iff_ne.mpr hsource, Bool.and_false]
    simp only [List.countP_cons, List.countP_nil, hdata, hoverlay, htemp,
      Bool.false_eq_true, if_false]
    split <;> decide

/-- No entry causes a surplus call at a path with a mount that is to stay unless
the source of the module directory is the name that the manager gives its
overlays. -/
theorem noSurplus_of_loopSource
    (hksu : manager = Manager.ksu -> loopSource (infos tree) ≠ KSU_OVERLAY_SOURCE)
    (hapatch : manager = Manager.apatch -> loopSource (infos tree) ≠ AP_OVERLAY_SOURCE) :
    NoSurplus manager tree := by
  intro m u _ _ hpath htwo hnot
  have hdata : inDataAdb (info m) = false := by
    rw [Bool.eq_false_iff]
    intro hdata
    have hdata' : bytesOf "/data/adb" <+: m.target := List.isPrefixOf_iff_prefix.mp hdata
    rw [hpath] at hdata'
    exact hnot (selected_of_dataAdb hdata')
  have hone : metBy manager tree m ≤ 1 := by
    cases manager with
    | ksu => exact countP_overlay_le_one hdata (hksu rfl)
    | apatch => exact countP_overlay_le_one hdata (hapatch rfl)
    | magisk =>
        simp only [metBy, met, criteria, List.countP_cons, List.countP_nil, hdata,
          Bool.false_eq_true, if_false]
        split <;> decide
  exact absurd htwo (Nat.not_le.mpr (Nat.lt_succ_of_le hone))

end Stay

/-- A mount with the usual options. -/
def plainMount (id parent : Nat) (target fsType source : String) : Mount :=
  { id := id, parent := parent, major := 0, minor := id, root := bytesOf "/",
    target := bytesOf target, vfsOptions := bytesOf "rw", optional := [],
    fsType := bytesOf fsType, source := bytesOf source, fsOptions := bytesOf "rw" }

/-- KernelSU with its module directory on a loop device, and an overlay on the
system partition. -/
def ksuTree : MountTree where
  mounts :=
    [plainMount 1 1 "/" "ext4" "/dev/root",
      plainMount 2 1 "/data/adb/modules" "ext4" "/dev/block/loop7",
      plainMount 3 1 "/system" "ext4" "/dev/block/dm-1",
      plainMount 4 3 "/system" "overlay" "KSU"]
  distinct := by decide
  rooted := by decide
  within := within_of_mounts (by decide)

/-- The system partition stays. -/
theorem onlySelectedGo_ksuTree :
    SelectedAbove Manager.ksu ksuTree ∧
      OnlySelectedGo Manager.ksu ksuTree
        (revertUnmount Manager.ksu ksuTree (infos ksuTree)) := by
  have habove : SelectedAbove Manager.ksu ksuTree := by decide +kernel
  refine ⟨habove, (onlySelectedGo_iff Manager.ksu ksuTree habove).mpr ?_⟩
  apply noSurplus_of_loopSource
  · intro _
    decide
  · intro hno
    cases hno

/-- The same with a module directory whose source is `KSU`. -/
def surplusTree : MountTree where
  mounts :=
    [plainMount 1 1 "/" "ext4" "/dev/root",
      plainMount 2 1 "/data/adb/modules" "tmpfs" "KSU",
      plainMount 3 1 "/system" "ext4" "/dev/block/dm-1",
      plainMount 4 3 "/system" "overlay" "KSU"]
  distinct := by decide
  rooted := by decide
  within := within_of_mounts (by decide)

/-- The overlay is found in both passes, and the second call takes the system
partition away. -/
theorem not_onlySelectedGo_surplusTree :
    SelectedAbove Manager.ksu surplusTree ∧
      ¬ OnlySelectedGo Manager.ksu surplusTree
        (revertUnmount Manager.ksu surplusTree (infos surplusTree)) := by
  decide +kernel

/-!
# Mounts that must go
-/

/-- The mounts at its path that can go before a mount. -/
def covering (tree : MountTree) (y : Mount) : List Mount :=
  tree.mounts.filter (fun z => z.target = y.target ∧ z ≠ y ∧ ¬ tree.Beneath y z)

/-- Its path has more calls than there are mounts that can go before it. -/
def Reached (manager : Manager) (tree : MountTree) (y : Mount) : Prop :=
  (covering tree y).length < callsAt manager tree y.target

def GoesWithOther (manager : Manager) (tree : MountTree) (y : Mount) : Prop :=
  exists z, tree.Beneath y z ∧ z.target ≠ MODULE_DIR ∧ Reached manager tree z

/-- For KernelSU and APatch, at most one of the mounts at the module directory
does not go with a mount at another path. -/
def OneModuleDir (manager : Manager) (tree : MountTree) : Prop :=
  manager = Manager.magisk ∨
    forall y y', y ∈ tree.mounts -> y' ∈ tree.mounts -> y.target = MODULE_DIR ->
      y'.target = MODULE_DIR -> ¬ GoesWithOther manager tree y ->
      ¬ GoesWithOther manager tree y' -> y = y'

def NoneLeft (manager : Manager) (tree : MountTree) (left : List Mount) : Prop :=
  forall x, x ∈ left -> ¬ Selected manager tree x

section Go

variable {manager : Manager} {tree : MountTree} {left : List Mount} {x y z : Mount}

theorem card_before_eq (tree : MountTree) (y : Mount) :
    (tree.forest.before tree.mounts.toFinset y).card = (covering tree y).length := by
  have hnodup : (covering tree y).Nodup := (List.Nodup.of_map _ tree.distinct).filter _
  rw [← List.toFinset_card_of_nodup hnodup]
  congr 1
  apply Finset.ext
  intro z
  rw [Forest.mem_before, List.mem_toFinset, List.mem_toFinset, covering, List.mem_filter,
    decide_eq_true_iff]
  rfl

theorem eq_target_of_mem_pick {criterion : MountInfo -> Bool} {i : MountInfo}
    {path : List Byte} (h : path ∈ pick criterion i) : path = i.target := by
  unfold pick at h
  split at h
  · exact List.mem_singleton.mp h
  · cases h

theorem moduleDir_notMem_firstPass (overlaySource : List Byte) (i : MountInfo) :
    MODULE_DIR ∉ firstPass overlaySource i := by
  intro hno
  unfold firstPass at hno
  by_cases heq : i.target = MODULE_DIR
  · rw [if_pos heq] at hno
    cases hno
  · rw [if_neg heq, List.mem_append, List.mem_append] at hno
    rcases hno with hno | hno | hno
    · exact heq (eq_target_of_mem_pick hno).symm
    · exact heq (eq_target_of_mem_pick hno).symm
    · exact heq (eq_target_of_mem_pick hno).symm

theorem moduleDir_notMem_secondPass (loop : List Byte) (i : MountInfo) :
    MODULE_DIR ∉ secondPass loop i := by
  intro hno
  unfold secondPass at hno
  by_cases heq : i.target = MODULE_DIR
  · rw [if_pos heq] at hno
    cases hno
  · rw [if_neg heq] at hno
    exact heq (eq_target_of_mem_pick hno).symm

/-- The targets of KernelSU and APatch: the module directory, which is called
last, and other paths. -/
theorem revertTargets_eq (hmanager : manager ≠ Manager.magisk) (infos : List MountInfo) :
    exists rest, revertTargets manager infos = MODULE_DIR :: rest ∧
      MODULE_DIR ∉ rest := by
  have hpasses : forall overlaySource,
      MODULE_DIR ∉ infos.flatMap (firstPass overlaySource) ++
        infos.flatMap (secondPass (loopSource infos)) := by
    intro overlaySource hno
    rcases List.mem_append.mp hno with hno | hno
    · rcases List.mem_flatMap.mp hno with ⟨i, _, hi⟩
      exact moduleDir_notMem_firstPass _ i hi
    · rcases List.mem_flatMap.mp hno with ⟨i, _, hi⟩
      exact moduleDir_notMem_secondPass _ i hi
  cases manager with
  | ksu => exact ⟨_, rfl, hpasses _⟩
  | apatch => exact ⟨_, rfl, hpasses _⟩
  | magisk => exact absurd rfl hmanager

/-- Before the call at the module directory, a mount there is gone exactly if it
went with a mount at another path. -/
theorem mem_before_moduleDir_iff (habove : SelectedAbove manager tree)
    {rest : List (List Byte)}
    (htargets : revertTargets manager (infos tree) = MODULE_DIR :: rest)
    (hrest : MODULE_DIR ∉ rest) (hy : y ∈ tree.mounts) (hpath : y.target = MODULE_DIR) :
    y ∈ tree.umountAll rest.reverse tree.mounts <-> ¬ GoesWithOther manager tree y := by
  have hrun := MountTree.umountAll_detaches tree rest.reverse tree.mounts
  have hcount : forall path, path ≠ MODULE_DIR ->
      rest.reverse.count path = callsAt manager tree path := by
    intro path hpath
    rw [List.count_reverse, ← count_revertTargets (Or.inl hpath), htargets,
      List.count_cons_of_ne hpath.symm]
  constructor
  · intro hmem hgoes
    rcases hgoes with ⟨z, hbeneath, hzpath, hreached⟩
    have hz := (MountTree.way_mem hbeneath.left hbeneath.right).left
    have hzgone : z ∉ (tree.umountAll rest.reverse tree.mounts).toFinset := by
      apply hrun.not_mem
      change _ < rest.reverse.count z.target
      rw [hcount _ hzpath, card_before_eq]
      exact hreached
    exact hzgone (hrun.mem_of_hangs (List.mem_toFinset.mpr hmem) hbeneath
      (List.mem_toFinset.mpr hz))
  · intro hstays
    by_contra hgone
    rcases exists_reached habove hrun hy
      (fun hmem => hgone (List.mem_toFinset.mp hmem)) with
      ⟨r, _, _, hyr, hcall, hreached⟩
    have hrpath : r.target ≠ MODULE_DIR := by
      intro heq
      rw [heq] at hcall
      exact hrest (List.mem_reverse.mp hcall)
    rcases hyr with heq | hbeneath
    · rw [← heq] at hrpath
      exact hrpath hpath
    · have hfewer := hreached (hcount _ hrpath)
      rw [card_before_eq] at hfewer
      exact hstays ⟨r, hbeneath, hrpath, hfewer⟩

/-- The call at the module directory is the last one. -/
theorem exists_last_call (habove : SelectedAbove manager tree)
    (hmanager : manager ≠ Manager.magisk) :
    exists attached : List Mount,
      (forall y, y ∈ attached -> y ∈ tree.mounts) ∧
      (forall y, y ∈ tree.mounts -> y.target = MODULE_DIR ->
        (y ∈ attached <-> ¬ GoesWithOther manager tree y)) ∧
      tree.forest.Detach MODULE_DIR attached.toFinset
        (revertUnmount manager tree (infos tree)).toFinset := by
  rcases revertTargets_eq hmanager (infos tree) with ⟨rest, htargets, hrest⟩
  have hrun := MountTree.umountAll_detaches tree rest.reverse tree.mounts
  have hlast : revertUnmount manager tree (infos tree) =
      tree.umount2 MODULE_DIR (tree.umountAll rest.reverse tree.mounts) := by
    rw [revertUnmount_eq, unmountReversed, htargets, List.reverse_cons,
      MountTree.umountAll, List.foldl_append]
    rfl
  refine ⟨tree.umountAll rest.reverse tree.mounts, ?_, ?_, ?_⟩
  · intro y hy
    exact List.mem_toFinset.mp (hrun.subset (List.mem_toFinset.mpr hy))
  · intro y hy hpath
    exact mem_before_moduleDir_iff habove htargets hrest hy hpath
  · rw [hlast]
    exact MountTree.umount2_detach tree MODULE_DIR _

theorem oneModuleDir_of_noneLeft (habove : SelectedAbove manager tree)
    (hmanager : manager ≠ Manager.magisk)
    (hnone : NoneLeft manager tree (revertUnmount manager tree (infos tree))) :
    OneModuleDir manager tree := by
  rcases exists_last_call habove hmanager with ⟨attached, _, hmem, hdetach⟩
  refine Or.inr ?_
  intro y y' hy hy' hpath hpath' hstays hstays'
  have hattached := List.mem_toFinset.mpr ((hmem y hy hpath).mpr hstays)
  have hattached' := List.mem_toFinset.mpr ((hmem y' hy' hpath').mpr hstays')
  cases hdetach with
  | nothing hno _ => exact absurd hpath (hno y hattached)
  | picked t htop hleft =>
      -- One that was not picked is still there.
      have heq : forall w, w ∈ attached.toFinset -> w.target = MODULE_DIR -> w = t := by
        intro w hw hwpath
        by_contra hne
        have hw' := (hleft w).mpr ⟨hw, hne, htop.top w hw hwpath⟩
        exact hnone w (List.mem_toFinset.mp hw') (selected_at_moduleDir hwpath)
      rw [heq y hattached hpath, heq y' hattached' hpath']

theorem noneLeft_of_oneModuleDir (habove : SelectedAbove manager tree)
    (hmanager : manager ≠ Manager.magisk) (hone : OneModuleDir manager tree) :
    NoneLeft manager tree (revertUnmount manager tree (infos tree)) := by
  rcases exists_last_call habove hmanager with ⟨attached, hmounts, hmem, hdetach⟩
  intro x hx hselected
  rw [← List.mem_toFinset] at hx
  have hattached := hdetach.subset hx
  have hxmounts := hmounts x (List.mem_toFinset.mp hattached)
  by_cases hpath : x.target = MODULE_DIR
  · have hstays := (hmem x hxmounts hpath).mp (List.mem_toFinset.mp hattached)
    cases hdetach with
    | nothing hno _ => exact hno x hattached hpath
    | picked t htop hleft =>
        have ht := hmounts t (List.mem_toFinset.mp htop.mem)
        have htstays := (hmem t ht htop.at_key).mp (List.mem_toFinset.mp htop.mem)
        have heq := hone.resolve_left hmanager x t hxmounts ht hpath htop.at_key
          hstays htstays
        exact ((hleft x).mp hx).right.left heq
  · exact selected_goes habove (revertUnmount_detaches manager tree (infos tree))
      (count_reverse_revertTargets manager tree hpath) hxmounts hselected hx

/-- Magisk's function leaves no selected mount. -/
theorem noneLeft_magisk (habove : SelectedAbove Manager.magisk tree) :
    NoneLeft Manager.magisk tree (revertUnmount Manager.magisk tree (infos tree)) := by
  have hrun := revertUnmount_detaches Manager.magisk tree (infos tree)
  intro x hx hselected
  have hx' := List.mem_toFinset.mpr hx
  refine selected_goes habove hrun ?_ (List.mem_toFinset.mp (hrun.subset hx')) hselected hx'
  rw [List.count_reverse]
  exact count_revertTargets (Or.inr rfl)

theorem noneLeft_iff (habove : SelectedAbove manager tree) :
    NoneLeft manager tree (revertUnmount manager tree (infos tree)) <->
      OneModuleDir manager tree := by
  by_cases hmanager : manager = Manager.magisk
  · rw [hmanager] at habove ⊢
    exact ⟨fun _ => Or.inl rfl, fun _ => noneLeft_magisk habove⟩
  · exact ⟨oneModuleDir_of_noneLeft habove hmanager,
      noneLeft_of_oneModuleDir habove hmanager⟩

end Go

/-!
# On what the kernel lists

Without escapes in the paths, the entries that `parse_mount_info` returns meet
the criteria that the mounts meet.
-/

/-- No byte of its paths is escaped. -/
def Unescaped (m : Mount) : Prop :=
  forall b, b ∈ m.root ++ m.target -> b ∉ PATH_ESCAPED

instance (m : Mount) : Decidable (Unescaped m) :=
  decidable_of_iff ((m.root ++ m.target).all (fun b => b ∉ PATH_ESCAPED) = true) (by
    simp only [Unescaped, List.all_eq_true, decide_eq_true_eq])

section Listing

variable {manager : Manager} {tree : MountTree} {m : Mount} {text name : List Byte}

theorem target_entry (h : Unescaped m) : (entry m).target = m.target :=
  mangle_eq_self (fun b hb => h b (List.mem_append_right _ hb))

theorem root_entry (h : Unescaped m) : (entry m).root = m.root :=
  mangle_eq_self (fun b hb => h b (List.mem_append_left _ hb))

theorem mangle_beq (hname : mangle NAME_ESCAPED name = name) :
    (mangle NAME_ESCAPED text == name) = (text == name) := by
  rw [Bool.eq_iff_iff, beq_iff_eq, beq_iff_eq]
  constructor
  · intro h
    rw [← hname] at h
    exact mangle_injective (by decide) h
  · intro h
    rw [h, hname]

theorem source_entry_beq (hname : mangle NAME_ESCAPED name = name) :
    ((entry m).source == name) = ((info m).source == name) :=
  mangle_beq hname

theorem type_entry_beq (hname : mangle NAME_ESCAPED name = name) :
    ((entry m).type == name) = ((info m).type == name) :=
  mangle_beq hname

theorem loopSource_entry {mounts : List Mount}
    (h : forall m, m ∈ mounts -> Unescaped m) :
    loopSource (mounts.map entry) =
      mangle NAME_ESCAPED (loopSource (mounts.map info)) := by
  have hfold : forall (mounts : List Mount) (loop : List Byte),
      (forall m, m ∈ mounts -> Unescaped m) ->
      (mounts.map entry).foldl
          (fun loop i => if i.target = MODULE_DIR then i.source else loop)
          (mangle NAME_ESCAPED loop) =
        mangle NAME_ESCAPED ((mounts.map info).foldl
          (fun loop i => if i.target = MODULE_DIR then i.source else loop) loop) := by
    intro mounts
    induction mounts with
    | nil =>
        intro loop _
        rfl
    | cons m rest ih =>
        intro loop h
        have hrest : forall m', m' ∈ rest -> Unescaped m' :=
          fun m' hm' => h m' (List.mem_cons_of_mem m hm')
        rw [List.map_cons, List.map_cons, List.foldl_cons, List.foldl_cons,
          target_entry (h m List.mem_cons_self)]
        change (rest.map entry).foldl _ (if m.target = MODULE_DIR then _ else _) =
          mangle _ ((rest.map info).foldl _ (if m.target = MODULE_DIR then _ else _))
        by_cases heq : m.target = MODULE_DIR
        · rw [if_pos heq, if_pos heq]
          exact ih m.source hrest
        · rw [if_neg heq, if_neg heq]
          exact ih loop hrest
  exact hfold mounts [] h

theorem pick_entry (h : Unescaped m) {criterion criterion' : MountInfo -> Bool}
    (hsame : criterion (entry m) = criterion' (info m)) :
    pick criterion (entry m) = pick criterion' (info m) := by
  unfold pick
  rw [hsame, target_entry h]
  rfl

theorem inDataAdb_entry (h : Unescaped m) : inDataAdb (entry m) = inDataAdb (info m) := by
  unfold inDataAdb
  rw [target_entry h]
  rfl

theorem firstPass_entry {overlaySource : List Byte} (h : Unescaped m)
    (hname : mangle NAME_ESCAPED overlaySource = overlaySource) :
    firstPass overlaySource (entry m) = firstPass overlaySource (info m) := by
  have hoverlay : isOverlay overlaySource (entry m) = isOverlay overlaySource (info m) := by
    unfold isOverlay
    rw [type_entry_beq (by decide), source_entry_beq hname, target_entry h]
    rfl
  have htemp : isTempDir overlaySource (entry m) = isTempDir overlaySource (info m) := by
    unfold isTempDir
    rw [type_entry_beq (by decide), source_entry_beq hname]
  unfold firstPass
  rw [pick_entry h (inDataAdb_entry h), pick_entry h hoverlay, pick_entry h htemp,
    target_entry h]
  rfl

theorem secondPass_entry (h : Unescaped m) (loop : List Byte) :
    secondPass (mangle NAME_ESCAPED loop) (entry m) = secondPass loop (info m) := by
  have hloop : isFromLoop (mangle NAME_ESCAPED loop) (entry m) =
      isFromLoop loop (info m) := by
    unfold isFromLoop
    rw [Bool.eq_iff_iff, beq_iff_eq, beq_iff_eq]
    constructor
    · intro heq
      exact mangle_injective (by decide) heq
    · intro heq
      exact congrArg (mangle NAME_ESCAPED) heq
  unfold secondPass
  rw [pick_entry h hloop, target_entry h]
  rfl

theorem isMagisk_entry (h : Unescaped m) : isMagisk (entry m) = isMagisk (info m) := by
  unfold isMagisk
  rw [source_entry_beq (by decide), source_entry_beq (by decide), root_entry h]
  rfl

theorem overlayTargets_entry {overlaySource : List Byte}
    (hname : mangle NAME_ESCAPED overlaySource = overlaySource)
    (h : forall m, m ∈ tree.mounts -> Unescaped m) :
    overlayTargets overlaySource (tree.mounts.map entry) =
      overlayTargets overlaySource (infos tree) := by
  unfold overlayTargets infos
  rw [loopSource_entry h, List.flatMap_map, List.flatMap_map, List.flatMap_map,
    List.flatMap_map,
    List.flatMap_congr (fun m hm => firstPass_entry (h m hm) hname),
    List.flatMap_congr (fun m hm => secondPass_entry (h m hm) _)]

/-- The targets are those of the mounts. -/
theorem revertTargets_entry (manager : Manager)
    (h : forall m, m ∈ tree.mounts -> Unescaped m) :
    revertTargets manager (tree.mounts.map entry) =
      revertTargets manager (infos tree) := by
  cases manager with
  | ksu => exact overlayTargets_entry (by decide) h
  | apatch => exact overlayTargets_entry (by decide) h
  | magisk =>
      change magiskTargets _ = magiskTargets _
      unfold magiskTargets infos
      rw [List.flatMap_map, List.flatMap_map]
      apply List.flatMap_congr
      intro m hm
      rw [pick_entry (h m hm) (isMagisk_entry (h m hm)),
        pick_entry (h m hm) (inDataAdb_entry (h m hm))]

theorem revertUnmountSelf_eq (manager : Manager) (uninit : Nat -> Nat)
    (hlisted : forall m, m ∈ tree.mounts -> Listed m)
    (hplain : forall m, m ∈ tree.mounts -> Unescaped m) :
    revertUnmountSelf manager tree uninit =
      some (revertUnmount manager tree (infos tree)) := by
  rw [revertUnmountSelf, parseMountInfo_mountinfo hlisted, Option.map_some,
    revertUnmount_eq, revertUnmount_eq, revertTargets_entry manager hplain]

/-- No selected mount is left exactly if the module directory has at most one
mount that does not go with another path. -/
theorem revertUnmountSelf_noneLeft_iff (manager : Manager) (tree : MountTree)
    (uninit : Nat -> Nat) (hlisted : forall m, m ∈ tree.mounts -> Listed m)
    (hplain : forall m, m ∈ tree.mounts -> Unescaped m)
    (habove : SelectedAbove manager tree) :
    exists left, revertUnmountSelf manager tree uninit = some left ∧
      (NoneLeft manager tree left <-> OneModuleDir manager tree) :=
  ⟨_, revertUnmountSelf_eq manager uninit hlisted hplain, noneLeft_iff habove⟩

/-- With one mount at the module directory, nothing of KernelSU is left. -/
theorem revertUnmountSelf_noneLeft_ksuTree :
    exists left, revertUnmountSelf Manager.ksu ksuTree (fun _ => 0) = some left ∧
      NoneLeft Manager.ksu ksuTree left := by
  have hone : forall y, y ∈ ksuTree.mounts -> forall y', y' ∈ ksuTree.mounts ->
      y.target = MODULE_DIR -> y'.target = MODULE_DIR -> y = y' := by
    decide +kernel
  rcases revertUnmountSelf_noneLeft_iff Manager.ksu ksuTree (fun _ => 0)
    (by decide +kernel) (by decide +kernel) (by decide +kernel) with ⟨left, hleft, hiff⟩
  refine ⟨left, hleft, hiff.mpr (Or.inr ?_)⟩
  intro y y' hy hy' hpath hpath' _ _
  exact hone y hy y' hy' hpath hpath'

/-- Two mounts stacked on the module directory. -/
def stackedTree : MountTree where
  mounts :=
    [plainMount 1 1 "/" "ext4" "/dev/root",
      plainMount 2 1 "/data/adb/modules" "ext4" "/dev/block/loop7",
      plainMount 3 2 "/data/adb/modules" "ext4" "/dev/block/loop8"]
  distinct := by decide
  rooted := by decide
  within := within_of_mounts (by decide)

/-- The one call at the module directory leaves the lower mount. -/
theorem not_noneLeft_stackedTree :
    (forall m, m ∈ stackedTree.mounts -> Listed m ∧ Unescaped m) ∧
      SelectedAbove Manager.ksu stackedTree ∧
      exists left, revertUnmountSelf Manager.ksu stackedTree (fun _ => 0) = some left ∧
        ¬ NoneLeft Manager.ksu stackedTree left := by
  have hlisted : forall m, m ∈ stackedTree.mounts -> Listed m := by decide +kernel
  have hplain : forall m, m ∈ stackedTree.mounts -> Unescaped m := by decide +kernel
  refine ⟨fun m hm => ⟨hlisted m hm, hplain m hm⟩, by decide +kernel, _,
    revertUnmountSelf_eq Manager.ksu _ hlisted hplain, ?_⟩
  intro h
  exact h (plainMount 2 1 "/data/adb/modules" "ext4" "/dev/block/loop7")
    (by decide +kernel) (by decide +kernel)

end Listing

end Injector
end ReZygisk
