import ReZygisk.Zygiskd.Wire

/-!
# Root implementations

`setup` settles once which root implementation the device has; the three
questions about a uid are then dispatched on it.  Five of the seven values are
no usable implementation, yet the daemon serves requests under each of them.
-/

namespace ReZygisk
namespace Zygiskd

open Foundation
open Kernel

inductive RootImpl where
  | none
  | tooOld
  | abnormal
  | multiple
  | kernelSU
  | magisk
  | apatch
  deriving DecidableEq

inductive Version where
  | supported
  | tooOld
  | abnormal
  deriving DecidableEq

inductive MagiskVersion where
  | supported
  | tooOld
  deriving DecidableEq

def setup (apatchVersion ksuVersion : Option Version)
    (magiskVersion : Option MagiskVersion) : RootImpl :=
  match apatchVersion, ksuVersion, magiskVersion with
  | Option.none, Option.none, Option.none => RootImpl.none
  | some _, some _, some _ => RootImpl.multiple
  | some Version.supported, Option.none, Option.none => RootImpl.apatch
  | some Version.tooOld, Option.none, Option.none => RootImpl.tooOld
  | some Version.abnormal, Option.none, Option.none => RootImpl.abnormal
  | Option.none, some Version.supported, Option.none => RootImpl.kernelSU
  | Option.none, some Version.tooOld, Option.none => RootImpl.tooOld
  | Option.none, some Version.abnormal, Option.none => RootImpl.abnormal
  | Option.none, Option.none, some MagiskVersion.supported => RootImpl.magisk
  | Option.none, Option.none, some MagiskVersion.tooOld => RootImpl.tooOld
  | _, _, _ => RootImpl.none

/-- `ROOT_IMPL` and Magisk's `VARIANT`.  The variant is set only when
`magisk -v` could be run, which does not depend on `magisk -V`. -/
structure Root where
  impl : RootImpl
  variant : Option (List Byte)
  deriving DecidableEq

structure PackageConfig where
  exclude : Int
  allow : Int
  uid : Int
  deriving DecidableEq

/-- What the kernel, the file system and the commands answer while a uid is
looked up.  `none` stands for a command, a file or an output that could not be
used; `requester` is the trimmed answer. -/
structure RootAnswers where
  stUid : List Byte -> Option Nat
  ksuGranted : Bool
  ksuUmount : Bool
  grantedConfig : Option (List PackageConfig)
  umountConfig : Option (List PackageConfig)
  requester : Option (List Byte)
  sqlite : List Byte -> Option (List Byte)
  pmPackages : Int -> Option (List Byte)

section Questions

variable (a : RootAnswers) (uid : Int)

/-- `st_uid == uid as u32` of a file, and `false` without the file. -/
def ownedBy (path : List Byte) : Bool :=
  match a.stUid path with
  | some owner => owner == (uid % 2 ^ 32).toNat
  | none => false

namespace KernelSU

def uidGrantedRoot : Bool := a.ksuGranted

def uidShouldUmount : Bool := a.ksuUmount

def uidIsManager : Bool :=
  ownedBy a uid (bytesOf "/data/user_de/0/me.weishu.kernelsu")

end KernelSU

namespace APatch

def packageFlag (flag : PackageConfig -> Int)
    (configs : Option (List PackageConfig)) : Bool :=
  match configs with
  | none => false
  | some configs =>
      match configs.find? (fun config => config.uid == uid) with
      | some config => flag config == 1
      | none => false

def uidGrantedRoot : Bool :=
  packageFlag uid PackageConfig.allow a.grantedConfig

def uidShouldUmount : Bool :=
  packageFlag uid PackageConfig.exclude a.umountConfig

def uidIsManager : Bool :=
  ownedBy a uid (bytesOf "/data/user_de/0/me.bmax.apatch")

end APatch

namespace Magisk

def hasRow (query : List Byte) : Bool :=
  match a.sqlite query with
  | some output => !output.isEmpty
  | none => false

def uidGrantedRoot : Bool :=
  hasRow a (bytesOf "select 1 from policies where uid=" ++
    bytesOf (toString uid) ++ bytesOf " and policy=2 limit 1")

def stripPrefix (pre text : List Byte) : Option (List Byte) :=
  if pre.isPrefixOf text then some (text.drop pre.length) else none

def uidShouldUmount : Bool :=
  match (a.pmPackages uid).bind (stripPrefix (bytesOf "package:")) with
  | none => false
  | some line =>
      let pkg := line.takeWhile (fun b => b ≠ 32)
      hasRow a (bytesOf "select 1 from denylist where package_name=\"" ++ pkg ++
        bytesOf "\" limit 1")

def requestedManager : Option (List Byte) :=
  a.requester.bind (stripPrefix (bytesOf "value="))

def managerDir (package : List Byte) : List Byte :=
  bytesOf "/data/user_de/0/" ++ package

/-- Without a requested manager the variant decides, and reading `VARIANT`
before it is set panics. -/
def uidIsManager (variant : Option (List Byte)) : Handler Bool :=
  match requestedManager a, variant with
  | some manager, _ => pure (ownedBy a uid (managerDir manager))
  | none, some variant => pure (ownedBy a uid (managerDir variant))
  | none, none => Prog.stop Stop.panicked

end Magisk

variable (root : Root)

def uidGrantedRoot : Handler Bool :=
  match root.impl with
  | RootImpl.kernelSU => pure (KernelSU.uidGrantedRoot a)
  | RootImpl.magisk => pure (Magisk.uidGrantedRoot a uid)
  | RootImpl.apatch => pure (APatch.uidGrantedRoot a uid)
  | _ => Prog.stop Stop.panicked

def uidShouldUmount : Handler Bool :=
  match root.impl with
  | RootImpl.kernelSU => pure (KernelSU.uidShouldUmount a)
  | RootImpl.magisk => pure (Magisk.uidShouldUmount a uid)
  | RootImpl.apatch => pure (APatch.uidShouldUmount a uid)
  | _ => Prog.stop Stop.panicked

def uidIsManager : Handler Bool :=
  match root.impl with
  | RootImpl.kernelSU => pure (KernelSU.uidIsManager a uid)
  | RootImpl.magisk => Magisk.uidIsManager a uid root.variant
  | RootImpl.apatch => pure (APatch.uidIsManager a uid)
  | _ => Prog.stop Stop.panicked

end Questions

/-!
# Stopping
-/

/-- The three implementations that requests can be served under. -/
def RootImpl.Supported (impl : RootImpl) : Prop :=
  impl = RootImpl.kernelSU ∨ impl = RootImpl.magisk ∨ impl = RootImpl.apatch

instance (impl : RootImpl) : Decidable impl.Supported :=
  inferInstanceAs (Decidable (_ ∨ _))

def ManagerKnown (a : RootAnswers) (root : Root) : Prop :=
  Magisk.requestedManager a ≠ none ∨ root.variant ≠ none

/-- Looking up the manager panics unless the implementation is supported, and
under Magisk unless its manager is known. -/
theorem uidIsManager_panics_iff {a : RootAnswers} {uid : Int} {root : Root}
    {w : World} :
    Prog.Stops Stop.panicked (uidIsManager a uid root) w <->
      ¬ (root.impl.Supported ∧ (root.impl = RootImpl.magisk -> ManagerKnown a root)) := by
  simp only [Prog.Stops, uidIsManager, RootImpl.Supported, ManagerKnown]
  cases himpl : root.impl with
  | magisk =>
      cases hmanager : Magisk.requestedManager a with
      | some manager => simp [Magisk.uidIsManager, hmanager, pure, Prog.ret]
      | none =>
          cases hvariant : root.variant with
          | none => simp [Magisk.uidIsManager, hmanager, Prog.stop]
          | some variant => simp [Magisk.uidIsManager, hmanager, pure, Prog.ret]
  | none => simp [Prog.stop]
  | tooOld => simp [Prog.stop]
  | abnormal => simp [Prog.stop]
  | multiple => simp [Prog.stop]
  | kernelSU => simp [pure, Prog.ret]
  | apatch => simp [pure, Prog.ret]

theorem uidGrantedRoot_never_panics {a : RootAnswers} {uid : Int} {root : Root}
    (h : root.impl.Supported) :
    Prog.Never Stop.panicked (uidGrantedRoot a uid root) := by
  rw [uidGrantedRoot]
  rcases h with h | h | h <;> rw [h] <;> exact Prog.never_pure _ _

theorem uidShouldUmount_never_panics {a : RootAnswers} {uid : Int} {root : Root}
    (h : root.impl.Supported) :
    Prog.Never Stop.panicked (uidShouldUmount a uid root) := by
  rw [uidShouldUmount]
  rcases h with h | h | h <;> rw [h] <;> exact Prog.never_pure _ _

section Exit

variable (code : Nat) (a : RootAnswers) (uid : Int) (root : Root)

theorem uidIsManager_never_exits :
    Prog.Never (Stop.exited code) (uidIsManager a uid root) := by
  have hpanic : Prog.Never (Stop.exited code)
      (Prog.stop Stop.panicked : Handler Bool) := Prog.never_stop (by simp)
  have hmagisk : Prog.Never (Stop.exited code)
      (Magisk.uidIsManager a uid root.variant) := by
    unfold Magisk.uidIsManager
    split
    · exact Prog.never_pure _ _
    · exact Prog.never_pure _ _
    · exact hpanic
  rw [uidIsManager]
  cases root.impl with
  | kernelSU => exact Prog.never_pure _ _
  | magisk => exact hmagisk
  | apatch => exact Prog.never_pure _ _
  | _ => exact hpanic

theorem uidGrantedRoot_never_exits :
    Prog.Never (Stop.exited code) (uidGrantedRoot a uid root) := by
  rw [uidGrantedRoot]
  split
  · exact Prog.never_pure _ _
  · exact Prog.never_pure _ _
  · exact Prog.never_pure _ _
  · exact Prog.never_stop (by simp)

theorem uidShouldUmount_never_exits :
    Prog.Never (Stop.exited code) (uidShouldUmount a uid root) := by
  rw [uidShouldUmount]
  split
  · exact Prog.never_pure _ _
  · exact Prog.never_pure _ _
  · exact Prog.never_pure _ _
  · exact Prog.never_stop (by simp)

end Exit

end Zygiskd
end ReZygisk
