import Mathlib.Data.List.Infix
import ReZygisk.Zygiskd.RootImpl

/-!
# Which root implementation a device has

`setup` asks three implementations for their versions when the daemon starts.  Two of them
answer with the text of a command, and an answer that cannot be read counts as none.
-/

namespace ReZygisk
namespace Zygiskd

open Foundation

/-!
# Texts of commands
-/

/-- `char::is_whitespace` -/
def isWhitespace (c : Char) : Bool :=
  (0x09 ≤ c.toNat && c.toNat ≤ 0x0d) || c.toNat == 0x20 || c.toNat == 0x85 ||
    c.toNat == 0xa0 || c.toNat == 0x1680 || (0x2000 ≤ c.toNat && c.toNat ≤ 0x200a) ||
    c.toNat == 0x2028 || c.toNat == 0x2029 || c.toNat == 0x202f || c.toNat == 0x205f ||
    c.toNat == 0x3000

def trim (s : List Char) : List Char :=
  ((s.dropWhile isWhitespace).reverse.dropWhile isWhitespace).reverse

def splitWhitespace (s : List Char) : List (List Char) :=
  (s.splitOnP isWhitespace).filter (fun word => !word.isEmpty)

/-- `str::lines`: a carriage return before a newline is not part of the line, and the text
after the last newline is a line unless it is empty. -/
def lines (s : List Char) : List (List Char) :=
  let parts := s.splitOn '\n'
  parts.dropLast.map (fun line => if line.getLast? = some '\r' then line.dropLast else line) ++
    parts.getLast?.toList.filter (fun line => !line.isEmpty)

def decDigits (s : List Char) : Option Nat :=
  if s ≠ [] ∧ s.all Char.isDigit then
    some (s.foldl (fun value c => value * 10 + (c.toNat - 48)) 0)
  else none

/-- `parse::<i32>` -/
def parseI32 (s : List Char) : Option Int :=
  let value :=
    match s with
    | '-' :: digits => (decDigits digits).map (fun n => -(n : Int))
    | '+' :: digits => (decDigits digits).map (fun n => (n : Int))
    | digits => (decDigits digits).map (fun n => (n : Int))
  value.filter (fun v => -2 ^ 31 ≤ v ∧ v < 2 ^ 31)

/-!
# The three implementations
-/

/-- The versions that the daemon is built for. -/
structure Bounds where
  minApatch : Int
  minKsu : Int
  maxKsu : Int
  minMagisk : Int

/-- What a device answers when the daemon starts.  `none` stands for a file or a command that
is not there, or a text that is not UTF-8; `ksuVersion` is what `prctl` leaves in a
variable that was zero. -/
structure SetupAnswers where
  suPath : Option (List Char)
  su : List Char -> Option (List Char)
  apd : Option (List Char)
  ksuVersion : Int
  magiskName : Option (List Char)
  magiskVersion : Option (List Char)

section Detection

variable (b : Bounds) (d : SetupAnswers)

namespace APatch

def parseVersion (output : List Char) : Int :=
  ((lines output).findSome? (fun line =>
    (splitWhitespace (trim line)).getLast?.bind parseI32)).getD 0

example : parseVersion "starting\r\napd 10763\n".toList = 10763 := by decide

def defaultSuPath : List Char := "/system/bin/su".toList

def getApatch : Option Version :=
  match d.suPath.map trim with
  | none => none
  | some suPath =>
      match d.su suPath with
      | none => none
      | some stdout =>
          if ¬ "APatch".toList <:+: stdout then none
          else
            match d.apd with
            | none => none
            | some stdout1 =>
                if suPath = defaultSuPath then
                  let version := parseVersion stdout1
                  if version = 0 then some Version.abnormal
                  else if version ≥ b.minApatch ∧ version ≤ 999999 then some Version.supported
                  else if version ≥ 1 ∧ version ≤ b.minApatch - 1 then some Version.tooOld
                  else none
                else none

end APatch

namespace KernelSU

def getKernelSu : Option Version :=
  if d.ksuVersion = 0 then none
  else if b.minKsu ≤ d.ksuVersion ∧ d.ksuVersion ≤ b.maxKsu then some Version.supported
  else if 1 ≤ d.ksuVersion ∧ d.ksuVersion ≤ b.minKsu - 1 then some Version.tooOld
  else some Version.abnormal

end KernelSU

namespace Magisk

def MAGISK_OFFICIAL : List Byte := bytesOf "com.topjohnwu.magisk"

def MAGISK_THIRD_PARTIES : List (List Char × List Byte) :=
  [("alpha".toList, bytesOf "io.github.vvb2060.magisk"),
    ("kitsune".toList, bytesOf "io.github.huskydg.magisk")]

/-- `VARIANT`, after the first half of `get_magisk`. -/
def variant : Option (List Byte) :=
  d.magiskName.map (fun version =>
    (MAGISK_THIRD_PARTIES.findSome? (fun v =>
      if v.1 <:+: version then some v.2 else none)).getD MAGISK_OFFICIAL)

def getMagisk : Option MagiskVersion :=
  (d.magiskVersion.bind (fun output => parseI32 (trim output))).map (fun version =>
    if version ≥ b.minMagisk then MagiskVersion.supported else MagiskVersion.tooOld)

end Magisk

/-- What the daemon keeps of `setup`. -/
def detect : Root :=
  { impl := setup (APatch.getApatch b d) (KernelSU.getKernelSu b d) (Magisk.getMagisk b d)
    variant := Magisk.variant d }

/-!
# What is there
-/

/-- The version of an APatch whose `su` is the one of the system. -/
def ApatchSays (v : Int) : Prop :=
  exists text stdout output, d.suPath = some text ∧ trim text = APatch.defaultSuPath ∧
    d.su APatch.defaultSuPath = some stdout ∧ "APatch".toList <:+: stdout ∧
    d.apd = some output ∧ APatch.parseVersion output = v

def MagiskSays (v : Int) : Prop :=
  exists output, d.magiskVersion = some output ∧ parseI32 (trim output) = some v

/-- An APatch without a version is there, and one whose version is out of range is not. -/
def ApatchThere : Prop :=
  exists v, ApatchSays d v ∧
    (v = 0 ∨ (b.minApatch ≤ v ∧ v ≤ 999999) ∨ (1 ≤ v ∧ v < b.minApatch))

/-- One of the implementations is there in a version that is supported, and no other is
there in any. -/
def Sole : RootImpl -> Prop
  | RootImpl.apatch =>
      (exists v, ApatchSays d v ∧ v ≠ 0 ∧ b.minApatch ≤ v ∧ v ≤ 999999) ∧
        d.ksuVersion = 0 ∧ ¬ exists v, MagiskSays d v
  | RootImpl.kernelSU =>
      (d.ksuVersion ≠ 0 ∧ b.minKsu ≤ d.ksuVersion ∧ d.ksuVersion ≤ b.maxKsu) ∧
        ¬ ApatchThere b d ∧ ¬ exists v, MagiskSays d v
  | RootImpl.magisk =>
      (exists v, MagiskSays d v ∧ b.minMagisk ≤ v) ∧ ¬ ApatchThere b d ∧ d.ksuVersion = 0
  | _ => False

end Detection

section Detected

variable {b : Bounds} {d : SetupAnswers}

theorem getApatch_of_version {v : Int} (h : ApatchSays d v) :
    APatch.getApatch b d =
      if v = 0 then some Version.abnormal
      else if v ≥ b.minApatch ∧ v ≤ 999999 then some Version.supported
      else if v ≥ 1 ∧ v ≤ b.minApatch - 1 then some Version.tooOld
      else none := by
  rcases h with ⟨text, stdout, output, htext, htrim, hsu, hinfix, hapd, hv⟩
  rw [APatch.getApatch, htext, Option.map_some, htrim]
  simp only [hsu, if_neg (not_not_intro hinfix), hapd, if_true, hv]

theorem version_of_getApatch {version : Version} (h : APatch.getApatch b d = some version) :
    exists v, ApatchSays d v := by
  unfold APatch.getApatch at h
  split at h
  · cases h
  · rename_i suPath hpath
    rcases Option.map_eq_some_iff.mp hpath with ⟨text, htext, htrim⟩
    split at h
    · cases h
    · rename_i stdout hsu
      split at h
      · cases h
      · rename_i hinfix
        split at h
        · cases h
        · rename_i output hapd
          split at h
          · rename_i hdefault
            rw [hdefault] at hsu htrim
            exact ⟨_, text, stdout, output, htext, htrim, hsu, not_not.mp hinfix, hapd, rfl⟩
          · cases h

theorem getApatch_there : (exists version, APatch.getApatch b d = some version) <->
    ApatchThere b d := by
  constructor
  · intro h
    rcases h with ⟨version, hversion⟩
    rcases version_of_getApatch hversion with ⟨v, hsaid⟩
    refine ⟨v, hsaid, ?_⟩
    rw [getApatch_of_version hsaid] at hversion
    split at hversion
    · exact Or.inl ‹_›
    · split at hversion
      · exact Or.inr (Or.inl ‹_›)
      · split at hversion
        · omega
        · cases hversion
  · intro h
    rcases h with ⟨v, hsaid, hv⟩
    rw [getApatch_of_version hsaid]
    split
    · exact ⟨_, rfl⟩
    · split
      · exact ⟨_, rfl⟩
      · rw [if_pos (by omega)]
        exact ⟨_, rfl⟩

theorem getApatch_none : APatch.getApatch b d = none <-> ¬ ApatchThere b d := by
  rw [← getApatch_there, not_exists, Option.eq_none_iff_forall_ne_some]

theorem getApatch_supported : APatch.getApatch b d = some Version.supported <->
    exists v, ApatchSays d v ∧ v ≠ 0 ∧ b.minApatch ≤ v ∧ v ≤ 999999 := by
  constructor
  · intro h
    rcases version_of_getApatch h with ⟨v, hsaid⟩
    refine ⟨v, hsaid, ?_⟩
    rw [getApatch_of_version hsaid] at h
    split at h
    · cases h
    · split at h
      · exact ⟨‹_›, ‹_›⟩
      · split at h
        · cases h
        · cases h
  · intro h
    rcases h with ⟨v, hsaid, hzero, hrange⟩
    rw [getApatch_of_version hsaid, if_neg hzero, if_pos hrange]

theorem getKernelSu_none : KernelSU.getKernelSu b d = none <-> d.ksuVersion = 0 := by
  unfold KernelSU.getKernelSu
  split
  · simp only [*]
  · split_ifs <;> simp only [*]

theorem getKernelSu_supported : KernelSU.getKernelSu b d = some Version.supported <->
    d.ksuVersion ≠ 0 ∧ b.minKsu ≤ d.ksuVersion ∧ d.ksuVersion ≤ b.maxKsu := by
  unfold KernelSU.getKernelSu
  by_cases hzero : d.ksuVersion = 0
  · simp only [if_pos hzero, reduceCtorEq, false_iff]
    exact fun h => h.left hzero
  · by_cases hrange : b.minKsu ≤ d.ksuVersion ∧ d.ksuVersion ≤ b.maxKsu
    · simp only [if_neg hzero, if_pos hrange, true_iff]
      exact ⟨hzero, hrange⟩
    · simp only [if_neg hzero, if_neg hrange]
      constructor
      · intro h
        split at h <;> cases h
      · intro h
        exact absurd h.right hrange

theorem getMagisk_of_version {v : Int} (h : MagiskSays d v) : Magisk.getMagisk b d =
    some (if v ≥ b.minMagisk then MagiskVersion.supported else MagiskVersion.tooOld) := by
  rcases h with ⟨output, houtput, hv⟩
  rw [Magisk.getMagisk, houtput, Option.bind_some, hv, Option.map_some]

theorem version_of_getMagisk {version : MagiskVersion} (h : Magisk.getMagisk b d = some version) :
    exists v, MagiskSays d v := by
  rcases Option.map_eq_some_iff.mp h with ⟨v, hv, _⟩
  rcases Option.bind_eq_some_iff.mp hv with ⟨output, houtput, hparse⟩
  exact ⟨v, output, houtput, hparse⟩

theorem getMagisk_none : Magisk.getMagisk b d = none <-> ¬ exists v, MagiskSays d v := by
  constructor
  · intro h hsaid
    rcases hsaid with ⟨v, hv⟩
    rw [getMagisk_of_version hv] at h
    cases h
  · intro h
    cases hversion : Magisk.getMagisk b d with
    | none => rfl
    | some version => exact absurd (version_of_getMagisk hversion) h

theorem getMagisk_supported : Magisk.getMagisk b d = some MagiskVersion.supported <->
    exists v, MagiskSays d v ∧ b.minMagisk ≤ v := by
  constructor
  · intro h
    rcases version_of_getMagisk h with ⟨v, hv⟩
    refine ⟨v, hv, ?_⟩
    rw [getMagisk_of_version hv] at h
    split at h
    · assumption
    · cases h
  · intro h
    rcases h with ⟨v, hv, hmin⟩
    rw [getMagisk_of_version hv, if_pos hmin]

/-- `setup` takes a supported implementation only if it is alone. -/
theorem setup_supported (a k : Option Version) (m : Option MagiskVersion) :
    (setup a k m = RootImpl.apatch <-> a = some Version.supported ∧ k = none ∧ m = none) ∧
    (setup a k m = RootImpl.kernelSU <-> k = some Version.supported ∧ a = none ∧ m = none) ∧
    (setup a k m = RootImpl.magisk <->
      m = some MagiskVersion.supported ∧ a = none ∧ k = none) := by
  rcases a with _ | (_ | _ | _) <;> rcases k with _ | (_ | _ | _) <;>
    rcases m with _ | (_ | _) <;> decide

/-- The daemon's implementation is the one that is alone on the device. -/
theorem detect_impl_iff {impl : RootImpl} (himpl : impl.Supported) :
    (detect b d).impl = impl <-> Sole b d impl := by
  rcases setup_supported (APatch.getApatch b d) (KernelSU.getKernelSu b d)
    (Magisk.getMagisk b d) with ⟨hapatch, hksu, hmagisk⟩
  rcases himpl with rfl | rfl | rfl
  · rw [detect, hksu, getKernelSu_supported, getApatch_none, getMagisk_none]
    rfl
  · rw [detect, hmagisk, getMagisk_supported, getApatch_none, getKernelSu_none]
    rfl
  · rw [detect, hapatch, getApatch_supported, getKernelSu_none, getMagisk_none]
    rfl

theorem sole_supported {impl : RootImpl} (h : Sole b d impl) : impl.Supported := by
  cases impl with
  | kernelSU => exact Or.inl rfl
  | magisk => exact Or.inr (Or.inl rfl)
  | apatch => exact Or.inr (Or.inr rfl)
  | _ => exact h.elim

/-- At most one implementation is alone. -/
theorem sole_unique {impl impl' : RootImpl} (h : Sole b d impl) (h' : Sole b d impl') :
    impl = impl' :=
  ((detect_impl_iff (sole_supported h)).mpr h).symm.trans
    ((detect_impl_iff (sole_supported h')).mpr h')

theorem variant_none : Magisk.variant d = none <-> d.magiskName = none :=
  Option.map_eq_none_iff

end Detected

end Zygiskd
end ReZygisk
