import ReZygisk.Foundation.Text
import ReZygisk.Zygiskd.RootImpl

/-!
# Packages that share a uid

Under Magisk the denylist is a table of packages, while the daemon is asked
about a uid.  `uid_should_umount` has `pm` list the packages of the uid and
takes the whole listing for a single line.
-/

namespace ReZygisk
namespace Zygiskd

open Foundation

/-!
# What the two commands print
-/

/-- The bytes of a package name: ASCII letters, digits, dots and underscores. -/
def isPackageByte (b : Byte) : Bool :=
  isDigit b || decide (0x41 ≤ b ∧ b ≤ 0x5a) || decide (0x61 ≤ b ∧ b ≤ 0x7a) ||
    b == 0x2e || b == 0x5f

structure PackageName where
  bytes : List Byte
  plain : forall b, b ∈ bytes -> isPackageByte b = true
  deriving DecidableEq

/-- One line of `pm list packages --uid <uid>`. -/
def packageLine (uid : Int) (p : PackageName) : List Byte :=
  bytesOf "package:" ++ p.bytes ++ bytesOf " uid:" ++ bytesOf (toString uid) ++ [0x0a]

def packageListing (uid : Int) (packages : List PackageName) : List Byte :=
  packages.flatMap (packageLine uid)

def denylistQuery (p : PackageName) : List Byte :=
  bytesOf "select 1 from denylist where package_name=\"" ++ p.bytes ++
    bytesOf "\" limit 1"

/-- `pm` lists these packages for the uid, and `magisk --sqlite` prints something
exactly when the package that it is asked for is in the table. -/
structure DenylistAnswers (a : RootAnswers) (uid : Int) (packages : List PackageName)
    (denylist : List PackageName) : Prop where
  pm : a.pmPackages uid = some (packageListing uid packages)
  sqlite : forall p, (exists output, a.sqlite (denylistQuery p) = some output ∧
    output ≠ []) <-> p ∈ denylist

/-- The answer for the uid is that of its packages together. -/
def UmountsAny (a : RootAnswers) (uid : Int) (packages denylist : List PackageName) :
    Prop :=
  Magisk.uidShouldUmount a uid = true <-> exists p, p ∈ packages ∧ p ∈ denylist

/-!
# The first package
-/

section Listing

variable {a : RootAnswers} {uid : Int} {p : PackageName}
  {packages denylist : List PackageName}

theorem space_notMem_package (p : PackageName) : (0x20 : Byte) ∉ p.bytes := by
  intro hmem
  have hplain := p.plain 0x20 hmem
  exact absurd hplain (by decide)

/-- The name ends at the space before the uid. -/
theorem takeWhile_package (tail : List Byte) :
    (p.bytes ++ (0x20 :: tail)).takeWhile (fun b => b ≠ 0x20) = p.bytes := by
  have hall : forall b, b ∈ p.bytes -> decide (b ≠ 0x20) = true := by
    intro b hb
    apply decide_eq_true
    intro heq
    rw [heq] at hb
    exact space_notMem_package p hb
  rw [List.takeWhile_append_of_pos hall]
  simp

theorem hasRow_iff (h : DenylistAnswers a uid packages denylist) :
    Magisk.hasRow a (denylistQuery p) = true <-> p ∈ denylist := by
  rw [← h.sqlite p]
  unfold Magisk.hasRow
  cases a.sqlite (denylistQuery p) with
  | none => simp
  | some output => simp

/-- What is asked for is the package that `pm` lists first. -/
theorem uidShouldUmount_listing
    (hpm : a.pmPackages uid = some (packageListing uid (p :: packages))) :
    Magisk.uidShouldUmount a uid = Magisk.hasRow a (denylistQuery p) := by
  have hspace : bytesOf " uid:" = 0x20 :: bytesOf "uid:" := by decide
  have htext : packageListing uid (p :: packages) =
      bytesOf "package:" ++ (p.bytes ++ (0x20 :: (bytesOf "uid:" ++
        (bytesOf (toString uid) ++ (0x0a :: packageListing uid packages))))) := by
    unfold packageListing packageLine
    rw [List.flatMap_cons, hspace]
    simp
  have hstrip : Magisk.stripPrefix (bytesOf "package:")
      (packageListing uid (p :: packages)) =
        some (p.bytes ++ (0x20 :: (bytesOf "uid:" ++
          (bytesOf (toString uid) ++ (0x0a :: packageListing uid packages))))) := by
    unfold Magisk.stripPrefix
    rw [htext, if_pos (List.isPrefixOf_iff_prefix.mpr (List.prefix_append _ _)),
      List.drop_left]
  unfold Magisk.uidShouldUmount
  rw [hpm, Option.bind_some, hstrip]
  simp only [takeWhile_package]
  rfl

end Listing

/-- The answer is that of the packages together exactly if the one listed first
is in the denylist or none of the others is. -/
theorem umountsAny_iff_first (a : RootAnswers) (uid : Int) (first : PackageName)
    (others denylist : List PackageName)
    (h : DenylistAnswers a uid (first :: others) denylist) :
    UmountsAny a uid (first :: others) denylist <->
      first ∈ denylist ∨ forall p, p ∈ others -> p ∉ denylist := by
  unfold UmountsAny
  rw [uidShouldUmount_listing h.pm, hasRow_iff h]
  constructor
  · intro hany
    by_cases hfirst : first ∈ denylist
    · exact Or.inl hfirst
    · apply Or.inr
      intro p hp hdenied
      exact hfirst (hany.mpr ⟨p, List.mem_cons_of_mem first hp, hdenied⟩)
  · intro hgood
    constructor
    · intro hfirst
      exact ⟨first, List.mem_cons_self, hfirst⟩
    · intro hany
      rcases hany with ⟨p, hp, hdenied⟩
      rcases hgood with hfirst | hothers
      · exact hfirst
      · rcases List.mem_cons.mp hp with heq | hrest
        · rw [← heq]
          exact hdenied
        · exact absurd hdenied (hothers p hrest)

/-!
# Two packages
-/

def settingsPackage : PackageName :=
  { bytes := bytesOf "com.android.settings", plain := List.all_eq_true.mp (by decide) }

def bankPackage : PackageName :=
  { bytes := bytesOf "com.example.bank", plain := List.all_eq_true.mp (by decide) }

/-- A device with a denylist, on which `pm` lists the same packages for every
uid. -/
def denylistDevice (packages denylist : List PackageName) : RootAnswers where
  stUid := fun _ => none
  ksuGranted := false
  ksuUmount := false
  grantedConfig := none
  umountConfig := none
  requester := none
  sqlite := fun query =>
    if denylist.any (fun p => denylistQuery p == query) then some (bytesOf "1=1\n")
    else some []
  pmPackages := fun uid => some (packageListing uid packages)

theorem denylistQuery_injective {p q : PackageName}
    (h : denylistQuery p = denylistQuery q) : p = q := by
  have hbytes : p.bytes = q.bytes := by
    unfold denylistQuery at h
    rw [List.append_assoc, List.append_assoc] at h
    exact List.append_cancel_right (List.append_cancel_left h)
  cases p
  cases q
  cases hbytes
  rfl

theorem denylistAnswers_device (uid : Int) (packages denylist : List PackageName) :
    DenylistAnswers (denylistDevice packages denylist) uid packages denylist where
  pm := rfl
  sqlite := by
    intro p
    have hrow : bytesOf "1=1\n" ≠ [] := by decide
    have hasked : denylist.any (fun q => denylistQuery q == denylistQuery p) = true <->
        p ∈ denylist := by
      rw [List.any_eq_true]
      constructor
      · intro hany
        rcases hany with ⟨q, hq, heq⟩
        rw [← denylistQuery_injective (beq_iff_eq.mp heq)]
        exact hq
      · intro hp
        exact ⟨p, hp, beq_self_eq_true _⟩
    rw [← hasked]
    constructor
    · intro hprinted
      rcases hprinted with ⟨output, houtput, hne⟩
      by_contra hno
      simp only [denylistDevice, if_neg hno, Option.some.injEq] at houtput
      exact hne houtput.symm
    · intro hyes
      exact ⟨bytesOf "1=1\n", by simp only [denylistDevice, if_pos hyes], hrow⟩

theorem umountsAny_bank_first :
    DenylistAnswers (denylistDevice [bankPackage, settingsPackage] [bankPackage]) 10123
        [bankPackage, settingsPackage] [bankPackage] ∧
      UmountsAny (denylistDevice [bankPackage, settingsPackage] [bankPackage]) 10123
        [bankPackage, settingsPackage] [bankPackage] := by
  have hanswers := denylistAnswers_device 10123 [bankPackage, settingsPackage]
    [bankPackage]
  have hfirst : bankPackage ∈ [bankPackage] := List.mem_singleton_self bankPackage
  exact ⟨hanswers, (umountsAny_iff_first _ _ _ _ _ hanswers).mpr (Or.inl hfirst)⟩

/-- Listed after another package of its uid, a package of the denylist is not
found. -/
theorem not_umountsAny_bank_second :
    DenylistAnswers (denylistDevice [settingsPackage, bankPackage] [bankPackage]) 10123
        [settingsPackage, bankPackage] [bankPackage] ∧
      ¬ UmountsAny (denylistDevice [settingsPackage, bankPackage] [bankPackage]) 10123
        [settingsPackage, bankPackage] [bankPackage] := by
  have hanswers := denylistAnswers_device 10123 [settingsPackage, bankPackage]
    [bankPackage]
  have hnot : settingsPackage ∉ [bankPackage] := by decide
  constructor
  · exact hanswers
  · intro hany
    have hrow := hany.mpr ⟨bankPackage, by decide, List.mem_singleton_self bankPackage⟩
    rw [uidShouldUmount_listing hanswers.pm, hasRow_iff hanswers] at hrow
    exact hnot hrow

end Zygiskd
end ReZygisk
