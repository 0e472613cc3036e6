import ReZygisk.Foundation.Text
import ReZygisk.Tracer.Maps

/-!
# Reading the maps of a process

`MapInfo::Scan` reads `/proc/<pid>/maps` line by line with one `sscanf`, and skips
a line without all seven conversions.
-/

namespace ReZygisk
namespace Tracer

open Foundation
open Kernel

def PROT_READ : Nat := 1
def PROT_WRITE : Nat := 2

def permsOf (perm : List Byte) : Nat :=
  (if perm.getD 0 0 = 0x72 then PROT_READ else 0) |||
    (if perm.getD 1 0 = 0x77 then PROT_WRITE else 0) |||
    (if perm.getD 2 0 = 0x78 then PROT_EXEC else 0)

/-- `"%" PRIxPTR "-%" PRIxPTR " %4s %" PRIxPTR " %x:%x %lu %n%*s"` -/
def scanLine (lp : Lp) (line : List Byte) : Option MapInfo := do
  -- the last byte of the line is overwritten with the terminator
  let text := cstr line.dropLast
  let (start, text) ← scanHex lp.bits text
  let text ← scanLiteral 0x2d text
  let (endAddr, text) ← scanHex lp.bits text
  let (perm, text) ← scanWord 4 text
  let (offset, text) ← scanHex lp.bits text
  let (major, text) ← scanHex 32 text
  let text ← scanLiteral 0x3a text
  let (minor, text) ← scanHex 32 text
  let (inode, text) ← scanDec lp.bits text
  -- `%n` stands after the blanks, and a loop skips those from there on
  let path := (text.dropWhile isBlank).dropWhile isBlank
  pure
    { start := start, endAddr := endAddr, perms := permsOf perm,
      isPrivate := perm.getD 3 0 == 0x70, offset := offset,
      dev := makedev major minor % 2 ^ lp.bits, inode := inode, path := path }

/-- `MapInfo::Scan`, on what the file holds. -/
def MapInfo.scan (lp : Lp) (file : List Byte) : List MapInfo :=
  (getlines file).filterMap (scanLine lp)

/-!
# The kernel's file
-/

/-- A line of the file.  The letters are those of the permissions, and the blanks
stand before the path. -/
structure Region where
  start : Nat
  endAddr : Nat
  read : Byte
  write : Byte
  exec : Byte
  share : Byte
  offset : Nat
  major : Nat
  minor : Nat
  inode : Nat
  blanks : Nat
  path : List Byte

namespace Region

def letters (r : Region) : List Byte :=
  [r.read, r.write, r.exec, r.share]

def afterInode (r : Region) : List Byte :=
  List.replicate r.blanks 0x20 ++ r.path

/-- The line without its end. -/
def body (r : Region) : List Byte :=
  hexPadded 8 r.start ++ 0x2d :: (hexPadded 8 r.endAddr ++ 0x20 :: (r.letters ++ 0x20 ::
    (hexPadded 8 r.offset ++ 0x20 :: (hexPadded 2 r.major ++ 0x3a ::
      (hexPadded 2 r.minor ++ 0x20 :: (decText r.inode ++ r.afterInode))))))

def text (r : Region) : List Byte :=
  r.body ++ [0x0a]

/-- The numbers are of the word size, a path does not begin with white space, and
a blank stands before it. -/
structure WellFormed (lp : Lp) (r : Region) : Prop where
  start_fits : r.start < 2 ^ lp.bits
  end_fits : r.endAddr < 2 ^ lp.bits
  offset_fits : r.offset < 2 ^ lp.bits
  inode_fits : r.inode < 2 ^ lp.bits
  major_fits : r.major < 2 ^ 32
  minor_fits : r.minor < 2 ^ 32
  dev_fits : makedev r.major r.minor < 2 ^ lp.bits
  letters : forall b, b ∈ r.letters -> isBlank b = false ∧ b ≠ 0
  path_text : 0x0a ∉ r.path ∧ 0x00 ∉ r.path
  path_start : forall b, r.path.head? = some b -> isBlank b = false
  apart : r.path = [] ∨ 0 < r.blanks

def entry (r : Region) : MapInfo :=
  { start := r.start, endAddr := r.endAddr, perms := permsOf r.letters,
    isPrivate := r.share == 0x70, offset := r.offset, dev := makedev r.major r.minor,
    inode := r.inode, path := r.path }

end Region

/-- An entry with the fields of a region. -/
structure ReadAs (e : MapInfo) (r : Region) : Prop where
  start : e.start = r.start
  endAddr : e.endAddr = r.endAddr
  offset : e.offset = r.offset
  dev : e.dev = makedev r.major r.minor
  major : devMajor e.dev = r.major
  minor : devMinor e.dev = r.minor
  inode : e.inode = r.inode
  path : e.path = r.path
  read : e.perms.testBit 0 = true <-> r.read = 0x72
  write : e.perms.testBit 1 = true <-> r.write = 0x77
  exec : e.perms.testBit 2 = true <-> r.exec = 0x78
  no_other : e.perms < 8
  isPrivate : e.isPrivate = true <-> r.share = 0x70

section Lines

variable {lp : Lp} {r : Region}

/-- Each letter sets its own bit. -/
theorem permsOf_bits (read write exec share : Byte) :
    ((permsOf [read, write, exec, share]).testBit 0 = true <-> read = 0x72) ∧
      ((permsOf [read, write, exec, share]).testBit 1 = true <-> write = 0x77) ∧
      ((permsOf [read, write, exec, share]).testBit 2 = true <-> exec = 0x78) ∧
      permsOf [read, write, exec, share] < 8 := by
  have hbits : forall x y z : Bool,
      (((if x then PROT_READ else 0) ||| (if y then PROT_WRITE else 0) |||
        (if z then PROT_EXEC else 0)).testBit 0 = x) ∧
      (((if x then PROT_READ else 0) ||| (if y then PROT_WRITE else 0) |||
        (if z then PROT_EXEC else 0)).testBit 1 = y) ∧
      (((if x then PROT_READ else 0) ||| (if y then PROT_WRITE else 0) |||
        (if z then PROT_EXEC else 0)).testBit 2 = z) ∧
      ((if x then PROT_READ else 0) ||| (if y then PROT_WRITE else 0) |||
        (if z then PROT_EXEC else 0)) < 8 := by
    decide
  have hperms := hbits (read == 0x72) (write == 0x77) (exec == 0x78)
  simp only [beq_iff_eq] at hperms
  rcases hperms with ⟨hread, hwrite, hexec, hother⟩
  simp only [permsOf, List.getD_cons_zero, List.getD_cons_succ]
  rw [hread, hwrite, hexec]
  exact ⟨beq_iff_eq, beq_iff_eq, beq_iff_eq, hother⟩

theorem readAs_entry (h : r.WellFormed lp) : ReadAs r.entry r := by
  rcases permsOf_bits r.read r.write r.exec r.share with ⟨hread, hwrite, hexec, hother⟩
  exact {
    start := rfl
    endAddr := rfl
    offset := rfl
    dev := rfl
    major := devMajor_makedev h.major_fits h.minor_fits
    minor := devMinor_makedev h.minor_fits
    inode := rfl
    path := rfl
    read := hread
    write := hwrite
    exec := hexec
    no_other := hother
    isPrivate := beq_iff_eq }

theorem takeWhile_path (h : r.WellFormed lp) : r.path.takeWhile isBlank = [] := by
  cases hpath : r.path with
  | nil => rfl
  | cons b rest =>
      have hb := h.path_start b (by rw [hpath]; rfl)
      rw [List.takeWhile_cons_of_neg]
      rw [hb]
      exact Bool.false_ne_true

/-- What follows the inode is skipped up to the path. -/
theorem dropWhile_afterInode (h : r.WellFormed lp) :
    r.afterInode.dropWhile isBlank = r.path := by
  apply dropWhile_run _ (takeWhile_path h)
  intro b hb
  rw [List.eq_of_mem_replicate hb]
  rfl

theorem takeWhile_afterInode (h : r.WellFormed lp) :
    r.afterInode.takeWhile isDigit = [] := by
  unfold Region.afterInode
  cases hblanks : r.blanks with
  | zero =>
      rcases h.apart with hpath | hpos
      · rw [hpath]
        rfl
      · omega
  | succ n => rfl

/-- A line has no newline but the one at its end, and no NUL. -/
theorem notMem_region (h : r.WellFormed lp) {b : Byte} (hb : b = 0x0a ∨ b = 0x00) :
    b ∉ r.body := by
  have hhex : forall width n, b ∉ hexPadded width n := by
    intro width n hno
    have hdigit := isHexDigit_of_mem_hexPadded hno
    rcases hb with hb | hb <;> rw [hb] at hdigit <;> cases hdigit
  have hdec : forall n, b ∉ decText n := by
    rcases hb with hb | hb <;> rw [hb] <;> exact notMem_decText rfl
  have hletters : b ∉ r.letters := by
    intro hno
    have hletter := h.letters b hno
    rcases hb with hb | hb
    · rw [hb] at hletter
      cases hletter.left
    · exact hletter.right hb
  have hpath : b ∉ r.path := by
    rcases hb with hb | hb
    · rw [hb]
      exact h.path_text.left
    · rw [hb]
      exact h.path_text.right
  have hother : b ∉ ([0x20, 0x2d, 0x3a] : List Byte) := by
    rcases hb with hb | hb <;> rw [hb] <;> decide
  have hblanks : b ∉ List.replicate r.blanks 0x20 := by
    intro hno
    exact hother (by rw [List.eq_of_mem_replicate hno]; decide)
  simp only [List.mem_cons, List.not_mem_nil, or_false, not_or] at hother
  simp only [Region.body, Region.afterInode, List.mem_append, List.mem_cons, hhex, hdec,
    hletters, hpath, hblanks, hother, or_self, not_false_eq_true]

/-- All seven conversions of a line find what the kernel wrote. -/
theorem scanLine_text (h : r.WellFormed lp) : scanLine lp r.text = some r.entry := by
  have htext : cstr r.text.dropLast = r.body := by
    rw [Region.text, List.dropLast_concat]
    exact cstr_eq_self (notMem_region h (Or.inr rfl))
  have hword : Word r.letters := ⟨List.cons_ne_nil _ _, fun b hb => (h.letters b hb).left⟩
  have hletters : forall tail, scanWord 4 (0x20 :: (r.letters ++ tail)) =
      some (r.letters, tail) :=
    fun tail => scanWord_append [0x20] isBlank_of_mem_singleton hword
  have hinode : scanDec lp.bits (0x20 :: (decText r.inode ++ r.afterInode)) =
      some (r.inode, r.afterInode) :=
    scanDec_decText [0x20] isBlank_of_mem_singleton h.inode_fits (takeWhile_afterInode h)
  have hpath : r.path.dropWhile isBlank = r.path := by
    have happend : r.path.takeWhile isBlank ++ r.path.dropWhile isBlank = r.path :=
      List.takeWhile_append_dropWhile
    rw [takeWhile_path h] at happend
    exact happend
  have hstart : forall tail, scanHex lp.bits (hexPadded 8 r.start ++ 0x2d :: tail) =
      some (r.start, 0x2d :: tail) :=
    fun tail => scanHex_front h.start_fits (by decide)
  have hend : forall tail, scanHex lp.bits (hexPadded 8 r.endAddr ++ 0x20 :: tail) =
      some (r.endAddr, 0x20 :: tail) :=
    fun tail => scanHex_front h.end_fits (by decide)
  have hoffset : forall tail, scanHex lp.bits (0x20 :: (hexPadded 8 r.offset ++ 0x20 :: tail)) =
      some (r.offset, 0x20 :: tail) :=
    fun tail => scanHex_blank h.offset_fits (by decide)
  have hmajor : forall tail, scanHex 32 (0x20 :: (hexPadded 2 r.major ++ 0x3a :: tail)) =
      some (r.major, 0x3a :: tail) :=
    fun tail => scanHex_blank h.major_fits (by decide)
  have hminor : forall tail, scanHex 32 (hexPadded 2 r.minor ++ 0x20 :: tail) =
      some (r.minor, 0x20 :: tail) :=
    fun tail => scanHex_front h.minor_fits (by decide)
  unfold scanLine
  rw [htext, Region.body]
  simp only [hstart, hend, hletters, hoffset, hmajor, hminor, hinode, scanLiteral_cons,
    Option.bind_eq_bind, Option.bind_some, dropWhile_afterInode h, hpath,
    Nat.mod_eq_of_lt h.dev_fits]
  rfl

/-- The file gives one entry for each line, in order, with the fields of the
line. -/
theorem scan_regions (lp : Lp) {regions : List Region}
    (h : forall r, r ∈ regions -> r.WellFormed lp) :
    List.Forall₂ ReadAs (MapInfo.scan lp (regions.flatMap Region.text)) regions := by
  unfold MapInfo.scan
  induction regions with
  | nil => exact List.Forall₂.nil
  | cons r rest ih =>
      have hr := h r List.mem_cons_self
      have hlines : getlines ((r :: rest).flatMap Region.text) =
          r.text :: getlines (rest.flatMap Region.text) := by
        rw [List.flatMap_cons, Region.text, List.append_assoc, List.singleton_append]
        exact getlines_append (notMem_region hr (Or.inl rfl))
      rw [hlines, List.filterMap_cons_some (scanLine_text hr)]
      exact List.Forall₂.cons (readAs_entry hr)
        (ih (fun r' hr' => h r' (List.mem_cons_of_mem r hr')))

/-- Code of a library, whose path has a blank, and memory without a path. -/
def sampleRegions : List Region :=
  [{ start := 0x7f001000, endAddr := 0x7f005000, read := 0x72, write := 0x2d, exec := 0x78,
     share := 0x70, offset := 0x1000, major := 0xfd, minor := 5, inode := 1234,
     blanks := 20, path := bytesOf "/data/a b/libdl.so" },
   { start := 0x7f005000, endAddr := 0x7f006000, read := 0x72, write := 0x77, exec := 0x2d,
     share := 0x73, offset := 0, major := 0, minor := 0, inode := 0, blanks := 1,
     path := [] }]

theorem scan_sampleRegions :
    (forall r, r ∈ sampleRegions -> r.WellFormed Lp.lp32) ∧
    List.Forall₂ ReadAs (MapInfo.scan Lp.lp32 (sampleRegions.flatMap Region.text))
      sampleRegions := by
  have hregions : forall r, r ∈ sampleRegions -> r.WellFormed Lp.lp32 := by
    have hletters : forall read write exec share : Byte,
        [read, write, exec, share].all (fun b => !isBlank b && b != 0) = true ->
        forall b, b ∈ [read, write, exec, share] -> isBlank b = false ∧ b ≠ 0 := by
      intro read write exec share hall b hb
      have hletter := List.all_eq_true.mp hall b hb
      rw [Bool.and_eq_true, Bool.not_eq_true', bne_iff_ne] at hletter
      exact hletter
    intro r hr
    simp only [sampleRegions, List.mem_cons, List.not_mem_nil, or_false] at hr
    rcases hr with heq | heq
    · rw [heq]
      exact ⟨by decide, by decide, by decide, by decide, by decide, by decide, by decide,
        hletters _ _ _ _ (by decide), by decide, fun b hb => (by cases hb; rfl),
        Or.inr (by decide)⟩
    · rw [heq]
      exact ⟨by decide, by decide, by decide, by decide, by decide, by decide, by decide,
        hletters _ _ _ _ (by decide), by decide, fun b hb => (by cases hb), Or.inl rfl⟩
  exact ⟨hregions, scan_regions Lp.lp32 hregions⟩

end Lines

end Tracer
end ReZygisk
