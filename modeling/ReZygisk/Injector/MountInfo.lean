import ReZygisk.Injector.SanitizeFds
import ReZygisk.Kernel.Abi
import ReZygisk.Kernel.Mounts

/-!
# Reading the mounts of a process

`parse_mount_info` reads each line of `/proc/self/mountinfo` with one `sscanf`
that notes where the fields begin and end.
-/

namespace ReZygisk
namespace Injector

open Foundation
open Kernel

structure MountInfo where
  id : Nat
  parent : Nat
  device : Nat
  root : List Byte
  target : List Byte
  vfsOption : List Byte
  shared : Nat
  master : Nat
  propagateFrom : Nat
  type : List Byte
  source : List Byte
  fsOption : List Byte
  deriving DecidableEq

/-!
# `sscanf`
-/

/-- The directives that occur: `%u`, white space, a character, `%n`, `%*s` and
`%*[^c]`. -/
inductive Directive where
  | number
  | blanks
  | literal (b : Byte)
  | position
  | word
  | upTo (b : Byte)
  deriving DecidableEq

/-- How far a scan got, and what it stored. -/
structure Scan where
  rest : List Byte
  pos : Nat
  numbers : List Nat
  positions : List Nat

namespace Scan

def skip (n : Nat) (s : Scan) : Scan :=
  { s with rest := s.rest.drop n, pos := s.pos + n }

def skipBlanks (s : Scan) : Scan :=
  s.skip (s.rest.takeWhile isBlank).length

/-- A directive that needs at least one of some bytes. -/
def run (p : Byte -> Bool) (s : Scan) : Option Scan :=
  if s.rest.takeWhile p = [] then none
  else some (s.skip (s.rest.takeWhile p).length)

def digits (sign : Nat -> Nat) (s : Scan) : Option Scan :=
  (s.run isDigit).map (fun s' =>
    { s' with
      numbers := s'.numbers ++ [sign (decValue (s.rest.takeWhile isDigit))] })

/-- `%u`: an optional sign and digits, as an `unsigned int`. -/
def unsigned (s : Scan) : Option Scan :=
  if s.rest.head? = some 0x2d then
    (s.skip 1).digits (fun n => (2 ^ 32 - n % 2 ^ 32) % 2 ^ 32)
  else if s.rest.head? = some 0x2b then (s.skip 1).digits (fun n => n % 2 ^ 32)
  else s.digits (fun n => n % 2 ^ 32)

def directive (d : Directive) (s : Scan) : Option Scan :=
  match d with
  | Directive.number => s.skipBlanks.unsigned
  | Directive.blanks => some s.skipBlanks
  | Directive.literal b => if s.rest.head? = some b then some (s.skip 1) else none
  | Directive.position => some { s with positions := s.positions ++ [s.pos] }
  | Directive.word => s.skipBlanks.run (fun b => !isBlank b)
  | Directive.upTo b => s.run (fun c => c != b)

/-- The scan ends with the first directive that fails. -/
def scan : List Directive -> Scan -> Scan
  | [], s => s
  | d :: rest, s =>
      match s.directive d with
      | none => s
      | some s' => scan rest s'

end Scan

/-!
# The lines
-/

/-- `"%u %u %u:%u %n%*s%n %n%*s%n %n%*s%n%n%*[^-]%n - %n%*s%n %n%*s%n %n%*s%n"` -/
def mountFormat : List Directive :=
  [Directive.number, Directive.blanks, Directive.number, Directive.blanks,
    Directive.number, Directive.literal 0x3a, Directive.number, Directive.blanks,
    Directive.position, Directive.word, Directive.position, Directive.blanks,
    Directive.position, Directive.word, Directive.position, Directive.blanks,
    Directive.position, Directive.word, Directive.position,
    Directive.position, Directive.upTo 0x2d, Directive.position,
    Directive.blanks, Directive.literal 0x2d, Directive.blanks,
    Directive.position, Directive.word, Directive.position, Directive.blanks,
    Directive.position, Directive.word, Directive.position, Directive.blanks,
    Directive.position, Directive.word, Directive.position]

/-- `std::string_view::substr`: it throws for a start past the end, and a
negative length becomes one that is longer than any text. -/
def substr (text : List Byte) (pos : Nat) (len : Int) : Option (List Byte) :=
  if text.length < pos then none
  else some (if len < 0 then text.drop pos else (text.drop pos).take len.toNat)

/-- `std::string_view::find` -/
def find (key : List Byte) : List Byte -> Option Nat
  | [] => if key = [] then some 0 else none
  | b :: rest =>
      if key.isPrefixOf (b :: rest) then some 0
      else (find key rest).map (fun pos => pos + 1)

/-- The number after a key, of type `unsigned int`. -/
def optionalNumber (key optional : List Byte) : Nat :=
  match find key optional with
  | some pos =>
      (parseInt (optional.drop (pos + key.length)) % (2 ^ 32 : Nat)).toNat
  | none => 0

/-- What is made of one line.  A number that the scan did not reach is not
initialised. -/
def parseLine (uninit : Nat -> Nat) (line : List Byte) : Option MountInfo := do
  let s := Scan.scan mountFormat ⟨line, 0, [], []⟩
  let pos (i : Nat) : Nat := s.positions.getD i 0
  let number (i : Nat) : Nat := s.numbers.getD i (uninit i)
  let field (i : Nat) : Option (List Byte) :=
    substr line (pos i) ((pos (i + 1) : Int) - pos i)
  let root ← field 0
  let target ← field 2
  let vfsOption ← field 4
  let optional ← substr line (pos 6 + 1) (max ((pos 7 : Int) - 1 - (pos 6 + 1)) 0)
  let type ← field 8
  let source ← field 10
  let fsOption ← field 12
  pure
    { id := number 0, parent := number 1,
      device := makedev (number 2) (number 3),
      root := root, target := target, vfsOption := vfsOption,
      shared := optionalNumber (bytesOf "shared:") optional,
      master := optionalNumber (bytesOf "master:") optional,
      propagateFrom := optionalNumber (bytesOf "propagate_from:") optional,
      type := type, source := source, fsOption := fsOption }

/-- `parse_mount_info`, on what the file holds. -/
def parseMountInfo (uninit : Nat -> Nat) (text : List Byte) :
    Option (List MountInfo) :=
  (getlines text).mapM (fun line => parseLine uninit (cstr line))

/-!
# Scanning a line
-/

section Scanning

variable {b : Byte} {w tail : List Byte} {pos : Nat} {ns ps : List Nat}
  {ds : List Directive}

/-- Directives that find what they need. -/
theorem skipBlanks_word (hw : Word w) :
    (⟨w ++ tail, pos, ns, ps⟩ : Scan).skipBlanks = ⟨w ++ tail, pos, ns, ps⟩ := by
  rw [Scan.skipBlanks, takeWhile_isBlank_word hw]
  rfl

theorem run_append {p : Byte -> Bool} (hne : w ≠ [])
    (hall : forall c, c ∈ w -> p c = true) (hstop : tail.takeWhile p = []) :
    (⟨w ++ tail, pos, ns, ps⟩ : Scan).run p =
      some ⟨tail, pos + w.length, ns, ps⟩ := by
  rw [Scan.run, takeWhile_run hall hstop, if_neg hne, Scan.skip, List.drop_left]

theorem scan_number {n : Nat} (hn : n < 2 ^ 32)
    (hstop : tail.takeWhile isDigit = []) :
    Scan.scan (Directive.number :: ds) ⟨decText n ++ tail, pos, ns, ps⟩ =
      Scan.scan ds ⟨tail, pos + (decText n).length, ns ++ [n], ps⟩ := by
  have hdigits : forall c, c ∈ decText n -> isDigit c = true :=
    fun c hc => isDigit_of_mem_decText hc
  have hsign : forall c, isDigit c = false ->
      (decText n ++ tail).head? ≠ some c := by
    intro c hc hhead
    rw [List.head?_append_of_ne_nil _ (decText_ne_nil n)] at hhead
    rw [hdigits c (List.mem_of_head? hhead)] at hc
    cases hc
  rw [Scan.scan, Scan.directive, skipBlanks_word (word_decText n), Scan.unsigned,
    if_neg (hsign 0x2d rfl), if_neg (hsign 0x2b rfl), Scan.digits,
    run_append (decText_ne_nil n) hdigits hstop, Option.map_some,
    takeWhile_run hdigits hstop, decValue_decText, Nat.mod_eq_of_lt hn]

theorem scan_blank (htail : tail.takeWhile isBlank = []) :
    Scan.scan (Directive.blanks :: ds) ⟨0x20 :: tail, pos, ns, ps⟩ =
      Scan.scan ds ⟨tail, pos + 1, ns, ps⟩ := by
  have htake : (0x20 :: tail).takeWhile isBlank = [0x20] := by
    rw [List.takeWhile_cons_of_pos rfl, htail]
  rw [Scan.scan, Scan.directive, Scan.skipBlanks, htake]
  rfl

theorem scan_no_blank (htail : tail.takeWhile isBlank = []) :
    Scan.scan (Directive.blanks :: ds) ⟨tail, pos, ns, ps⟩ =
      Scan.scan ds ⟨tail, pos, ns, ps⟩ := by
  rw [Scan.scan, Scan.directive, Scan.skipBlanks, htail]
  rfl

theorem scan_literal :
    Scan.scan (Directive.literal b :: ds) ⟨b :: tail, pos, ns, ps⟩ =
      Scan.scan ds ⟨tail, pos + 1, ns, ps⟩ := by
  rw [Scan.scan, Scan.directive, List.head?_cons, if_pos rfl]
  rfl

theorem scan_position :
    Scan.scan (Directive.position :: ds) ⟨tail, pos, ns, ps⟩ =
      Scan.scan ds ⟨tail, pos, ns, ps ++ [pos]⟩ :=
  rfl

theorem scan_word (hw : Word w) (hstop : tail.takeWhile (fun b => !isBlank b) = []) :
    Scan.scan (Directive.word :: ds) ⟨w ++ tail, pos, ns, ps⟩ =
      Scan.scan ds ⟨tail, pos + w.length, ns, ps⟩ := by
  have hall : forall c, c ∈ w -> (!isBlank c) = true := by
    intro c hc
    rw [hw.no_blank c hc]
    rfl
  rw [Scan.scan, Scan.directive, skipBlanks_word hw,
    run_append hw.nonempty hall hstop]

theorem scan_upTo (hne : w ≠ []) (hw : b ∉ w) :
    Scan.scan (Directive.upTo b :: ds) ⟨w ++ b :: tail, pos, ns, ps⟩ =
      Scan.scan ds ⟨b :: tail, pos + w.length, ns, ps⟩ := by
  have hall : forall c, c ∈ w -> (c != b) = true := by
    intro c hc
    rw [bne_iff_ne]
    intro heq
    rw [heq] at hc
    exact hw hc
  have hnot : ¬ (b != b) = true := by
    rw [bne_self_eq_false]
    exact Bool.false_ne_true
  rw [Scan.scan, Scan.directive,
    run_append hne hall (List.takeWhile_cons_of_neg hnot)]

/-- `%n%*s%n` -/
theorem scan_field (hw : Word w) (hstop : tail.takeWhile (fun b => !isBlank b) = []) :
    Scan.scan (Directive.position :: Directive.word :: Directive.position :: ds)
        ⟨w ++ tail, pos, ns, ps⟩ =
      Scan.scan ds
        ⟨tail, pos + w.length, ns, ps ++ [pos] ++ [pos + w.length]⟩ := by
  rw [scan_position, scan_word hw hstop, scan_position]

end Scanning

/-!
# A line in the kernel's format
-/

/-- The fields of a line as they stand in it. -/
structure MountLine where
  id : Nat
  parent : Nat
  major : Nat
  minor : Nat
  root : List Byte
  target : List Byte
  vfsOption : List Byte
  tags : List (List Byte)
  type : List Byte
  source : List Byte
  fsOption : List Byte
  deriving DecidableEq

/-- A text without white space and NUL. -/
structure TextField (w : List Byte) : Prop where
  word : Word w
  text : 0x00 ∉ w

namespace MountLine

/-- The tags, each after a blank. -/
def optional (l : MountLine) : List Byte :=
  l.tags.flatMap (fun tag => 0x20 :: tag)

def numbers (l : MountLine) : List Byte :=
  decText l.id ++ 0x20 :: (decText l.parent ++ 0x20 ::
    (decText l.major ++ 0x3a :: (decText l.minor ++ [0x20])))

/-- What follows the options that all file systems have. -/
def afterOptions (l : MountLine) : List Byte :=
  l.optional ++ 0x20 :: 0x2d :: 0x20 :: (l.type ++ 0x20 :: (l.source ++ 0x20 :: l.fsOption))

/-- The line without its end. -/
def body (l : MountLine) : List Byte :=
  l.numbers ++ (l.root ++ 0x20 :: (l.target ++ 0x20 :: (l.vfsOption ++ l.afterOptions)))

def text (l : MountLine) : List Byte :=
  l.body ++ [0x0a]

/-- A tag may hold anything but the dash that ends the tags. -/
structure WellFormed (l : MountLine) : Prop where
  id_fits : l.id < 2 ^ 32
  parent_fits : l.parent < 2 ^ 32
  major_fits : l.major < 2 ^ 32
  minor_fits : l.minor < 2 ^ 32
  root : TextField l.root
  target : TextField l.target
  vfsOption : TextField l.vfsOption
  tags : forall tag b, tag ∈ l.tags -> b ∈ tag -> b ∉ ([0x00, 0x0a, 0x2d] : List Byte)
  type : TextField l.type
  source : TextField l.source
  fsOption : TextField l.fsOption

/-- What `parse_mount_info` makes of a line. -/
def entry (l : MountLine) : MountInfo :=
  { id := l.id, parent := l.parent, device := makedev l.major l.minor,
    root := l.root, target := l.target, vfsOption := l.vfsOption,
    shared := optionalNumber (bytesOf "shared:") l.optional.tail,
    master := optionalNumber (bytesOf "master:") l.optional.tail,
    propagateFrom := optionalNumber (bytesOf "propagate_from:") l.optional.tail,
    type := l.type, source := l.source, fsOption := l.fsOption }

end MountLine

section Scanned

variable {l : MountLine} {uninit : Nat -> Nat}

theorem notMem_optional (h : l.WellFormed) {b : Byte} (hblank : b ≠ 0x20)
    (hb : b ∈ ([0x00, 0x0a, 0x2d] : List Byte)) : b ∉ l.optional := by
  intro hno
  rcases List.mem_flatMap.mp hno with ⟨tag, htag, hmem⟩
  rcases List.mem_cons.mp hmem with heq | hmem
  · exact hblank heq
  · exact h.tags tag b htag hmem hb

/-- What follows the options begins with a blank. -/
theorem takeWhile_optional (l : MountLine) (rest : List Byte) :
    (l.optional ++ 0x20 :: rest).takeWhile (fun b => !isBlank b) = [] := by
  unfold MountLine.optional
  cases l.tags with
  | nil => rfl
  | cons tag tags => rfl

/-- The scan up to the target, whatever stands there. -/
theorem scan_front (target : List Byte)
    (h : MountLine.WellFormed { l with target := target }) {rest : List Byte}
    (hstop : rest.takeWhile (fun b => !isBlank b) = []) :
    let p0 := l.numbers.length
    let p1 := p0 + l.root.length
    Scan.scan mountFormat ⟨l.numbers ++ (l.root ++ rest), 0, [], []⟩ =
      Scan.scan (mountFormat.drop 11)
        ⟨rest, p1, [l.id, l.parent, l.major, l.minor], [p0, p1]⟩ := by
  have hlength : l.numbers.length = 0 + (decText l.id).length + 1 +
      (decText l.parent).length + 1 + (decText l.major).length + 1 +
      (decText l.minor).length + 1 := by
    simp [MountLine.numbers]
    omega
  have htext : l.numbers ++ (l.root ++ rest) =
      decText l.id ++ 0x20 :: (decText l.parent ++ 0x20 ::
        (decText l.major ++ 0x3a :: (decText l.minor ++ 0x20 :: (l.root ++ rest)))) := by
    simp [MountLine.numbers]
  intro p0 p1
  rw [htext, mountFormat,
    scan_number h.id_fits rfl, scan_blank (takeWhile_isBlank_word (word_decText _)),
    scan_number h.parent_fits rfl, scan_blank (takeWhile_isBlank_word (word_decText _)),
    scan_number h.major_fits rfl, scan_literal,
    scan_number h.minor_fits rfl, scan_blank (takeWhile_isBlank_word h.root.word),
    scan_field h.root.word hstop, ← hlength]
  rfl

/-- Where the scan of a line puts its positions. -/
theorem scan_text (h : l.WellFormed) :
    let p0 := l.numbers.length
    let p1 := p0 + l.root.length
    let p3 := p1 + 1 + l.target.length
    let p5 := p3 + 1 + l.vfsOption.length
    let p7 := p5 + (l.optional ++ [0x20]).length
    let p9 := p7 + 1 + 1 + l.type.length
    let p11 := p9 + 1 + l.source.length
    let p13 := p11 + 1 + l.fsOption.length
    Scan.scan mountFormat ⟨l.text, 0, [], []⟩ =
      ⟨[0x0a], p13, [l.id, l.parent, l.major, l.minor],
        [p0, p1, p1 + 1, p3, p3 + 1, p5, p5, p7, p7 + 1 + 1, p9, p9 + 1, p11,
          p11 + 1, p13]⟩ := by
  have hdash : 0x2d ∉ l.optional ++ [0x20] := by
    intro hno
    rcases List.mem_append.mp hno with hno | hno
    · exact notMem_optional h (by decide) (by decide) hno
    · revert hno
      decide
  have htext : l.text =
      l.numbers ++ (l.root ++ 0x20 :: (l.target ++ 0x20 ::
        (l.vfsOption ++ (l.optional ++ 0x20 :: 0x2d :: 0x20 ::
          (l.type ++ 0x20 :: (l.source ++ 0x20 :: (l.fsOption ++ [0x0a]))))))) := by
    simp [MountLine.text, MountLine.body, MountLine.afterOptions]
  intro p0 p1 p3 p5 p7 p9 p11 p13
  rw [htext, scan_front l.target h rfl, mountFormat]
  simp only [List.drop_succ_cons, List.drop_zero]
  rw [scan_blank (takeWhile_isBlank_word h.target.word),
    scan_field h.target.word rfl, scan_blank (takeWhile_isBlank_word h.vfsOption.word),
    scan_field h.vfsOption.word (takeWhile_optional l _), List.append_cons, scan_position,
    scan_upTo (List.append_ne_nil_of_right_ne_nil _ (List.cons_ne_nil _ _)) hdash,
    scan_position, scan_no_blank rfl, scan_literal,
    scan_blank (takeWhile_isBlank_word h.type.word),
    scan_field h.type.word rfl, scan_blank (takeWhile_isBlank_word h.source.word),
    scan_field h.source.word rfl, scan_blank (takeWhile_isBlank_word h.fsOption.word),
    scan_field h.fsOption.word rfl, Scan.scan]
  rfl

theorem substr_field (before after : List Byte) {line w : List Byte} {start stop : Nat}
    (hline : line = before ++ (w ++ after)) (hstart : start = before.length)
    (hstop : stop = start + w.length) :
    substr line start ((stop : Int) - start) = some w := by
  have hlen : ((stop : Int) - start) = w.length := by omega
  have hin : ¬ line.length < start := by
    rw [hline, hstart, List.length_append]
    omega
  have hpos : ¬ ((w.length : Int) < 0) := by omega
  rw [substr, if_neg hin, hlen, if_neg hpos, hline, hstart, List.drop_left,
    Int.toNat_natCast, List.take_left]

/-- The optional fields, without the blank before and the one after them. -/
theorem substr_optional (before after : List Byte) {line optional : List Byte}
    {start : Nat} (hline : line = before ++ (optional ++ 0x20 :: after))
    (hstart : start = before.length) :
    substr line (start + 1)
      (max (((start + (optional ++ [0x20]).length : Nat) : Int) - 1 - (start + 1)) 0) =
      some optional.tail := by
  have hin : ¬ line.length < start + 1 := by
    rw [hline, hstart, List.length_append, List.length_append, List.length_cons]
    omega
  cases optional with
  | nil =>
      have hlen : max (((start + (([] : List Byte) ++ [0x20]).length : Nat) : Int) - 1 -
          (start + 1)) 0 = 0 := by
        rw [List.nil_append, List.length_singleton]
        omega
      rw [substr, if_neg hin, hlen]
      rfl
  | cons b rest =>
      have hlen : max (((start + ((b :: rest) ++ [0x20]).length : Nat) : Int) - 1 -
          (start + 1)) 0 = rest.length := by
        rw [List.length_append, List.length_cons, List.length_singleton]
        omega
      have hpos : ¬ ((rest.length : Int) < 0) := by omega
      have hdrop : line.drop (start + 1) = rest ++ 0x20 :: after := by
        rw [hline, hstart, ← List.drop_drop, List.drop_left]
        rfl
      rw [substr, if_neg hin, hlen, if_neg hpos, hdrop, Int.toNat_natCast,
        List.take_left, List.tail_cons]

theorem parseLine_text (h : l.WellFormed) : parseLine uninit l.text = some l.entry := by
  -- what stands before each field but the first, and after it
  let a2 := l.numbers ++ (l.root ++ [0x20])
  let a4 := a2 ++ (l.target ++ [0x20])
  let a6 := a4 ++ l.vfsOption
  let a8 := a6 ++ (l.optional ++ [0x20, 0x2d, 0x20])
  let a10 := a8 ++ (l.type ++ [0x20])
  let a12 := a10 ++ (l.source ++ [0x20])
  let t10 := 0x20 :: (l.fsOption ++ [0x0a])
  let t8 := 0x20 :: (l.source ++ t10)
  let t6 := 0x2d :: 0x20 :: (l.type ++ t8)
  let t4 := l.optional ++ 0x20 :: t6
  let t2 := 0x20 :: (l.vfsOption ++ t4)
  let t0 := 0x20 :: (l.target ++ t2)
  have h0 : l.text = l.numbers ++ (l.root ++ t0) := by
    simp [t0, t2, t4, t6, t8, t10, MountLine.text, MountLine.body,
      MountLine.afterOptions]
  have h2 : l.text = a2 ++ (l.target ++ t2) := by
    rw [h0]
    simp [a2, t0]
  have h4 : l.text = a4 ++ (l.vfsOption ++ t4) := by
    rw [h2]
    simp [a4, t2]
  have h6 : l.text = a6 ++ (l.optional ++ 0x20 :: t6) := by
    rw [h4]
    simp [a6, t4]
  have h8 : l.text = a8 ++ (l.type ++ t8) := by
    rw [h6]
    simp [a8, t6]
  have h10 : l.text = a10 ++ (l.source ++ t10) := by
    rw [h8]
    simp [a10, t8]
  have h12 : l.text = a12 ++ (l.fsOption ++ [0x0a]) := by
    rw [h10]
    simp [a12, t10]
  unfold parseLine
  rw [scan_text h]
  simp only [List.getD_cons_zero, List.getD_cons_succ]
  rw [substr_field l.numbers t0 h0 rfl rfl,
    substr_field a2 t2 h2 (by simp [a2]; omega) rfl,
    substr_field a4 t4 h4 (by simp [a4, a2]; omega) rfl,
    substr_optional a6 t6 h6 (by simp [a6, a4, a2]; omega),
    substr_field a8 t8 h8 (by simp [a8, a6, a4, a2]; omega) rfl,
    substr_field a10 t10 h10 (by simp [a10, a8, a6, a4, a2]; omega) rfl,
    substr_field a12 [0x0a] h12 (by simp [a12, a10, a8, a6, a4, a2]; omega) rfl]
  rfl

/-- A line has no newline but the one at its end, and no NUL. -/
theorem notMem_body (h : l.WellFormed) {b : Byte} (hb : b = 0x0a ∨ b = 0x00) :
    b ∉ l.body := by
  have hfield : forall w, TextField w -> b ∉ w := by
    intro w hw
    rcases hb with hb | hb
    · rw [hb]
      exact blank_notMem_word hw.word rfl
    · rw [hb]
      exact hw.text
  have hdec : forall n, b ∉ decText n := by
    rcases hb with hb | hb <;> rw [hb] <;> exact notMem_decText rfl
  have hoptional : b ∉ l.optional := by
    rcases hb with hb | hb <;> rw [hb] <;>
      exact notMem_optional h (by decide) (by decide)
  have hother : b ∉ ([0x20, 0x2d, 0x3a] : List Byte) := by
    rcases hb with hb | hb <;> rw [hb] <;> decide
  simp only [List.mem_cons, List.not_mem_nil, or_false, not_or] at hother
  simp only [MountLine.body, MountLine.numbers, MountLine.afterOptions, List.mem_append,
    List.mem_cons, hdec, hoptional, hfield l.root h.root, hfield l.target h.target,
    hfield l.vfsOption h.vfsOption, hfield l.type h.type, hfield l.source h.source,
    hfield l.fsOption h.fsOption, hother, List.not_mem_nil, or_self, not_false_eq_true]

/-- The lines of a text are read one by one. -/
theorem parseMountInfo_lines {bodies : List (List Byte)}
    (h : forall body, body ∈ bodies -> 0x0a ∉ body ∧ 0x00 ∉ body) :
    parseMountInfo uninit (bodies.flatMap (fun body => body ++ [0x0a])) =
      bodies.mapM (fun body => parseLine uninit (body ++ [0x0a])) := by
  unfold parseMountInfo
  induction bodies with
  | nil => rfl
  | cons body rest ih =>
      rcases h body List.mem_cons_self with ⟨hnl, hnul⟩
      have hcstr : cstr (body ++ [0x0a]) = body ++ [0x0a] := by
        apply cstr_eq_self
        rw [List.mem_append, not_or]
        exact ⟨hnul, by decide⟩
      rw [List.flatMap_cons, List.append_assoc, List.singleton_append,
        getlines_append hnl, List.mapM_cons, List.mapM_cons, hcstr,
        ih (fun body' hbody' => h body' (List.mem_cons_of_mem body hbody'))]

theorem mapM_eq_some {α β : Type} {f : α -> Option β} {g : α -> β} {l : List α}
    (h : forall a, a ∈ l -> f a = some (g a)) : l.mapM f = some (l.map g) := by
  induction l with
  | nil => rfl
  | cons a rest ih =>
      rw [List.mapM_cons, h a List.mem_cons_self,
        ih (fun b hb => h b (List.mem_cons_of_mem a hb))]
      rfl

theorem parseMountInfo_text {lines : List MountLine}
    (h : forall l, l ∈ lines -> l.WellFormed) :
    parseMountInfo uninit (lines.flatMap MountLine.text) =
      some (lines.map MountLine.entry) := by
  have hbodies : lines.flatMap MountLine.text =
      (lines.map MountLine.body).flatMap (fun body => body ++ [0x0a]) := by
    rw [List.flatMap_map]
    rfl
  rw [hbodies, parseMountInfo_lines]
  · rw [List.mapM_map]
    exact mapM_eq_some (fun l hl => parseLine_text (h l hl))
  · intro body hbody
    rcases List.mem_map.mp hbody with ⟨l, hl, heq⟩
    rw [← heq]
    exact ⟨notMem_body (h l hl) (Or.inl rfl), notMem_body (h l hl) (Or.inr rfl)⟩

end Scanned

/-!
# The line of a mount
-/

section Line

variable {m : Mount} {text : List Byte} {uninit : Nat -> Nat}

/-- A text without NUL and without the blanks that the kernel does not escape. -/
structure Printable (text : List Byte) : Prop where
  nonempty : text ≠ []
  plain : forall b, b ∈ text -> b ∉ ([0x00, 0x0b, 0x0c, 0x0d] : List Byte)

/-- The numbers of a mount are those of the kernel's types, and no field of it
is empty. -/
structure Listed (m : Mount) : Prop where
  id_fits : m.id < 2 ^ 32
  parent_fits : m.parent < 2 ^ 32
  major_fits : m.major < 2 ^ 32
  minor_fits : m.minor < 2 ^ 32
  root : Printable m.root
  target : Printable m.target
  fsType : Printable m.fsType
  source : Printable m.source
  vfsOptions : Word m.vfsOptions
  fsOptions : Word m.fsOptions
  options_text : 0x00 ∉ m.vfsOptions ++ m.fsOptions

theorem printable_iff (text : List Byte) :
    (text ≠ [] ∧ text.all (fun b => b ∉ ([0x00, 0x0b, 0x0c, 0x0d] : List Byte)) = true) <->
      Printable text := by
  simp only [List.all_eq_true, decide_eq_true_eq]
  exact ⟨fun h => ⟨h.left, h.right⟩, fun h => ⟨h.nonempty, h.plain⟩⟩

instance (text : List Byte) : Decidable (Printable text) :=
  decidable_of_iff _ (printable_iff text)

instance (m : Mount) : Decidable (Listed m) :=
  decidable_of_iff
    ((m.id < 2 ^ 32 ∧ m.parent < 2 ^ 32 ∧ m.major < 2 ^ 32 ∧ m.minor < 2 ^ 32) ∧
      (Printable m.root ∧ Printable m.target ∧ Printable m.fsType ∧
        Printable m.source) ∧
      Word m.vfsOptions ∧ Word m.fsOptions ∧ 0x00 ∉ m.vfsOptions ++ m.fsOptions)
    ⟨fun ⟨⟨hid, hparent, hmajor, hminor⟩, ⟨hroot, htarget, htype, hsource⟩,
        hvfs, hfs, htext⟩ =>
      ⟨hid, hparent, hmajor, hminor, hroot, htarget, htype, hsource, hvfs, hfs, htext⟩,
    fun h => ⟨⟨h.id_fits, h.parent_fits, h.major_fits, h.minor_fits⟩,
      ⟨h.root, h.target, h.fsType, h.source⟩, h.vfsOptions, h.fsOptions,
      h.options_text⟩⟩

/-- What `parse_mount_info` makes of a mount. -/
def entry (m : Mount) : MountInfo :=
  { id := m.id, parent := m.parent, device := makedev m.major m.minor,
    root := mangle PATH_ESCAPED m.root, target := mangle PATH_ESCAPED m.target,
    vfsOption := m.vfsOptions,
    shared := optionalNumber (bytesOf "shared:") m.optionalText.tail,
    master := optionalNumber (bytesOf "master:") m.optionalText.tail,
    propagateFrom := optionalNumber (bytesOf "propagate_from:") m.optionalText.tail,
    type := mangle NAME_ESCAPED m.fsType, source := mangle NAME_ESCAPED m.source,
    fsOption := m.fsOptions }

theorem mem_mangle {escaped : List Byte} {b : Byte} (h : b ∈ mangle escaped text) :
    (b ∈ text ∧ b ∉ escaped) ∨ exists c, b ∈ octal c := by
  rcases List.mem_flatMap.mp h with ⟨c, hc, hb⟩
  by_cases hesc : c ∈ escaped
  · rw [if_pos hesc] at hb
    exact Or.inr ⟨c, hb⟩
  · rw [if_neg hesc] at hb
    rw [List.mem_singleton.mp hb]
    exact Or.inl ⟨hc, hesc⟩

/-- The bytes of an escape are a backslash and digits. -/
theorem not_isBlank_octal (c : Byte) {b : Byte} (h : b ∈ octal c) :
    isBlank b = false ∧ b ≠ 0 := by
  have hall : forall c, (octal c).all (fun b => !isBlank b && b != 0) = true := by
    apply forall_byte
    decide +kernel
  have hb := List.all_eq_true.mp (hall c) b h
  rw [Bool.and_eq_true, Bool.not_eq_true', bne_iff_ne] at hb
  exact hb

theorem isBlank_cases (b : Byte) : isBlank b = true ->
    (b ∈ PATH_ESCAPED ∧ b ∈ NAME_ESCAPED) ∨
      b ∈ ([0x00, 0x0b, 0x0c, 0x0d] : List Byte) := by
  apply forall_byte (P := fun b => isBlank b = true ->
    (b ∈ PATH_ESCAPED ∧ b ∈ NAME_ESCAPED) ∨
      b ∈ ([0x00, 0x0b, 0x0c, 0x0d] : List Byte))
  decide +kernel

/-- The two sets of escaped bytes leave no blank in a printable text. -/
theorem word_mangle {escaped : List Byte}
    (hescaped : escaped = PATH_ESCAPED ∨ escaped = NAME_ESCAPED)
    (h : Printable text) : Word (mangle escaped text) := by
  constructor
  · exact fun hnil => h.nonempty (mangle_eq_nil hnil)
  · intro b hb
    rcases mem_mangle hb with ⟨hmem, hesc⟩ | ⟨c, hc⟩
    · cases hblank : isBlank b with
      | false => rfl
      | true =>
          rcases isBlank_cases b hblank with ⟨hpath, hname⟩ | hother
          · rcases hescaped with heq | heq
            · rw [heq] at hesc
              exact absurd hpath hesc
            · rw [heq] at hesc
              exact absurd hname hesc
          · exact absurd hother (h.plain b hmem)
    · exact (not_isBlank_octal c hc).left

theorem nul_notMem_mangle (escaped : List Byte) (h : Printable text) :
    0x00 ∉ mangle escaped text := by
  intro hno
  rcases mem_mangle hno with ⟨hmem, _⟩ | ⟨c, hc⟩
  · exact h.plain 0 hmem List.mem_cons_self
  · exact (not_isBlank_octal c hc).right rfl

/-- A byte that is in no name of an optional field, and no digit. -/
theorem notMem_optionalText {b : Byte} (hdigit : isDigit b = false)
    (hnames : b ∉ 0x20 :: (bytesOf "shared:" ++ bytesOf "master:" ++
      bytesOf "propagate_from:" ++ bytesOf "unbindable")) : b ∉ m.optionalText := by
  intro hno
  rcases List.mem_flatMap.mp hno with ⟨field, _, hfield⟩
  have hdec := notMem_decText hdigit
  simp only [List.mem_cons, List.mem_append, not_or] at hnames
  cases field <;>
    simp_all [OptionalField.text]

def asLine (m : Mount) : MountLine :=
  { id := m.id, parent := m.parent, major := m.major, minor := m.minor,
    root := mangle PATH_ESCAPED m.root, target := mangle PATH_ESCAPED m.target,
    vfsOption := m.vfsOptions, tags := m.optional.map OptionalField.text,
    type := mangle NAME_ESCAPED m.fsType, source := mangle NAME_ESCAPED m.source,
    fsOption := m.fsOptions }

theorem optional_asLine (m : Mount) : (asLine m).optional = m.optionalText :=
  List.flatMap_map _ _ _

theorem text_asLine (m : Mount) : (asLine m).text = m.line := by
  simp only [MountLine.text, MountLine.body, MountLine.numbers, MountLine.afterOptions,
    optional_asLine, Mount.line]
  simp [asLine]

theorem entry_asLine (m : Mount) : (asLine m).entry = entry m := by
  unfold MountLine.entry
  rw [optional_asLine]
  rfl

theorem textField_mangle {escaped : List Byte}
    (hescaped : escaped = PATH_ESCAPED ∨ escaped = NAME_ESCAPED)
    (h : Printable text) : TextField (mangle escaped text) :=
  ⟨word_mangle hescaped h, nul_notMem_mangle escaped h⟩

theorem tags_asLine (m : Mount) {tag : List Byte} {b : Byte} (htag : tag ∈ (asLine m).tags)
    (hb : b ∈ tag) : b ∉ ([0x00, 0x0a, 0x2d] : List Byte) := by
  have hmem : b ∈ m.optionalText := by
    rw [← optional_asLine]
    exact List.mem_flatMap.mpr ⟨tag, htag, List.mem_cons_of_mem _ hb⟩
  intro hno
  simp only [List.mem_cons, List.not_mem_nil, or_false] at hno
  rcases hno with hno | hno | hno
  · rw [hno] at hmem
    exact notMem_optionalText rfl (by decide) hmem
  · rw [hno] at hmem
    exact notMem_optionalText rfl (by decide) hmem
  · rw [hno] at hmem
    exact notMem_optionalText rfl (by decide) hmem

theorem wellFormed_asLine (h : Listed m) : (asLine m).WellFormed := by
  have hoptions := h.options_text
  rw [List.mem_append, not_or] at hoptions
  exact {
    id_fits := h.id_fits
    parent_fits := h.parent_fits
    major_fits := h.major_fits
    minor_fits := h.minor_fits
    root := textField_mangle (Or.inl rfl) h.root
    target := textField_mangle (Or.inl rfl) h.target
    vfsOption := ⟨h.vfsOptions, hoptions.left⟩
    tags := fun tag b => tags_asLine m
    type := textField_mangle (Or.inr rfl) h.fsType
    source := textField_mangle (Or.inr rfl) h.source
    fsOption := ⟨h.fsOptions, hoptions.right⟩ }

/-- `parse_mount_info` reads back what the kernel lists. -/
theorem parseMountInfo_mountinfo {mounts : List Mount}
    (h : forall m, m ∈ mounts -> Listed m) :
    parseMountInfo uninit (mountinfo mounts) = some (mounts.map entry) := by
  have hlines : mountinfo mounts = (mounts.map asLine).flatMap MountLine.text := by
    rw [mountinfo, List.flatMap_map]
    exact List.flatMap_congr (fun m _ => (text_asLine m).symm)
  rw [hlines, parseMountInfo_text]
  · rw [List.map_map]
    exact congrArg some (List.map_congr_left (fun m _ => entry_asLine m))
  · intro l hl
    rcases List.mem_map.mp hl with ⟨m, hm, heq⟩
    rw [← heq]
    exact wellFormed_asLine (h m hm)

end Line

end Injector
end ReZygisk
