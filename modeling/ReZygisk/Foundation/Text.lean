import ReZygisk.Foundation.Bytes

/-!
# Text

Numbers are written in decimal and in hexadecimal, and read with the conversions
of `sscanf`.  Words are separated by white space and lines end in a newline.
-/

namespace ReZygisk
namespace Foundation

def hexText (n : Nat) : List Byte :=
  bytesOf (String.ofList (Nat.toDigits 16 n))

def decText (n : Nat) : List Byte :=
  bytesOf (toString n)

/-- `isspace` -/
def isBlank (b : Byte) : Bool :=
  b == 0x20 || (0x09 ≤ b && b ≤ 0x0d)

def isDigit (b : Byte) : Bool :=
  48 ≤ b && b ≤ 57

def decValue (digits : List Byte) : Nat :=
  digits.foldl (fun value b => value * 10 + (b.toNat - 48)) 0

/-!
# Words
-/

section Words

variable {b : Byte} {w tail : List Byte}

/-- A text that `%*s` reads as a whole. -/
structure Word (w : List Byte) : Prop where
  nonempty : w ≠ []
  no_blank : forall b, b ∈ w -> isBlank b = false

theorem word_iff (w : List Byte) :
    (w ≠ [] ∧ w.all (fun b => !isBlank b) = true) <-> Word w := by
  simp only [List.all_eq_true, Bool.not_eq_true']
  exact ⟨fun h => ⟨h.left, h.right⟩, fun h => ⟨h.nonempty, h.no_blank⟩⟩

instance (w : List Byte) : Decidable (Word w) :=
  decidable_of_iff _ (word_iff w)

theorem takeWhile_run {p : Byte -> Bool} (hall : forall c, c ∈ w -> p c = true)
    (hstop : tail.takeWhile p = []) : (w ++ tail).takeWhile p = w := by
  rw [List.takeWhile_append_of_pos hall, hstop, List.append_nil]

theorem dropWhile_run {p : Byte -> Bool} (hall : forall c, c ∈ w -> p c = true)
    (hstop : tail.takeWhile p = []) : (w ++ tail).dropWhile p = tail := by
  have happend : (w ++ tail).takeWhile p ++ (w ++ tail).dropWhile p = w ++ tail :=
    List.takeWhile_append_dropWhile
  rw [takeWhile_run hall hstop] at happend
  exact List.append_cancel_left happend

theorem takeWhile_isBlank_word (hw : Word w) : (w ++ tail).takeWhile isBlank = [] := by
  cases w with
  | nil => exact absurd rfl hw.nonempty
  | cons b w =>
      have hnot : ¬ isBlank b = true := by
        rw [hw.no_blank b List.mem_cons_self]
        exact Bool.false_ne_true
      exact List.takeWhile_cons_of_neg hnot

theorem blank_notMem_word {w : List Byte} {b : Byte} (hw : Word w)
    (hb : isBlank b = true) : b ∉ w := by
  intro hno
  rw [hw.no_blank b hno] at hb
  cases hb

end Words

/-!
# Numbers
-/

/-- The digits of a number in any base. -/
theorem toDigits_digits {base : Nat} (hbase : 1 < base) (n : Nat) :
    exists ds : List Nat, Nat.toDigits base n = ds.map Nat.digitChar ∧ ds ≠ [] ∧
      (forall d, d ∈ ds -> d < base) ∧
      ds.foldl (fun val d => val * base + d) 0 = n := by
  induction n using Nat.strongRecOn with
  | ind n ih =>
      by_cases hsmall : n < base
      · refine ⟨[n], Nat.toDigits_of_lt_base hsmall, List.cons_ne_nil n [], ?_, ?_⟩
        · intro d hd
          rw [List.mem_singleton.mp hd]
          exact hsmall
        · rw [List.foldl_cons, List.foldl_nil, Nat.zero_mul, Nat.zero_add]
      · have hlarge : base ≤ n := Nat.le_of_not_lt hsmall
        have hlast : n % base < base := Nat.mod_lt n (by omega)
        rcases ih (n / base) (Nat.div_lt_self (by omega) hbase) with
          ⟨ds, htext, hne, hds, hvalue⟩
        refine ⟨ds ++ [n % base], ?_, List.append_ne_nil_of_left_ne_nil hne _, ?_, ?_⟩
        · rw [Nat.toDigits_of_base_le hbase hlarge, htext, List.map_append,
            List.map_singleton]
        · intro d hd
          rcases List.mem_append.mp hd with hd | hd
          · exact hds d hd
          · rw [List.mem_singleton.mp hd]
            exact hlast
        · rw [List.foldl_append, hvalue, List.foldl_cons, List.foldl_nil, Nat.mul_comm]
          exact Nat.div_add_mod n base

section Digits

variable {base : Nat} {byte : Nat -> Byte} {value : Byte -> Nat}

/-- Digits that are one byte each. -/
theorem bytesOf_toDigits (hbase : 1 < base)
    (hbyte : forall d, d < base -> String.utf8EncodeChar (Nat.digitChar d) = [byte d])
    (n : Nat) :
    exists ds : List Nat,
      bytesOf (String.ofList (Nat.toDigits base n)) = ds.map byte ∧ ds ≠ [] ∧
      (forall d, d ∈ ds -> d < base) ∧
      ds.foldl (fun val d => val * base + d) 0 = n := by
  rcases toDigits_digits hbase n with ⟨ds, htext, hne, hds, hvalue⟩
  refine ⟨ds, ?_, hne, hds, hvalue⟩
  unfold bytesOf
  rw [String.toList_ofList, htext, List.flatMap_map, ← List.flatMap_singleton' (ds.map byte),
    List.flatMap_map]
  exact List.flatMap_congr (fun d hd => hbyte d (hds d hd))

theorem foldl_digits (hvalue : forall d, d < base -> value (byte d) = d) {ds : List Nat}
    (hds : forall d, d ∈ ds -> d < base) (start : Nat) :
    (ds.map byte).foldl (fun val b => val * base + value b) start =
      ds.foldl (fun val d => val * base + d) start := by
  induction ds generalizing start with
  | nil => rfl
  | cons d rest ih =>
      rw [List.map_cons, List.foldl_cons, List.foldl_cons, hvalue d (hds d List.mem_cons_self)]
      exact ih (fun d' hd' => hds d' (List.mem_cons_of_mem d hd')) _

end Digits

def digitByte (d : Nat) : Byte :=
  UInt8.ofNat (48 + d)

/-- The digits of a number, as the kernel writes them. -/
theorem decText_digits (n : Nat) :
    exists ds : List Nat, decText n = ds.map digitByte ∧ ds ≠ [] ∧
      (forall d, d ∈ ds -> d < 10) ∧
      ds.foldl (fun val d => val * 10 + d) 0 = n := by
  have htext : decText n = bytesOf (String.ofList (Nat.toDigits 10 n)) := by
    unfold decText bytesOf
    rw [Nat.toString_eq_repr, Nat.toList_repr, String.toList_ofList]
  rw [htext]
  exact bytesOf_toDigits (by decide) (by decide) n

section Decimal

variable {b : Byte}

theorem decText_ne_nil (n : Nat) : decText n ≠ [] := by
  rcases decText_digits n with ⟨ds, htext, hne, _⟩
  rw [htext]
  exact fun hnil => hne (List.map_eq_nil_iff.mp hnil)

theorem isDigit_of_mem_decText {n : Nat} (h : b ∈ decText n) : isDigit b = true := by
  rcases decText_digits n with ⟨ds, htext, _, hds, _⟩
  rw [htext] at h
  rcases List.mem_map.mp h with ⟨d, hd, hb⟩
  have hall : forall d, d < 10 -> isDigit (digitByte d) = true := by decide
  rw [← hb]
  exact hall d (hds d hd)

theorem isBlank_of_isDigit (h : isDigit b = true) : isBlank b = false := by
  simp only [isDigit, Bool.and_eq_true, decide_eq_true_eq, UInt8.le_iff_toNat_le] at h
  simp only [isBlank, Bool.or_eq_false_iff, Bool.and_eq_false_imp, beq_eq_false_iff_ne,
    decide_eq_true_eq, decide_eq_false_iff_not, UInt8.le_iff_toNat_le]
  have hlow : (48 : Byte).toNat = 48 := rfl
  have hnine : (0x0d : Byte).toNat = 13 := rfl
  constructor
  · intro heq
    rw [heq] at h
    exact absurd h.left (by decide)
  · intro _
    omega

theorem word_decText (n : Nat) : Word (decText n) :=
  ⟨decText_ne_nil n, fun _ hb => isBlank_of_isDigit (isDigit_of_mem_decText hb)⟩

theorem decValue_decText (n : Nat) : decValue (decText n) = n := by
  rcases decText_digits n with ⟨ds, htext, _, hds, hvalue⟩
  have hbyte : forall d, d < 10 -> (digitByte d).toNat - 48 = d := by decide
  rw [decValue, htext, foldl_digits hbyte hds, hvalue]

theorem notMem_decText {b : Byte} (hb : isDigit b = false) (n : Nat) : b ∉ decText n := by
  intro hno
  rw [isDigit_of_mem_decText hno] at hb
  cases hb

end Decimal

def hexDigitByte (d : Nat) : Byte :=
  if d < 10 then digitByte d else UInt8.ofNat (87 + d)

def isHexDigit (b : Byte) : Bool :=
  isDigit b || (97 ≤ b && b ≤ 102) || (65 ≤ b && b ≤ 70)

def hexDigit (b : Byte) : Nat :=
  if isDigit b then b.toNat - 48
  else if 97 ≤ b then b.toNat - 87
  else b.toNat - 55

def hexValue (digits : List Byte) : Nat :=
  digits.foldl (fun value b => value * 16 + hexDigit b) 0

/-- `%0*x` -/
def hexPadded (width n : Nat) : List Byte :=
  List.replicate (width - (hexText n).length) 48 ++ hexText n

section Hexadecimal

theorem hexText_digits (n : Nat) :
    exists ds : List Nat, hexText n = ds.map hexDigitByte ∧ ds ≠ [] ∧
      (forall d, d ∈ ds -> d < 16) ∧
      ds.foldl (fun val d => val * 16 + d) 0 = n :=
  bytesOf_toDigits (by decide) (by decide) n

theorem hexPadded_ne_nil (width n : Nat) : hexPadded width n ≠ [] := by
  rcases hexText_digits n with ⟨ds, htext, hne, _⟩
  apply List.append_ne_nil_of_right_ne_nil
  rw [htext]
  exact fun hnil => hne (List.map_eq_nil_iff.mp hnil)

theorem isHexDigit_of_mem_hexPadded {width n : Nat} {b : Byte} (h : b ∈ hexPadded width n) :
    isHexDigit b = true := by
  rcases List.mem_append.mp h with hzero | h
  · rw [List.eq_of_mem_replicate hzero]
    rfl
  · rcases hexText_digits n with ⟨ds, htext, _, hds, _⟩
    rw [htext] at h
    rcases List.mem_map.mp h with ⟨d, hd, hb⟩
    have hall : forall d, d < 16 -> isHexDigit (hexDigitByte d) = true := by decide
    rw [← hb]
    exact hall d (hds d hd)

theorem hexValue_hexPadded (width n : Nat) : hexValue (hexPadded width n) = n := by
  have hzeros : forall k, (List.replicate k (48 : Byte)).foldl
      (fun value b => value * 16 + hexDigit b) 0 = 0 := by
    intro k
    induction k with
    | zero => rfl
    | succ k ih =>
        rw [List.replicate_succ, List.foldl_cons]
        exact ih
  rcases hexText_digits n with ⟨ds, htext, _, hds, hvalue⟩
  have hbyte : forall d, d < 16 -> hexDigit (hexDigitByte d) = d := by decide
  rw [hexValue, hexPadded, List.foldl_append, hzeros, htext, foldl_digits hbyte hds, hvalue]

theorem isBlank_of_isHexDigit (b : Byte) : isHexDigit b = true -> isBlank b = false := by
  apply forall_byte (P := fun b => isHexDigit b = true -> isBlank b = false)
  decide +kernel

theorem word_hexPadded (width n : Nat) : Word (hexPadded width n) :=
  ⟨hexPadded_ne_nil width n,
    fun b hb => isBlank_of_isHexDigit b (isHexDigit_of_mem_hexPadded hb)⟩

end Hexadecimal

/-!
# Conversions

Each takes what it reads from the front of a text, and fails if there is nothing
to convert.
-/

def scanRun (p : Byte -> Bool) (value : List Byte -> Nat) (text : List Byte) :
    Option (Nat × List Byte) :=
  if text.takeWhile p = [] then none
  else some (value (text.takeWhile p), text.dropWhile p)

/-- White space, an optional sign and a number of some bits. -/
def scanUnsigned (number : List Byte -> Option (Nat × List Byte)) (bits : Nat)
    (text : List Byte) : Option (Nat × List Byte) :=
  let start := text.dropWhile isBlank
  if start.head? = some 0x2d then
    (number start.tail).map (fun r => ((2 ^ bits - r.1 % 2 ^ bits) % 2 ^ bits, r.2))
  else if start.head? = some 0x2b then
    (number start.tail).map (fun r => (r.1 % 2 ^ bits, r.2))
  else (number start).map (fun r => (r.1 % 2 ^ bits, r.2))

/-- `%u` and `%lu` -/
def scanDec : Nat -> List Byte -> Option (Nat × List Byte) :=
  scanUnsigned (scanRun isDigit decValue)

/-- The digits of `%x` may follow `0x`. -/
def skipHexMark (text : List Byte) : List Byte :=
  if text.take 2 = [0x30, 0x78] ∨ text.take 2 = [0x30, 0x58] then text.drop 2 else text

/-- `%x` and `%lx` -/
def scanHex : Nat -> List Byte -> Option (Nat × List Byte) :=
  scanUnsigned (fun text => scanRun isHexDigit hexValue (skipHexMark text))

def scanLiteral (b : Byte) (text : List Byte) : Option (List Byte) :=
  if text.head? = some b then some text.tail else none

/-- `%s` with a width. -/
def scanWord (width : Nat) (text : List Byte) : Option (List Byte × List Byte) :=
  let start := text.dropWhile isBlank
  let w := (start.takeWhile (fun b => !isBlank b)).take width
  if w = [] then none else some (w, start.drop w.length)

section Conversions

theorem isBlank_of_mem_singleton (b : Byte) (h : b ∈ ([0x20] : List Byte)) :
    isBlank b = true := by
  rw [List.mem_singleton.mp h]
  rfl

variable {w tail : List Byte} {bits n : Nat} (lead : List Byte)

theorem scanRun_append {p : Byte -> Bool} {value : List Byte -> Nat} (hne : w ≠ [])
    (hall : forall b, b ∈ w -> p b = true) (hstop : tail.takeWhile p = []) :
    scanRun p value (w ++ tail) = some (value w, tail) := by
  rw [scanRun, takeWhile_run hall hstop, if_neg hne, dropWhile_run hall hstop]

theorem scanUnsigned_append {number : List Byte -> Option (Nat × List Byte)}
    (hlead : forall b, b ∈ lead -> isBlank b = true) (hw : Word w)
    (hsign : forall b, b ∈ w -> b ≠ 0x2d ∧ b ≠ 0x2b)
    (hnumber : number (w ++ tail) = some (n, tail)) (hn : n < 2 ^ bits) :
    scanUnsigned number bits (lead ++ (w ++ tail)) = some (n, tail) := by
  have hhead : forall b, (w ++ tail).head? = some b -> b ∈ w := by
    intro b hb
    rw [List.head?_append_of_ne_nil _ hw.nonempty] at hb
    exact List.mem_of_head? hb
  unfold scanUnsigned
  rw [dropWhile_run hlead (takeWhile_isBlank_word hw),
    if_neg (fun hminus => (hsign _ (hhead _ hminus)).left rfl),
    if_neg (fun hplus => (hsign _ (hhead _ hplus)).right rfl), hnumber, Option.map_some,
    Nat.mod_eq_of_lt hn]

theorem scanDec_decText (hlead : forall b, b ∈ lead -> isBlank b = true)
    (hn : n < 2 ^ bits) (hstop : tail.takeWhile isDigit = []) :
    scanDec bits (lead ++ (decText n ++ tail)) = some (n, tail) := by
  have hsign : forall b, b ∈ decText n -> b ≠ 0x2d ∧ b ≠ 0x2b := by
    intro b hb
    constructor
    · intro heq
      rw [heq] at hb
      exact notMem_decText rfl n hb
    · intro heq
      rw [heq] at hb
      exact notMem_decText rfl n hb
  have hrun : scanRun isDigit decValue (decText n ++ tail) =
      some (decValue (decText n), tail) :=
    scanRun_append (decText_ne_nil n) (fun b hb => isDigit_of_mem_decText hb) hstop
  rw [decValue_decText] at hrun
  exact scanUnsigned_append lead hlead (word_decText n) hsign hrun hn

/-- A byte that ends the digits of `%x`. -/
def endsHex (b : Byte) : Bool :=
  !isHexDigit b && b != 0x78 && b != 0x58

/-- No mark before a number: its digits are followed by no `x`. -/
theorem skipHexMark_append {b : Byte} (hall : forall c, c ∈ w -> isHexDigit c = true)
    (hne : w ≠ []) (hb : endsHex b = true) :
    skipHexMark (w ++ b :: tail) = w ++ b :: tail := by
  simp only [endsHex, Bool.and_eq_true, bne_iff_ne] at hb
  have hsecond : forall c, isHexDigit c = false -> b ≠ c ->
      (w ++ b :: tail).take 2 ≠ [0x30, c] := by
    intro c hc htail htake
    have hget : (w ++ b :: tail)[1]? = some c := by
      have := congrArg (fun l : List Byte => l[1]?) htake
      simpa [List.getElem?_take] using this
    cases w with
    | nil => exact hne rfl
    | cons first rest =>
        cases rest with
        | nil => exact htail (by simpa using hget)
        | cons second rest =>
            have heq : second = c := by simpa using hget
            have hmem := hall second (List.mem_cons_of_mem first List.mem_cons_self)
            rw [heq, hc] at hmem
            cases hmem
  rw [skipHexMark, if_neg]
  rintro (hno | hno)
  · exact hsecond 0x78 rfl hb.left.right hno
  · exact hsecond 0x58 rfl hb.right hno

theorem scanHex_hexPadded {width : Nat} {b : Byte}
    (hlead : forall c, c ∈ lead -> isBlank c = true) (hn : n < 2 ^ bits)
    (hb : endsHex b = true) :
    scanHex bits (lead ++ (hexPadded width n ++ b :: tail)) = some (n, b :: tail) := by
  have hall : forall c, c ∈ hexPadded width n -> isHexDigit c = true :=
    fun c hc => isHexDigit_of_mem_hexPadded hc
  have hsign : forall c, c ∈ hexPadded width n -> c ≠ 0x2d ∧ c ≠ 0x2b := by
    intro c hc
    have hdigit := hall c hc
    constructor
    · intro heq
      rw [heq] at hdigit
      cases hdigit
    · intro heq
      rw [heq] at hdigit
      cases hdigit
  have hstop : (b :: tail).takeWhile isHexDigit = [] := by
    simp only [endsHex, Bool.and_eq_true, Bool.not_eq_true'] at hb
    rw [List.takeWhile_cons_of_neg]
    rw [hb.left.left]
    exact Bool.false_ne_true
  have hrun : scanRun isHexDigit hexValue (skipHexMark (hexPadded width n ++ b :: tail)) =
      some (hexValue (hexPadded width n), b :: tail) := by
    rw [skipHexMark_append hall (hexPadded_ne_nil width n) hb]
    exact scanRun_append (hexPadded_ne_nil width n) hall hstop
  rw [hexValue_hexPadded] at hrun
  exact scanUnsigned_append lead hlead (word_hexPadded width n) hsign hrun hn

/-- A number at the front of a text, and one after a blank. -/
theorem scanHex_front {width : Nat} {b : Byte} (hn : n < 2 ^ bits) (hb : endsHex b = true) :
    scanHex bits (hexPadded width n ++ b :: tail) = some (n, b :: tail) := by
  rw [← List.nil_append (hexPadded width n ++ b :: tail)]
  exact scanHex_hexPadded [] (fun c hc => by cases hc) hn hb

theorem scanHex_blank {width : Nat} {b : Byte} (hn : n < 2 ^ bits) (hb : endsHex b = true) :
    scanHex bits (0x20 :: (hexPadded width n ++ b :: tail)) = some (n, b :: tail) := by
  rw [← List.singleton_append]
  exact scanHex_hexPadded [0x20] isBlank_of_mem_singleton hn hb

theorem scanLiteral_cons (b : Byte) (tail : List Byte) :
    scanLiteral b (b :: tail) = some tail :=
  if_pos rfl

theorem scanWord_append (hlead : forall b, b ∈ lead -> isBlank b = true) (hw : Word w) :
    scanWord w.length (lead ++ (w ++ tail)) = some (w, tail) := by
  have hall : forall b, b ∈ w -> (!isBlank b) = true := by
    intro b hb
    rw [hw.no_blank b hb]
    rfl
  have htake : ((w ++ tail).takeWhile (fun b => !isBlank b)).take w.length = w := by
    rw [List.takeWhile_append_of_pos hall, List.take_left]
  unfold scanWord
  rw [dropWhile_run hlead (takeWhile_isBlank_word hw)]
  simp only [htake, if_neg hw.nonempty, List.drop_left]

end Conversions

/-!
# Lines
-/

/-- The lines that `getline` gives, each with its end. -/
def getlines : List Byte -> List (List Byte)
  | [] => []
  | b :: rest =>
      if b = 0x0a then [b] :: getlines rest
      else
        match getlines rest with
        | [] => [[b]]
        | line :: lines => (b :: line) :: lines

theorem getlines_append {line rest : List Byte} (h : 0x0a ∉ line) :
    getlines (line ++ 0x0a :: rest) = (line ++ [0x0a]) :: getlines rest := by
  induction line with
  | nil => rw [List.nil_append, getlines, if_pos rfl, List.nil_append]
  | cons b line ih =>
      rw [List.mem_cons, not_or] at h
      rw [List.cons_append, getlines, if_neg (Ne.symm h.left), ih h.right]
      rfl

end Foundation
end ReZygisk
