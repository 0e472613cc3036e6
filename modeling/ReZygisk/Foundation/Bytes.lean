import Mathlib.Data.List.Basic
import Mathlib.Data.List.TakeWhile
import Mathlib.Algebra.Ring.Nat

/-!
# Bytes, little-endian numbers and C strings

Every wire format and every heap block of the model is a list of bytes.  This
module fixes the little-endian reading and writing of fixed-width numbers and
the reading of NUL-terminated text.
-/

namespace ReZygisk
namespace Foundation

abbrev Byte := UInt8

def bytesOf (text : String) : List Byte :=
  text.toList.flatMap String.utf8EncodeChar

/-- What holds of each of the 256 values holds of every byte. -/
theorem forall_byte {P : Byte -> Prop} (h : forall n, n < 256 -> P (UInt8.ofNat n))
    (b : Byte) : P b := by
  have hb := h b.toNat b.toNat_lt
  rw [UInt8.ofNat_toNat] at hb
  exact hb

/-!
# Little-endian numbers
-/

def leValue : List Byte -> Nat
  | [] => 0
  | b :: rest => b.toNat + 256 * leValue rest

def leBytes : Nat -> Nat -> List Byte
  | 0, _ => []
  | width + 1, n => UInt8.ofNat (n % 256) :: leBytes width (n / 256)

@[simp] theorem leBytes_length (width n : Nat) :
    (leBytes width n).length = width := by
  induction width generalizing n with
  | zero => rfl
  | succ width ih => simp [leBytes, ih]

theorem leValue_leBytes (width n : Nat) :
    leValue (leBytes width n) = n % 256 ^ width := by
  induction width generalizing n with
  | zero => simp [leBytes, leValue, Nat.mod_one]
  | succ width ih =>
      have hlow : (UInt8.ofNat (n % 256)).toNat = n % 256 := by
        simp
      unfold leBytes leValue
      rw [hlow, ih, Nat.pow_succ, Nat.mul_comm (256 ^ width) 256,
        Nat.mod_mul]

/-- The first bytes of a number are its low part. -/
theorem leValue_take (k : Nat) (bytes : List Byte) :
    leValue (bytes.take k) = leValue bytes % 256 ^ k := by
  induction k generalizing bytes with
  | zero => rw [List.take_zero, Nat.pow_zero, Nat.mod_one, leValue]
  | succ k ih =>
      cases bytes with
      | nil => rw [List.take_nil, leValue, Nat.zero_mod]
      | cons b rest =>
          have hb := b.toNat_lt
          have hlow : (b.toNat + 256 * leValue rest) % 256 = b.toNat := by omega
          have hhigh : (b.toNat + 256 * leValue rest) / 256 = leValue rest := by omega
          rw [List.take_succ_cons, leValue, leValue, ih, Nat.pow_succ,
            Nat.mul_comm (256 ^ k) 256, Nat.mod_mul, hlow, hhigh]

/-- A fixed-width number that fits its width is read back. -/
theorem leValue_leBytes_of_lt {width n : Nat} (h : n < 256 ^ width) :
    leValue (leBytes width n) = n := by
  rw [leValue_leBytes, Nat.mod_eq_of_lt h]

/-- A number that does not fill its width has a zero byte. -/
theorem zero_mem_leBytes {width n : Nat} (h : n < 256 ^ width) :
    (0 : Byte) ∈ leBytes (width + 1) n := by
  induction width generalizing n with
  | zero =>
      have hn : n = 0 := by omega
      rw [hn]
      exact List.mem_cons_self
  | succ width ih =>
      have hhigh : n / 256 < 256 ^ width := by
        rw [Nat.div_lt_iff_lt_mul (by decide), ← Nat.pow_succ]
        exact h
      exact List.mem_cons_of_mem _ (ih hhigh)

/-- The numbers of a list one after the other, from the k-th on. -/
theorem drop_flatMap_leBytes (width k : Nat) (ns : List Nat) :
    (ns.flatMap (leBytes width)).drop (k * width) = (ns.drop k).flatMap (leBytes width) := by
  induction k generalizing ns with
  | zero => rw [Nat.zero_mul, List.drop_zero, List.drop_zero]
  | succ k ih =>
      cases ns with
      | nil => rw [List.flatMap_nil, List.drop_nil, List.drop_nil, List.flatMap_nil]
      | cons n rest =>
          rw [List.flatMap_cons, Nat.succ_mul, Nat.add_comm, ← List.drop_drop,
            List.drop_left' (leBytes_length width n), ih, List.drop_succ_cons]

/-!
# C strings
-/

def cstr (block : List Byte) : List Byte :=
  block.takeWhile (fun b => b ≠ 0)

theorem not_mem_cstr (block : List Byte) : (0 : Byte) ∉ cstr block := by
  intro h
  have hne := List.mem_takeWhile_imp h
  simp at hne

theorem cstr_append {text : List Byte} (h : (0 : Byte) ∉ text)
    (rest : List Byte) :
    cstr (text ++ rest) = text ++ cstr rest := by
  unfold cstr
  rw [List.takeWhile_append_of_pos]
  intro b hb
  have hne : b ≠ 0 := by
    intro hzero
    rw [hzero] at hb
    exact h hb
  simpa using hne

/-- A text without NUL is read whole, with a terminator or without. -/
theorem cstr_eq_self {text : List Byte} (h : (0 : Byte) ∉ text) : cstr text = text := by
  have hall := cstr_append h []
  rw [List.append_nil] at hall
  rw [hall]
  exact List.append_nil text

theorem cstr_terminated {text : List Byte} (h : (0 : Byte) ∉ text) :
    cstr (text ++ [0]) = text := by
  rw [cstr_append h]
  exact List.append_nil text

/-- A block that holds a terminator is its text, the terminator and a rest. -/
theorem exists_rest_of_mem {block : List Byte} (h : (0 : Byte) ∈ block) :
    exists rest, block = cstr block ++ 0 :: rest := by
  induction block with
  | nil => cases h
  | cons b block ih =>
      unfold cstr at ih ⊢
      rcases eq_or_ne b 0 with hb | hb
      · exact ⟨block, by simp [hb]⟩
      · have hmem : (0 : Byte) ∈ block := by
          rcases List.mem_cons.mp h with h | h
          · exact absurd h.symm hb
          · exact h
        rcases ih hmem with ⟨rest, hrest⟩
        refine ⟨rest, ?_⟩
        rw [List.takeWhile_cons_of_pos (by simpa using hb), List.cons_append, ← hrest]

theorem cstr_append_of_mem {text : List Byte} (h : (0 : Byte) ∈ text) (rest : List Byte) :
    cstr (text ++ rest) = cstr text := by
  rcases exists_rest_of_mem h with ⟨rest', hrest'⟩
  conv_lhs => rw [hrest', List.append_assoc, cstr_append (not_mem_cstr text)]
  simp [cstr]

theorem cstr_eq_nil_iff (block : List Byte) :
    cstr block = [] <-> block = [] ∨ block.head? = some 0 := by
  unfold cstr
  cases block with
  | nil => simp
  | cons b rest =>
      by_cases hb : b = 0 <;> simp [hb]

/-- A text written over the start of a longer block is read back exactly when
it meets a terminator there. -/
theorem cstr_overwrite_iff {text block : List Byte}
    (hfree : (0 : Byte) ∉ text) (hlen : text.length < block.length) :
    cstr (text ++ block.drop text.length) = text <->
      block[text.length]? = some 0 := by
  have hdrop : block.drop text.length ≠ [] := by
    simpa using hlen
  rw [cstr_append hfree, List.append_right_eq_self, cstr_eq_nil_iff,
    List.head?_drop]
  exact or_iff_right hdrop

end Foundation
end ReZygisk
