import ReZygisk.Foundation.Bytes

/-!
# Byte-addressed memory

Memory is a total map from addresses to bytes.  A write replaces a run of
bytes, a read returns one, and a write that is cut short replaces only the
start of its run.
-/

namespace ReZygisk
namespace Foundation

abbrev Memory := Nat -> Byte

namespace Memory

variable {m : Memory} {addr a : Nat} {bytes : List Byte}

def write (m : Memory) (addr : Nat) (bytes : List Byte) : Memory :=
  fun a => if addr ≤ a then (bytes[a - addr]?).getD (m a) else m a

def read (m : Memory) (addr len : Nat) : List Byte :=
  (List.range len).map (fun i => m (addr + i))

@[simp] theorem read_length (m : Memory) (addr len : Nat) :
    (m.read addr len).length = len := by
  simp [read]

theorem read_getElem? (m : Memory) (addr : Nat) {len i : Nat} (h : i < len) :
    (m.read addr len)[i]? = some (m (addr + i)) := by
  simp [read, h]

theorem take_read (m : Memory) (addr : Nat) {k len : Nat} (h : k ≤ len) :
    (m.read addr len).take k = m.read addr k := by
  rw [read, read, ← List.map_take, List.take_range, Nat.min_eq_left h]

/-!
# Frames
-/

theorem write_of_ge (h : addr + bytes.length ≤ a) :
    m.write addr bytes a = m a := by
  have hnone : bytes[a - addr]? = none := by
    rw [List.getElem?_eq_none_iff]
    omega
  simp [write, hnone]

def AgreeFrom (bound : Nat) (m m' : Memory) : Prop :=
  forall a, bound ≤ a -> m' a = m a

theorem agreeFrom_refl (bound : Nat) (m : Memory) : AgreeFrom bound m m := by
  intro a _
  rfl

theorem AgreeFrom.trans {bound bound' : Nat} {m m' m'' : Memory}
    (h : AgreeFrom bound m m') (h' : AgreeFrom bound' m' m'')
    (hle : bound' ≤ bound) : AgreeFrom bound m m'' := by
  intro a ha
  rw [h' a (Nat.le_trans hle ha), h a ha]

theorem agreeFrom_write {bound : Nat} (h : addr + bytes.length ≤ bound) :
    AgreeFrom bound m (m.write addr bytes) := by
  intro a ha
  exact write_of_ge (Nat.le_trans h ha)

theorem read_congr {m' : Memory} {len : Nat}
    (h : forall i, i < len -> m (addr + i) = m' (addr + i)) :
    m.read addr len = m'.read addr len := by
  apply List.map_congr_left
  intro i hi
  exact h i (List.mem_range.mp hi)

theorem AgreeFrom.read_eq {bound len : Nat} {m m' : Memory}
    (h : AgreeFrom bound m m') (hle : bound ≤ addr) :
    m'.read addr len = m.read addr len := by
  apply read_congr
  intro i _
  exact h (addr + i) (by omega)

/-- A write that touches nothing of what is read. -/
theorem read_write_apart {addr' len : Nat}
    (h : addr + bytes.length ≤ addr' ∨ addr' + len ≤ addr) :
    (m.write addr bytes).read addr' len = m.read addr' len := by
  apply read_congr
  intro i hi
  rcases h with h | h
  · exact write_of_ge (by omega)
  · rw [write, if_neg (by omega)]

/-- A read in two parts. -/
theorem read_split (m : Memory) (addr : Nat) {len len' : Nat} (h : len ≤ len') :
    m.read addr len' = m.read addr len ++ m.read (addr + len) (len' - len) := by
  have hsum : len' = len + (len' - len) := by omega
  unfold read
  conv_lhs => rw [hsum, List.range_add, List.map_append, List.map_map]
  congr 1
  apply List.map_congr_left
  intro i _
  simp [Nat.add_assoc]

/-!
# Reading back
-/

theorem read_write (m : Memory) (addr : Nat) (bytes : List Byte) {len : Nat}
    (h : bytes.length ≤ len) :
    (m.write addr bytes).read addr len =
      bytes ++ (m.read addr len).drop bytes.length := by
  apply List.ext_getElem?
  intro i
  by_cases hi : i < len
  · rw [read_getElem? _ _ hi]
    by_cases hin : i < bytes.length
    · rw [List.getElem?_append_left hin]
      simp [write, hin]
    · rw [List.getElem?_append_right (Nat.not_lt.mp hin), List.getElem?_drop,
        Nat.add_sub_cancel' (Nat.not_lt.mp hin), read_getElem? _ _ hi,
        write_of_ge (by omega)]
  · rw [List.getElem?_eq_none (by simpa using Nat.not_lt.mp hi),
      List.getElem?_eq_none (by simp; omega)]

/-- A part of what was written. -/
theorem read_write_part (m : Memory) (addr : Nat) {i len : Nat} (h : i + len ≤ bytes.length) :
    (m.write addr bytes).read (addr + i) len = (bytes.drop i).take len := by
  apply List.ext_getElem?
  intro j
  by_cases hj : j < len
  · have hin : addr + i + j - addr = i + j := by omega
    have hle : addr ≤ addr + i + j := by omega
    rw [read_getElem? _ _ hj, List.getElem?_take_of_lt hj, List.getElem?_drop, write, if_pos hle,
      hin, List.getElem?_eq_getElem (by omega), Option.getD_some]
  · rw [List.getElem?_eq_none (by simpa using Nat.not_lt.mp hj),
      List.getElem?_eq_none (by simp; omega)]

/-- A run of bytes whose write was cut after `k` bytes is there exactly when
memory already held the rest of it. -/
theorem read_write_take_eq_iff (m : Memory) (addr k : Nat) (bytes : List Byte) :
    (m.write addr (bytes.take k)).read addr bytes.length = bytes <->
      (m.read addr bytes.length).drop k = bytes.drop k := by
  have hlen : (bytes.take k).length ≤ bytes.length := by
    rw [List.length_take]
    exact Nat.min_le_right _ _
  have hdrop : (m.read addr bytes.length).drop (bytes.take k).length =
      (m.read addr bytes.length).drop k := by
    rw [List.length_take]
    cases Nat.le_total k bytes.length with
    | inl hk => rw [Nat.min_eq_left hk]
    | inr hk =>
        rw [Nat.min_eq_right hk, List.drop_eq_nil_of_le (by simp),
          List.drop_eq_nil_of_le (by simpa using hk)]
  rw [read_write m addr _ hlen, hdrop]
  constructor
  · intro h
    have htake := congrArg (List.drop (bytes.take k).length) h
    rw [List.drop_left] at htake
    rw [htake, List.length_take]
    cases Nat.le_total k bytes.length with
    | inl hk => rw [Nat.min_eq_left hk]
    | inr hk =>
        rw [Nat.min_eq_right hk, List.drop_length, List.drop_eq_nil_of_le hk]
  · intro h
    rw [h, List.take_append_drop]

end Memory

end Foundation
end ReZygisk
