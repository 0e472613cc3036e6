import Mathlib.Data.List.Range
import ReZygisk.Foundation.Loop

/-!
# Chains

A hash table and a linked list are searched by following links from a first
node until a node answers or the links end.  A chain is a finite run of such
links; searching along it is searching the list of its nodes.  A table may also
store each bucket as a run of consecutive indices whose last member is marked,
and such a run is a chain too.
-/

namespace ReZygisk
namespace Foundation

/-- One pass of a search along links. -/
def chase (next : node -> Option node) (hit : node -> Option result) :
    Option node -> LoopStep (Option node) (Option result)
  | none => LoopStep.done none
  | some n =>
      match hit n with
      | some r => LoopStep.done (some r)
      | none => LoopStep.again (next n)

/-- From `start` the links visit exactly the nodes of the list and end. -/
inductive Chain (next : node -> Option node) : Option node -> List node -> Prop where
  | nil : Chain next none []
  | cons {n : node} {ns : List node} (h : Chain next (next n) ns) : Chain next (some n) (n :: ns)

section Searching

variable {next : node -> Option node} {hit : node -> Option result}
variable {start : Option node} {ns : List node}

theorem chase_hit {n : node} {r : result} (h : hit n = some r) :
    chase next hit (some n) = LoopStep.done (some r) := by
  simp only [chase, h]

theorem chase_miss {n : node} (h : hit n = none) :
    chase next hit (some n) = LoopStep.again (next n) := by
  simp only [chase, h]

theorem iterate_chase (h : Chain next start ns) (extra : Nat) :
    iterate (chase next hit) (ns.length + 1 + extra) start = some (ns.findSome? hit) := by
  apply iterate_add
  induction h with
  | nil => rfl
  | @cons n ns h ih =>
      rw [List.length_cons, List.findSome?_cons]
      unfold iterate
      cases hhit : hit n with
      | none =>
          rw [chase_miss hhit]
          exact ih
      | some r => rw [chase_hit hhit]

theorem iterate_chase_of_lt {fuel : Nat} (h : Chain next start ns) (hfuel : ns.length < fuel) :
    iterate (chase next hit) fuel start = some (ns.findSome? hit) := by
  have hsearch := @iterate_chase _ _ next hit start ns h (fuel - (ns.length + 1))
  rw [Nat.add_sub_cancel' hfuel] at hsearch
  exact hsearch

/-- The links decide the chain. -/
theorem Chain.unique {ns' : List node} (h : Chain next start ns) (h' : Chain next start ns') :
    ns = ns' := by
  induction h generalizing ns' with
  | nil =>
      cases h'
      rfl
  | cons h ih =>
      cases h' with
      | cons h' => rw [ih h']

theorem Chain.suffix_of_mem {n : node} (h : Chain next start ns) (hn : n ∈ ns) :
    exists ns', Chain next (some n) (n :: ns') ∧ n :: ns' <:+ ns := by
  induction h with
  | nil => cases hn
  | @cons n' ns' h ih =>
      cases hn with
      | head => exact ⟨ns', Chain.cons h, List.suffix_rfl⟩
      | tail _ hn =>
          rcases ih hn with ⟨ns'', hchain, hsuffix⟩
          exact ⟨ns'', hchain, hsuffix.trans (List.suffix_cons n' ns')⟩

/-- A chain that ends visits no node twice. -/
theorem Chain.nodup (h : Chain next start ns) : ns.Nodup := by
  induction h with
  | nil => exact List.nodup_nil
  | cons h ih =>
      rw [List.nodup_cons]
      constructor
      · intro hn
        rcases h.suffix_of_mem hn with ⟨ns', hchain, hsuffix⟩
        have hlen := hsuffix.length_le
        rw [hchain.unique (Chain.cons h)] at hlen
        exact Nat.lt_irrefl _ hlen
      · exact ih

theorem Chain.congr {next' : node -> Option node} (h : Chain next start ns)
    (hnext : forall n, n ∈ ns -> next' n = next n) : Chain next' start ns := by
  induction h with
  | nil => exact Chain.nil
  | @cons n ns h ih =>
      apply Chain.cons
      rw [hnext n List.mem_cons_self]
      exact ih (fun n' hn' => hnext n' (List.mem_cons_of_mem n hn'))

end Searching

/-!
# Walks that change what they visit
-/

/-- One pass of a loop that visits every node and follows the links it then
finds. -/
def walk (next : state -> node -> Option node) (visit : state -> node -> state) :
    state × Option node -> LoopStep (state × Option node) state
  | (s, none) => LoopStep.done s
  | (s, some n) => LoopStep.again (visit s n, next (visit s n) n)

/-- A walk whose visits leave the links alone visits the nodes of the chain. -/
theorem iterate_walk {next : state -> node -> Option node} {visit : state -> node -> state}
    {link : node -> Option node} {start : Option node} {ns : List node} {I : state -> Prop}
    (h : Chain link start ns) (hvisit : forall s n, n ∈ ns -> I s -> I (visit s n))
    (hlinks : forall s n, n ∈ ns -> I s -> next s n = link n) {s : state} (hs : I s) {fuel : Nat}
    (hfuel : ns.length < fuel) :
    iterate (walk next visit) fuel (s, start) = some (ns.foldl visit s) := by
  induction h generalizing s fuel with
  | nil =>
      cases fuel with
      | zero => cases hfuel
      | succ fuel => rfl
  | @cons n ns h ih =>
      cases fuel with
      | zero => cases hfuel
      | succ fuel =>
          have hn : n ∈ n :: ns := List.mem_cons_self
          have hafter := hvisit s n hn hs
          have hrest := ih (fun s n' hn' => hvisit s n' (List.mem_cons_of_mem n hn'))
            (fun s n' hn' => hlinks s n' (List.mem_cons_of_mem n hn')) hafter
            (Nat.lt_of_succ_lt_succ hfuel)
          unfold iterate
          rw [List.foldl_cons, ← hrest, ← hlinks (visit s n) n hn hafter]
          rfl

/-!
# Buckets stored as runs

The indices from `first` below `limit` are sorted by their bucket, and the last
index of each bucket carries a mark.
-/

structure BucketRuns (bucket : Nat -> Nat) (marked : Nat -> Bool) (first limit : Nat) : Prop where
  ascending : forall i, first ≤ i -> i + 1 < limit -> bucket i ≤ bucket (i + 1)
  marked_iff : forall i, first ≤ i -> i < limit ->
    (marked i = true <-> i + 1 = limit ∨ bucket (i + 1) ≠ bucket i)

def runNext (marked : Nat -> Bool) (i : Nat) : Option Nat :=
  if marked i then none else some (i + 1)

/-- The first index of the bucket, when the bucket has one. -/
structure RunStart (bucket : Nat -> Nat) (first limit b : Nat) (start : Option Nat) : Prop where
  inside : forall i, start = some i -> first ≤ i ∧ i < limit ∧ bucket i = b
  least : forall j, first ≤ j -> j < limit -> bucket j = b ->
    exists i, start = some i ∧ i ≤ j

namespace BucketRuns

variable {bucket : Nat -> Nat} {marked : Nat -> Bool} {first limit : Nat}

theorem mono (h : BucketRuns bucket marked first limit) {i j : Nat} (hi : first ≤ i)
    (hij : i ≤ j) (hj : j < limit) : bucket i ≤ bucket j := by
  induction j, hij using Nat.le_induction with
  | base => exact Nat.le_refl (bucket i)
  | succ j hij ih =>
      have hstep := h.ascending j (Nat.le_trans hi hij) hj
      exact Nat.le_trans (ih (Nat.lt_of_succ_lt hj)) hstep

/-- Past the marked index of its bucket a run has no further member. -/
theorem filter_past_marked (h : BucketRuns bucket marked first limit) {i : Nat}
    (hi : first ≤ i) (hlimit : i < limit) (hmarked : marked i = true) (len : Nat)
    (hlen : i + 1 + len ≤ limit) :
    (List.range' (i + 1) len).filter (fun j => bucket j = bucket i) = [] := by
  rw [List.filter_eq_nil_iff]
  intro j hj heq
  rw [List.mem_range'_1] at hj
  rw [decide_eq_true_eq] at heq
  rcases (h.marked_iff i hi hlimit).mp hmarked with hend | hother
  · omega
  · have hlow := h.ascending i hi (by omega)
    have hhigh : bucket (i + 1) ≤ bucket j := h.mono (Nat.le_succ_of_le hi) hj.left (by omega)
    omega

theorem chain_from (h : BucketRuns bucket marked first limit) (len i : Nat)
    (hi : first ≤ i) (hlen : i + len + 1 = limit) :
    Chain (runNext marked) (some i)
      ((List.range' i (len + 1)).filter (fun j => bucket j = bucket i)) := by
  induction len generalizing i with
  | zero =>
      have hlast : marked i = true := (h.marked_iff i hi (by omega)).mpr (Or.inl hlen)
      rw [List.range'_succ, List.filter_cons_of_pos (by simp)]
      apply Chain.cons
      rw [runNext, if_pos hlast]
      exact Chain.nil
  | succ len ih =>
      rw [List.range'_succ, List.filter_cons_of_pos (by simp)]
      apply Chain.cons
      cases hmarked : marked i with
      | true =>
          rw [h.filter_past_marked hi (by omega) hmarked (len + 1) (by omega), runNext,
            if_pos hmarked]
          exact Chain.nil
      | false =>
          have hsame : bucket (i + 1) = bucket i := by
            by_contra hother
            have hend := (h.marked_iff i hi (by omega)).mpr (Or.inr hother)
            rw [hmarked] at hend
            cases hend
          have hrest := ih (i + 1) (by omega) (by omega)
          rw [hsame] at hrest
          rw [runNext, if_neg (by rw [hmarked]; exact Bool.false_ne_true)]
          exact hrest

/-- A search from the start of a bucket visits the members of the bucket in
ascending order. -/
theorem chain_of_start (h : BucketRuns bucket marked first limit) {b : Nat} {start : Option Nat}
    (hstart : RunStart bucket first limit b start) :
    Chain (runNext marked) start
      ((List.range' first (limit - first)).filter (fun j => bucket j = b)) := by
  cases start with
  | none =>
      have hnone : (List.range' first (limit - first)).filter (fun j => bucket j = b) = [] := by
        rw [List.filter_eq_nil_iff]
        intro j hj heq
        rw [List.mem_range'_1] at hj
        rcases hstart.least j hj.left (by omega) (of_decide_eq_true heq) with ⟨i, hi, _⟩
        cases hi
      rw [hnone]
      exact Chain.nil
  | some i =>
      rcases hstart.inside i rfl with ⟨hfirst, hlimit, hbucket⟩
      have hsplit : List.range' first (limit - first) =
          List.range' first (i - first) ++ List.range' i (limit - i - 1 + 1) := by
        have happend := List.range'_append_1 (s := first) (m := i - first) (n := limit - i)
        rw [Nat.add_sub_cancel' hfirst] at happend
        have hlen : i - first + (limit - i) = limit - first := by omega
        have hpos : limit - i - 1 + 1 = limit - i := by omega
        rw [hlen] at happend
        rw [hpos, happend]
      have hbefore : (List.range' first (i - first)).filter (fun j => bucket j = b) = [] := by
        rw [List.filter_eq_nil_iff]
        intro j hj heq
        rw [List.mem_range'_1] at hj
        rcases hstart.least j hj.left (by omega) (of_decide_eq_true heq) with ⟨i', hi', hle⟩
        injection hi' with hi'
        omega
      rw [hsplit, List.filter_append, hbefore, List.nil_append, ← hbucket]
      exact h.chain_from (limit - i - 1) i hfirst (by omega)

end BucketRuns

/-- A search that only some nodes can answer may skip the others. -/
theorem findSome?_filter_eq {hit hit' : node -> Option result} {p : node -> Bool} {ns : List node}
    (hkept : forall n, n ∈ ns -> hit n = hit' n)
    (hskipped : forall n, n ∈ ns -> p n = false -> hit' n = none) :
    (ns.filter p).findSome? hit = ns.findSome? hit' := by
  induction ns with
  | nil => rfl
  | cons n ns ih =>
      have hrest := ih (fun n' hn' => hkept n' (List.mem_cons_of_mem n hn'))
        (fun n' hn' => hskipped n' (List.mem_cons_of_mem n hn'))
      cases hp : p n with
      | true =>
          rw [List.filter_cons_of_pos hp, List.findSome?_cons, List.findSome?_cons, hrest,
            hkept n List.mem_cons_self]
      | false =>
          rw [List.filter_cons_of_neg (by rw [hp]; exact Bool.false_ne_true),
            List.findSome?_cons, hskipped n List.mem_cons_self hp, hrest]

/-!
# Bloom words
-/

/-- A word that has both bits passes the filter's test. -/
theorem bloom_passes {word a b : Nat} (ha : word.testBit a = true) (hb : word.testBit b = true) :
    (1 <<< a ||| 1 <<< b) &&& word = 1 <<< a ||| 1 <<< b := by
  apply Nat.eq_of_testBit_eq
  intro i
  rw [Nat.testBit_and, Nat.testBit_or, Nat.one_shiftLeft, Nat.one_shiftLeft,
    Nat.testBit_two_pow, Nat.testBit_two_pow]
  rcases eq_or_ne a i with rfl | hai
  · simp [ha]
  · rcases eq_or_ne b i with rfl | hbi
    · simp [hb]
    · simp [hai, hbi]

/-!
# Tables filled once for each key
-/

def emplace [BEq key] (table : List (key × value)) (k : key) (v : value) : List (key × value) :=
  match table.lookup k with
  | some _ => table
  | none => table ++ [(k, v)]

theorem lookup_emplace [BEq key] [LawfulBEq key] (table : List (key × value)) (k k' : key)
    (v : value) :
    (emplace table k v).lookup k' =
      (table.lookup k').or (if k' == k then some v else none) := by
  unfold emplace
  cases hk : table.lookup k with
  | some w =>
      cases heq : k' == k with
      | true => rw [beq_iff_eq.mp heq, hk, Option.some_or]
      | false => rw [if_neg Bool.false_ne_true, Option.or_none]
  | none =>
      show (table ++ [(k, v)]).lookup k' = _
      rw [List.lookup_append, List.lookup_cons, List.lookup_nil]
      cases k' == k with
      | true => rfl
      | false => rfl

/-- Values added one after the other under their keys, those that are not kept
left out: a key leads to the first kept value that has it. -/
theorem lookup_foldl_emplace [BEq key] [LawfulBEq key] (kept : value -> Bool) (keyOf : value -> key)
    (values : List value) (table : List (key × value)) (k : key) :
    (values.foldl (fun table v => if kept v then emplace table (keyOf v) v else table) table).lookup
        k =
      (table.lookup k).or (values.find? (fun v => kept v && keyOf v == k)) := by
  induction values generalizing table with
  | nil => rw [List.foldl_nil, List.find?_nil, Option.or_none]
  | cons v values ih =>
      rw [List.foldl_cons, ih]
      cases hkept : kept v with
      | false =>
          rw [if_neg Bool.false_ne_true, List.find?_cons_of_neg (by simp [hkept])]
      | true =>
          rw [if_pos rfl, lookup_emplace, Option.or_assoc]
          cases heq : k == keyOf v with
          | true =>
              rw [if_pos rfl, Option.some_or,
                List.find?_cons_of_pos (by simp [hkept, beq_iff_eq.mp heq])]
          | false =>
              have hne : keyOf v ≠ k := Ne.symm (beq_eq_false_iff_ne.mp heq)
              rw [if_neg Bool.false_ne_true, Option.none_or,
                List.find?_cons_of_neg (by simp [hne])]

end Foundation
end ReZygisk
