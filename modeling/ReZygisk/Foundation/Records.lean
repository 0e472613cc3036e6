import Mathlib.Data.List.Basic
import Mathlib.Data.List.Zip
import Mathlib.Logic.Function.Basic

/-!
# Records of named values

The variables of a function are a record: a value for each of some names.  Others
may reach them through fields that refer to variables, and overwrite those one
after the other; what counts in the end is the last value that each was given.
-/

namespace ReZygisk
namespace Foundation

abbrev Record (name value : Type) := name -> Option value

variable {name field value client action : Type} [DecidableEq name]

/-!
# Writing
-/

def overwrite (r : Record name value) (writes : List (name × value)) : Record name value :=
  writes.foldl (fun r w => Function.update r w.1 (some w.2)) r

/-- The value of a variable that is `v` before the writes. -/
def lastWrite (writes : List (name × value)) (n : name) (v : value) : value :=
  writes.foldl (fun v w => if w.1 = n then w.2 else v) v

theorem overwrite_append (r : Record name value) (before after : List (name × value)) :
    overwrite r (before ++ after) = overwrite (overwrite r before) after :=
  List.foldl_append

theorem overwrite_apply {r : Record name value} {n : name} {v : value} (h : r n = some v)
    (writes : List (name × value)) :
    overwrite r writes n = some (lastWrite writes n v) := by
  induction writes generalizing r v with
  | nil => exact h
  | cons w rest ih =>
      apply ih
      show Function.update r w.1 (some w.2) n = some (if w.1 = n then w.2 else v)
      by_cases hn : w.1 = n
      · rw [if_pos hn, ← hn, Function.update_self]
      · rw [if_neg hn, Function.update_of_ne (Ne.symm hn), h]

theorem lastWrite_of_unwritten {writes : List (name × value)} {n : name}
    (h : forall w, w ∈ writes -> w.1 ≠ n) (v : value) : lastWrite writes n v = v := by
  induction writes with
  | nil => rfl
  | cons w rest ih =>
      show lastWrite rest n (if w.1 = n then w.2 else v) = v
      rw [if_neg (h w List.mem_cons_self)]
      exact ih (fun w' hw' => h w' (List.mem_cons_of_mem w hw'))

/-!
# Fields that refer to variables
-/

/-- Writing through a field; a field that refers to nothing cannot be written. -/
def assign (fields : field -> Option name) (r : Record name value) (w : field × value) :
    Option (Record name value) :=
  (fields w.1).map (fun n => Function.update r n (some w.2))

/-- The fields with the names in `p`, each of which refers to the variable that is
named as it is. -/
def ownFields (p : name -> Bool) : name -> Option name :=
  fun f => if p f then some f else none

omit [DecidableEq name] in
theorem read_ownFields (p : name -> Bool) (r : Record name value) (f : name) :
    (ownFields p f).bind r = if p f then r f else none := by
  unfold ownFields
  cases p f <;> rfl

theorem foldlM_assign (p : name -> Bool) (writes : List (name × value))
    (r : Record name value) :
    writes.foldlM (assign (ownFields p)) r =
      if writes.all (fun w => p w.1) then some (overwrite r writes) else none := by
  induction writes generalizing r with
  | nil => rfl
  | cons w rest ih =>
      rw [List.foldlM_cons, List.all_cons, assign, ownFields]
      cases hw : p w.1 with
      | false => rfl
      | true => exact ih _

/-!
# Parameters
-/

/-- The variables of a function that is entered with these values. -/
def bindNames (names : List name) (values : List value) : Record name value :=
  fun n => (names.zip values).lookup n

theorem bindNames_of_mem {names : List name} (h : names.Nodup) {values : List value}
    {n : name} {v : value} (hmem : (n, v) ∈ names.zip values) :
    bindNames names values n = some v := by
  unfold bindNames
  induction names generalizing values with
  | nil => cases hmem
  | cons first names ih =>
      cases values with
      | nil => cases hmem
      | cons value values =>
          rw [List.nodup_cons] at h
          rw [List.zip_cons_cons, List.lookup_cons]
          rcases List.mem_cons.mp hmem with heq | hrest
          · cases heq
            rw [beq_self_eq_true]
          · have hne : n ≠ first := by
              intro hno
              rw [hno] at hrest
              exact h.left (List.of_mem_zip hrest).left
            rw [beq_false_of_ne hne]
            exact ih h.right hrest

theorem exists_bindNames {names : List name} {values : List value}
    (hlength : values.length = names.length) {n : name} (hn : n ∈ names) :
    exists v, bindNames names values n = some v := by
  unfold bindNames
  induction names generalizing values with
  | nil => cases hn
  | cons first names ih =>
      cases values with
      | nil => cases hlength
      | cons value values =>
          rw [List.zip_cons_cons, List.lookup_cons]
          by_cases hfirst : n = first
          · rw [hfirst, beq_self_eq_true]
            exact ⟨value, rfl⟩
          · rw [beq_false_of_ne hfirst]
            rcases List.mem_cons.mp hn with hno | hrest
            · exact absurd hno hfirst
            · exact ih (Nat.succ.inj hlength) hrest

/-- Passing on all the variables after some writes. -/
theorem mapM_overwrite {names : List name} {values : List value} {r : Record name value}
    (hlength : values.length = names.length)
    (h : forall n v, (n, v) ∈ names.zip values -> r n = some v)
    (writes : List (name × value)) :
    names.mapM (overwrite r writes) = some (List.zipWith (lastWrite writes) names values) := by
  induction names generalizing values with
  | nil =>
      rw [List.length_nil, List.length_eq_zero_iff] at hlength
      rw [hlength]
      rfl
  | cons n names ih =>
      cases values with
      | nil => cases hlength
      | cons v values =>
          rw [List.mapM_cons, overwrite_apply (h n v List.mem_cons_self) writes,
            ih (Nat.succ.inj hlength) (fun n' v' hmem => h n' v' (List.mem_cons_of_mem _ hmem))]
          rfl

/-!
# Clients in turn
-/

/-- Clients act one after the other.  Each is shown the variables it can see, as the
ones before it have left them. -/
def turns (sees : client -> name -> Bool) (act : client -> Record name value -> action)
    (writes : action -> List (name × value)) :
    Record name value -> List client -> List (client × action)
  | _, [] => []
  | r, c :: rest =>
      let a := act c (fun n => if sees c n then r n else none)
      (c, a) :: turns sees act writes (overwrite r (writes a)) rest

end Foundation
end ReZygisk
