import ReZygisk.Foundation.Text

/-!
# Lines read through a buffer

`fgets` reads a line up to the size of its buffer and leaves the rest of it to the
next call, so a loop over its results sees a long line in several pieces.
-/

namespace ReZygisk
namespace Foundation

/-- What `fgets` stores of the file in a buffer for `room` bytes and a
terminator, and what is left of the file. -/
def fgets : Nat -> List Byte -> List Byte × List Byte
  | _, [] => ([], [])
  | 0, file => ([], file)
  | room + 1, b :: file =>
      if b = 0x0a then ([b], file) else (b :: (fgets room file).1, (fgets room file).2)

/-- `while (fgets(line)) if (p(line)) break;` and the line it stops at.  Each pass
reads at least one byte, so fuel beyond the number of bytes is never used up. -/
def fgetsFind (room : Nat) (p : List Byte -> Bool) : Nat -> List Byte -> Option (List Byte)
  | 0, _ => none
  | _ + 1, [] => none
  | fuel + 1, b :: file =>
      let line := fgets room (b :: file)
      if p line.1 then some line.1 else fgetsFind room p fuel line.2

/-- The piece of a line that call number `i` reads. -/
def linePiece (room : Nat) (line : List Byte) (i : Nat) : List Byte :=
  (line.drop (room * i)).take room

/-- A line with its end, of which there may be none at the end of a file. -/
structure LineBefore (line rest : List Byte) : Prop where
  nonempty : line ≠ []
  single : (0x0a : Byte) ∉ line.dropLast
  ended : rest = [] ∨ line.getLast? = some 0x0a

/-!
# One call
-/

theorem fgets_line (room : Nat) {line rest : List Byte}
    (hsingle : (0x0a : Byte) ∉ line.dropLast)
    (hended : rest = [] ∨ line.getLast? = some 0x0a) :
    fgets room (line ++ rest) = (line.take room, line.drop room ++ rest) := by
  induction line generalizing room with
  | nil =>
      rcases hended with hrest | hno
      · rw [hrest]
        simp [fgets]
      · cases hno
  | cons b line ih =>
      cases room with
      | zero => rfl
      | succ room =>
          rw [List.cons_append, fgets]
          by_cases hb : b = 0x0a
          · have hlast : line = [] := by
              by_contra hmore
              rw [List.dropLast_cons_of_ne_nil hmore, hb] at hsingle
              exact hsingle List.mem_cons_self
            rw [if_pos hb, hlast]
            simp
          · have hsingle' : (0x0a : Byte) ∉ line.dropLast := by
              intro hno
              apply hsingle
              cases line with
              | nil => cases hno
              | cons c line => exact List.mem_cons_of_mem b hno
            have hended' : rest = [] ∨ line.getLast? = some 0x0a := by
              rcases hended with hrest | hend
              · exact Or.inl hrest
              · cases line with
                | nil =>
                    injection hend with hend
                    exact absurd hend hb
                | cons c line =>
                    rw [List.getLast?_cons_cons] at hend
                    exact Or.inr hend
            rw [if_neg hb, ih room hsingle' hended']
            rfl

/-- What is left of a line is a line, unless nothing is left. -/
theorem LineBefore.drop {line rest : List Byte} (h : LineBefore line rest) (room : Nat)
    (hmore : line.drop room ≠ []) : LineBefore (line.drop room) rest where
  nonempty := hmore
  single := by
    intro hno
    have hsplit : line.dropLast = line.take room ++ (line.drop room).dropLast := by
      rw [← List.dropLast_append_of_ne_nil hmore, List.take_append_drop]
    apply h.single
    rw [hsplit]
    exact List.mem_append_right _ hno
  ended := by
    rcases h.ended with hrest | hend
    · exact Or.inl hrest
    · right
      rw [List.getLast?_drop, if_neg, hend]
      intro hno
      exact hmore (List.drop_eq_nil_iff.mpr hno)

/-- A line is its text and a newline, or just its text. -/
theorem LineBefore.text_cases {line rest : List Byte} (h : LineBefore line rest) :
    line = line.takeWhile (fun b => b ≠ 0x0a) ++ [0x0a] ∨
      (line = line.takeWhile (fun b => b ≠ 0x0a) ∧ (0x0a : Byte) ∉ line) := by
  by_cases hmem : (0x0a : Byte) ∈ line
  · left
    rcases List.eq_nil_or_concat' line with hnil | ⟨front, b, hconcat⟩
    · exact absurd hnil h.nonempty
    · have hsingle := h.single
      rw [hconcat, List.dropLast_concat] at hsingle
      rw [hconcat, List.mem_append, List.mem_singleton, or_iff_right hsingle] at hmem
      have hall : forall c, c ∈ front -> decide (c ≠ 0x0a) = true := by
        intro c hc
        apply decide_eq_true
        intro hno
        rw [hno] at hc
        exact hsingle hc
      rw [hconcat, ← hmem, List.takeWhile_append_of_pos hall]
      simp
  · right
    refine ⟨?_, hmem⟩
    symm
    rw [List.takeWhile_eq_self_iff]
    intro c hc
    apply decide_eq_true
    intro hno
    rw [hno] at hc
    exact hmem hc

theorem linePiece_zero (room : Nat) (line : List Byte) :
    linePiece room line 0 = line.take room := by
  rw [linePiece, Nat.mul_zero, List.drop_zero]

theorem linePiece_drop (room : Nat) (line : List Byte) (i : Nat) :
    linePiece room (line.drop room) i = linePiece room line (i + 1) := by
  rw [linePiece, linePiece, List.drop_drop, Nat.mul_succ, Nat.add_comm]

/-!
# A loop over one line
-/

section Find

variable {room : Nat} {p : List Byte -> Bool}

theorem fgetsFind_succ {line rest : List Byte} (h : LineBefore line rest) (fuel : Nat) :
    fgetsFind room p (fuel + 1) (line ++ rest) =
      if p (linePiece room line 0) then some (linePiece room line 0)
      else fgetsFind room p fuel (line.drop room ++ rest) := by
  rcases List.exists_cons_of_ne_nil h.nonempty with ⟨b, line', hcons⟩
  have hread := fgets_line room h.single h.ended
  rw [linePiece_zero]
  rw [hcons, List.cons_append] at hread ⊢
  rw [fgetsFind, hread]

variable (hroom : 0 < room) (hp : p [] = false)

include hroom

theorem length_drop_lt {line : List Byte} (h : line ≠ []) (rest : List Byte) :
    (line.drop room ++ rest).length < (line ++ rest).length := by
  have hpos := List.length_pos_iff.mpr h
  rw [List.length_append, List.length_append, List.length_drop]
  omega

/-- A line with no piece to stop at is read over. -/
theorem fgetsFind_skip {line rest : List Byte} (h : LineBefore line rest)
    (hnone : forall i, p (linePiece room line i) = false) {fuel : Nat}
    (hfuel : (line ++ rest).length ≤ fuel) :
    exists fuel', rest.length ≤ fuel' ∧
      fgetsFind room p fuel (line ++ rest) = fgetsFind room p fuel' rest := by
  induction fuel generalizing line with
  | zero =>
      rw [List.length_append] at hfuel
      exact absurd (List.length_eq_zero_iff.mp (by omega)) h.nonempty
  | succ fuel ih =>
      have hshorter := length_drop_lt hroom h.nonempty rest
      rw [fgetsFind_succ h, hnone 0, if_neg Bool.false_ne_true]
      by_cases hmore : line.drop room = []
      · rw [hmore, List.nil_append] at hshorter ⊢
        exact ⟨fuel, by omega, rfl⟩
      · apply ih (h.drop room hmore)
        · intro i
          rw [linePiece_drop]
          exact hnone (i + 1)
        · omega

include hp

/-- The loop stops at the first piece it can. -/
theorem fgetsFind_found {line rest : List Byte} (h : LineBefore line rest) {i : Nat}
    (hi : p (linePiece room line i) = true)
    (hfirst : forall j, j < i -> p (linePiece room line j) = false) {fuel : Nat}
    (hfuel : (line ++ rest).length ≤ fuel) :
    fgetsFind room p fuel (line ++ rest) = some (linePiece room line i) := by
  induction i generalizing line fuel with
  | zero =>
      cases fuel with
      | zero =>
          rw [List.length_append] at hfuel
          exact absurd (List.length_eq_zero_iff.mp (by omega)) h.nonempty
      | succ fuel => rw [fgetsFind_succ h, hi, if_pos rfl]
  | succ i ih =>
      have hshorter := length_drop_lt hroom h.nonempty rest
      have hmore : line.drop room ≠ [] := by
        intro hno
        rw [← linePiece_drop, hno, linePiece, List.drop_nil, List.take_nil, hp] at hi
        cases hi
      cases fuel with
      | zero => omega
      | succ fuel =>
          rw [fgetsFind_succ h, hfirst 0 (Nat.succ_pos i), if_neg Bool.false_ne_true,
            ← linePiece_drop]
          apply ih (h.drop room hmore)
          · rw [linePiece_drop]
            exact hi
          · intro j hj
            rw [linePiece_drop]
            exact hfirst (j + 1) (Nat.succ_lt_succ hj)
          · omega

end Find

/-!
# A loop over a file
-/

theorem getlines_of_not_mem {content : List Byte} (hne : content ≠ [])
    (h : (0x0a : Byte) ∉ content) : getlines content = [content] := by
  induction content with
  | nil => exact absurd rfl hne
  | cons b rest ih =>
      rw [List.mem_cons, not_or] at h
      rw [getlines, if_neg (Ne.symm h.left)]
      cases rest with
      | nil => rfl
      | cons c rest => rw [ih (List.cons_ne_nil c rest) h.right]

/-- A file is its first line and what comes after it. -/
theorem getlines_cases {content : List Byte} (hne : content ≠ []) :
    exists line rest, content = line ++ rest ∧ LineBefore line rest ∧
      getlines content = line :: getlines rest := by
  by_cases hmem : (0x0a : Byte) ∈ content
  · rcases List.eq_append_cons_of_mem hmem with ⟨front, rest, heq, hfront⟩
    refine ⟨front ++ [0x0a], rest, ?_, ?_, ?_⟩
    · rw [heq, List.append_assoc, List.singleton_append]
    · constructor
      · simp
      · rw [List.dropLast_concat]
        exact hfront
      · right
        rw [List.getLast?_concat]
    · rw [heq, getlines_append hfront]
  · refine ⟨content, [], (List.append_nil _).symm, ?_, ?_⟩
    · constructor
      · exact hne
      · exact fun hno => hmem (List.dropLast_subset _ hno)
      · exact Or.inl rfl
    · exact getlines_of_not_mem hne hmem

theorem exists_of_getlines_cons {content line : List Byte} {lines : List (List Byte)}
    (h : getlines content = line :: lines) :
    exists rest, content = line ++ rest ∧ LineBefore line rest ∧ getlines rest = lines := by
  have hne : content ≠ [] := by
    intro hno
    rw [hno] at h
    cases h
  rcases getlines_cases hne with ⟨line', rest, heq, hline, hcons⟩
  rw [hcons] at h
  injection h with hsame hrest
  rw [hsame] at heq hline
  exact ⟨rest, heq, hline, hrest⟩

theorem exists_lineBefore {content line : List Byte} {before after : List (List Byte)}
    (h : getlines content = before ++ line :: after) : exists rest, LineBefore line rest := by
  induction before generalizing content with
  | nil =>
      rcases exists_of_getlines_cons h with ⟨rest, _, hline, _⟩
      exact ⟨rest, hline⟩
  | cons l before ih =>
      rcases exists_of_getlines_cons h with ⟨rest, _, _, hrest⟩
      exact ih hrest

section File

variable {room : Nat} (hroom : 0 < room) {p : List Byte -> Bool}

include hroom

theorem fgetsFind_none {content : List Byte}
    (hnone : forall line, line ∈ getlines content -> forall i,
      p (linePiece room line i) = false) {fuel : Nat} (hfuel : content.length ≤ fuel) :
    fgetsFind room p fuel content = none := by
  induction hlines : getlines content generalizing content fuel with
  | nil =>
      have hempty : content = [] := by
        by_contra hne
        rcases getlines_cases hne with ⟨line, rest, _, _, hno⟩
        rw [hlines] at hno
        cases hno
      rw [hempty]
      cases fuel <;> rfl
  | cons line lines ih =>
      rcases exists_of_getlines_cons hlines with ⟨rest, heq, hline, hrest⟩
      rw [hlines] at hnone
      rw [heq] at hfuel ⊢
      rcases fgetsFind_skip hroom hline (hnone line List.mem_cons_self) hfuel with
        ⟨fuel', hfuel', hskip⟩
      rw [hskip]
      apply ih _ hfuel' hrest
      intro l hl
      rw [hrest] at hl
      exact hnone l (List.mem_cons_of_mem _ hl)

theorem fgetsFind_first (hp : p [] = false) {content line : List Byte}
    {before after : List (List Byte)} (hlines : getlines content = before ++ line :: after)
    (hbefore : forall l, l ∈ before -> forall i, p (linePiece room l i) = false) {i : Nat}
    (hi : p (linePiece room line i) = true)
    (hfirst : forall j, j < i -> p (linePiece room line j) = false) {fuel : Nat}
    (hfuel : content.length ≤ fuel) :
    fgetsFind room p fuel content = some (linePiece room line i) := by
  induction before generalizing content fuel with
  | nil =>
      rcases exists_of_getlines_cons hlines with ⟨rest, heq, hline, _⟩
      rw [heq] at hfuel ⊢
      exact fgetsFind_found hroom hp hline hi hfirst hfuel
  | cons l before ih =>
      rcases exists_of_getlines_cons hlines with ⟨rest, heq, hline, hrest⟩
      rw [heq] at hfuel ⊢
      rcases fgetsFind_skip hroom hline (hbefore l List.mem_cons_self) hfuel with
        ⟨fuel', hfuel', hskip⟩
      rw [hskip]
      exact ih hrest (fun l' hl' => hbefore l' (List.mem_cons_of_mem _ hl')) hfuel'

end File

end Foundation
end ReZygisk
