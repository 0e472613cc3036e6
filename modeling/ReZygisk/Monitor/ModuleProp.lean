import ReZygisk.Foundation.Search
import ReZygisk.Monitor.Transitions

/-!
# The module description

`prepare_environment` reads the module's own `module.prop` and splits it at the
description, where every status file inserts its text.  The three nested read
loops are the search of `Foundation.Search`: on a mismatch the byte that was read
is not looked at again.
-/

namespace ReZygisk
namespace InitMonitor

open Foundation
open Kernel

def fieldName : List Byte := bytesOf "description="

/-!
# The sections
-/

def SECTION_SIZE : Nat := 1024

/-- `pre_section` or `post_section`, with room for its terminator. -/
structure PropSection where
  bytes : List Byte
  fits : bytes.length < SECTION_SIZE

def PropSection.empty : PropSection :=
  ⟨[], by decide⟩

/-- Append a byte and a terminator; `none` if the buffer is overrun. -/
def PropSection.put (s : PropSection) (c : Byte) : Option PropSection :=
  if h : s.bytes.length + 1 < SECTION_SIZE then
    some ⟨s.bytes ++ [c], by rw [List.length_append]; exact h⟩
  else
    none

def PropSection.putAll (s : PropSection) : List Byte -> Option PropSection
  | [] => some s
  | c :: rest => (s.put c).bind (fun s => s.putAll rest)

theorem PropSection.bytes_put {s s' : PropSection} {c : Byte} (h : s.put c = some s') :
    s'.bytes = s.bytes ++ [c] := by
  unfold PropSection.put at h
  split at h
  · injection h with h
    rw [← h]
  · cases h

theorem PropSection.putAll_eq (s : PropSection) (new : List Byte) :
    (s.putAll new).map PropSection.bytes =
      if s.bytes.length + new.length < SECTION_SIZE then some (s.bytes ++ new) else none := by
  induction new generalizing s with
  | nil =>
      rw [List.append_nil, List.length_nil, Nat.add_zero, if_pos s.fits]
      rfl
  | cons c rest ih =>
      unfold PropSection.putAll
      cases hput : s.put c with
      | some s' =>
          have hbytes := PropSection.bytes_put hput
          rw [Option.bind_some, ih s', hbytes, List.length_append, List.append_assoc,
            List.length_singleton, List.singleton_append, List.length_cons,
            Nat.add_assoc, Nat.add_comm 1]
      | none =>
          have hfull : ¬ s.bytes.length + 1 < SECTION_SIZE := by
            intro hroom
            unfold PropSection.put at hput
            rw [dif_pos hroom] at hput
            cases hput
          rw [if_neg]
          · rfl
          · rw [List.length_cons]
            omega

theorem PropSection.putAll_empty (new : List Byte) :
    (PropSection.empty.putAll new).map PropSection.bytes =
      if new.length < SECTION_SIZE then some new else none := by
  have hput := PropSection.putAll_eq PropSection.empty new
  have hlength : PropSection.empty.bytes.length + new.length = new.length :=
    Nat.zero_add _
  rw [hlength] at hput
  exact hput

/-!
# The read loops
-/

mutual

/-- The outer loop.  At the end of the file all three loops end. -/
def readPre (i : Nat) (pre post : PropSection) :
    List Byte -> Option (PropSection × PropSection)
  | [] => some (pre, post)
  | c :: file =>
      match pre.put c with
      | none => none
      | some pre =>
          if fieldName[0]? ≠ some c then readPre i pre post file
          else readField i pre post file

/-- The loop over the field name, with `i` bytes of it read. -/
def readField (i : Nat) (pre post : PropSection) :
    List Byte -> Option (PropSection × PropSection)
  | [] => some (pre, post)
  | c :: file =>
      if fieldName[i]? = some c then
        if i + 1 = fieldName.length then
          match pre.put c with
          | none => none
          | some pre => readPost (i + 1) pre post file
        else
          match pre.put c with
          | none => none
          | some pre => readField (i + 1) pre post file
      else
        match pre.put c with
        | none => none
        | some pre => readPre 1 pre post file

/-- The innermost loop. -/
def readPost (i : Nat) (pre post : PropSection) :
    List Byte -> Option (PropSection × PropSection)
  | [] => some (pre, post)
  | c :: file =>
      match post.put c with
      | none => none
      | some post => readPost (i + 1) pre post file

end

/-- What `prepare_environment` comes to: there is no `module.prop` and the
monitor exits, a section is overrun, or the first status file is written. -/
inductive Prepared where
  | noModuleProp
  | overrun
  | ready (m : Monitor)

/-- With the content of `./module.prop`, if it can be opened. -/
def prepareEnvironment : Option (List Byte) -> Prepared
  | none => Prepared.noModuleProp
  | some content =>
      match readPre 1 PropSection.empty PropSection.empty content with
      | none => Prepared.overrun
      | some (pre, post) =>
          Prepared.ready (updateStatus
            { preSection := cstr pre.bytes, postSection := cstr post.bytes })

/-!
# The loops as a search
-/

/-- Both sections extended. -/
def storeParts (pre post : PropSection) (parts : List Byte × List Byte) :
    Option (PropSection × PropSection) :=
  (pre.putAll parts.1).bind (fun pre => (post.putAll parts.2).map (fun post => (pre, post)))

theorem storeParts_cons (pre post : PropSection) (c : Byte) (front back : List Byte) :
    storeParts pre post (c :: front, back) =
      match pre.put c with
      | none => none
      | some pre => storeParts pre post (front, back) := by
  unfold storeParts
  simp only [PropSection.putAll]
  cases pre.put c <;> rfl

theorem readPost_eq (i : Nat) (pre post : PropSection) (file : List Byte) :
    readPost i pre post file = storeParts pre post ([], file) := by
  induction file generalizing i post with
  | nil => rfl
  | cons c file ih =>
      rw [readPost]
      unfold storeParts
      simp only [PropSection.putAll]
      cases post.put c with
      | none => rfl
      | some post => exact ih (i + 1) post

theorem read_eq_cut (file : List Byte) :
    (forall pre post, readPre 1 pre post file =
      storeParts pre post (cut fieldName 0 file)) ∧
    (forall i pre post, readField i pre post file =
      storeParts pre post (cut fieldName i file)) := by
  induction file with
  | nil =>
      constructor
      · intro pre post
        rfl
      · intro i pre post
        rfl
  | cons c file ih =>
      rcases ih with ⟨ihPre, ihField⟩
      constructor
      · intro pre post
        have hlong : fieldName.length ≠ 0 ∧ fieldName.length ≠ 1 := by decide
        rw [readPre, cut]
        by_cases hc : fieldName[0]? = some c
        · have hstep : advance fieldName 0 c = 1 := by
            rw [advance, if_pos hc]
          rw [hstep, if_neg hlong.right.symm, storeParts_cons]
          simp only [hc, ne_eq, not_true_eq_false, if_false, ihField]
        · have hstep : advance fieldName 0 c = 0 := by
            rw [advance, if_neg hc]
          rw [hstep, if_neg hlong.left.symm, storeParts_cons]
          simp only [hc, ne_eq, not_false_eq_true, if_true, ihPre]
      · intro i pre post
        rw [readField, cut]
        by_cases hc : fieldName[i]? = some c
        · have hstep : advance fieldName i c = i + 1 := by
            rw [advance, if_pos hc]
          rw [hstep, if_pos hc]
          by_cases hlast : i + 1 = fieldName.length
          · rw [if_pos hlast, if_pos hlast, storeParts_cons]
            simp only [readPost_eq]
          · rw [if_neg hlast, if_neg hlast, storeParts_cons]
            simp only [ihField]
        · have hstep : advance fieldName i c = 0 := by
            rw [advance, if_neg hc]
          have hlong : fieldName.length ≠ 0 := by decide
          rw [hstep, if_neg hc, if_neg hlong.symm, storeParts_cons]
          simp only [ihPre]

theorem map_bytes_storeParts (front back : List Byte) :
    (storeParts PropSection.empty PropSection.empty (front, back)).map
        (fun parts => (parts.1.bytes, parts.2.bytes)) =
      if front.length < SECTION_SIZE ∧ back.length < SECTION_SIZE then some (front, back)
      else none := by
  have hpre := PropSection.putAll_empty front
  have hpost := PropSection.putAll_empty back
  unfold storeParts
  by_cases hfront : front.length < SECTION_SIZE
  · rw [if_pos hfront] at hpre
    rcases Option.map_eq_some_iff.mp hpre with ⟨pre, hputPre, hbytesPre⟩
    rw [hputPre, Option.bind_some]
    by_cases hback : back.length < SECTION_SIZE
    · rw [if_pos hback] at hpost
      rcases Option.map_eq_some_iff.mp hpost with ⟨post, hputPost, hbytesPost⟩
      rw [hputPost, if_pos ⟨hfront, hback⟩, Option.map_some, Option.map_some, hbytesPre,
        hbytesPost]
    · rw [if_neg hback] at hpost
      rw [Option.map_eq_none_iff.mp hpost, if_neg (fun hno => hback hno.right)]
      rfl
  · rw [if_neg hfront] at hpre
    rw [Option.map_eq_none_iff.mp hpre, if_neg (fun hno => hfront hno.left)]
    rfl

/-- The sections are what the search makes of the content, if they fit. -/
theorem prepareEnvironment_eq (content : List Byte) :
    prepareEnvironment (some content) =
      if (cut fieldName 0 content).1.length < SECTION_SIZE ∧
          (cut fieldName 0 content).2.length < SECTION_SIZE then
        Prepared.ready (updateStatus
          { preSection := cstr (cut fieldName 0 content).1,
            postSection := cstr (cut fieldName 0 content).2 })
      else
        Prepared.overrun := by
  have hstored := map_bytes_storeParts (cut fieldName 0 content).1 (cut fieldName 0 content).2
  rw [prepareEnvironment, (read_eq_cut content).left]
  split at hstored
  · rename_i hfits
    rcases Option.map_eq_some_iff.mp hstored with ⟨parts, hparts, hbytes⟩
    injection hbytes with hpre hpost
    rw [hparts, if_pos hfits, ← hpre, ← hpost]
  · rename_i hfull
    rw [Option.map_eq_none_iff.mp hstored, if_neg hfull]

/-- Without a NUL the sections are read back as a whole. -/
theorem prepareEnvironment_of_free {content : List Byte} (hfree : (0 : Byte) ∉ content) :
    prepareEnvironment (some content) =
      if (cut fieldName 0 content).1.length < SECTION_SIZE ∧
          (cut fieldName 0 content).2.length < SECTION_SIZE then
        Prepared.ready (updateStatus
          { preSection := (cut fieldName 0 content).1,
            postSection := (cut fieldName 0 content).2 })
      else
        Prepared.overrun := by
  rw [← cut_append (p := fieldName) 0 content, List.mem_append, not_or] at hfree
  rw [prepareEnvironment_eq, cstr_eq_self hfree.left, cstr_eq_self hfree.right]

/-!
# Every status file
-/

/-- The sections stand around whatever has been written. -/
structure WritesAround (pre post : List Byte) (m : Monitor) : Prop where
  preSection : m.preSection = pre
  postSection : m.postSection = post
  written : forall text, Effect.writeProp text ∈ m.effects ->
    exists m', text = pre ++ bytesOf "[" ++ renderStatus m' ++ bytesOf "] " ++ post

theorem writesAround_update {pre post : List Byte} {m m' : Monitor} (h : Update m m')
    (hm : WritesAround pre post m) : WritesAround pre post m' := by
  have hkept : forall m1 : Monitor, m1.preSection = m.preSection ->
      m1.postSection = m.postSection -> m1.effects = m.effects ->
      WritesAround pre post m1 := by
    intro m1 hpre hpost heffects
    constructor
    · exact hpre.trans hm.preSection
    · exact hpost.trans hm.postSection
    · rw [heffects]
      exact hm.written
  cases h with
  | emit e hother =>
      constructor
      · exact hm.preSection
      · exact hm.postSection
      · intro text htext
        rcases List.mem_append.mp htext with hold | hnew
        · exact hm.written text hold
        · exact absurd (List.mem_singleton.mp hnew).symm (hother text)
  | write =>
      constructor
      · exact hm.preSection
      · exact hm.postSection
      · intro text htext
        rcases List.mem_append.mp htext with hold | hnew
        · exact hm.written text hold
        · injection List.mem_singleton.mp hnew with htext
          rw [htext, hm.preSection, hm.postSection]
          exact ⟨m, rfl⟩
  | status abi s => cases abi <;> exact hkept _ rfl rfl rfl
  | counter abi c => cases abi <;> exact hkept _ rfl rfl rfl
  | tracing _ _ => exact hkept _ rfl rfl rfl
  | members _ _ => exact hkept _ rfl rfl rfl
  | stop => exact hkept _ rfl rfl rfl

theorem writesAround_initial (pre post : List Byte) :
    WritesAround pre post (initial pre post) where
  preSection := rfl
  postSection := rfl
  written := by
    intro text htext
    rcases List.mem_cons.mp htext with hwrite | hseize
    · injection hwrite with hwrite
      exact ⟨{ preSection := pre, postSection := post }, hwrite⟩
    · cases List.mem_singleton.mp hseize

theorem writesAround_run {lp : Lp} {sysSigname : Nat -> List Byte} {pre post : List Byte}
    {events : List Event} {m : Monitor}
    (hrun : (system lp sysSigname).run (initial pre post) events = some m) :
    WritesAround pre post m := by
  refine TransitionSystem.run_invariant (I := WritesAround pre post) ?_
    (writesAround_initial pre post) (TransitionSystem.alongRun_true _ _) hrun
  intro s event s' hs _ hstep
  exact invariant_of_update (fun _ _ => writesAround_update) hstep hs

/-!
# The split
-/

/-- Every content without a NUL is split in two, before which the description
ends if the second part is not empty, and every status file is the content with
a text inserted there. -/
theorem prepareEnvironment_splits (content : List Byte) (hfree : (0 : Byte) ∉ content) :
    exists pre post, pre ++ post = content ∧
      (post ≠ [] -> fieldName <:+ pre) ∧
      prepareEnvironment (some content) =
        (if pre.length < SECTION_SIZE ∧ post.length < SECTION_SIZE then
          Prepared.ready (updateStatus { preSection := pre, postSection := post })
        else
          Prepared.overrun) ∧
      forall lp sysSigname events m text,
        (system lp sysSigname).run (initial pre post) events = some m ->
        Effect.writeProp text ∈ m.effects ->
        exists m', text = pre ++ bytesOf "[" ++ renderStatus m' ++ bytesOf "] " ++ post := by
  refine ⟨(cut fieldName 0 content).1, (cut fieldName 0 content).2,
    cut_append 0 content, ?_, prepareEnvironment_of_free hfree, ?_⟩
  · intro hrest
    exact suffix_of_cut (i := 0) (z := []) List.nil_suffix hrest
  · intro lp sysSigname events m text hrun htext
    exact (writesAround_run hrun).written text htext

theorem prepareEnvironment_splits_id :
    (0 : Byte) ∉ bytesOf "id=a\ndescription=x" ∧
    exists pre post, pre ++ post = bytesOf "id=a\ndescription=x" ∧
      (post ≠ [] -> fieldName <:+ pre) ∧
      prepareEnvironment (some (bytesOf "id=a\ndescription=x")) =
        (if pre.length < SECTION_SIZE ∧ post.length < SECTION_SIZE then
          Prepared.ready (updateStatus { preSection := pre, postSection := post })
        else
          Prepared.overrun) := by
  have hfree : (0 : Byte) ∉ bytesOf "id=a\ndescription=x" := by decide
  rcases prepareEnvironment_splits _ hfree with ⟨pre, post, happend, hpre, hprepared, _⟩
  exact ⟨hfree, pre, post, happend, hpre, hprepared⟩

/-- The content is split right after the first description, if there is one. -/
def SplitsAtFirst (content post : List Byte) : Prop :=
  (fieldName <:+: content -> exists x, FirstOccurrence fieldName content x post) ∧
    (¬ fieldName <:+: content -> post = [])

theorem splitsAtFirst_cut_iff (content : List Byte) :
    SplitsAtFirst content (cut fieldName 0 content).2 <->
      forall x y k, FirstOccurrence fieldName content x y -> y ≠ [] ->
        EndsIn fieldName k x -> Even k := by
  have hhead : fieldName.headI ∉ fieldName.tail := by decide
  constructor
  · intro hsplit x y k hfirst hy hends
    have hoccurs : fieldName <:+: content := ⟨x, y, hfirst.left.symm⟩
    rcases hsplit.left hoccurs with ⟨x', hfirst'⟩
    have hrest := hfirst'.unique hfirst
    exact (cut_first_iff hhead hfirst hends).mp hrest hy
  · intro heven
    constructor
    · intro hoccurs
      rcases exists_firstOccurrence hoccurs with ⟨x, y, hfirst⟩
      rcases exists_endsIn fieldName x with ⟨k, hends⟩
      have hrest : (cut fieldName 0 content).2 = y :=
        (cut_first_iff hhead hfirst hends).mpr (fun hy => heven x y k hfirst hy hends)
      rw [hrest]
      exact ⟨x, hfirst⟩
    · exact cut_of_no_occurrence

/-- The split is at the first description exactly if nothing follows it or an
even number of incomplete beginnings of the field name stand right before it. -/
theorem splitsAtFirst_iff_even (content : List Byte) (hfree : (0 : Byte) ∉ content) :
    exists pre post,
      prepareEnvironment (some content) =
        (if pre.length < SECTION_SIZE ∧ post.length < SECTION_SIZE then
          Prepared.ready (updateStatus { preSection := pre, postSection := post })
        else
          Prepared.overrun) ∧
      (SplitsAtFirst content post <->
        forall x y k, FirstOccurrence fieldName content x y -> y ≠ [] ->
          EndsIn fieldName k x -> Even k) :=
  ⟨(cut fieldName 0 content).1, (cut fieldName 0 content).2,
    prepareEnvironment_of_free hfree, splitsAtFirst_cut_iff content⟩

theorem splitsAtFirst_iff_even_dd :
    (0 : Byte) ∉ bytesOf "dddescription=x" ∧
    exists pre post,
      prepareEnvironment (some (bytesOf "dddescription=x")) =
        (if pre.length < SECTION_SIZE ∧ post.length < SECTION_SIZE then
          Prepared.ready (updateStatus { preSection := pre, postSection := post })
        else
          Prepared.overrun) ∧
      (SplitsAtFirst (bytesOf "dddescription=x") post <->
        forall x y k, FirstOccurrence fieldName (bytesOf "dddescription=x") x y -> y ≠ [] ->
          EndsIn fieldName k x -> Even k) := by
  have hfree : (0 : Byte) ∉ bytesOf "dddescription=x" := by decide
  exact ⟨hfree, splitsAtFirst_iff_even _ hfree⟩

/-- With a single `d` before it, the description is not found. -/
theorem not_splitsAtFirst_olddescription :
    exists m, prepareEnvironment (some (bytesOf "olddescription=x")) = Prepared.ready m ∧
      ¬ SplitsAtFirst (bytesOf "olddescription=x") m.postSection := by
  refine ⟨_, rfl, ?_⟩
  intro hsplit
  have hoccurs : fieldName <:+: bytesOf "olddescription=x" :=
    ⟨bytesOf "old", bytesOf "x", by decide⟩
  rcases hsplit.left hoccurs with ⟨x, hfirst⟩
  have hends : fieldName <:+ bytesOf "olddescription=x" := by
    refine ⟨x, ?_⟩
    rw [hfirst.left]
    exact (List.append_nil _).symm
  exact absurd hends (by decide)

end InitMonitor
end ReZygisk
