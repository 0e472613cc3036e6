import ReZygisk.Injector.Unmount

/-!
# The paths that are handed to `umount2`

A mount may lie at any path.  The kernel escapes some bytes of it and prints the
others as they are; the target of an entry is what the scan takes for the second
word, and nothing undoes the escapes.
-/

namespace ReZygisk
namespace Injector

open Foundation
open Kernel

/-- A path that is listed as it is, and is one word. -/
def Plain (path : List Byte) : Prop :=
  forall b, b ∈ path -> b ≠ 0x5c ∧ isBlank b = false

/-- A mount at any path, with the other fields in the kernel's format. -/
structure Placed (m : Mount) : Prop where
  elsewhere : Listed { m with target := bytesOf "/" }
  nonempty : m.target ≠ []
  text : 0x00 ∉ m.target

instance (m : Mount) : Decidable (Placed m) :=
  decidable_of_iff
    (Listed { m with target := bytesOf "/" } ∧ m.target ≠ [] ∧ 0x00 ∉ m.target)
    ⟨fun h => ⟨h.left, h.right.left, h.right.right⟩,
      fun h => ⟨h.elsewhere, h.nonempty, h.text⟩⟩

/-- What the function hands to `umount2` because of an entry.  The module
directory is handed without a look at the table. -/
def handedFor (manager : Manager) (infos : List MountInfo) (i : MountInfo) :
    List (List Byte) :=
  match manager with
  | Manager.ksu =>
      if i.target = MODULE_DIR then [ MODULE_DIR]
      else firstPass KSU_OVERLAY_SOURCE i ++ secondPass (loopSource infos) i
  | Manager.apatch =>
      if i.target = MODULE_DIR then [ MODULE_DIR]
      else firstPass AP_OVERLAY_SOURCE i ++ secondPass (loopSource infos) i
  | Manager.magisk => pick isMagisk i ++ pick inDataAdb i

section Handed

variable {manager : Manager} {infos : List MountInfo} {i : MountInfo} {t : List Byte}

theorem mem_pick {criterion : MountInfo -> Bool} :
    t ∈ pick criterion i <-> criterion i = true ∧ t = i.target := by
  unfold pick
  split <;> simp_all

theorem mem_overlay {overlaySource loop : List Byte} (hother : i.target ≠ MODULE_DIR) :
    t ∈ firstPass overlaySource i ++ secondPass loop i <->
      (exists criterion, criterion ∈ [inDataAdb, isOverlay overlaySource,
        isTempDir overlaySource, isFromLoop loop] ∧ criterion i = true) ∧
      t = i.target := by
  simp only [firstPass, secondPass, if_neg hother, List.mem_append, mem_pick,
    List.exists_mem_cons_iff, List.not_mem_nil, false_and, exists_false, or_false,
    ← or_and_right, or_assoc]

/-- A selected entry hands its target, and nothing else. -/
theorem mem_handedFor (h : 0 < met manager infos i) :
    t ∈ handedFor manager infos i <-> t = i.target := by
  rw [met, List.countP_pos_iff] at h
  have hoverlay : forall {overlaySource : List Byte},
      (exists criterion, criterion ∈ [inDataAdb, isOverlay overlaySource,
        isTempDir overlaySource, isFromLoop (loopSource infos)] ∧ criterion i = true) ->
      (t ∈ (if i.target = MODULE_DIR then [ MODULE_DIR]
          else firstPass overlaySource i ++ secondPass (loopSource infos) i) <->
        t = i.target) := by
    intro overlaySource hmet
    by_cases heq : i.target = MODULE_DIR
    · rw [if_pos heq, List.mem_singleton, heq]
    · rw [if_neg heq, mem_overlay heq, and_iff_right hmet]
  cases manager with
  | ksu => exact hoverlay h
  | apatch => exact hoverlay h
  | magisk =>
      simp only [criteria, List.exists_mem_cons_iff, List.not_mem_nil, false_and,
        exists_false, or_false] at h
      simp only [handedFor, List.mem_append, mem_pick, ← or_and_right, and_iff_right h]

/-- The targets of the function are those of the entries, and the module
directory for KernelSU and APatch. -/
theorem mem_revertTargets :
    t ∈ revertTargets manager infos <->
      (manager ≠ Manager.magisk ∧ t = MODULE_DIR) ∨
        exists i, i ∈ infos ∧ t ∈ handedFor manager infos i := by
  have hoverlay : forall overlaySource : List Byte,
      t ∈ overlayTargets overlaySource infos <->
        t = MODULE_DIR ∨ exists i, i ∈ infos ∧
          t ∈ (if i.target = MODULE_DIR then [ MODULE_DIR]
            else firstPass overlaySource i ++ secondPass (loopSource infos) i) := by
    intro overlaySource
    have hmodules : forall i : MountInfo, i.target = MODULE_DIR ->
        firstPass overlaySource i ++ secondPass (loopSource infos) i = [] := by
      intro i heq
      rw [firstPass, secondPass, if_pos heq, if_pos heq, List.append_nil]
    simp only [overlayTargets, List.mem_cons, List.mem_append, List.mem_flatMap]
    constructor
    · rintro (heq | ⟨i, hi, ht⟩ | ⟨i, hi, ht⟩)
      · exact Or.inl heq
      all_goals
        refine Or.inr ⟨i, hi, ?_⟩
        by_cases heq : i.target = MODULE_DIR
        · have hnil := List.append_eq_nil_iff.mp (hmodules i heq)
          simp [hnil] at ht
        · rw [if_neg heq, List.mem_append]
          simp [ht]
    · rintro (heq | ⟨i, hi, ht⟩)
      · exact Or.inl heq
      · by_cases heq : i.target = MODULE_DIR
        · rw [if_pos heq, List.mem_singleton] at ht
          exact Or.inl ht
        · rw [if_neg heq, List.mem_append] at ht
          rcases ht with ht | ht
          · exact Or.inr (Or.inl ⟨i, hi, ht⟩)
          · exact Or.inr (Or.inr ⟨i, hi, ht⟩)
  cases manager with
  | ksu => simpa [revertTargets, handedFor] using hoverlay KSU_OVERLAY_SOURCE
  | apatch => simpa [revertTargets, handedFor] using hoverlay AP_OVERLAY_SOURCE
  | magisk => simp [revertTargets, handedFor, magiskTargets, List.mem_flatMap]

end Handed

/-!
# Any line
-/

section Lines

variable {s s' s'' : Scan} {d : Directive} {ds : List Directive} {n k : Nat}
  {p : Byte -> Bool}

/-- The scan has gone on in a line of `n` bytes, and keeps its positions. -/
structure Within (n : Nat) (s s' : Scan) : Prop where
  inside : s'.pos + s'.rest.length = n
  positions : forall p, p ∈ s'.positions -> p ≤ n
  kept : s.positions <+: s'.positions

theorem Within.trans (h : Within n s s') (h' : Within n s' s'') : Within n s s'' :=
  ⟨h'.inside, h'.positions, h.kept.trans h'.kept⟩

theorem within_skip (h : Within n s s) (hk : k ≤ s.rest.length) : Within n s (s.skip k) := by
  refine ⟨?_, h.positions, List.prefix_refl _⟩
  have := h.inside
  simp only [Scan.skip, List.length_drop]
  omega

theorem within_skipBlanks (h : Within n s s) : Within n s s.skipBlanks :=
  within_skip h (List.takeWhile_prefix _).length_le

theorem within_run (h : Within n s s) (hrun : s.run p = some s') : Within n s s' := by
  unfold Scan.run at hrun
  split at hrun
  · cases hrun
  · cases hrun
    exact within_skip h (List.takeWhile_prefix _).length_le

theorem within_digits {sign : Nat -> Nat} (h : Within n s s)
    (hdigits : s.digits sign = some s') : Within n s s' := by
  rcases Option.map_eq_some_iff.mp hdigits with ⟨s₀, hrun, heq⟩
  have hw := within_run h hrun
  rw [← heq]
  exact ⟨hw.inside, hw.positions, hw.kept⟩

theorem Within.refl (h : Within n s s') : Within n s' s' :=
  ⟨h.inside, h.positions, List.prefix_refl _⟩

theorem within_skip_head {b : Byte} (h : Within n s s) (hhead : s.rest.head? = some b) :
    Within n s (s.skip 1) := by
  apply within_skip h
  cases hrest : s.rest with
  | nil =>
      rw [hrest] at hhead
      cases hhead
  | cons c rest => exact Nat.le_add_left 1 rest.length

theorem within_unsigned (h : Within n s s) (hnumber : s.unsigned = some s') :
    Within n s s' := by
  unfold Scan.unsigned at hnumber
  split at hnumber
  · rename_i hminus
    have hskip := within_skip_head h hminus
    exact hskip.trans (within_digits hskip.refl hnumber)
  · split at hnumber
    · rename_i hplus
      have hskip := within_skip_head h hplus
      exact hskip.trans (within_digits hskip.refl hnumber)
    · exact within_digits h hnumber

theorem within_directive (h : Within n s s) (hd : s.directive d = some s') :
    Within n s s' := by
  have hblanks := within_skipBlanks h
  cases d with
  | number => exact hblanks.trans (within_unsigned hblanks.refl hd)
  | blanks =>
      cases hd
      exact hblanks
  | literal b =>
      simp only [Scan.directive] at hd
      split at hd
      · rename_i hhead
        cases hd
        exact within_skip_head h hhead
      · cases hd
  | position =>
      cases hd
      refine ⟨h.inside, ?_, List.prefix_append _ _⟩
      intro q hq
      rcases List.mem_append.mp hq with hq | hq
      · exact h.positions q hq
      · rw [List.mem_singleton.mp hq, ← h.inside]
        exact Nat.le_add_right _ _
  | word => exact hblanks.trans (within_run hblanks.refl hd)
  | upTo b => exact within_run h hd

theorem within_scan (ds : List Directive) (h : Within n s s) :
    Within n s (Scan.scan ds s) := by
  induction ds generalizing s with
  | nil => exact h
  | cons d rest ih =>
      rw [Scan.scan]
      cases hd : s.directive d with
      | none => exact h
      | some s' =>
          have hw := within_directive h hd
          exact hw.trans (ih hw.refl)

/-- The first word of a text, with what stands around it. -/
theorem exists_word {x : List Byte} (h : exists b, b ∈ x ∧ isBlank b = false) :
    exists lead w x', x = lead ++ (w ++ x') ∧
      (forall b, b ∈ lead -> isBlank b = true) ∧ Word w ∧
      forall y, y.takeWhile (fun b => !isBlank b) = [] ->
        (x' ++ y).takeWhile (fun b => !isBlank b) = [] := by
  let rest := x.dropWhile isBlank
  refine ⟨x.takeWhile isBlank, rest.takeWhile (fun b => !isBlank b),
    rest.dropWhile (fun b => !isBlank b), ?_, ?_, ⟨?_, ?_⟩, ?_⟩
  · rw [List.takeWhile_append_dropWhile, List.takeWhile_append_dropWhile]
  · intro b hb
    exact List.mem_takeWhile_imp hb
  · intro hnil
    have hrest : rest ≠ [] := by
      rcases h with ⟨b, hb, hblank⟩
      intro hnone
      rw [List.dropWhile_eq_nil_iff.mp hnone b hb] at hblank
      cases hblank
    have hhead := List.head_dropWhile_not isBlank hrest
    have hstop := congrArg List.head? hnil
    rw [List.head?_takeWhile, List.head?_eq_some_head hrest] at hstop
    simp [rest, hhead] at hstop
  · intro b hb
    have hnot := List.mem_takeWhile_imp hb
    rwa [Bool.not_eq_true'] at hnot
  · intro y hy
    cases hafter : rest.dropWhile (fun b => !isBlank b) with
    | nil => exact hy
    | cons b after =>
        have hne : rest.dropWhile (fun b => !isBlank b) ≠ [] := by
          rw [hafter]
          exact List.cons_ne_nil b after
        have hhead := List.head_dropWhile_not (fun b => !isBlank b) hne
        simp only [hafter, List.head_cons] at hhead
        rw [List.cons_append, List.takeWhile_cons_of_neg]
        rw [hhead]
        exact Bool.false_ne_true

/-- ` %n%*s%n` on a text that need not be a word. -/
theorem scan_any_field {lead w tail : List Byte} {pos : Nat} {ns ps : List Nat}
    (hlead : forall b, b ∈ lead -> isBlank b = true) (hw : Word w)
    (hstop : tail.takeWhile (fun b => !isBlank b) = []) :
    Scan.scan (Directive.blanks :: Directive.position :: Directive.word ::
        Directive.position :: ds) ⟨lead ++ (w ++ tail), pos, ns, ps⟩ =
      Scan.scan ds ⟨tail, pos + lead.length + w.length, ns,
        ps ++ [pos + lead.length] ++ [pos + lead.length + w.length]⟩ := by
  have hblanks : (⟨lead ++ (w ++ tail), pos, ns, ps⟩ : Scan).skipBlanks =
      ⟨w ++ tail, pos + lead.length, ns, ps⟩ := by
    rw [Scan.skipBlanks, takeWhile_run hlead (takeWhile_isBlank_word hw), Scan.skip,
      List.drop_left]
  rw [Scan.scan, Scan.directive, hblanks]
  exact scan_field hw hstop

theorem substr_isSome {line : List Byte} {start : Nat} (h : start ≤ line.length)
    (len : Int) : exists w, substr line start len = some w :=
  ⟨_, if_neg (Nat.not_lt.mpr h)⟩

/-- The directives after the options that all file systems have. -/
def tagsFormat : List Directive :=
  mountFormat.drop 20

/-- Two words behind the root, whatever the target of the line is: the rest of the
line from the second one on still begins with a blank. -/
theorem exists_two_words (l : MountLine) (hvfs : Word l.vfsOption) (z : List Byte) :
    exists lead w between lead' w' rest,
      0x20 :: (l.target ++ 0x20 :: (l.vfsOption ++ (l.optional ++ 0x20 :: 0x2d :: 0x20 :: z))) =
        lead ++ (w ++ between) ∧
      between = lead' ++ (w' ++ rest) ∧
      (forall b, b ∈ lead ++ lead' -> isBlank b = true) ∧ Word w ∧ Word w' ∧
      between.takeWhile (fun b => !isBlank b) = [] ∧
      rest.takeWhile (fun b => !isBlank b) = [] ∧ rest ≠ [] := by
  let tags := l.optional ++ 0x20 :: 0x2d :: 0x20 :: z
  have hfirst : exists b, b ∈ 0x20 :: (l.target ++ 0x20 :: l.vfsOption) ∧
      isBlank b = false := by
    rcases List.exists_mem_of_ne_nil _ hvfs.nonempty with ⟨b, hb⟩
    exact ⟨b, by simp [hb], hvfs.no_blank b hb⟩
  rcases exists_word hfirst with ⟨lead, w, x, hx, hlead, hw, hstop⟩
  have hdash : exists b, b ∈ x ++ (l.optional ++ [0x20, 0x2d]) ∧ isBlank b = false :=
    ⟨0x2d, by simp, rfl⟩
  rcases exists_word hdash with ⟨lead', w', x', hx', hlead', hw', hstop'⟩
  refine ⟨lead, w, x ++ tags, lead', w', x' ++ 0x20 :: z, ?_, ?_, ?_, hw, hw',
    hstop _ (takeWhile_optional l _), hstop' _ rfl, ?_⟩
  · have := congrArg (fun t => t ++ tags) hx
    simpa [tags] using this
  · have := congrArg (fun t => t ++ 0x20 :: z) hx'
    simpa [tags] using this
  · intro b hb
    rcases List.mem_append.mp hb with hb | hb
    · exact hlead b hb
    · exact hlead' b hb
  · exact List.append_ne_nil_of_right_ne_nil _ (List.cons_ne_nil _ _)

/-- How a scan goes up to the tags. -/
theorem scan_any {l : MountLine} (h : MountLine.WellFormed { l with target := bytesOf "/" }) :
    exists (before w after rest : List Byte) (p₀ p₁ v₀ v : Nat),
      l.text = before ++ (w ++ after) ∧ Word w ∧ rest ≠ [] ∧
      v + rest.length = l.text.length ∧
      (p₀ ≤ v ∧ p₁ ≤ v ∧ before.length + w.length ≤ v ∧ v₀ ≤ v) ∧
      Scan.scan mountFormat ⟨l.text, 0, [], []⟩ =
        Scan.scan tagsFormat ⟨rest, v, [l.id, l.parent, l.major, l.minor],
          [p₀, p₁, before.length, before.length + w.length, v₀, v, v]⟩ := by
  let z := l.type ++ 0x20 :: (l.source ++ 0x20 :: (l.fsOption ++ [0x0a]))
  rcases exists_two_words l h.vfsOption.word z with
    ⟨lead, w, between, lead', w', rest, htarget, hbetween, hlead, hw, hw', hstop, hstop',
      hrest⟩
  have htext : l.text = l.numbers ++ (l.root ++ (lead ++ (w ++ between))) := by
    rw [← htarget]
    simp [MountLine.text, MountLine.body, MountLine.afterOptions, z]
  have hroot : (lead ++ (w ++ between)).takeWhile (fun b => !isBlank b) = [] := by
    rw [← htarget]
    rfl
  let p₁ := l.numbers.length + l.root.length
  let v₀ := p₁ + lead.length + w.length + lead'.length
  have hbefore : (l.numbers ++ (l.root ++ lead)).length = p₁ + lead.length := by
    simp only [List.length_append, p₁]
    omega
  refine ⟨l.numbers ++ (l.root ++ lead), w, between, rest, l.numbers.length, p₁, v₀,
    v₀ + w'.length, ?_, hw, hrest, ?_, ?_, ?_⟩
  · rw [htext]
    simp
  · rw [htext, hbetween]
    simp only [v₀, p₁, List.length_append]
    omega
  · rw [hbefore]
    omega
  · rw [htext, scan_front (bytesOf "/") h hroot, mountFormat]
    simp only [List.drop_succ_cons, List.drop_zero]
    rw [scan_any_field (fun b hb => hlead b (List.mem_append_left _ hb)) hw hstop, hbetween,
      scan_any_field (fun b hb => hlead b (List.mem_append_right _ hb)) hw' hstop',
      scan_position, hbefore]
    rfl

/-- Positions that were stored stay, and all are in the line. -/
theorem Within.getD_kept (h : Within n s s') {i : Nat} (hi : i < s.positions.length) :
    s'.positions.getD i 0 = s.positions.getD i 0 := by
  rcases h.kept with ⟨later, hlater⟩
  rw [← hlater, List.getD_eq_getElem?_getD, List.getD_eq_getElem?_getD,
    List.getElem?_append_left hi]

theorem Within.getD_le (h : Within n s s') (i : Nat) : s'.positions.getD i 0 ≤ n := by
  rw [List.getD_eq_getElem?_getD]
  cases hget : s'.positions[i]? with
  | none => exact Nat.zero_le _
  | some p => exact h.positions p (List.mem_of_getElem? hget)

/-- A line gives an entry whatever its target is, and the target that is read is
one word. -/
theorem parseLine_any {l : MountLine} (uninit : Nat -> Nat)
    (h : MountLine.WellFormed { l with target := bytesOf "/" }) :
    exists e, parseLine uninit l.text = some e ∧ Word e.target := by
  rcases scan_any h with
    ⟨before, w, after, rest, p₀, p₁, v₀, v, htext, hw, hrest, hlen, hle, hscan⟩
  let start : Scan :=
    ⟨rest, v, [l.id, l.parent, l.major, l.minor],
      [p₀, p₁, before.length, before.length + w.length, v₀, v, v]⟩
  have hmore := List.length_pos_iff.mpr hrest
  have hstart : Within l.text.length start start := by
    refine ⟨hlen, ?_, List.prefix_refl _⟩
    intro p hp
    simp only [start, List.mem_cons, List.not_mem_nil, or_false] at hp
    omega
  have hwithin := within_scan tagsFormat hstart
  rw [← hscan] at hwithin
  unfold parseLine
  generalize Scan.scan mountFormat ⟨l.text, 0, [], []⟩ = s at hwithin
  have hfield : forall i len, exists t,
      substr l.text (s.positions.getD i 0) len = some t :=
    fun i len => substr_isSome (hwithin.getD_le i) len
  have htarget : substr l.text (s.positions.getD 2 0)
      ((s.positions.getD 3 0 : Int) - s.positions.getD 2 0) = some w := by
    have hposition : s.positions.getD 2 0 = before.length :=
      hwithin.getD_kept (show 2 < 7 by decide)
    have hend : s.positions.getD 3 0 = before.length + w.length :=
      hwithin.getD_kept (show 3 < 7 by decide)
    rw [hposition, hend]
    exact substr_field before after htext rfl rfl
  have hoptional : forall len, exists t,
      substr l.text (s.positions.getD 6 0 + 1) len = some t := by
    intro len
    have hposition : s.positions.getD 6 0 = v :=
      hwithin.getD_kept (show 6 < 7 by decide)
    apply substr_isSome
    rw [hposition]
    omega
  choose field hread using hfield
  choose optional htags using hoptional
  have hword : Word (field 2 ((s.positions.getD 3 0 : Int) - s.positions.getD 2 0)) := by
    rw [hread] at htarget
    cases htarget
    exact hw
  simp only [hread, htags]
  exact ⟨_, rfl, hword⟩

end Lines

/-!
# Paths
-/

section Paths

variable {m : Mount} {text : List Byte}

theorem length_mangle (escaped text : List Byte) :
    (mangle escaped text).length =
      text.length + 3 * text.countP (fun b => b ∈ escaped) := by
  induction text with
  | nil => rfl
  | cons b rest ih =>
      have hcons : mangle escaped (b :: rest) =
          (if b ∈ escaped then octal b else [b]) ++ mangle escaped rest := rfl
      rw [hcons, List.length_append, ih, List.length_cons, List.countP_cons]
      by_cases hb : b ∈ escaped
      · simp only [hb, decide_true, if_true, octal, List.length_cons, List.length_nil]
        omega
      · simp only [hb, decide_false, if_false, Bool.false_eq_true, List.length_singleton]
        omega

/-- Only a text without escaped bytes is listed as it is. -/
theorem mangle_eq_self_iff {escaped : List Byte} :
    mangle escaped text = text <-> forall b, b ∈ text -> b ∉ escaped := by
  constructor
  · intro heq b hb hescaped
    have hlen := length_mangle escaped text
    have hpos : 0 < text.countP (fun b => b ∈ escaped) :=
      List.countP_pos_iff.mpr ⟨b, hb, decide_eq_true hescaped⟩
    rw [heq] at hlen
    omega
  · intro hnone
    induction text with
    | nil => rfl
    | cons b rest ih =>
        have hcons : mangle escaped (b :: rest) =
            (if b ∈ escaped then octal b else [b]) ++ mangle escaped rest := rfl
        rw [hcons, if_neg (hnone b List.mem_cons_self),
          ih (fun c hc => hnone c (List.mem_cons_of_mem b hc)), List.singleton_append]

theorem plain_byte_iff (b : Byte) : b ∉ ([0x00, 0x0b, 0x0c, 0x0d] : List Byte) ->
    (b ∉ PATH_ESCAPED <-> b ≠ 0x5c ∧ isBlank b = false) := by
  apply forall_byte (P := fun b => b ∉ ([0x00, 0x0b, 0x0c, 0x0d] : List Byte) ->
    (b ∉ PATH_ESCAPED <-> b ≠ 0x5c ∧ isBlank b = false))
  decide +kernel

theorem listed_of_printable (h : Placed m) (hprintable : Printable m.target) : Listed m :=
  { h.elsewhere with target := hprintable }

theorem wellFormed_elsewhere (h : Placed m) :
    MountLine.WellFormed { asLine m with target := bytesOf "/" } :=
  wellFormed_asLine h.elsewhere

/-- The target that is read is the path exactly if the path is plain. -/
theorem parseLine_target (uninit : Nat -> Nat) (h : Placed m) :
    exists e, parseLine uninit m.line = some e ∧
      (e.target = m.target <-> Plain m.target) := by
  rw [← text_asLine]
  by_cases hprintable : Printable m.target
  · refine ⟨_, parseLine_text (wellFormed_asLine (listed_of_printable h hprintable)), ?_⟩
    change mangle PATH_ESCAPED m.target = m.target <-> _
    rw [mangle_eq_self_iff]
    exact forall₂_congr (fun b hb => plain_byte_iff b (hprintable.plain b hb))
  · rcases parseLine_any uninit (wellFormed_elsewhere h) with ⟨e, hparsed, hword⟩
    refine ⟨e, hparsed, ?_⟩
    have hblank : exists b, b ∈ m.target ∧ isBlank b = true := by
      by_contra hno
      apply hprintable
      refine ⟨h.nonempty, ?_⟩
      intro b hb hraw
      simp only [List.mem_cons, List.not_mem_nil, or_false] at hraw
      rcases hraw with heq | hraw
      · rw [heq] at hb
        exact h.text hb
      · apply hno
        refine ⟨b, hb, ?_⟩
        rcases hraw with heq | heq | heq <;> rw [heq] <;> rfl
    rcases hblank with ⟨b, hb, hblank⟩
    constructor
    · intro heq
      rw [← heq] at hb
      exact absurd hb (blank_notMem_word hword hblank)
    · intro hplain
      rw [(hplain b hb).right] at hblank
      cases hblank

theorem mem_body {l : MountLine} {b : Byte} (target : List Byte) (h : b ∈ l.body) :
    b ∈ l.target ∨ b ∈ MountLine.body { l with target := target } := by
  rcases List.mem_append.mp h with hnumbers | h
  · exact Or.inr (List.mem_append_left _ hnumbers)
  rcases List.mem_append.mp h with hroot | h
  · exact Or.inr (List.mem_append_right _ (List.mem_append_left _ hroot))
  rcases List.mem_cons.mp h with hblank | h
  · refine Or.inr (List.mem_append_right _ (List.mem_append_right _ ?_))
    exact List.mem_cons.mpr (Or.inl hblank)
  rcases List.mem_append.mp h with htarget | h
  · exact Or.inl htarget
  · refine Or.inr (List.mem_append_right _ (List.mem_append_right _ ?_))
    exact List.mem_cons_of_mem _ (List.mem_append_right _ h)

/-- A line has no newline but the one at its end, and no NUL. -/
theorem notMem_line (h : Placed m) {b : Byte} (hb : b = 0x0a ∨ b = 0x00) :
    b ∉ (asLine m).body := by
  have helsewhere := notMem_body (wellFormed_elsewhere h) hb
  have htarget : b ∉ (asLine m).target := by
    intro hno
    rcases mem_mangle hno with ⟨hmem, hescaped⟩ | ⟨c, hc⟩
    · rcases hb with hb | hb <;> rw [hb] at hmem hescaped
      · exact hescaped (by decide)
      · exact h.text hmem
    · rcases hb with hb | hb <;> rw [hb] at hc
      · cases (not_isBlank_octal c hc).left
      · exact (not_isBlank_octal c hc).right rfl
  intro hno
  rcases mem_body (bytesOf "/") hno with hno | hno
  · exact htarget hno
  · exact helsewhere hno

theorem mapM_forall₂ {α β : Type} {f : α -> Option β} {R : β -> α -> Prop} {l : List α}
    (h : forall a, a ∈ l -> exists b, f a = some b ∧ R b a) :
    exists bs, l.mapM f = some bs ∧ List.Forall₂ R bs l := by
  induction l with
  | nil => exact ⟨[], rfl, List.Forall₂.nil⟩
  | cons a rest ih =>
      rcases h a List.mem_cons_self with ⟨b, hb, hR⟩
      rcases ih (fun a' ha' => h a' (List.mem_cons_of_mem a ha')) with ⟨bs, hbs, hrest⟩
      refine ⟨b :: bs, ?_, List.Forall₂.cons hR hrest⟩
      rw [List.mapM_cons, hb, hbs]
      rfl

/-- The table is read, whatever the paths are. -/
theorem parseMountInfo_targets (uninit : Nat -> Nat) {mounts : List Mount}
    (h : forall m, m ∈ mounts -> Placed m) :
    exists infos, parseMountInfo uninit (mountinfo mounts) = some infos ∧
      List.Forall₂ (fun i m => i.target = m.target <-> Plain m.target) infos mounts := by
  have hbodies : mountinfo mounts =
      (mounts.map (fun m => (asLine m).body)).flatMap (fun body => body ++ [0x0a]) := by
    rw [List.flatMap_map]
    exact List.flatMap_congr (fun m _ => (text_asLine m).symm)
  rw [hbodies, parseMountInfo_lines]
  · rw [List.mapM_map]
    apply mapM_forall₂
    intro m hm
    have hline := parseLine_target uninit (h m hm)
    rw [← text_asLine] at hline
    exact hline
  · intro body hbody
    rcases List.mem_map.mp hbody with ⟨m, hm, heq⟩
    rw [← heq]
    exact ⟨notMem_line (h m hm) (Or.inl rfl), notMem_line (h m hm) (Or.inr rfl)⟩

end Paths

/-- What is handed to `umount2` for an entry is this path. -/
def HandsPath (manager : Manager) (infos : List MountInfo) (i : MountInfo)
    (path : List Byte) : Prop :=
  handedFor manager infos i ≠ [] ∧ forall t, t ∈ handedFor manager infos i -> t = path

/-- The path of a selected mount is handed to `umount2` exactly if it has no
backslash and no white space. -/
theorem handsPath_iff_plain (manager : Manager) (uninit : Nat -> Nat) {mounts : List Mount}
    (h : forall m, m ∈ mounts -> Placed m) :
    exists infos, parseMountInfo uninit (mountinfo mounts) = some infos ∧
      List.Forall₂ (fun i m => 0 < met manager infos i ->
        (HandsPath manager infos i m.target <-> Plain m.target)) infos mounts := by
  rcases parseMountInfo_targets uninit h with ⟨infos, hparsed, htargets⟩
  refine ⟨infos, hparsed, htargets.imp ?_⟩
  intro i m htarget hselected
  rw [← htarget]
  have hmem : forall t, t ∈ handedFor manager infos i <-> t = i.target :=
    fun t => mem_handedFor hselected
  constructor
  · intro hhands
    exact hhands.right i.target ((hmem i.target).mpr rfl)
  · intro heq
    refine ⟨List.ne_nil_of_mem ((hmem i.target).mpr rfl), ?_⟩
    intro t ht
    rw [← heq]
    exact (hmem t).mp ht

/-- A mount of a module. -/
def moduleMount (path : List Byte) : Mount :=
  { id := 42, parent := 1, major := 7, minor := 4, root := bytesOf "/", target := path,
    vfsOptions := bytesOf "rw", optional := [], fsType := bytesOf "ext4",
    source := bytesOf "/dev/block/loop4", fsOptions := bytesOf "rw" }

theorem handsPath_module :
    (forall m, m ∈ [moduleMount (bytesOf "/data/adb/modules/a")] -> Placed m) ∧
    exists infos,
      parseMountInfo (fun _ => 0)
        (mountinfo [moduleMount (bytesOf "/data/adb/modules/a")]) = some infos ∧
      List.Forall₂ (fun i m => 0 < met Manager.ksu infos i ->
          (HandsPath Manager.ksu infos i m.target <-> Plain m.target)) infos
        [moduleMount (bytesOf "/data/adb/modules/a")] := by
  have hplaced : forall m, m ∈ [moduleMount (bytesOf "/data/adb/modules/a")] -> Placed m := by
    decide +kernel
  exact ⟨hplaced, handsPath_iff_plain Manager.ksu (fun _ => 0) hplaced⟩

/-- The blank in a path is handed on as the kernel lists it. -/
theorem not_handsPath_blank :
    Placed (moduleMount (bytesOf "/data/adb/modules/a b")) ∧
    exists i,
      parseMountInfo (fun _ => 0)
        (mountinfo [moduleMount (bytesOf "/data/adb/modules/a b")]) = some [i] ∧
      forall manager, 0 < met manager [i] i ∧
        handedFor manager [i] i = [bytesOf "/data/adb/modules/a\\040b"] ∧
        ¬ HandsPath manager [i] i (bytesOf "/data/adb/modules/a b") := by
  have hlisted : Listed (moduleMount (bytesOf "/data/adb/modules/a b")) := by
    decide +kernel
  have hparsed : parseMountInfo (fun _ => 0)
      (mountinfo [moduleMount (bytesOf "/data/adb/modules/a b")]) =
        some [entry (moduleMount (bytesOf "/data/adb/modules/a b"))] :=
    parseMountInfo_mountinfo (fun m hm => (List.mem_singleton.mp hm) ▸ hlisted)
  refine ⟨by decide +kernel, _, hparsed, ?_⟩
  intro manager
  have hhanded : handedFor manager [entry (moduleMount (bytesOf "/data/adb/modules/a b"))]
      (entry (moduleMount (bytesOf "/data/adb/modules/a b"))) =
        [bytesOf "/data/adb/modules/a\\040b"] := by
    cases manager <;> decide +kernel
  refine ⟨?_, hhanded, ?_⟩
  · cases manager <;> decide +kernel
  · intro hhands
    have hpath := hhands.right (bytesOf "/data/adb/modules/a\\040b")
      (by rw [hhanded]; exact List.mem_singleton_self _)
    revert hpath
    decide

end Injector
end ReZygisk
