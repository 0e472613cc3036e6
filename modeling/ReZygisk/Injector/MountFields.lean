import ReZygisk.Injector.MountInfo

/-!
# The fields that are read from a line

Every field of a line that is in the kernel's format is read as it stands,
wherever else a dash occurs.  The numbers of the optional tags are looked up in
the text of the tags, and each is taken from the rest of that text.
-/

namespace ReZygisk
namespace Injector

open Foundation
open Kernel

/-- An entry with the fields of a line. -/
structure HasFields (e : MountInfo) (l : MountLine) : Prop where
  id : e.id = l.id
  parent : e.parent = l.parent
  device : e.device = makedev l.major l.minor
  major : devMajor e.device = l.major
  minor : devMinor e.device = l.minor
  fits : l.major < 2 ^ 12 -> l.minor < 2 ^ 20 -> e.device < 2 ^ 32
  root : e.root = l.root
  target : e.target = l.target
  vfsOption : e.vfsOption = l.vfsOption
  type : e.type = l.type
  source : e.source = l.source
  fsOption : e.fsOption = l.fsOption

theorem hasFields_entry {l : MountLine} (h : l.WellFormed) : HasFields l.entry l :=
  ⟨rfl, rfl, rfl, devMajor_makedev h.major_fits h.minor_fits,
    devMinor_makedev h.minor_fits, makedev_lt, rfl, rfl, rfl, rfl, rfl, rfl⟩

/-- Each line gives one entry, in order, with the fields of the line. -/
theorem parseMountInfo_fields (uninit : Nat -> Nat) {lines : List MountLine}
    (h : forall l, l ∈ lines -> l.WellFormed) :
    exists entries,
      parseMountInfo uninit (lines.flatMap MountLine.text) = some entries ∧
      List.Forall₂ HasFields entries lines :=
  ⟨_, parseMountInfo_text h,
    List.forall₂_map_left_iff.mpr (List.forall₂_same.mpr (fun l hl => hasFields_entry (h l hl)))⟩

theorem textField_iff (w : List Byte) : Word w ∧ 0x00 ∉ w <-> TextField w :=
  ⟨fun h => ⟨h.left, h.right⟩, fun h => ⟨h.word, h.text⟩⟩

instance (w : List Byte) : Decidable (TextField w) :=
  decidable_of_iff _ (textField_iff w)

theorem wellFormed_iff (l : MountLine) :
    ((l.id < 2 ^ 32 ∧ l.parent < 2 ^ 32 ∧ l.major < 2 ^ 32 ∧ l.minor < 2 ^ 32) ∧
      (TextField l.root ∧ TextField l.target ∧ TextField l.vfsOption ∧
        TextField l.type ∧ TextField l.source ∧ TextField l.fsOption) ∧
      l.tags.all (fun tag => tag.all (fun b => !([0x00, 0x0a, 0x2d] : List Byte).contains b)) =
        true) <-> l.WellFormed := by
  simp only [List.all_eq_true, Bool.not_eq_true', ← Bool.not_eq_true, List.contains_iff_mem]
  constructor
  · rintro ⟨⟨hid, hparent, hmajor, hminor⟩, ⟨hroot, htarget, hvfs, htype, hsource, hfs⟩, htags⟩
    exact ⟨hid, hparent, hmajor, hminor, hroot, htarget, hvfs,
      fun tag b htag hb => htags tag htag b hb, htype, hsource, hfs⟩
  · intro h
    exact ⟨⟨h.id_fits, h.parent_fits, h.major_fits, h.minor_fits⟩,
      ⟨h.root, h.target, h.vfsOption, h.type, h.source, h.fsOption⟩,
      fun tag htag b hb => h.tags tag b htag hb⟩

instance (l : MountLine) : Decidable l.WellFormed :=
  decidable_of_iff _ (wellFormed_iff l)

/-- A line with a dash in every text. -/
def dashedLine (tags : List OptionalField) : MountLine :=
  { id := 30, parent := 21, major := 254, minor := 5, root := bytesOf "/-",
    target := bytesOf "/data/adb-x", vfsOption := bytesOf "rw,-",
    tags := tags.map OptionalField.text, type := bytesOf "f2fs-",
    source := bytesOf "/dev/block/dm-5", fsOption := bytesOf "rw,fsync-mode" }

theorem parseMountInfo_fields_dashed :
    (forall l, l ∈ [dashedLine [], dashedLine [OptionalField.shared 1]] -> l.WellFormed) ∧
    exists entries,
      parseMountInfo (fun _ => 0)
          ([dashedLine [], dashedLine [OptionalField.shared 1]].flatMap MountLine.text) =
        some entries ∧
      List.Forall₂ HasFields entries
        [dashedLine [], dashedLine [OptionalField.shared 1]] := by
  have hlines : forall l, l ∈ [dashedLine [], dashedLine [OptionalField.shared 1]] ->
      l.WellFormed := by
    decide +kernel
  exact ⟨hlines, parseMountInfo_fields (fun _ => 0) hlines⟩

/-!
# Searching a text
-/

/-- No occurrence of the key begins inside of `w`, whatever follows. -/
def apart (key : List Byte) : List Byte -> Bool
  | [] => true
  | b :: rest =>
      !key.isPrefixOf (b :: rest) && !(b :: rest).isPrefixOf key && apart key rest

section Search

variable {key w tail : List Byte}

theorem find_key : find key (key ++ tail) = some 0 := by
  cases hkey : key ++ tail with
  | nil =>
      have hnil := (List.append_eq_nil_iff.mp hkey).left
      rw [find, if_pos hnil]
  | cons b rest =>
      have hfound : key.isPrefixOf (b :: rest) = true := by
        rw [← hkey, List.isPrefixOf_iff_prefix]
        exact List.prefix_append key tail
      rw [find, if_pos hfound]

theorem find_append_of_apart (h : apart key w = true) :
    find key (w ++ tail) = (find key tail).map (fun pos => pos + w.length) := by
  induction w with
  | nil =>
      rw [List.nil_append]
      cases find key tail <;> rfl
  | cons b rest ih =>
      simp only [apart, Bool.and_eq_true, Bool.not_eq_true', ← Bool.not_eq_true,
        List.isPrefixOf_iff_prefix] at h
      rcases h with ⟨⟨hkey, hover⟩, hrest⟩
      have hnot : ¬ key.isPrefixOf (b :: (rest ++ tail)) = true := by
        rw [List.isPrefixOf_iff_prefix]
        intro hno
        rcases List.prefix_or_prefix_of_prefix hno
          (List.prefix_append (b :: rest) tail) with hyes | hyes
        · exact hkey hyes
        · exact hover hyes
      rw [List.cons_append, find, if_neg hnot, ih hrest, Option.map_map]
      congr 1

/-- A key does not begin with a byte that it does not begin with. -/
theorem apart_of_head (hkey : key ≠ []) (h : forall b, b ∈ w -> key.head? ≠ some b) :
    apart key w = true := by
  induction w with
  | nil => rfl
  | cons b rest ih =>
      have hb := h b List.mem_cons_self
      cases key with
      | nil => exact absurd rfl hkey
      | cons k key =>
          have hne : ¬ k = b := fun heq => hb (congrArg some heq)
          have hne' : ¬ b = k := fun heq => hne heq.symm
          simp [apart, List.isPrefixOf, hne, hne',
            ih (fun c hc => h c (List.mem_cons_of_mem b hc))]

theorem optionalNumber_append (h : apart key w = true) :
    optionalNumber key (w ++ tail) = optionalNumber key tail := by
  unfold optionalNumber
  rw [find_append_of_apart h]
  cases find key tail with
  | none => rfl
  | some pos =>
      have hdrop : (w ++ tail).drop (pos + w.length + key.length) =
          tail.drop (pos + key.length) := by
        have hlen : pos + w.length + key.length = w.length + (pos + key.length) := by
          omega
        rw [hlen, ← List.drop_drop, List.drop_left]
      simp only [Option.map_some, hdrop]

end Search

/-!
# The optional tags
-/

/-- The tags that carry a number. -/
inductive TagKind where
  | shared
  | master
  | propagateFrom
  deriving DecidableEq

namespace TagKind

def key : TagKind -> List Byte
  | shared => bytesOf "shared:"
  | master => bytesOf "master:"
  | propagateFrom => bytesOf "propagate_from:"

def field : TagKind -> Nat -> OptionalField
  | shared => OptionalField.shared
  | master => OptionalField.master
  | propagateFrom => OptionalField.propagateFrom

/-- The number of a field of this kind. -/
def number : TagKind -> OptionalField -> Option Nat
  | shared, OptionalField.shared group => some group
  | master, OptionalField.master group => some group
  | propagateFrom, OptionalField.propagateFrom group => some group
  | _, _ => none

/-- The member of `optional` that the number goes to. -/
def member : TagKind -> MountInfo -> Nat
  | shared => MountInfo.shared
  | master => MountInfo.master
  | propagateFrom => MountInfo.propagateFrom

end TagKind

/-- The members hold the numbers of the tags, and zero without one. -/
def TagsRead (e : MountInfo) (fields : List OptionalField) : Prop :=
  forall kind : TagKind,
    (forall n, kind.field n ∈ fields -> kind.member e = n) ∧
    ((forall n, kind.field n ∉ fields) -> kind.member e = 0)

/-- What is read for a kind of tag. -/
def readTag (kind : TagKind) : List OptionalField -> Nat
  | [] => 0
  | field :: rest =>
      match kind.number field with
      | some n => if rest = [] then n else 2 ^ 32 - 1
      | none => readTag kind rest

section Tags

variable {kind : TagKind} {field : OptionalField} {fields rest : List OptionalField}
  {n : Nat}

theorem number_eq_some_iff : kind.number field = some n <-> field = kind.field n := by
  cases kind <;> cases field <;> simp [TagKind.number, TagKind.field]

theorem text_field (kind : TagKind) (n : Nat) :
    (kind.field n).text = kind.key ++ decText n := by
  cases kind <;> rfl

theorem apart_decText (kind : TagKind) (n : Nat) : apart kind.key (decText n) = true := by
  apply apart_of_head
  · cases kind <;> decide
  · intro b hb hhead
    have hdigit := isDigit_of_mem_decText hb
    cases kind <;> cases hhead <;> cases hdigit

/-- No key occurs in a tag of another kind. -/
theorem optionalNumber_other (h : kind.number field = none) (tail : List Byte) :
    optionalNumber kind.key (field.text ++ tail) = optionalNumber kind.key tail := by
  have hnumbered : forall (name : List Byte) (n : Nat), apart kind.key name = true ->
      optionalNumber kind.key (name ++ decText n ++ tail) =
        optionalNumber kind.key tail := by
    intro name n hname
    rw [List.append_assoc, optionalNumber_append hname,
      optionalNumber_append (apart_decText kind n)]
  cases field with
  | shared n =>
      apply hnumbered (bytesOf "shared:") n
      cases kind <;> first | decide | cases h
  | master n =>
      apply hnumbered (bytesOf "master:") n
      cases kind <;> first | decide | cases h
  | propagateFrom n =>
      apply hnumbered (bytesOf "propagate_from:") n
      cases kind <;> first | decide | cases h
  | unbindable =>
      apply optionalNumber_append
      cases kind <;> decide

/-- The tags as they stand in a line. -/
def tagsText (fields : List OptionalField) : List Byte :=
  fields.flatMap (fun field => 0x20 :: field.text)

theorem parseInt_tags (n : Nat) (fields : List OptionalField) :
    parseInt (decText n ++ tagsText fields) = if fields = [] then (n : Int) else -1 := by
  rw [parseInt_append]
  cases fields with
  | nil => rfl
  | cons field rest =>
      rw [if_neg (List.cons_ne_nil field rest)]
      rfl

theorem optionalNumber_field (hn : n < 2 ^ 31) (rest : List OptionalField) :
    optionalNumber kind.key ((kind.field n).text ++ tagsText rest) =
      if rest = [] then n else 2 ^ 32 - 1 := by
  unfold optionalNumber
  rw [text_field, List.append_assoc, find_key]
  simp only [Nat.zero_add, List.drop_left, parseInt_tags]
  split
  · omega
  · rfl

theorem optionalNumber_tags (hsmall : forall n, kind.field n ∈ fields -> n < 2 ^ 31) :
    optionalNumber kind.key (tagsText fields).tail = readTag kind fields := by
  have hnil : optionalNumber kind.key [] = 0 := by
    cases kind <;> rfl
  induction fields with
  | nil => exact hnil
  | cons field rest ih =>
      have htail : (tagsText (field :: rest)).tail = field.text ++ tagsText rest := rfl
      rw [htail, readTag]
      cases hnumber : kind.number field with
      | some n =>
          have hfield := number_eq_some_iff.mp hnumber
          have hn := hsmall n (by rw [hfield]; exact List.mem_cons_self)
          rw [hfield]
          exact optionalNumber_field hn rest
      | none =>
          rw [optionalNumber_other hnumber]
          have hrest := ih (fun n hn => hsmall n (List.mem_cons_of_mem field hn))
          cases rest with
          | nil => exact hnil
          | cons next rest =>
              have hblank : apart kind.key [0x20] = true := by
                cases kind <;> decide
              have htext : tagsText (next :: rest) =
                  [0x20] ++ (tagsText (next :: rest)).tail := rfl
              rw [htext, optionalNumber_append hblank]
              exact hrest

/-- A number that another tag follows is lost. -/
theorem readTag_of_followed (h : kind.field n ∈ fields.dropLast) :
    readTag kind fields = 2 ^ 32 - 1 := by
  induction fields with
  | nil => cases h
  | cons field rest ih =>
      cases rest with
      | nil => cases h
      | cons next rest =>
          rw [readTag]
          cases hnumber : kind.number field with
          | some n' => exact if_neg (List.cons_ne_nil next rest)
          | none =>
              rw [List.dropLast_cons_cons, List.mem_cons] at h
              rcases h with heq | h
              · rw [number_eq_some_iff.mpr heq.symm] at hnumber
                cases hnumber
              · exact ih h

/-- Behind tags without a number, the last one is read. -/
theorem readTag_of_last (h : forall field, field ∈ fields.dropLast ->
      field = OptionalField.unbindable) :
    (forall n, kind.field n ∈ fields -> readTag kind fields = n) ∧
      ((forall n, kind.field n ∉ fields) -> readTag kind fields = 0) := by
  have hunnumbered : kind.number OptionalField.unbindable = none := by
    cases kind <;> rfl
  induction fields with
  | nil => exact ⟨fun n hn => (by cases hn), fun _ => rfl⟩
  | cons field rest ih =>
      cases rest with
      | nil =>
          rw [readTag]
          constructor
          · intro n hn
            have hnumber := number_eq_some_iff.mpr (List.mem_singleton.mp hn).symm
            simp only [hnumber, if_true]
          · intro hnone
            cases hnumber : kind.number field with
            | none => rfl
            | some n =>
                have hfield := number_eq_some_iff.mp hnumber
                exact absurd (List.mem_singleton.mpr hfield.symm) (hnone n)
      | cons next rest =>
          have hfield : field = OptionalField.unbindable := h field List.mem_cons_self
          have hrest := ih (fun other hother => h other (List.mem_cons_of_mem field hother))
          have hmem : forall n, kind.field n ∈ field :: next :: rest <->
              kind.field n ∈ next :: rest := by
            intro n
            have hne : kind.field n ≠ field := by
              rw [hfield]
              cases kind <;> intro hno <;> cases hno
            rw [List.mem_cons, or_iff_right hne]
          rw [readTag, hfield, hunnumbered, ← hfield]
          simp only [hmem]
          exact hrest

/-- All numbers are read where no tag with a number is followed by another. -/
theorem tagsRead_iff_of_member {e : MountInfo}
    (hread : forall kind : TagKind, kind.member e = readTag kind fields)
    (hsmall : forall (kind : TagKind) n, kind.field n ∈ fields -> n < 2 ^ 31) :
    TagsRead e fields <->
      forall field, field ∈ fields.dropLast -> field = OptionalField.unbindable := by
  constructor
  · intro htags field hfield
    have hnumbered : forall (kind : TagKind) n, field ≠ kind.field n := by
      intro kind n heq
      rw [heq] at hfield
      have hmem := List.mem_of_mem_dropLast hfield
      have hlost := readTag_of_followed hfield
      rw [← hread kind, (htags kind).left n hmem] at hlost
      have := hsmall kind n hmem
      omega
    cases field with
    | shared n => exact absurd rfl (hnumbered TagKind.shared n)
    | master n => exact absurd rfl (hnumbered TagKind.master n)
    | propagateFrom n => exact absurd rfl (hnumbered TagKind.propagateFrom n)
    | unbindable => rfl
  · intro hlast kind
    rw [hread kind]
    exact readTag_of_last hlast

theorem member_entry {l : MountLine} (htags : l.tags = fields.map OptionalField.text)
    (hsmall : forall (kind : TagKind) n, kind.field n ∈ fields -> n < 2 ^ 31)
    (kind : TagKind) : kind.member l.entry = readTag kind fields := by
  have hoptional : l.optional = tagsText fields := by
    rw [MountLine.optional, htags, List.flatMap_map, tagsText]
  have hmember : kind.member l.entry = optionalNumber kind.key l.optional.tail := by
    cases kind <;> rfl
  rw [hmember, hoptional]
  exact optionalNumber_tags (hsmall kind)

end Tags

/-- The tags of a line are read exactly when no tag with a number is followed by
another tag. -/
theorem parseMountInfo_tags_iff (uninit : Nat -> Nat) {lines : List MountLine}
    (h : forall l, l ∈ lines -> l.WellFormed) :
    exists entries,
      parseMountInfo uninit (lines.flatMap MountLine.text) = some entries ∧
      List.Forall₂ (fun e l => forall fields : List OptionalField,
          l.tags = fields.map OptionalField.text ->
          (forall (kind : TagKind) n, kind.field n ∈ fields -> n < 2 ^ 31) ->
          (TagsRead e fields <->
            forall field, field ∈ fields.dropLast -> field = OptionalField.unbindable))
        entries lines := by
  refine ⟨_, parseMountInfo_text h, ?_⟩
  rw [List.forall₂_map_left_iff, List.forall₂_same]
  intro l hl fields htags hsmall
  exact tagsRead_iff_of_member (member_entry htags hsmall) hsmall

theorem parseMountInfo_tags_unbindable :
    (forall l, l ∈ [dashedLine [OptionalField.unbindable, OptionalField.shared 7]] ->
      l.WellFormed) ∧
    exists entries,
      parseMountInfo (fun _ => 0)
          ([dashedLine [OptionalField.unbindable, OptionalField.shared 7]].flatMap
            MountLine.text) = some entries ∧
      List.Forall₂ (fun e l => forall fields : List OptionalField,
          l.tags = fields.map OptionalField.text ->
          (forall (kind : TagKind) n, kind.field n ∈ fields -> n < 2 ^ 31) ->
          (TagsRead e fields <->
            forall field, field ∈ fields.dropLast -> field = OptionalField.unbindable))
        entries [dashedLine [OptionalField.unbindable, OptionalField.shared 7]] := by
  have hlines : forall l,
      l ∈ [dashedLine [OptionalField.unbindable, OptionalField.shared 7]] ->
        l.WellFormed := by
    decide +kernel
  exact ⟨hlines, parseMountInfo_tags_iff (fun _ => 0) hlines⟩

/-- A mount that is shared and has a master: the number of the first tag is read
together with the second tag, which gives -1. -/
theorem not_tagsRead_shared_master :
    (dashedLine [OptionalField.shared 1, OptionalField.master 2]).WellFormed ∧
    exists e,
      parseMountInfo (fun _ => 0)
          (dashedLine [OptionalField.shared 1, OptionalField.master 2]).text = some [e] ∧
      e.shared = 4294967295 ∧ e.master = 2 ∧
      ¬ TagsRead e [OptionalField.shared 1, OptionalField.master 2] := by
  have hline : (dashedLine [OptionalField.shared 1, OptionalField.master 2]).WellFormed := by
    decide +kernel
  have hshared : (dashedLine [OptionalField.shared 1, OptionalField.master 2]).entry.shared =
      4294967295 := by
    decide +kernel
  have hparsed : parseMountInfo (fun _ => 0)
      ([dashedLine [OptionalField.shared 1, OptionalField.master 2]].flatMap MountLine.text) =
        some [(dashedLine [OptionalField.shared 1, OptionalField.master 2]).entry] :=
    parseMountInfo_text (fun l hl => (List.mem_singleton.mp hl) ▸ hline)
  rw [List.flatMap_singleton] at hparsed
  refine ⟨hline, _, hparsed, hshared, by decide +kernel, ?_⟩
  intro htags
  have hread := (htags TagKind.shared).left 1 List.mem_cons_self
  rw [TagKind.member, hshared] at hread
  cases hread

end Injector
end ReZygisk
