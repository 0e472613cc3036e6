import ReZygisk.Injector.ElfImg

/-!
# Which sections an image uses

The constructor goes through the section headers once.  Until a code section
has decided the bias, every dynamic symbol table and every string table
replaces the one before; the first code section that comes after both decides
the bias, unless its displacement happens to be the value that stands for an
undecided one.
-/

namespace ReZygisk
namespace Injector

open Foundation
open Kernel

namespace Elf

section Headers

variable (lp : Lp) (file : List Byte)

def typeOf (off : Nat) : Nat :=
  (shdr lp file off).shType

/-- How far a section is moved from its place in the file. -/
def displacement (off : Nat) : Int :=
  offT lp (shdr lp file off).shAddr - offT lp (shdr lp file off).shOffset

/-- The last header of the type. -/
def lastOf (type : Nat) (offs : List Nat) : Option Nat :=
  (offs.filter (fun off => typeOf lp file off == type)).getLast?

def startOf (found : Option Nat) : Nat :=
  match found with
  | none => 0
  | some off => (shdr lp file off).shOffset

/-- The body of the loop over the section headers. -/
def pass (img : ElfImg) (off : Nat) : ElfImg :=
  readSection lp file img off (text file ((shdr lp file off).shName + sectionStr lp file))
    (shdr lp file off)

end Headers

variable {lp : Lp} {file : List Byte} {img : ElfImg}

theorem readSections_eq (lp : Lp) (file : List Byte) (base : Nat) :
    readSections lp file base = (sectionOffsets lp file).foldl (pass lp file) { base := base } := by
  rfl

theorem lastOf_append (type : Nat) (offs : List Nat) (off : Nat) :
    lastOf lp file type (offs ++ [off]) =
      if typeOf lp file off = type then some off else lastOf lp file type offs := by
  unfold lastOf
  rw [List.filter_append]
  split
  · next h =>
      rw [List.filter_cons_of_pos (by simpa using h), List.filter_nil, List.getLast?_concat]
  · next h =>
      rw [List.filter_cons_of_neg (by simpa using h), List.filter_nil, List.append_nil]

theorem lastOf_eq_none_iff (type : Nat) (offs : List Nat) :
    lastOf lp file type offs = none <-> forall off, off ∈ offs -> typeOf lp file off ≠ type := by
  unfold lastOf
  rw [List.getLast?_eq_none_iff, List.filter_eq_nil_iff]
  simp

/-- The state of the loop after the headers `seen`, none of which has decided
the bias. -/
structure Undecided (lp : Lp) (file : List Byte) (seen : List Nat) (img : ElfImg) : Prop where
  bias : img.bias = NO_BIAS
  dynsym : img.dynsym = lastOf lp file SHT_DYNSYM seen
  strtab : img.strtab = lastOf lp file SHT_STRTAB seen
  dynsymStart : img.dynsymStart = startOf lp file (lastOf lp file SHT_DYNSYM seen)
  strtabStart : img.strtabStart = startOf lp file (lastOf lp file SHT_STRTAB seen)

/-- The header decides the bias when it comes after the headers `seen`. -/
def Decides (lp : Lp) (file : List Byte) (seen : List Nat) (off : Nat) : Prop :=
  typeOf lp file off = SHT_PROGBITS ∧ lastOf lp file SHT_DYNSYM seen ≠ none ∧
    lastOf lp file SHT_STRTAB seen ≠ none ∧ displacement lp file off ≠ NO_BIAS

/-- What decides which tables are used and how far addresses are moved. -/
structure SameChoice (img img' : ElfImg) : Prop where
  bias : img'.bias = img.bias
  dynsym : img'.dynsym = img.dynsym
  strtab : img'.strtab = img.strtab
  dynsymStart : img'.dynsymStart = img.dynsymStart
  strtabStart : img'.strtabStart = img.strtabStart

theorem SameChoice.refl (img : ElfImg) : SameChoice img img :=
  ⟨rfl, rfl, rfl, rfl, rfl⟩

theorem SameChoice.trans {img img' img'' : ElfImg} (h : SameChoice img img')
    (h' : SameChoice img' img'') : SameChoice img img'' :=
  ⟨h'.bias.trans h.bias, h'.dynsym.trans h.dynsym, h'.strtab.trans h.strtab,
    h'.dynsymStart.trans h.dynsymStart, h'.strtabStart.trans h.strtabStart⟩

/-!
# One header
-/

section Pass

variable {seen : List Nat} {off : Nat}

theorem pass_dynsym (hbias : img.bias = NO_BIAS) (htype : typeOf lp file off = SHT_DYNSYM) :
    pass lp file img off =
      { img with dynsym := some off, dynsymStart := (shdr lp file off).shOffset } := by
  unfold typeOf at htype
  unfold pass readSection
  rw [if_pos htype, if_pos hbias]

theorem pass_strtab (hbias : img.bias = NO_BIAS) (htype : typeOf lp file off = SHT_STRTAB) :
    SameChoice { img with strtab := some off, strtabStart := (shdr lp file off).shOffset }
      (pass lp file img off) := by
  unfold typeOf at htype
  unfold pass readSection
  rw [htype, if_neg (by decide), if_neg (by decide), if_pos rfl]
  simp only [if_pos hbias]
  split
  · exact ⟨rfl, rfl, rfl, rfl, rfl⟩
  · exact SameChoice.refl _

theorem pass_progbits (hdynsym : img.dynsym ≠ none) (hstrtab : img.strtab ≠ none)
    (hbias : img.bias = NO_BIAS) (htype : typeOf lp file off = SHT_PROGBITS) :
    pass lp file img off = { img with bias := displacement lp file off } := by
  unfold typeOf at htype
  unfold pass readSection
  rw [htype, if_neg (by decide), if_neg (by decide), if_neg (by decide), if_pos rfl,
    if_neg (not_or.mpr ⟨hstrtab, hdynsym⟩), if_pos hbias]
  rfl

/-- A header of any other type, and any header once the bias is decided. -/
theorem pass_sameChoice
    (h : img.bias ≠ NO_BIAS ∨
      typeOf lp file off ≠ SHT_DYNSYM ∧ typeOf lp file off ≠ SHT_STRTAB ∧
        (typeOf lp file off = SHT_PROGBITS -> img.strtab = none ∨ img.dynsym = none)) :
    SameChoice img (pass lp file img off) := by
  unfold pass readSection
  split
  · next htype =>
      rcases h with hbias | ⟨hdynsym, _, _⟩
      · rw [if_neg hbias]
        exact SameChoice.refl img
      · exact absurd htype hdynsym
  · split
    · split
      · exact ⟨rfl, rfl, rfl, rfl, rfl⟩
      · exact SameChoice.refl img
    · split
      · next htype =>
          rcases h with hbias | ⟨_, hstrtab, _⟩
          · simp only [if_neg hbias]
            split
            · exact ⟨rfl, rfl, rfl, rfl, rfl⟩
            · exact SameChoice.refl img
          · exact absurd htype hstrtab
      · split
        · next htype =>
            rcases h with hbias | ⟨_, _, hcode⟩
            · rw [if_neg hbias, ite_self]
              exact SameChoice.refl img
            · rw [if_pos (hcode htype)]
              exact SameChoice.refl img
        · split
          · exact ⟨rfl, rfl, rfl, rfl, rfl⟩
          · split
            · exact ⟨rfl, rfl, rfl, rfl, rfl⟩
            · exact SameChoice.refl img

theorem Undecided.of_sameChoice {img' : ElfImg} (h : Undecided lp file seen img)
    (hsame : SameChoice img img') : Undecided lp file seen img' :=
  ⟨hsame.bias.trans h.bias, hsame.dynsym.trans h.dynsym, hsame.strtab.trans h.strtab,
    hsame.dynsymStart.trans h.dynsymStart, hsame.strtabStart.trans h.strtabStart⟩

theorem Undecided.skip (h : Undecided lp file seen img)
    (hdynsym : typeOf lp file off ≠ SHT_DYNSYM) (hstrtab : typeOf lp file off ≠ SHT_STRTAB) :
    Undecided lp file (seen ++ [off]) img := by
  have hd := (@lastOf_append lp file SHT_DYNSYM seen off).trans (if_neg hdynsym)
  have hs := (@lastOf_append lp file SHT_STRTAB seen off).trans (if_neg hstrtab)
  constructor
  · exact h.bias
  · rw [hd, h.dynsym]
  · rw [hs, h.strtab]
  · rw [hd, h.dynsymStart]
  · rw [hs, h.strtabStart]

theorem Undecided.pass (h : Undecided lp file seen img) (hnot : ¬ Decides lp file seen off) :
    Undecided lp file (seen ++ [off]) (pass lp file img off) := by
  have hd := @lastOf_append lp file SHT_DYNSYM seen off
  have hs := @lastOf_append lp file SHT_STRTAB seen off
  rcases eq_or_ne (typeOf lp file off) SHT_DYNSYM with hdynsym | hdynsym
  · rw [if_pos hdynsym] at hd
    rw [if_neg (by rw [hdynsym]; decide)] at hs
    rw [pass_dynsym h.bias hdynsym]
    constructor
    · exact h.bias
    · rw [hd]
    · rw [hs]
      exact h.strtab
    · rw [hd]
      rfl
    · rw [hs]
      exact h.strtabStart
  · rcases eq_or_ne (typeOf lp file off) SHT_STRTAB with hstrtab | hstrtab
    · rw [if_neg hdynsym] at hd
      rw [if_pos hstrtab] at hs
      apply Undecided.of_sameChoice _ (pass_strtab h.bias hstrtab)
      constructor
      · exact h.bias
      · rw [hd]
        exact h.dynsym
      · rw [hs]
      · rw [hd]
        exact h.dynsymStart
      · rw [hs]
        rfl
    · rcases eq_or_ne (typeOf lp file off) SHT_PROGBITS with hcode | hcode
      · rcases eq_or_ne (lastOf lp file SHT_DYNSYM seen) none with hnone | hsome
        · apply (h.skip hdynsym hstrtab).of_sameChoice
          exact pass_sameChoice (Or.inr ⟨hdynsym, hstrtab, fun _ => Or.inr (h.dynsym.trans hnone)⟩)
        · rcases eq_or_ne (lastOf lp file SHT_STRTAB seen) none with hnone' | hsome'
          · apply (h.skip hdynsym hstrtab).of_sameChoice
            exact pass_sameChoice
              (Or.inr ⟨hdynsym, hstrtab, fun _ => Or.inl (h.strtab.trans hnone')⟩)
          · -- Both tables are there, so only the displacement can keep the header
            -- from deciding.
            have hdisp : displacement lp file off = NO_BIAS := by
              by_contra hne
              exact hnot ⟨hcode, hsome, hsome', hne⟩
            have hpass := pass_progbits (by rw [h.dynsym]; exact hsome)
              (by rw [h.strtab]; exact hsome') h.bias hcode
            rw [hpass, hdisp]
            apply (h.skip hdynsym hstrtab).of_sameChoice
            exact ⟨h.bias.symm, rfl, rfl, rfl, rfl⟩
      · apply (h.skip hdynsym hstrtab).of_sameChoice
        exact pass_sameChoice (Or.inr ⟨hdynsym, hstrtab, fun h => absurd h hcode⟩)

end Pass

/-!
# The whole loop
-/

theorem sameChoice_foldl (offs : List Nat) (h : img.bias ≠ NO_BIAS) :
    SameChoice img (offs.foldl (pass lp file) img) := by
  induction offs generalizing img with
  | nil => exact SameChoice.refl img
  | cons off offs ih =>
      have hpass := @pass_sameChoice lp file img off (Or.inl h)
      apply hpass.trans
      apply ih
      rw [hpass.bias]
      exact h

theorem undecided_foldl (base : Nat) (offs : List Nat)
    (hnot : forall seen off rest, offs = seen ++ off :: rest -> ¬ Decides lp file seen off) :
    Undecided lp file offs (offs.foldl (pass lp file) { base := base }) := by
  induction offs using List.reverseRecOn with
  | nil => exact ⟨rfl, rfl, rfl, rfl, rfl⟩
  | append_singleton offs off ih =>
      rw [List.foldl_append, List.foldl_cons, List.foldl_nil]
      have hbefore := ih (fun seen off' rest heq => hnot seen off' (rest ++ [off]) (by
        rw [heq, List.append_assoc, List.cons_append]))
      exact hbefore.pass (hnot offs off [] rfl)

/-- The header that decides the bias, with those before it and after it. -/
structure DecidingSection (lp : Lp) (file : List Byte) (before : List Nat) (code : Nat)
    (after : List Nat) : Prop where
  split : sectionOffsets lp file = before ++ code :: after
  decides : Decides lp file before code
  first : forall seen off rest, before = seen ++ off :: rest -> ¬ Decides lp file seen off

/-- The first deciding header fixes the bias, and with it the last dynamic
symbol table and the last string table before it. -/
theorem DecidingSection.choice {before after : List Nat} {code : Nat}
    (h : DecidingSection lp file before code after) (base : Nat) :
    (readSections lp file base).bias = displacement lp file code ∧
      (readSections lp file base).dynsymStart =
        startOf lp file (lastOf lp file SHT_DYNSYM before) ∧
      (readSections lp file base).strtabStart =
        startOf lp file (lastOf lp file SHT_STRTAB before) := by
  have hbefore := undecided_foldl base before h.first
  rcases h.decides with ⟨hcode, hdynsym, hstrtab, hdisp⟩
  have hpass := pass_progbits (by rw [hbefore.dynsym]; exact hdynsym)
    (by rw [hbefore.strtab]; exact hstrtab) hbefore.bias hcode
  have hafter := @sameChoice_foldl lp file
    (pass lp file (before.foldl (pass lp file) { base := base }) code) after
    (by rw [hpass]; exact hdisp)
  rw [readSections_eq, h.split, List.foldl_append, List.foldl_cons]
  constructor
  · rw [hafter.bias, hpass]
  constructor
  · rw [hafter.dynsymStart, hpass]
    exact hbefore.dynsymStart
  · rw [hafter.strtabStart, hpass]
    exact hbefore.strtabStart

theorem exists_decidingSection {seen rest : List Nat} {off : Nat}
    (hsplit : sectionOffsets lp file = seen ++ off :: rest) (h : Decides lp file seen off) :
    exists before code after, DecidingSection lp file before code after := by
  induction hlen : seen.length using Nat.strong_induction_on generalizing seen off rest with
  | _ n ih =>
      by_cases hfirst : forall seen' off' rest', seen = seen' ++ off' :: rest' ->
          ¬ Decides lp file seen' off'
      · exact ⟨seen, off, rest, ⟨hsplit, h, hfirst⟩⟩
      · push Not at hfirst
        rcases hfirst with ⟨seen', off', rest', heq, h'⟩
        have hshort : seen'.length < n := by
          rw [← hlen, heq, List.length_append, List.length_cons]
          omega
        have hsplit' : sectionOffsets lp file = seen' ++ off' :: (rest' ++ off :: rest) := by
          rw [hsplit, heq, List.append_assoc, List.cons_append]
        exact ih seen'.length hshort hsplit' h' rfl

/-!
# Addresses
-/

theorem pass_base (img : ElfImg) (off : Nat) : (pass lp file img off).base = img.base := by
  unfold pass readSection
  split_ifs <;> rfl

theorem readSections_base (lp : Lp) (file : List Byte) (base : Nat) :
    (readSections lp file base).base = base := by
  rw [readSections_eq]
  induction sectionOffsets lp file using List.reverseRecOn with
  | nil => rfl
  | append_singleton offs off ih =>
      rw [List.foldl_append, List.foldl_cons, List.foldl_nil, pass_base, ih]

theorem number_lt (file : List Byte) (offset width : Nat) :
    number file offset width < 256 ^ width := by
  have hshort : (file.drop offset).take width = ((file.drop offset).take width).take width := by
    rw [List.take_take, Nat.min_self]
  unfold number
  rw [hshort, leValue_take]
  exact Nat.mod_lt _ (Nat.pow_pos (by decide))

theorem shAddr_lt (off : Nat) : (shdr lp file off).shAddr < 2 ^ lp.bits := by
  cases lp with
  | lp32 => exact number_lt file (off + 12) 4
  | lp64 => exact number_lt file (off + 16) 8

theorem shOffset_lt (off : Nat) : (shdr lp file off).shOffset < 2 ^ lp.bits := by
  cases lp with
  | lp32 => exact number_lt file (off + 16) 4
  | lp64 => exact number_lt file (off + 24) 8

theorem offT_emod (lp : Lp) (n : Nat) :
    offT lp n % (2 ^ lp.bits : Nat) = (n : Int) % (2 ^ lp.bits : Nat) := by
  unfold offT
  split
  · rw [Int.natCast_mod, Int.emod_emod_of_dvd _ (Int.dvd_refl _)]
  · rw [Int.natCast_mod, Int.sub_emod_right, Int.emod_emod_of_dvd _ (Int.dvd_refl _)]

theorem sizeT_eq_iff (lp : Lp) (m n : Int) :
    lp.sizeT m = lp.sizeT n <-> m % (2 ^ lp.bits : Nat) = n % (2 ^ lp.bits : Nat) := by
  have hpos : ((2 ^ lp.bits : Nat) : Int) ≠ 0 := by
    cases lp <;> decide
  have hm := Int.emod_nonneg m hpos
  have hn := Int.emod_nonneg n hpos
  unfold Lp.sizeT
  omega

/-- A code section that is not moved moves no address. -/
theorem sizeT_sub_displacement_iff (off : Nat) (address : Int) :
    lp.sizeT (address - displacement lp file off) = lp.sizeT address <->
      (shdr lp file off).shAddr = (shdr lp file off).shOffset := by
  rw [sizeT_eq_iff, Int.emod_eq_emod_iff_emod_sub_eq_zero]
  have hsub : address - displacement lp file off - address =
      offT lp (shdr lp file off).shOffset - offT lp (shdr lp file off).shAddr := by
    unfold displacement
    omega
  rw [hsub, ← Int.emod_eq_emod_iff_emod_sub_eq_zero, offT_emod, offT_emod]
  have haddr := @shAddr_lt lp file off
  have hoffset := @shOffset_lt lp file off
  rw [Int.emod_eq_of_lt (Int.natCast_nonneg _) (Int.ofNat_lt.mpr hoffset),
    Int.emod_eq_of_lt (Int.natCast_nonneg _) (Int.ofNat_lt.mpr haddr)]
  omega

/-- A symbol that is found is given the address at which the linker loaded it
exactly when the section that decides the bias is where the file has it.  With
no deciding section every address is 4396 too high. -/
theorem getSymbAddress_of_found {base fuel value : Nat} {cache cache' : Cache} {name : List Byte}
    (hbase : base ≠ 0) (hvalue : 0 < value)
    (hfound : getSymbOffset lp file (readSections lp file base) fuel cache name =
      some (value, cache')) :
    exists address,
      getSymbAddress lp file (readSections lp file base) fuel cache name =
        some (address, cache') ∧
      (forall before code after, DecidingSection lp file before code after ->
        (address = lp.sizeT (base + value) <->
          (shdr lp file code).shAddr = (shdr lp file code).shOffset)) ∧
      ((forall before code after, ¬ DecidingSection lp file before code after) ->
        address = lp.sizeT (base + value + 4396)) := by
  have hbase' : (readSections lp file base).base = base := readSections_base lp file base
  refine ⟨lp.sizeT (base + value - (readSections lp file base).bias), ?_, ?_, ?_⟩
  · unfold getSymbAddress
    rw [hfound, Option.map_some, hbase', if_pos ⟨hvalue, hbase⟩]
  · intro before code after h
    rw [(h.choice base).left]
    exact sizeT_sub_displacement_iff code _
  · intro hnone
    have hundecided := @undecided_foldl lp file base (sectionOffsets lp file)
      (fun seen off rest hsplit h => by
        rcases exists_decidingSection hsplit h with ⟨before, code, after, hdeciding⟩
        exact hnone before code after hdeciding)
    rw [readSections_eq, hundecided.bias]
    congr 1

/-- The code section of the library decides, and is where the file has it. -/
theorem forkLibrary_decidingSection :
    DecidingSection Lp.lp32 forkLibrary [120, 160, 200, 240] 280 [] := by
  constructor
  · decide +kernel
  · exact ⟨by decide +kernel, by decide +kernel, by decide +kernel, by decide +kernel⟩
  · intro seen off rest hsplit hdecides
    have hmem : off ∈ [120, 160, 200, 240] := by
      rw [hsplit]
      exact List.mem_append_right seen List.mem_cons_self
    have hcode := hdecides.left
    simp only [List.mem_cons, List.not_mem_nil, or_false] at hmem
    rcases hmem with rfl | rfl | rfl | rfl <;> revert hcode <;> decide +kernel

theorem getSymbAddress_of_found_fork :
    exists address,
      getSymbAddress Lp.lp32 forkLibrary (readSections Lp.lp32 forkLibrary 0x70000000) 3 []
        (bytesOf "fork") = some (address, []) ∧
      address = Lp.lp32.sizeT (0x70000000 + 0x1000) := by
  have hoffset : getSymbOffset Lp.lp32 forkLibrary (readSections Lp.lp32 forkLibrary 0x70000000) 3
      [] (bytesOf "fork") = some (0x1000, []) := by
    decide +kernel
  rcases getSymbAddress_of_found (by decide) (by decide) hoffset with
    ⟨address, hfound, hdecided, _⟩
  refine ⟨address, hfound, ?_⟩
  exact (hdecided _ _ _ forkLibrary_decidingSection).mpr (by decide +kernel)

end Elf

end Injector
end ReZygisk
