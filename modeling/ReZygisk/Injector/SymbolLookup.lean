import Mathlib.Data.List.Perm.Subperm
import ReZygisk.Injector.ElfImg

/-!
# Every symbol is found

A linker writes hash tables of a fixed shape.  Over such tables the two hashed
lookups end and find what a plain scan of the dynamic symbols finds, so which
of the tables a file has does not matter, and neither do the lookups made
before, although the last resort fills a cache.
-/

namespace ReZygisk
namespace Injector

open Foundation
open Kernel

namespace Elf

variable {lp : Lp} {file : List Byte} {img : ElfImg}

/-!
# The GNU table
-/

/-- The bucket of a dynamic symbol. -/
def gnuBucketOf (lp : Lp) (file : List Byte) (img : ElfImg) (i : Nat) : Nat :=
  (gnuHash (dynamicName lp file img i)).toNat % img.gnuNbucket

/-- The hash table of the dynamic symbols from `gnuSymndx` below `limit`. -/
structure GnuTable (lp : Lp) (file : List Byte) (img : ElfImg) (limit : Nat) : Prop where
  nbucket_pos : 0 < img.gnuNbucket
  bloomSize_pos : 0 < img.gnuBloomSize
  limit_le : limit ≤ 2 ^ 32
  bloom : forall i, img.gnuSymndx ≤ i -> i < limit ->
    let hash := gnuHash (dynamicName lp file img i)
    (bloomWord lp file img hash).testBit (hash.toNat % lp.bits) = true ∧
      (bloomWord lp file img hash).testBit ((hash.toNat >>> img.gnuShift2) % lp.bits) = true
  hashed : forall i, img.gnuSymndx ≤ i -> i < limit ->
    gnuChainWord file img i >>> 1 = (gnuHash (dynamicName lp file img i)).toNat >>> 1
  runs : BucketRuns (gnuBucketOf lp file img) (fun i => gnuChainWord file img i % 2 != 0)
    img.gnuSymndx limit
  starts : forall b, b < img.gnuNbucket ->
    RunStart (gnuBucketOf lp file img) img.gnuSymndx limit b (gnuStart file img b)

def hashedIndices (img : ElfImg) (limit : Nat) : List Nat :=
  List.range' img.gnuSymndx (limit - img.gnuSymndx)

theorem mem_hashedIndices {limit i : Nat} :
    i ∈ hashedIndices img limit <-> img.gnuSymndx ≤ i ∧ i < limit := by
  unfold hashedIndices
  rw [List.mem_range'_1]
  omega

theorem nameHit_of_ne {name : List Byte} {i : Nat} (h : name ≠ dynamicName lp file img i) :
    nameHit lp file img name i = none := by
  rw [nameHit, if_neg h]

namespace GnuTable

variable {limit : Nat} (h : GnuTable lp file img limit)
include h

/-- Comparing the hashes first drops no symbol of the name. -/
theorem gnuHit_eq (name : List Byte) {i : Nat} (hi : i ∈ hashedIndices img limit) :
    gnuHit lp file img name (gnuHash name) i = nameHit lp file img name i := by
  rw [mem_hashedIndices] at hi
  rcases eq_or_ne name (dynamicName lp file img i) with heq | hne
  · have hsame : (gnuChainWord file img i ^^^ (gnuHash name).toNat) >>> 1 = 0 := by
      rw [Nat.shiftRight_xor_distrib, h.hashed i hi.left hi.right, ← heq, Nat.xor_self]
    rw [gnuHit, if_pos hsame]
  · rw [gnuHit, nameHit_of_ne hne]
    split
    · rfl
    · rfl

theorem chain (name : List Byte) :
    Chain (gnuNext file img) (gnuStart file img ((gnuHash name).toNat % img.gnuNbucket))
      ((hashedIndices img limit).filter
        (fun i => gnuBucketOf lp file img i = (gnuHash name).toNat % img.gnuNbucket)) := by
  have hruns := h.runs.chain_of_start
    (h.starts _ (Nat.mod_lt (gnuHash name).toNat h.nbucket_pos))
  apply hruns.congr
  intro i hi
  have hrange := mem_hashedIndices.mp (List.mem_of_mem_filter hi)
  -- An index that is not marked has a successor below the limit, so the 32-bit
  -- counter does not wrap.
  cases hmarked : (gnuChainWord file img i % 2 != 0) with
  | true =>
      have hodd : gnuChainWord file img i % 2 ≠ 0 := by simpa using hmarked
      rw [gnuNext, runNext, if_neg hodd, if_pos hmarked]
  | false =>
      have heven : gnuChainWord file img i % 2 = 0 := by simpa using hmarked
      have hlast : i + 1 ≠ limit := by
        intro hend
        have hmark := (h.runs.marked_iff i hrange.left hrange.right).mpr (Or.inl hend)
        rw [hmarked] at hmark
        cases hmark
      have hfits : (i + 1) % 2 ^ 32 = i + 1 := by
        apply Nat.mod_eq_of_lt
        have := h.limit_le
        omega
      rw [gnuNext, runNext, if_pos heven, if_neg (by rw [hmarked]; exact Bool.false_ne_true),
        hfits]

theorem bloom_passes_of_name {name : List Byte} {i : Nat} (hi : i ∈ hashedIndices img limit)
    (hname : name = dynamicName lp file img i) :
    bloomMask lp img (gnuHash name) &&& bloomWord lp file img (gnuHash name) =
      bloomMask lp img (gnuHash name) := by
  rw [mem_hashedIndices] at hi
  have hbits := h.bloom i hi.left hi.right
  rw [← hname] at hbits
  exact bloom_passes hbits.left hbits.right

/-- The lookup ends and answers with the first hashed symbol of the name. -/
theorem gnuLookup_eq {fuel : Nat} (hfuel : limit < fuel) (name : List Byte) :
    gnuLookup lp file img fuel name (gnuHash name) =
      some (((hashedIndices img limit).findSome? (nameHit lp file img name)).getD 0) := by
  have hpresent : ¬ (img.gnuNbucket = 0 ∨ img.gnuBloomSize = 0) := by
    have := h.nbucket_pos
    have := h.bloomSize_pos
    omega
  unfold gnuLookup
  rw [if_neg hpresent]
  split
  · have hlength : ((hashedIndices img limit).filter (fun i =>
        gnuBucketOf lp file img i = (gnuHash name).toNat % img.gnuNbucket)).length < fuel := by
      apply Nat.lt_of_le_of_lt (List.length_filter_le _ _)
      rw [hashedIndices, List.length_range']
      omega
    rw [iterate_chase_of_lt (h.chain name) hlength, Option.map_some]
    congr 2
    apply findSome?_filter_eq (fun i hi => h.gnuHit_eq name hi)
    intro i _ hother
    apply nameHit_of_ne
    intro hname
    rw [decide_eq_false_iff_not, gnuBucketOf, ← hname] at hother
    exact hother rfl
  · next hbloom =>
      have hnone : (hashedIndices img limit).findSome? (nameHit lp file img name) = none := by
        rw [List.findSome?_eq_none_iff]
        intro i hi
        apply nameHit_of_ne
        intro hname
        exact hbloom (h.bloom_passes_of_name hi hname)
      rw [hnone, Option.getD_none]

end GnuTable

/-- For a table as linkers write it the lookup ends, finds the first hashed
symbol of the name whatever the bloom filter and the hashes are, and finds
nothing when there is none. -/
theorem gnuLookup_first_of_name {limit fuel : Nat} (h : GnuTable lp file img limit)
    (hfuel : limit < fuel) (name : List Byte) :
    exists v, gnuLookup lp file img fuel name (gnuHash name) = some v ∧
      (forall i, img.gnuSymndx ≤ i -> i < limit -> name = dynamicName lp file img i ->
        (forall j, img.gnuSymndx ≤ j -> j < i -> name ≠ dynamicName lp file img j) ->
          v = (dynamicSym lp file img i).stValue) ∧
      ((forall i, img.gnuSymndx ≤ i -> i < limit -> name ≠ dynamicName lp file img i) ->
        v = 0) := by
  refine ⟨_, h.gnuLookup_eq hfuel name, ?_, ?_⟩
  · intro i hlow hhigh hname hleast
    have hsplit : hashedIndices img limit =
        List.range' img.gnuSymndx (i - img.gnuSymndx) ++ i :: List.range' (i + 1) (limit - i - 1) := by
      have happend := @List.range'_append_1 img.gnuSymndx (i - img.gnuSymndx) (limit - i - 1 + 1)
      rw [Nat.add_sub_cancel' hlow, List.range'_succ] at happend
      rw [happend, hashedIndices]
      congr 1
      omega
    have hbefore : (List.range' img.gnuSymndx (i - img.gnuSymndx)).findSome?
        (nameHit lp file img name) = none := by
      rw [List.findSome?_eq_none_iff]
      intro j hj
      rw [List.mem_range'_1] at hj
      exact nameHit_of_ne (hleast j hj.left (by omega))
    rw [hsplit, List.findSome?_append, hbefore, Option.none_or, List.findSome?_cons, nameHit,
      if_pos hname, Option.getD_some]
  · intro hnone
    have hmiss : (hashedIndices img limit).findSome? (nameHit lp file img name) = none := by
      rw [List.findSome?_eq_none_iff]
      intro i hi
      rw [mem_hashedIndices] at hi
      exact nameHit_of_ne (hnone i hi.left hi.right)
    rw [hmiss, Option.getD_none]

/-!
# The System V table
-/

structure ElfTable (lp : Lp) (file : List Byte) (img : ElfImg) (count : Nat) : Prop where
  nbucket_pos : 0 < img.nbucket
  chains : forall b, b < img.nbucket ->
    exists ns, Chain (elfNext file img) (elfLink (word file (img.bucket + 4 * b))) ns ∧
      forall i, i ∈ ns <-> 0 < i ∧ i < count ∧
        (elfHash (dynamicName lp file img i)).toNat % img.nbucket = b

def symbolIndices (count : Nat) : List Nat :=
  List.range' 1 (count - 1)

theorem mem_symbolIndices {count i : Nat} : i ∈ symbolIndices count <-> 0 < i ∧ i < count := by
  unfold symbolIndices
  rw [List.mem_range'_1]
  omega

/-- Symbols that share a name share a value. -/
def OneValue (lp : Lp) (file : List Byte) (img : ElfImg) (count : Nat) : Prop :=
  forall i j, i ∈ symbolIndices count -> j ∈ symbolIndices count ->
    dynamicName lp file img i = dynamicName lp file img j ->
      (dynamicSym lp file img i).stValue = (dynamicSym lp file img j).stValue

def plainDynamic (lp : Lp) (file : List Byte) (img : ElfImg) (count : Nat) (name : List Byte) :
    Nat :=
  ((symbolIndices count).findSome? (nameHit lp file img name)).getD 0

theorem nameHit_eq_some {name : List Byte} {i v : Nat} (h : nameHit lp file img name i = some v) :
    name = dynamicName lp file img i ∧ v = (dynamicSym lp file img i).stValue := by
  unfold nameHit at h
  split at h
  · next hname =>
      injection h with h
      exact ⟨hname, h.symm⟩
  · cases h

/-- Where one name has one value, a search that meets every symbol of the name
that has a value answers as the plain scan does. -/
theorem findSome?_eq_plainDynamic {count : Nat} (hone : OneValue lp file img count)
    {ns : List Nat} {name : List Byte} (hsub : forall i, i ∈ ns -> i ∈ symbolIndices count)
    (hall : forall i, i ∈ symbolIndices count -> name = dynamicName lp file img i ->
      i ∈ ns ∨ (dynamicSym lp file img i).stValue = 0) :
    (ns.findSome? (nameHit lp file img name)).getD 0 = plainDynamic lp file img count name := by
  unfold plainDynamic
  cases hfound : (symbolIndices count).findSome? (nameHit lp file img name) with
  | none =>
      have hnone : ns.findSome? (nameHit lp file img name) = none := by
        rw [List.findSome?_eq_none_iff] at hfound ⊢
        intro i hi
        exact hfound i (hsub i hi)
      rw [hnone]
  | some v =>
      rcases List.exists_of_findSome?_eq_some hfound with ⟨i, hi, hhit⟩
      rcases nameHit_eq_some hhit with ⟨hname, hv⟩
      cases hfound' : ns.findSome? (nameHit lp file img name) with
      | none =>
          rw [List.findSome?_eq_none_iff] at hfound'
          rcases hall i hi hname with hmem | hzero
          · rw [hfound' i hmem] at hhit
            cases hhit
          · rw [Option.getD_none, Option.getD_some, hv, hzero]
      | some v' =>
          rcases List.exists_of_findSome?_eq_some hfound' with ⟨j, hj, hhit'⟩
          rcases nameHit_eq_some hhit' with ⟨hname', hv'⟩
          rw [Option.getD_some, Option.getD_some, hv, hv']
          exact hone j i (hsub j hj) hi (hname'.symm.trans hname)

theorem ElfTable.elfLookup_eq {count fuel : Nat} (h : ElfTable lp file img count)
    (hone : OneValue lp file img count) (hfuel : count < fuel) (name : List Byte) :
    elfLookup lp file img fuel name (elfHash name) =
      some (plainDynamic lp file img count name) := by
  rcases h.chains _ (Nat.mod_lt (elfHash name).toNat h.nbucket_pos) with ⟨ns, hchain, hmem⟩
  have hsub : forall i, i ∈ ns -> i ∈ symbolIndices count := by
    intro i hi
    have hi := (hmem i).mp hi
    exact mem_symbolIndices.mpr ⟨hi.left, hi.right.left⟩
  have hlength : ns.length < fuel := by
    have hle := (List.subperm_of_subset hchain.nodup hsub).length_le
    rw [symbolIndices, List.length_range'] at hle
    omega
  rw [elfLookup, if_neg (Nat.pos_iff_ne_zero.mp h.nbucket_pos), iterate_chase_of_lt hchain hlength,
    Option.map_some]
  congr 1
  apply findSome?_eq_plainDynamic hone hsub
  intro i hi hname
  rw [mem_symbolIndices] at hi
  apply Or.inl
  rw [hmem, ← hname]
  exact ⟨hi.left, hi.right, rfl⟩

/-!
# The full symbol table

The table is turned into a map when the map is empty, which for a file without
symbols is at every lookup.
-/

/-- The first kept symbol of the name. -/
def plainSymtab (lp : Lp) (file : List Byte) (img : ElfImg) (name : List Byte) : Nat :=
  match img.symtabStart with
  | none => 0
  | some start =>
      if img.symstrOffsetForSymtab = 0 then 0
      else
        (((List.range img.symtabCount).find? (fun i =>
          keeps (symtabSym lp file start i) && symtabName lp file img start i == name)).map
          (fun i => (symtabSym lp file start i).stValue)).getD 0

theorem lookup_fillSymtabs {start : Nat} (hstart : img.symtabStart = some start)
    (hstr : img.symstrOffsetForSymtab ≠ 0) (name : List Byte) :
    (fillSymtabs lp file img).lookup name =
      (List.range img.symtabCount).find? (fun i =>
        keeps (symtabSym lp file start i) && symtabName lp file img start i == name) := by
  unfold fillSymtabs
  simp only [hstart, if_neg hstr]
  exact (lookup_foldl_emplace (fun i => keeps (symtabSym lp file start i))
    (symtabName lp file img start) (List.range img.symtabCount) [] name).trans
    (Option.none_or)

theorem linearLookup_eq {cache : Cache} (h : cache = [] ∨ cache = fillSymtabs lp file img)
    (name : List Byte) :
    linearLookup lp file img cache name =
      (plainSymtab lp file img name, fillSymtabs lp file img) := by
  have hcache : (if cache.isEmpty then fillSymtabs lp file img else cache) =
      fillSymtabs lp file img := by
    rcases h with h | h
    · rw [h]
      rfl
    · rw [h]
      exact ite_self _
  unfold linearLookup plainSymtab
  rw [hcache]
  cases hstart : img.symtabStart with
  | none =>
      cases hfound : (fillSymtabs lp file img).lookup name with
      | none => simp only [hfound]
      | some i => simp only [hfound]
  | some start =>
      rcases eq_or_ne img.symstrOffsetForSymtab 0 with hzero | hnonzero
      · have hempty : fillSymtabs lp file img = [] := by
          simp only [fillSymtabs, hstart, if_pos hzero]
        simp only [if_pos hzero, hempty, List.lookup_nil]
      · have hfound := @lookup_fillSymtabs lp file img start hstart hnonzero name
        simp only [if_neg hnonzero, hfound]
        cases (List.range img.symtabCount).find? (fun i =>
          keeps (symtabSym lp file start i) && symtabName lp file img start i == name) with
        | none => rfl
        | some i => rfl

/-!
# Any history of lookups
-/

/-- What a file that a linker wrote has: at least one hash table of its dynamic
symbols, and no hash table leaves out a symbol that has a value. -/
structure DynamicTables (lp : Lp) (file : List Byte) (img : ElfImg) (count : Nat) : Prop where
  gnu : img.gnuNbucket = 0 ∨
    0 < img.gnuSymndx ∧ GnuTable lp file img count ∧
      forall i, 0 < i -> i < img.gnuSymndx -> (dynamicSym lp file img i).stValue = 0
  elf : img.nbucket = 0 ∨ ElfTable lp file img count
  hashed : img.gnuNbucket ≠ 0 ∨ img.nbucket ≠ 0
  oneValue : OneValue lp file img count

def plainOffset (lp : Lp) (file : List Byte) (img : ElfImg) (count : Nat) (name : List Byte) :
    Nat :=
  if 0 < plainDynamic lp file img count name then plainDynamic lp file img count name
  else plainSymtab lp file img name

namespace DynamicTables

variable {count fuel : Nat}

theorem gnuLookup_eq (h : DynamicTables lp file img count) (hfuel : count < fuel)
    (hpresent : img.gnuNbucket ≠ 0) (name : List Byte) :
    gnuLookup lp file img fuel name (gnuHash name) =
      some (plainDynamic lp file img count name) := by
  rcases h.gnu with habsent | ⟨hpos, htable, hzero⟩
  · exact absurd habsent hpresent
  · rw [htable.gnuLookup_eq hfuel]
    congr 1
    apply findSome?_eq_plainDynamic h.oneValue
    · intro i hi
      rw [mem_hashedIndices] at hi
      exact mem_symbolIndices.mpr ⟨Nat.lt_of_lt_of_le hpos hi.left, hi.right⟩
    · intro i hi _
      rw [mem_symbolIndices] at hi
      rcases Nat.lt_or_ge i img.gnuSymndx with hlt | hge
      · exact Or.inr (hzero i hi.left hlt)
      · exact Or.inl (mem_hashedIndices.mpr ⟨hge, hi.right⟩)

theorem elfLookup_eq (h : DynamicTables lp file img count) (hfuel : count < fuel)
    (name : List Byte) :
    elfLookup lp file img fuel name (elfHash name) =
      some (if img.nbucket = 0 then 0 else plainDynamic lp file img count name) := by
  rcases h.elf with habsent | htable
  · rw [elfLookup, if_pos habsent, if_pos habsent]
  · rw [htable.elfLookup_eq h.oneValue hfuel, if_neg (Nat.pos_iff_ne_zero.mp htable.nbucket_pos)]

theorem getSymbOffset_eq (h : DynamicTables lp file img count) (hfuel : count < fuel)
    {cache : Cache} (hcache : cache = [] ∨ cache = fillSymtabs lp file img) (name : List Byte) :
    getSymbOffset lp file img fuel cache name =
      some (plainOffset lp file img count name,
        if 0 < plainDynamic lp file img count name then cache else fillSymtabs lp file img) := by
  unfold getSymbOffset plainOffset
  rw [h.elfLookup_eq hfuel]
  rcases eq_or_ne img.gnuNbucket 0 with habsent | hpresent
  · have hgnu : gnuLookup lp file img fuel name (gnuHash name) = some 0 := by
      rw [gnuLookup, if_pos (Or.inl habsent)]
    have hsysv : img.nbucket ≠ 0 := h.hashed.resolve_left (fun hne => hne habsent)
    simp only [hgnu, if_neg hsysv, Nat.lt_irrefl, if_false]
    split
    · rfl
    · rw [linearLookup_eq hcache]
  · simp only [h.gnuLookup_eq hfuel hpresent]
    split
    · rfl
    · next hnone =>
        have hstill : ¬ 0 < (if img.nbucket = 0 then 0
            else plainDynamic lp file img count name) := by
          split
          · exact Nat.lt_irrefl 0
          · exact hnone
        rw [if_neg hstill, linearLookup_eq hcache]

theorem getSymbOffsets_cache (h : DynamicTables lp file img count) (hfuel : count < fuel)
    (names : List (List Byte)) {cache : Cache}
    (hcache : cache = [] ∨ cache = fillSymtabs lp file img) :
    exists cache', getSymbOffsets lp file img fuel cache names = some cache' ∧
      (cache' = [] ∨ cache' = fillSymtabs lp file img) := by
  induction names generalizing cache with
  | nil => exact ⟨cache, rfl, hcache⟩
  | cons name names ih =>
      unfold getSymbOffsets
      rw [h.getSymbOffset_eq hfuel hcache]
      apply ih
      split
      · exact hcache
      · exact Or.inr rfl

end DynamicTables

/-- After any lookups, a lookup ends and answers as a scan of the dynamic
symbols followed by a scan of the full symbol table. -/
theorem getSymbOffset_after_lookups {count fuel : Nat} (h : DynamicTables lp file img count)
    (hfuel : count < fuel) (earlier : List (List Byte)) (name : List Byte) :
    exists cache cache', getSymbOffsets lp file img fuel [] earlier = some cache ∧
      getSymbOffset lp file img fuel cache name =
        some (plainOffset lp file img count name, cache') := by
  rcases h.getSymbOffsets_cache hfuel earlier (Or.inl rfl) with ⟨cache, hrun, hcache⟩
  exact ⟨cache, _, hrun, h.getSymbOffset_eq hfuel hcache name⟩

def forkImg : ElfImg :=
  readSections Lp.lp32 forkLibrary 0x70000000

theorem forkLibrary_gnuTable : GnuTable Lp.lp32 forkLibrary forkImg 2 := by
  have hone : forall i, forkImg.gnuSymndx ≤ i -> i < 2 -> i = 1 := by
    intro i hlow hhigh
    have hsymndx : forkImg.gnuSymndx = 1 := by decide +kernel
    omega
  constructor
  · decide +kernel
  · decide +kernel
  · decide
  · intro i hlow hhigh
    rw [hone i hlow hhigh]
    exact ⟨by decide +kernel, by decide +kernel⟩
  · intro i hlow hhigh
    rw [hone i hlow hhigh]
    decide +kernel
  · constructor
    · intro i hlow hhigh
      have := hone i hlow (by omega)
      omega
    · intro i hlow hhigh
      rw [hone i hlow hhigh]
      exact iff_of_true (by decide +kernel) (Or.inl rfl)
  · intro b hb
    have hnbucket : forkImg.gnuNbucket = 1 := by decide +kernel
    have hzero : b = 0 := by omega
    have hstart : gnuStart forkLibrary forkImg 0 = some 1 := by decide +kernel
    rw [hzero, hstart]
    constructor
    · intro i hi
      injection hi with hi
      rw [← hi]
      exact ⟨by decide +kernel, by decide, by decide +kernel⟩
    · intro j hlow hhigh _
      exact ⟨1, rfl, by rw [hone j hlow hhigh]⟩

theorem gnuLookup_first_of_name_fork :
    exists v, gnuLookup Lp.lp32 forkLibrary forkImg 3 (bytesOf "fork") (gnuHash (bytesOf "fork")) =
        some v ∧ v = 0x1000 := by
  have hfuel : 2 < 3 := by decide
  rcases gnuLookup_first_of_name forkLibrary_gnuTable hfuel (bytesOf "fork") with
    ⟨v, hlookup, hfirst, _⟩
  have hvalue := hfirst 1 (by decide +kernel) (by decide) (by decide +kernel) (by
    intro j hlow hlt
    have hsymndx : forkImg.gnuSymndx = 1 := by decide +kernel
    omega)
  refine ⟨v, hlookup, hvalue.trans ?_⟩
  decide +kernel

theorem forkLibrary_dynamicTables : DynamicTables Lp.lp32 forkLibrary forkImg 2 := by
  constructor
  · refine Or.inr ⟨by decide +kernel, forkLibrary_gnuTable, ?_⟩
    intro i hpos hlow
    have hsymndx : forkImg.gnuSymndx = 1 := by decide +kernel
    omega
  · exact Or.inl (by decide +kernel)
  · exact Or.inl (by decide +kernel)
  · intro i j hi hj _
    rw [mem_symbolIndices] at hi hj
    have hsame : i = j := by omega
    rw [hsame]

theorem getSymbOffset_after_lookups_fork :
    exists cache cache',
      getSymbOffsets Lp.lp32 forkLibrary forkImg 3 [] [bytesOf "vfork", bytesOf "fork"] =
        some cache ∧
      getSymbOffset Lp.lp32 forkLibrary forkImg 3 cache (bytesOf "fork") =
        some (0x1000, cache') := by
  have hplain : plainOffset Lp.lp32 forkLibrary forkImg 2 (bytesOf "fork") = 0x1000 := by
    decide +kernel
  rw [← hplain]
  exact getSymbOffset_after_lookups forkLibrary_dynamicTables (by decide) _ _

end Elf

end Injector
end ReZygisk
