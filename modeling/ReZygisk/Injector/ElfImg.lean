import Mathlib.Data.List.Infix
import Mathlib.Data.List.Range
import ReZygisk.Foundation.Bytes
import ReZygisk.Foundation.Chains
import ReZygisk.Kernel.Abi

/-!
# Symbol lookup in a mapped ELF file

`ElfImg` maps a library that is already loaded, remembers where the sections it
needs are, and finds a symbol through the GNU hash table, the System V hash
table or, last, the full symbol table.  Pointers into the mapping are offsets
from its start, and bytes past the end of the file read as zero.
-/

namespace ReZygisk
namespace Injector

open Foundation
open Kernel

namespace Elf

/-!
# Reading the file
-/

def number (file : List Byte) (offset width : Nat) : Nat :=
  leValue ((file.drop offset).take width)

def word (file : List Byte) (offset : Nat) : Nat :=
  number file offset 4

def text (file : List Byte) (offset : Nat) : List Byte :=
  cstr (file.drop offset)

/-- `off_t`, which is as wide as a pointer. -/
def offT (lp : Lp) (n : Nat) : Int :=
  if n % 2 ^ lp.bits < 2 ^ (lp.bits - 1) then (n % 2 ^ lp.bits : Nat)
  else (n % 2 ^ lp.bits : Nat) - (2 ^ lp.bits : Nat)

structure Ehdr where
  eShoff : Nat
  eShentsize : Nat
  eShnum : Nat
  eShstrndx : Nat
  deriving Repr

def ehdr : Lp -> List Byte -> Ehdr
  | Lp.lp64, file =>
      { eShoff := number file 0x28 8, eShentsize := number file 0x3a 2,
        eShnum := number file 0x3c 2, eShstrndx := number file 0x3e 2 }
  | Lp.lp32, file =>
      { eShoff := number file 0x20 4, eShentsize := number file 0x2e 2,
        eShnum := number file 0x30 2, eShstrndx := number file 0x32 2 }

structure Shdr where
  shName : Nat
  shType : Nat
  shAddr : Nat
  shOffset : Nat
  shSize : Nat
  shEntsize : Nat
  deriving DecidableEq, Repr

def sizeofShdr : Lp -> Nat
  | Lp.lp64 => 64
  | Lp.lp32 => 40

def shdr : Lp -> List Byte -> Nat -> Shdr
  | Lp.lp64, file, off =>
      { shName := word file off, shType := word file (off + 4),
        shAddr := number file (off + 16) 8, shOffset := number file (off + 24) 8,
        shSize := number file (off + 32) 8, shEntsize := number file (off + 56) 8 }
  | Lp.lp32, file, off =>
      { shName := word file off, shType := word file (off + 4),
        shAddr := word file (off + 12), shOffset := word file (off + 16),
        shSize := word file (off + 20), shEntsize := word file (off + 36) }

structure Sym where
  stName : Nat
  stInfo : Nat
  stValue : Nat
  stSize : Nat
  deriving DecidableEq, Repr

def sizeofSym : Lp -> Nat
  | Lp.lp64 => 24
  | Lp.lp32 => 16

def sym : Lp -> List Byte -> Nat -> Sym
  | Lp.lp64, file, off =>
      { stName := word file off, stInfo := number file (off + 4) 1,
        stValue := number file (off + 8) 8, stSize := number file (off + 16) 8 }
  | Lp.lp32, file, off =>
      { stName := word file off, stInfo := number file (off + 12) 1,
        stValue := word file (off + 4), stSize := word file (off + 8) }

def SHT_PROGBITS : Nat := 1
def SHT_SYMTAB : Nat := 2
def SHT_STRTAB : Nat := 3
def SHT_HASH : Nat := 5
def SHT_DYNSYM : Nat := 11
def SHT_GNU_HASH : Nat := 0x6ffffff6

def STT_OBJECT : Nat := 1
def STT_FUNC : Nat := 2

/-!
# The constructor
-/

/-- The value `bias` has until a section decides it. -/
def NO_BIAS : Int := -4396

structure ElfImg where
  base : Nat
  bias : Int := NO_BIAS
  strtab : Option Nat := none
  dynsym : Option Nat := none
  symtabStart : Option Nat := none
  dynsymStart : Nat := 0
  strtabStart : Nat := 0
  symtabCount : Nat := 0
  symstrOffsetForSymtab : Nat := 0
  nbucket : Nat := 0
  bucket : Nat := 0
  chain : Nat := 0
  gnuNbucket : Nat := 0
  gnuSymndx : Nat := 0
  gnuBloomSize : Nat := 0
  gnuShift2 : Nat := 0
  gnuBloomFilter : Nat := 0
  gnuBucket : Nat := 0
  gnuChain : Int := 0
  deriving Repr

/-- One pass of the loop over the section headers: the header at offset `off`,
called `sname`. -/
def readSection (lp : Lp) (file : List Byte) (img : ElfImg) (off : Nat) (sname : List Byte)
    (sectionH : Shdr) : ElfImg :=
  if sectionH.shType = SHT_DYNSYM then
    if img.bias = NO_BIAS then
      { img with dynsym := some off, dynsymStart := sectionH.shOffset }
    else img
  else if sectionH.shType = SHT_SYMTAB then
    if sname = bytesOf ".symtab" then
      { img with
        symtabCount := sectionH.shSize / sectionH.shEntsize
        symtabStart := some sectionH.shOffset }
    else img
  else if sectionH.shType = SHT_STRTAB then
    let img :=
      if img.bias = NO_BIAS then
        { img with strtab := some off, strtabStart := sectionH.shOffset }
      else img
    if sname = bytesOf ".strtab" then
      { img with symstrOffsetForSymtab := sectionH.shOffset }
    else img
  else if sectionH.shType = SHT_PROGBITS then
    if img.strtab = none ∨ img.dynsym = none then img
    else if img.bias = NO_BIAS then
      { img with bias := offT lp sectionH.shAddr - offT lp sectionH.shOffset }
    else img
  else if sectionH.shType = SHT_HASH then
    let nbucket := word file sectionH.shOffset
    { img with
      nbucket := nbucket
      bucket := sectionH.shOffset + 4 * 2
      chain := sectionH.shOffset + 4 * 2 + 4 * nbucket }
  else if sectionH.shType = SHT_GNU_HASH then
    let gnuNbucket := word file sectionH.shOffset
    let gnuSymndx := word file (sectionH.shOffset + 4)
    let gnuBloomSize := word file (sectionH.shOffset + 8)
    let gnuBloomFilter := sectionH.shOffset + 4 * 4
    let gnuBucket := gnuBloomFilter + lp.bytes * gnuBloomSize
    { img with
      gnuNbucket := gnuNbucket
      gnuSymndx := gnuSymndx
      gnuBloomSize := gnuBloomSize
      gnuShift2 := word file (sectionH.shOffset + 12)
      gnuBloomFilter := gnuBloomFilter
      gnuBucket := gnuBucket
      gnuChain := (gnuBucket : Int) + 4 * gnuNbucket - 4 * gnuSymndx }
  else img

/-- Where the loop finds the section headers. -/
def sectionOffsets (lp : Lp) (file : List Byte) : List Nat :=
  (List.range (ehdr lp file).eShnum).map
    (fun i => (ehdr lp file).eShoff + i * (ehdr lp file).eShentsize)

/-- The names of the sections.  The header of this table is found by the size
of the C type, the others by the size the file gives. -/
def sectionStr (lp : Lp) (file : List Byte) : Nat :=
  (shdr lp file ((ehdr lp file).eShoff + (ehdr lp file).eShstrndx * sizeofShdr lp)).shOffset

def readSections (lp : Lp) (file : List Byte) (base : Nat) : ElfImg :=
  (sectionOffsets lp file).foldl
    (fun img off =>
      let sectionH := shdr lp file off
      readSection lp file img off (text file (sectionH.shName + sectionStr lp file)) sectionH)
    { base := base }

/-- What `dl_iterate_phdr` reports of a loaded object. -/
structure DlPhdrInfo where
  dlpiName : Option (List Byte)
  dlpiAddr : Nat
  deriving Repr

/-- The first loaded object whose name contains the one asked for. -/
def findModuleBase (elf : List Byte) : List DlPhdrInfo -> Option (List Byte × Nat)
  | [] => none
  | info :: rest =>
      match info.dlpiName with
      | none => findModuleBase elf rest
      | some name =>
          if elf <:+: name then some (name, info.dlpiAddr) else findModuleBase elf rest

/-- The constructor; `openFile` gives the bytes of a file that can be opened. -/
def newElfImg (lp : Lp) (infos : List DlPhdrInfo) (openFile : List Byte -> Option (List Byte))
    (baseName : List Byte) : ElfImg :=
  match findModuleBase baseName infos with
  | none => { base := 0 }
  | some (elf, addr) =>
      if addr = 0 then { base := 0 }
      else
        match openFile elf with
        | none => { base := addr }
        | some file => readSections lp file addr

/-!
# The hash functions
-/

def elfHash (name : List Byte) : UInt32 :=
  name.foldl
    (fun h p =>
      let h := (h <<< 4) + p.toUInt32
      let g := h &&& 0xf0000000
      let h := h ^^^ g
      h ^^^ (g >>> 24))
    0

def gnuHash (name : List Byte) : UInt32 :=
  name.foldl (fun h p => h + ((h <<< 5) + p.toUInt32)) 5381

/-!
# The three lookups

`none` is a loop that has not ended within the fuel.
-/

section Lookups

variable (lp : Lp) (file : List Byte) (img : ElfImg)

def dynamicSym (i : Nat) : Sym :=
  sym lp file (img.dynsymStart + i * sizeofSym lp)

def dynamicName (i : Nat) : List Byte :=
  text file (img.strtabStart + (dynamicSym lp file img i).stName)

/-- The value of a dynamic symbol that has the name. -/
def nameHit (name : List Byte) (i : Nat) : Option Nat :=
  if name = dynamicName lp file img i then some (dynamicSym lp file img i).stValue else none

/-- The next index of a chain of the System V table, where 0 ends a chain. -/
def elfLink (n : Nat) : Option Nat :=
  if n = 0 then none else some n

def elfNext (n : Nat) : Option Nat :=
  elfLink (word file (img.chain + 4 * n))

def elfLookup (fuel : Nat) (name : List Byte) (hash : UInt32) : Option Nat :=
  if img.nbucket = 0 then some 0
  else
    (iterate (chase (elfNext file img) (nameHit lp file img name)) fuel
      (elfLink (word file (img.bucket + 4 * (hash.toNat % img.nbucket))))).map
      (fun found => found.getD 0)

def gnuChainWord (i : Nat) : Nat :=
  word file (img.gnuChain + 4 * i).toNat

/-- `sym_index` is a `uint32_t`. -/
def gnuNext (i : Nat) : Option Nat :=
  if gnuChainWord file img i % 2 = 0 then some ((i + 1) % 2 ^ 32) else none

def gnuHit (name : List Byte) (hash : UInt32) (i : Nat) : Option Nat :=
  if (gnuChainWord file img i ^^^ hash.toNat) >>> 1 = 0 then nameHit lp file img name i else none

def bloomWord (hash : UInt32) : Nat :=
  number file (img.gnuBloomFilter + lp.bytes * (hash.toNat / lp.bits % img.gnuBloomSize)) lp.bytes

def bloomMask (hash : UInt32) : Nat :=
  1 <<< (hash.toNat % lp.bits) ||| 1 <<< ((hash.toNat >>> img.gnuShift2) % lp.bits)

/-- Where the search of a bucket of the GNU table starts. -/
def gnuStart (b : Nat) : Option Nat :=
  let symIndex := word file (img.gnuBucket + 4 * b)
  if img.gnuSymndx ≤ symIndex then some symIndex else none

def gnuLookup (fuel : Nat) (name : List Byte) (hash : UInt32) : Option Nat :=
  if img.gnuNbucket = 0 ∨ img.gnuBloomSize = 0 then some 0
  else if bloomMask lp img hash &&& bloomWord lp file img hash = bloomMask lp img hash then
    (iterate (chase (gnuNext file img) (gnuHit lp file img name hash)) fuel
      (gnuStart file img (hash.toNat % img.gnuNbucket))).map
      (fun found => found.getD 0)
  else some 0

/-- `symtabs_`, from names to indices of the symbol table. -/
abbrev Cache := List (List Byte × Nat)

def symtabSym (start i : Nat) : Sym :=
  sym lp file (start + i * sizeofSym lp)

def symtabName (start i : Nat) : List Byte :=
  text file (img.symstrOffsetForSymtab + (symtabSym lp file start i).stName)

/-- The symbols that the lookup keeps: functions and objects of some size. -/
def keeps (s : Sym) : Bool :=
  (s.stInfo % 16 == STT_FUNC || s.stInfo % 16 == STT_OBJECT) && s.stSize != 0

def fillSymtabs : Cache :=
  match img.symtabStart with
  | none => []
  | some start =>
      if img.symstrOffsetForSymtab = 0 then []
      else
        (List.range img.symtabCount).foldl
          (fun cache i =>
            if keeps (symtabSym lp file start i) then
              emplace cache (symtabName lp file img start i) i
            else cache)
          []

def linearLookup (cache : Cache) (name : List Byte) : Nat × Cache :=
  let cache := if cache.isEmpty then fillSymtabs lp file img else cache
  match cache.lookup name, img.symtabStart with
  | some i, some start => ((symtabSym lp file start i).stValue, cache)
  | _, _ => (0, cache)

def getSymbOffset (fuel : Nat) (cache : Cache) (name : List Byte) : Option (Nat × Cache) :=
  match gnuLookup lp file img fuel name (gnuHash name) with
  | none => none
  | some offset =>
      if 0 < offset then some (offset, cache)
      else
        match elfLookup lp file img fuel name (elfHash name) with
        | none => none
        | some offset =>
            if 0 < offset then some (offset, cache)
            else some (linearLookup lp file img cache name)

/-- The lookups of several names one after the other on one image. -/
def getSymbOffsets (fuel : Nat) : Cache -> List (List Byte) -> Option Cache
  | cache, [] => some cache
  | cache, name :: rest =>
      match getSymbOffset lp file img fuel cache name with
      | none => none
      | some (_, cache) => getSymbOffsets fuel cache rest

def getSymbAddress (fuel : Nat) (cache : Cache) (name : List Byte) : Option (Nat × Cache) :=
  (getSymbOffset lp file img fuel cache name).map (fun found =>
    if 0 < found.1 ∧ img.base ≠ 0 then
      (lp.sizeT ((img.base : Int) + found.1 - img.bias), found.2)
    else (0, found.2))

end Lookups

/-!
# A library of one symbol
-/

def forkHeader (type addr offset : Nat) : List Byte :=
  leBytes 4 0 ++ leBytes 4 type ++ leBytes 4 0 ++ leBytes 4 addr ++ leBytes 4 offset ++
    leBytes 4 0 ++ leBytes 4 0 ++ leBytes 4 0 ++ leBytes 4 0 ++ leBytes 4 0

/-- A 32-bit library that exports `fork` at 0x1000 and has a GNU hash table. -/
def forkLibrary : List Byte :=
  -- the ELF header
  List.replicate 0x20 0 ++ leBytes 4 120 ++ List.replicate 10 0 ++ leBytes 2 40 ++ leBytes 2 5 ++
    leBytes 2 2 ++
  -- .dynsym at 52 and .dynstr at 84
  List.replicate 16 0 ++ leBytes 4 1 ++ leBytes 4 0x1000 ++ leBytes 4 8 ++ leBytes 4 0x12 ++
    (0 :: bytesOf "fork") ++ List.replicate 3 0 ++
  -- .gnu.hash at 92: the counts, the filter, the bucket and the chain
  leBytes 4 1 ++ leBytes 4 1 ++ leBytes 4 1 ++ leBytes 4 5 ++ leBytes 4 8390656 ++ leBytes 4 1 ++
    leBytes 4 2090263927 ++
  -- the section headers at 120
  forkHeader 0 0 0 ++ forkHeader SHT_DYNSYM 52 52 ++ forkHeader SHT_STRTAB 84 84 ++
    forkHeader SHT_GNU_HASH 92 92 ++ forkHeader SHT_PROGBITS 0x400 0x400

end Elf

end Injector
end ReZygisk
