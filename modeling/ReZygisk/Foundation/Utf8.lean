import ReZygisk.Foundation.Bytes

/-!
# Well-formed UTF-8

The check that a strict decoder makes: shortest forms only, no surrogates and
nothing above U+10FFFF.
-/

namespace ReZygisk
namespace Foundation

def isContinuation (b : Byte) : Bool :=
  0x80 ≤ b && b ≤ 0xbf

/-- The range that the second byte of a sequence must lie in.  It is narrower
than that of other continuation bytes where a first byte would otherwise allow
an overlong form, a surrogate or a value that is too large. -/
def secondByteOk (first second : Byte) : Bool :=
  if first = 0xe0 then 0xa0 ≤ second && second ≤ 0xbf
  else if first = 0xed then 0x80 ≤ second && second ≤ 0x9f
  else if first = 0xf0 then 0x90 ≤ second && second ≤ 0xbf
  else if first = 0xf4 then 0x80 ≤ second && second ≤ 0x8f
  else isContinuation second

def validUtf8 : List Byte -> Bool
  | [] => true
  | a :: rest =>
      if a < 0x80 then validUtf8 rest
      else if 0xc2 ≤ a && a ≤ 0xdf then
        match rest with
        | b :: rest => isContinuation b && validUtf8 rest
        | _ => false
      else if 0xe0 ≤ a && a ≤ 0xef then
        match rest with
        | b :: c :: rest =>
            secondByteOk a b && isContinuation c && validUtf8 rest
        | _ => false
      else if 0xf0 ≤ a && a ≤ 0xf4 then
        match rest with
        | b :: c :: d :: rest =>
            secondByteOk a b && isContinuation c && isContinuation d &&
              validUtf8 rest
        | _ => false
      else false

end Foundation
end ReZygisk
