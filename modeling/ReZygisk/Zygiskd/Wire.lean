import ReZygisk.Foundation.Prog
import ReZygisk.Foundation.Utf8
import ReZygisk.Kernel.Abi
import Mathlib.Tactic.SplitIfs

/-!
# The daemon's side of a connection

A request thread reads the bytes its client sent and writes to it.  The world
of a request holds both directions and the part of the daemon that requests
change; the system calls whose results a request does not decide are fields of
its surroundings.
-/

namespace ReZygisk
namespace Zygiskd

open Foundation
open Kernel

inductive Error where
  | unexpectedEof
  | invalidUtf8
  | interiorNul
  | writeFailed
  | openFailed
  | spawnFailed
  deriving DecidableEq

structure LogRecord where
  level : Nat
  tag : List Byte
  message : List Byte
  deriving DecidableEq

inductive Effect where
  | wrote (bytes : List Byte)
  | sentFd (fd : Nat)
  | logged (record : LogRecord)
  | startedCompanion (companion : Nat) (name : List Byte) (libFd : Nat)
  | passedClient (companion : Nat)
  deriving DecidableEq

structure Module where
  name : List Byte
  libFd : Nat
  deriving DecidableEq

/-- The connection of a request and, for the index of each module, its
companion: unset, known to have no entry, or the daemon's end of a control
socket. -/
structure World where
  input : List Byte
  effects : List Effect
  companions : Nat -> Option (Option Nat)

abbrev Handler := Prog World Error

namespace World

def emit (w : World) (e : Effect) : World :=
  { w with effects := w.effects ++ [e] }

end World

/-- The pointer width of the daemon and the answers of the system to one
request.  `writes n` says whether the write after `n` effects succeeds. -/
structure Surroundings where
  lp : Lp
  alloc : Nat -> Bool
  writes : Nat -> Bool

/-!
# Reading
-/

def readExact (n : Nat) : Handler (List Byte) :=
  fun w =>
    if n ≤ w.input.length then
      Outcome.ok (w.input.take n) { w with input := w.input.drop n }
    else Outcome.err Error.unexpectedEof { w with input := [] }

/-- A number in the byte order of the machine, which is little-endian. -/
def readNumber (width : Nat) : Handler Nat := do
  let buf ← readExact width
  pure (leValue buf)

def readU8 : Handler Nat := readNumber 1

def readU32 : Handler Nat := readNumber 4

def readUsize (lp : Lp) : Handler Nat := readNumber lp.bytes

/-!
# Strings

A string on the wire is its length as a `usize` and its bytes.
-/

def lengthField (lp : Lp) (input : List Byte) : Nat :=
  leValue (input.take lp.bytes)

def textField (lp : Lp) (input : List Byte) : List Byte :=
  (input.drop lp.bytes).take (lengthField lp input)

def afterText (lp : Lp) (input : List Byte) : List Byte :=
  (input.drop lp.bytes).drop (lengthField lp input)

def HasText (lp : Lp) (input : List Byte) : Prop :=
  lp.bytes ≤ input.length ∧ lp.bytes + lengthField lp input ≤ input.length

instance (lp : Lp) (input : List Byte) : Decidable (HasText lp input) :=
  inferInstanceAs (Decidable (_ ∧ _))

/-- `vec![0u8; len]` can be built: the length is within `isize::MAX` and the
allocator has a block of that size. -/
def Surroundings.Allocatable (env : Surroundings) (len : Nat) : Prop :=
  len ≤ env.lp.ptrdiffMax ∧ (len = 0 ∨ env.alloc len = true)

instance (env : Surroundings) (len : Nat) : Decidable (env.Allocatable len) :=
  inferInstanceAs (Decidable (_ ∧ _))

/-- `vec![0u8; len]`, filled by `read_exact` in the callers.  A length that is
too large panics, and a failed allocation aborts. -/
def allocZeroed (env : Surroundings) (len : Nat) : Handler Unit :=
  if env.Allocatable len then pure () else Prog.stop Stop.panicked

def fromUtf8 (buf : List Byte) : Handler (List Byte) :=
  if validUtf8 buf then pure buf else Prog.fail Error.invalidUtf8

def readString (env : Surroundings) : Handler (List Byte) := do
  let len ← readUsize env.lp
  allocZeroed env len
  let buf ← readExact len
  fromUtf8 buf

/-!
# Writing
-/

def tryEmit (env : Surroundings) (e : Effect) : Handler Unit :=
  fun w =>
    if env.writes w.effects.length then Outcome.ok () (w.emit e)
    else Outcome.err Error.writeFailed w

def writeAll (env : Surroundings) (bytes : List Byte) : Handler Unit :=
  tryEmit env (Effect.wrote bytes)

def writeU8 (env : Surroundings) (value : Nat) : Handler Unit :=
  writeAll env (leBytes 1 value)

def writeU32 (env : Surroundings) (value : Nat) : Handler Unit :=
  writeAll env (leBytes 4 value)

def writeUsize (env : Surroundings) (value : Nat) : Handler Unit :=
  writeAll env (leBytes env.lp.bytes value)

def writeString (env : Surroundings) (value : List Byte) : Handler Unit := do
  writeUsize env value.length
  writeAll env value

def sendFd (env : Surroundings) (fd : Nat) : Handler Unit :=
  tryEmit env (Effect.sentFd fd)

/-!
# Stopping

Only the buffer of a string can stop the daemon, and only by a panic.
-/

section Never

variable (how : Stop)

theorem never_readExact (n : Nat) : Prog.Never how (readExact n) := by
  intro w h
  simp only [Prog.Stops, readExact] at h
  split at h <;> cases h

theorem never_readNumber (n : Nat) : Prog.Never how (readNumber n) :=
  Prog.never_bind (never_readExact how n) (fun _ => Prog.never_pure how _)

theorem never_tryEmit (env : Surroundings) (e : Effect) :
    Prog.Never how (tryEmit env e) := by
  intro w h
  simp only [Prog.Stops, tryEmit] at h
  split at h <;> cases h

theorem never_writeString (env : Surroundings) (value : List Byte) :
    Prog.Never how (writeString env value) :=
  Prog.never_bind (never_tryEmit how env _) (fun _ => never_tryEmit how env _)

end Never

section Read

variable {env : Surroundings} {w w' : World} {n : Nat}

theorem readExact_ok_iff {buf : List Byte} :
    readExact n w = Outcome.ok buf w' <->
      n ≤ w.input.length ∧ w.input.take n = buf ∧
        { w with input := w.input.drop n } = w' := by
  rw [readExact]
  split
  · rename_i h
    simp [h]
  · rename_i h
    simp [h]

theorem readNumber_eq (n : Nat) (w : World) :
    readNumber n w =
      if n ≤ w.input.length then
        Outcome.ok (leValue (w.input.take n)) { w with input := w.input.drop n }
      else Outcome.err Error.unexpectedEof { w with input := [] } := by
  rw [readNumber, Prog.bind_run, readExact]
  rcases Decidable.em (n ≤ w.input.length) with h | h
  · rw [if_pos h, if_pos h]
    rfl
  · rw [if_neg h, if_neg h]

theorem readNumber_ok_iff {value : Nat} :
    readNumber n w = Outcome.ok value w' <->
      n ≤ w.input.length ∧ leValue (w.input.take n) = value ∧
        { w with input := w.input.drop n } = w' := by
  rw [readNumber_eq]
  split
  · rename_i h
    simp [h]
  · rename_i h
    simp [h]

/-- Every way in which the reading of a string can end. -/
theorem readString_eq (env : Surroundings) (w : World) :
    readString env w =
      if env.lp.bytes ≤ w.input.length then
        if env.Allocatable (lengthField env.lp w.input) then
          if HasText env.lp w.input then
            if validUtf8 (textField env.lp w.input) = true then
              Outcome.ok (textField env.lp w.input)
                { w with input := afterText env.lp w.input }
            else
              Outcome.err Error.invalidUtf8
                { w with input := afterText env.lp w.input }
          else Outcome.err Error.unexpectedEof { w with input := [] }
        else Outcome.stopped Stop.panicked
      else Outcome.err Error.unexpectedEof { w with input := [] } := by
  have hlen := readNumber_eq env.lp.bytes w
  split
  · rename_i hthere
    rw [if_pos hthere] at hlen
    rw [readString, readUsize, Prog.bind_of_ok hlen, ← lengthField, allocZeroed]
    split
    · show (readExact (lengthField env.lp w.input) >>= fun buf => fromUtf8 buf)
        { w with input := w.input.drop env.lp.bytes } = _
      split
      · rename_i hhas
        have hroom : lengthField env.lp w.input ≤
            (w.input.drop env.lp.bytes).length := by
          rw [List.length_drop]
          exact Nat.le_sub_of_add_le' hhas.right
        rw [Prog.bind_of_ok (readExact_ok_iff.mpr ⟨hroom, rfl, rfl⟩), fromUtf8,
          ← textField]
        split
        · rfl
        · rfl
      · rename_i hhas
        have hroom : ¬ lengthField env.lp w.input ≤
            (w.input.drop env.lp.bytes).length := by
          rw [List.length_drop]
          intro hroom
          exact hhas ⟨hthere, by omega⟩
        rw [Prog.bind_run, readExact, if_neg hroom]
    · rfl
  · rename_i hthere
    rw [if_neg hthere] at hlen
    exact Prog.bind_of_err hlen

/-- Reading a string panics exactly when its length is there and no buffer of
that length can be had. -/
theorem readString_panics_iff :
    Prog.Stops Stop.panicked (readString env) w <->
      env.lp.bytes ≤ w.input.length ∧
        ¬ env.Allocatable (lengthField env.lp w.input) := by
  rw [Prog.Stops, readString_eq]
  split_ifs with hthere halloc hhas hvalid
  · simp [halloc]
  · simp [halloc]
  · simp [halloc]
  · simp [hthere, halloc]
  · simp [hthere]

theorem readString_ok_iff {text : List Byte} :
    readString env w = Outcome.ok text w' <->
      HasText env.lp w.input ∧ env.Allocatable (lengthField env.lp w.input) ∧
        textField env.lp w.input = text ∧ validUtf8 text = true ∧
        { w with input := afterText env.lp w.input } = w' := by
  rw [readString_eq]
  split_ifs with hthere halloc hhas hvalid
  · constructor
    · intro h
      cases h
      exact ⟨hhas, halloc, rfl, hvalid, rfl⟩
    · intro h
      rw [h.right.right.left, h.right.right.right.right]
  · constructor
    · intro h
      cases h
    · intro h
      rw [h.right.right.left] at hvalid
      exact absurd h.right.right.right.left hvalid
  · simp [hhas]
  · simp [halloc]
  · simp [HasText, hthere]

theorem length_afterText (lp : Lp) (input : List Byte) :
    (afterText lp input).length ≤ input.length := by
  rw [afterText, List.length_drop, List.length_drop]
  omega

theorem readString_never_exits (env : Surroundings) (code : Nat) :
    Prog.Never (Stop.exited code) (readString env) := by
  intro w h
  rw [Prog.Stops, readString_eq] at h
  split_ifs at h
  cases h

end Read

end Zygiskd
end ReZygisk
