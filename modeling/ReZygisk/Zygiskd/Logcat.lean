import ReZygisk.Zygiskd.HandleAction
import Mathlib.Tactic.SplitIfs

/-!
# Log records on the wire

A log record is a byte for its level and two strings.  The loop of
`RequestLogcatFd` has no other way to tell where a record begins than to have
read the one before it, so a stream is read back exactly when it is a sequence
of whole records.
-/

namespace ReZygisk
namespace Zygiskd

open Foundation
open Kernel

def wireString (lp : Lp) (text : List Byte) : List Byte :=
  leBytes lp.bytes text.length ++ text

def wireRecord (lp : Lp) (r : LogRecord) : List Byte :=
  leBytes 1 r.level ++ (wireString lp r.tag ++ wireString lp r.message)

/-- A text that the daemon can receive and pass on to the system's log. -/
structure LogText (env : Surroundings) (text : List Byte) : Prop where
  allocatable : env.Allocatable text.length
  utf8 : validUtf8 text = true
  nulFree : (0 : Byte) ∉ text

structure Loggable (env : Surroundings) (r : LogRecord) : Prop where
  level : r.level < 256
  tag : LogText env r.tag
  message : LogText env r.message

theorem Loggable.nulFree {env : Surroundings} {r : LogRecord}
    (h : Loggable env r) : ¬ (0 ∈ r.tag ∨ 0 ∈ r.message) := by
  intro hnul
  rcases hnul with hnul | hnul
  · exact h.tag.nulFree hnul
  · exact h.message.nulFree hnul

/-!
# The fields of a stream
-/

inductive Field where
  | level
  | length
  | tag
  | message
  deriving DecidableEq

/-- What the bytes of a string are taken for, and then those behind it: a string
that cannot be read ends the reading, within its length, its bytes or at its
end. -/
def stringFields (env : Surroundings) (field : Field) (input : List Byte)
    (next : List Byte -> List Byte -> List Field) : List Field :=
  if HasText env.lp input ∧ env.Allocatable (lengthField env.lp input) ∧
      validUtf8 (textField env.lp input) = true then
    List.replicate env.lp.bytes Field.length ++
      (List.replicate (lengthField env.lp input) field ++
        next (textField env.lp input) (afterText env.lp input))
  else if env.lp.bytes ≤ input.length ∧
      env.Allocatable (lengthField env.lp input) then
    List.replicate env.lp.bytes Field.length ++
      List.replicate (textField env.lp input).length field
  else List.replicate (min env.lp.bytes input.length) Field.length

def fieldsAfter (next : List Byte -> List Field) (tag message rest : List Byte) :
    List Field :=
  if 0 ∈ tag ∨ 0 ∈ message then [] else next rest

/-- What the log loop takes each byte of its input for. -/
def readAs (env : Surroundings) : Nat -> List Byte -> List Field
  | 0, _ => []
  | _ + 1, [] => []
  | fuel + 1, _ :: rest =>
      Field.level :: stringFields env Field.tag rest (fun tag rest =>
        stringFields env Field.message rest
          (fieldsAfter (readAs env fuel) tag))

def fieldsRead (env : Surroundings) (input : List Byte) : List Field :=
  readAs env (input.length + 1) input

/-!
# The bytes that are taken

The fields above are those of the bytes that the loop takes off its input,
unless it stops the daemon.
-/

def Takes (p : Handler Unit) (w : World) (n : Nat) : Prop :=
  match p w with
  | Outcome.ok _ w' => w'.input = w.input.drop n
  | Outcome.err _ w' => w'.input = w.input.drop n
  | Outcome.stopped _ => True

theorem length_textField (lp : Lp) (input : List Byte) :
    (textField lp input).length =
      min (lengthField lp input) (input.length - lp.bytes) := by
  rw [textField, List.length_take, List.length_drop]

theorem takes_readString_bind {env : Surroundings} {w : World} (field : Field)
    {f : List Byte -> Handler Unit} {next : List Byte -> List Byte -> List Field}
    (hf : forall text w', Takes (f text) w' (next text w'.input).length) :
    Takes (readString env >>= f) w
      (stringFields env field w.input next).length := by
  rw [Takes, Prog.bind_run, readString_eq]
  split_ifs with hthere halloc hhas hvalid
  · have htext := hf (textField env.lp w.input)
      { w with input := afterText env.lp w.input }
    rw [stringFields, if_pos ⟨hhas, halloc, hvalid⟩]
    simpa [Takes, afterText, Nat.add_assoc] using htext
  · have hcut := Nat.le_sub_of_add_le' hhas.right
    rw [stringFields, if_neg (fun h => hvalid h.right.right),
      if_pos ⟨hthere, halloc⟩]
    simp [afterText, length_textField, Nat.min_eq_left hcut]
  · have hcut : w.input.length - env.lp.bytes < lengthField env.lp w.input := by
      apply Nat.lt_of_not_le
      intro hle
      exact hhas ⟨hthere, by omega⟩
    rw [stringFields, if_neg (fun h => hhas h.left), if_pos ⟨hthere, halloc⟩]
    simp [length_textField, Nat.min_eq_right (Nat.le_of_lt hcut), hthere]
  · trivial
  · have hshort := Nat.le_of_lt (Nat.lt_of_not_le hthere)
    rw [stringFields, if_neg (fun h => hthere h.left.left),
      if_neg (fun h => hthere h.left)]
    simp [Nat.min_eq_right hshort]

theorem takes_logcatLoop {env : RequestEnv} (fuel : Nat) (w : World) :
    Takes (logcatLoop env fuel) w
      (readAs env.toSurroundings fuel w.input).length := by
  induction fuel generalizing w with
  | zero => rfl
  | succ fuel ih =>
      cases hinput : w.input with
      | nil =>
          rw [Takes, logcatLoop, Prog.bind_run, attempt_readU8, hinput]
          exact hinput
      | cons b rest =>
          have hlog : forall tag message w',
              Takes (logRaw b.toNat tag message >>= fun _ => logcatLoop env fuel) w'
                (fieldsAfter (readAs env.toSurroundings fuel) tag message
                  w'.input).length := by
            intro tag message w'
            rw [logRaw, fieldsAfter]
            split
            · rfl
            · exact ih (w'.emit (Effect.logged ⟨b.toNat, tag, message⟩))
          have hstrings : Takes (do
                let tag ← readString env.toSurroundings
                let message ← readString env.toSurroundings
                logRaw b.toNat tag message
                logcatLoop env fuel) { w with input := rest }
              (stringFields env.toSurroundings Field.tag rest (fun tag rest =>
                stringFields env.toSurroundings Field.message rest
                  (fieldsAfter (readAs env.toSurroundings fuel) tag))).length :=
            takes_readString_bind Field.tag (fun tag w' =>
              takes_readString_bind Field.message (hlog tag))
          rw [Takes, logcatLoop, Prog.bind_run, attempt_readU8, hinput]
          exact hstrings

/-!
# Reading a string back
-/

section Strings

variable {env : Surroundings} {text rest : List Byte}

theorem length_wireString (lp : Lp) (text : List Byte) :
    (wireString lp text).length = lp.bytes + text.length := by
  rw [wireString, List.length_append, leBytes_length]

theorem lengthField_wireString (h : text.length ≤ env.lp.ptrdiffMax)
    (rest : List Byte) :
    lengthField env.lp (wireString env.lp text ++ rest) = text.length := by
  have hfits : text.length < 256 ^ env.lp.bytes :=
    Lp.fits_usize (Nat.le_succ_of_le h)
  rw [lengthField, wireString, List.append_assoc,
    List.take_left' (leBytes_length _ _), leValue_leBytes_of_lt hfits]

theorem drop_wireString (lp : Lp) (text rest : List Byte) :
    (wireString lp text ++ rest).drop lp.bytes = text ++ rest := by
  rw [wireString, List.append_assoc, List.drop_left' (leBytes_length _ _)]

theorem textField_wireString (h : text.length ≤ env.lp.ptrdiffMax)
    (rest : List Byte) :
    textField env.lp (wireString env.lp text ++ rest) = text := by
  rw [textField, lengthField_wireString h, drop_wireString, List.take_left]

theorem afterText_wireString (h : text.length ≤ env.lp.ptrdiffMax)
    (rest : List Byte) :
    afterText env.lp (wireString env.lp text ++ rest) = rest := by
  rw [afterText, lengthField_wireString h, drop_wireString, List.drop_left]

theorem hasText_wireString (h : text.length ≤ env.lp.ptrdiffMax)
    (rest : List Byte) :
    HasText env.lp (wireString env.lp text ++ rest) := by
  rw [HasText, lengthField_wireString h, List.length_append, length_wireString]
  omega

/-- A string from the wire is read, unless there is no room for it or it is not
UTF-8. -/
theorem readString_wire (h : text.length ≤ env.lp.ptrdiffMax) {w : World}
    (hinput : w.input = wireString env.lp text ++ rest) :
    readString env w =
      if env.Allocatable text.length then
        if validUtf8 text = true then Outcome.ok text { w with input := rest }
        else Outcome.err Error.invalidUtf8 { w with input := rest }
      else Outcome.stopped Stop.panicked := by
  have hhas := hasText_wireString h rest
  rw [readString_eq, hinput, if_pos hhas.left, if_pos hhas,
    lengthField_wireString h, textField_wireString h, afterText_wireString h]

theorem readString_wireString (h : LogText env text) {w : World}
    (hinput : w.input = wireString env.lp text ++ rest) :
    readString env w = Outcome.ok text { w with input := rest } := by
  rw [readString_wire h.allocatable.left hinput, if_pos h.allocatable,
    if_pos h.utf8]

theorem stringFields_wireString (h : LogText env text) (field : Field)
    (rest : List Byte) (next : List Byte -> List Byte -> List Field) :
    stringFields env field (wireString env.lp text ++ rest) next =
      List.replicate env.lp.bytes Field.length ++
        (List.replicate text.length field ++ next text rest) := by
  have hfits := h.allocatable.left
  rw [stringFields, textField_wireString hfits, lengthField_wireString hfits,
    afterText_wireString hfits]
  exact if_pos ⟨hasText_wireString hfits rest, h.allocatable, h.utf8⟩

end Strings

/-!
# Reading records back
-/

def recordFields (lp : Lp) (r : LogRecord) : List Field :=
  Field.level ::
    (List.replicate lp.bytes Field.length ++
      (List.replicate r.tag.length Field.tag ++
        (List.replicate lp.bytes Field.length ++
          List.replicate r.message.length Field.message)))

section Records

variable {r : LogRecord} {rest : List Byte}

theorem wireRecord_append (lp : Lp) (r : LogRecord) (rest : List Byte) :
    wireRecord lp r ++ rest =
      UInt8.ofNat (r.level % 256) ::
        (wireString lp r.tag ++ (wireString lp r.message ++ rest)) := by
  rw [wireRecord, List.append_assoc, List.append_assoc]
  rfl

theorem logcatLoop_wireRecord {env : RequestEnv}
    (h : Loggable env.toSurroundings r) (fuel : Nat) {w : World}
    (hinput : w.input = wireRecord env.lp r ++ rest) :
    logcatLoop env (fuel + 1) w =
      logcatLoop env fuel
        { w with input := rest, effects := w.effects ++ [Effect.logged r] } := by
  have hlevel : (UInt8.ofNat (r.level % 256)).toNat = r.level := by
    rw [Nat.mod_eq_of_lt h.level]
    simpa using h.level
  have hlog : logRaw r.level r.tag r.message =
      Prog.modifyWorld (fun w => w.emit (Effect.logged r)) := by
    rw [logRaw]
    exact if_neg h.nulFree
  rw [logcatLoop, Prog.bind_run, attempt_readU8, hinput, wireRecord_append]
  simp only [hlevel]
  rw [Prog.bind_run, readString_wireString h.tag rfl]
  simp only []
  rw [Prog.bind_run, readString_wireString h.message rfl]
  simp only []
  rw [Prog.bind_run, hlog]
  rfl

theorem logcatLoop_wireRecords {env : RequestEnv} {records : List LogRecord}
    (h : forall r, r ∈ records -> Loggable env.toSurroundings r) {fuel : Nat}
    (hfuel : records.length < fuel) {w : World}
    (hinput : w.input = records.flatMap (wireRecord env.lp)) :
    logcatLoop env fuel w =
      Outcome.ok ()
        { w with
          input := []
          effects := w.effects ++ records.map Effect.logged } := by
  induction records generalizing fuel w with
  | nil =>
      cases fuel with
      | zero => exact absurd hfuel (Nat.not_lt_zero _)
      | succ fuel =>
          have hempty : w.input = [] := hinput
          rw [logcatLoop, Prog.bind_run, attempt_readU8, hempty]
          cases w with
          | mk input effects companions =>
              cases hempty
              simp only [List.map_nil, List.append_nil]
              rfl
  | cons r rest ih =>
      cases fuel with
      | zero => exact absurd hfuel (Nat.not_lt_zero _)
      | succ fuel =>
          rw [List.flatMap_cons] at hinput
          rw [logcatLoop_wireRecord (h r List.mem_cons_self) fuel hinput,
            ih (fun r' hr' => h r' (List.mem_cons_of_mem r hr'))
              (Nat.lt_of_succ_lt_succ hfuel) rfl]
          simp

theorem length_le_wireRecords (lp : Lp) (records : List LogRecord) :
    records.length ≤ (records.flatMap (wireRecord lp)).length := by
  induction records with
  | nil => exact Nat.le_refl 0
  | cons r rest ih =>
      have hone : 1 ≤ (wireRecord lp r).length := by
        rw [wireRecord, List.length_append, leBytes_length]
        exact Nat.le_add_right 1 _
      rw [List.flatMap_cons, List.length_append, List.length_cons]
      omega

theorem requestLogcatFd_wireRecords {env : RequestEnv} {records : List LogRecord}
    (h : forall r, r ∈ records -> Loggable env.toSurroundings r) {w : World}
    (hinput : w.input = records.flatMap (wireRecord env.lp)) :
    requestLogcatFd env w =
      Outcome.ok ()
        { w with
          input := []
          effects := w.effects ++ records.map Effect.logged } := by
  refine logcatLoop_wireRecords h ?_ hinput
  rw [hinput]
  exact Nat.lt_succ_of_le (length_le_wireRecords env.lp records)

theorem readAs_wireRecords {env : Surroundings} {records : List LogRecord}
    (h : forall r, r ∈ records -> Loggable env r) {fuel : Nat}
    (hfuel : records.length < fuel) :
    readAs env fuel (records.flatMap (wireRecord env.lp)) =
      records.flatMap (recordFields env.lp) := by
  induction records generalizing fuel with
  | nil =>
      cases fuel with
      | zero => rfl
      | succ fuel => rfl
  | cons r rest ih =>
      cases fuel with
      | zero => exact absurd hfuel (Nat.not_lt_zero _)
      | succ fuel =>
          have hr := h r List.mem_cons_self
          rw [List.flatMap_cons, wireRecord_append, readAs,
            stringFields_wireString hr.tag, stringFields_wireString hr.message,
            fieldsAfter, if_neg hr.nulFree,
            ih (fun r' hr' => h r' (List.mem_cons_of_mem r hr'))
              (Nat.lt_of_succ_lt_succ hfuel),
            List.flatMap_cons, recordFields]
          simp

/-- In a stream of whole records, each byte is taken for what it is. -/
theorem fieldsRead_wireRecords {env : Surroundings} {records : List LogRecord}
    (h : forall r, r ∈ records -> Loggable env r) :
    fieldsRead env (records.flatMap (wireRecord env.lp)) =
      records.flatMap (recordFields env.lp) :=
  readAs_wireRecords h (Nat.lt_succ_of_le (length_le_wireRecords env.lp records))

end Records

end Zygiskd
end ReZygisk
