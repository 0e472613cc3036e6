import Mathlib.Data.List.Forall2
import ReZygisk.Injector.Logging

/-!
# One writer's log records

A single process logs any bytes it likes.  The daemon decodes each text as
UTF-8 and hands it to `__android_log_print` in the place of a format.
-/

namespace ReZygisk
namespace Injector

open Foundation
open Kernel
open Zygiskd

/-- A call of `logging::log` with the text that its format and arguments stand
for.  Both are C strings in the memory of the writer. -/
structure AnyLogCall (lp : Lp) where
  prio : Nat
  tag : List Byte
  text : List Byte
  prio_lt : prio < 256
  tag_nulFree : (0 : Byte) ∉ tag
  text_nulFree : (0 : Byte) ∉ text
  tag_fits : tag.length ≤ lp.ptrdiffMax

namespace AnyLogCall

variable {lp : Lp}

def message (c : AnyLogCall lp) : List Byte :=
  cstr (vsnprintf BUFSIZ c.text)

def record (c : AnyLogCall lp) : LogRecord :=
  ⟨c.prio, c.tag, c.message⟩

/-- The five writes of `logging::log`, as one stream. -/
def log (c : AnyLogCall lp) : List LogWrite :=
  writeU8 Field.level c.prio ++
    (writeString lp Field.tag c.tag ++ writeString lp Field.message c.message)

/-- A call whose texts are known to be UTF-8 is one of these calls. -/
def ofLogCall (c : LogCall) (htext : (0 : Byte) ∉ c.text)
    (hfits : c.tag.length ≤ lp.ptrdiffMax) : AnyLogCall lp where
  prio := c.prio
  tag := c.tag
  text := c.text
  prio_lt := c.prio_lt
  tag_nulFree := c.tag_nulFree
  text_nulFree := htext
  tag_fits := hfits

theorem log_ofLogCall (c : LogCall) (htext : (0 : Byte) ∉ c.text)
    (hfits : c.tag.length ≤ lp.ptrdiffMax) :
    (ofLogCall c htext hfits).log = Injector.log lp c := rfl

theorem streamBytes_log (c : AnyLogCall lp) :
    streamBytes c.log = wireRecord lp c.record := by
  simp [streamBytes, log, writeU8, writeString, writeUsize, wireRecord, wireString,
    record]

theorem streamBytes_logs (calls : List (AnyLogCall lp)) :
    streamBytes (calls.flatMap log) =
      (calls.map record).flatMap (wireRecord lp) := by
  rw [streamBytes, List.flatMap_assoc, List.flatMap_map]
  simp only [← streamBytes_log, streamBytes]

/-- The buffer cuts the text; without a NUL in it, that is all it does. -/
theorem message_eq (c : AnyLogCall lp) :
    c.message = c.text.take (BUFSIZ - 1) := by
  have hfree : (0 : Byte) ∉ c.text.take (BUFSIZ - 1) :=
    fun h => c.text_nulFree (List.mem_of_mem_take h)
  rw [message, vsnprintf, cstr_eq_self hfree]

end AnyLogCall

/-!
# The system's log
-/

def PERCENT : Byte := 37

/-- What `printf` makes of a format when it is called with no argument: `%%` is
a percent sign, and any other conversion takes what is not there. -/
def printf : List Byte -> Option (List Byte)
  | [] => some []
  | [b] => if b = PERCENT then none else some [b]
  | b :: c :: rest =>
      if b = PERCENT then
        if c = PERCENT then (printf rest).map (fun out => PERCENT :: out) else none
      else (printf (c :: rest)).map (fun out => b :: out)

/-- The record that `__android_log_print` writes for one that it is given. -/
def Appears (given written : LogRecord) : Prop :=
  written.level = given.level ∧ written.tag = given.tag ∧
    printf given.message = some written.message

/-- The daemon's loop, on all that the writer sends and the end of the stream,
makes every record of the writer appear, in order and nothing else. -/
def RelaysExactly (env : RequestEnv) (calls : List (AnyLogCall env.lp)) : Prop :=
  forall w : World, w.input = streamBytes (calls.flatMap AnyLogCall.log) ->
    exists given w',
      (requestLogcatFd env w = Outcome.ok () w' ∨
        exists e, requestLogcatFd env w = Outcome.err e w') ∧
      w'.effects = w.effects ++ given.map Effect.logged ∧
      List.Forall₂ Appears given (calls.map AnyLogCall.record)

/-- A record that the daemon takes and that prints as itself. -/
structure Relayable (env : Surroundings) (r : LogRecord) : Prop where
  tag_room : env.Allocatable r.tag.length
  tag_utf8 : validUtf8 r.tag = true
  message_room : env.Allocatable r.message.length
  message_utf8 : validUtf8 r.message = true
  message_literal : PERCENT ∉ r.message

/-!
# Formats without conversions
-/

theorem length_printf {format out : List Byte} (h : printf format = some out) :
    out.length ≤ format.length := by
  induction format using printf.induct generalizing out with
  | case1 =>
      cases h
      exact Nat.le_refl 0
  | case2 => cases h
  | case3 b hb =>
      rw [printf, if_neg hb] at h
      cases h
      exact Nat.le_refl 1
  | case4 rest ih =>
      rw [printf, if_pos rfl, if_pos rfl] at h
      rcases Option.map_eq_some_iff.mp h with ⟨out', hrest, heq⟩
      rw [← heq]
      exact Nat.succ_le_succ (Nat.le_succ_of_le (ih hrest))
  | case5 c rest hc =>
      rw [printf, if_pos rfl, if_neg hc] at h
      cases h
  | case6 b c rest hb ih =>
      rw [printf, if_neg hb] at h
      rcases Option.map_eq_some_iff.mp h with ⟨out', hrest, heq⟩
      rw [← heq]
      exact Nat.succ_le_succ (ih hrest)

/-- A format prints as itself exactly when it has no percent sign. -/
theorem printf_eq_self_iff (format : List Byte) :
    printf format = some format <-> PERCENT ∉ format := by
  induction format using printf.induct with
  | case1 => simp [printf]
  | case2 => simp [printf]
  | case3 b hb => simp [printf, hb, Ne.symm hb]
  | case4 rest ih =>
      constructor
      · intro h
        rw [printf, if_pos rfl, if_pos rfl] at h
        rcases Option.map_eq_some_iff.mp h with ⟨out, hrest, heq⟩
        have hshort := length_printf hrest
        injection heq with _ heq
        rw [heq, List.length_cons] at hshort
        exact absurd hshort (Nat.not_succ_le_self _)
      · intro h
        exact absurd List.mem_cons_self h
  | case5 c rest hc => simp [printf, hc]
  | case6 b c rest hb ih =>
      rw [printf, if_neg hb, List.mem_cons, not_or, ← ih, Option.map_eq_some_iff]
      constructor
      · intro h
        rcases h with ⟨out, hrest, heq⟩
        injection heq with _ heq
        rw [heq] at hrest
        exact ⟨Ne.symm hb, hrest⟩
      · intro h
        exact ⟨c :: rest, h.right, rfl⟩

/-!
# The loop on any records
-/

/-- A record as it can be on the wire. -/
structure Sendable (lp : Lp) (r : LogRecord) : Prop where
  level : r.level < 256
  tag_fits : r.tag.length ≤ lp.ptrdiffMax
  tag_nulFree : (0 : Byte) ∉ r.tag
  message_fits : r.message.length ≤ lp.ptrdiffMax
  message_nulFree : (0 : Byte) ∉ r.message

/-- A record that the daemon decodes. -/
def Decodable (env : Surroundings) (r : LogRecord) : Prop :=
  (env.Allocatable r.tag.length ∧ validUtf8 r.tag = true) ∧
    (env.Allocatable r.message.length ∧ validUtf8 r.message = true)

theorem loggable_of_decodable {env : Surroundings} {r : LogRecord}
    (h : Sendable env.lp r) (hdecodable : Decodable env r) : Loggable env r where
  level := h.level
  tag := ⟨hdecodable.left.left, hdecodable.left.right, h.tag_nulFree⟩
  message := ⟨hdecodable.right.left, hdecodable.right.right, h.message_nulFree⟩

/-- A string that cannot be decoded ends the loop before anything is logged. -/
theorem readString_ends {env : Surroundings} {text rest : List Byte}
    (hfits : text.length ≤ env.lp.ptrdiffMax)
    (h : ¬ (env.Allocatable text.length ∧ validUtf8 text = true)) {w : World}
    (hinput : w.input = wireString env.lp text ++ rest) :
    readString env w = Outcome.err Error.invalidUtf8 { w with input := rest } ∨
      readString env w = Outcome.stopped Stop.panicked := by
  rw [readString_wire hfits hinput]
  by_cases hroom : env.Allocatable text.length
  · have hinvalid : ¬ validUtf8 text = true := fun hvalid => h ⟨hroom, hvalid⟩
    rw [if_pos hroom, if_neg hinvalid]
    exact Or.inl rfl
  · rw [if_neg hroom]
    exact Or.inr rfl

/-- The loop stops at a record that it cannot decode. -/
theorem logcatLoop_undecodable {env : RequestEnv} {r : LogRecord}
    (h : Sendable env.lp r) (hnot : ¬ Decodable env.toSurroundings r) (fuel : Nat)
    {rest : List Byte} {w : World}
    (hinput : w.input = wireRecord env.lp r ++ rest) :
    (exists e w', logcatLoop env (fuel + 1) w = Outcome.err e w' ∧
      w'.effects = w.effects) ∨
    logcatLoop env (fuel + 1) w = Outcome.stopped Stop.panicked := by
  rw [logcatLoop, Prog.bind_run, attempt_readU8, hinput, wireRecord_append]
  simp only
  rw [Prog.bind_run]
  by_cases htag : env.toSurroundings.Allocatable r.tag.length ∧ validUtf8 r.tag = true
  · have hmessage : ¬ (env.toSurroundings.Allocatable r.message.length ∧
        validUtf8 r.message = true) :=
      fun hmessage => hnot ⟨htag, hmessage⟩
    rw [readString_wire h.tag_fits rfl, if_pos htag.left, if_pos htag.right]
    simp only
    rw [Prog.bind_run]
    rcases readString_ends h.message_fits hmessage (w :=
      { w with input := wireString env.lp r.message ++ rest }) rfl with herr | hstop
    · rw [herr]
      exact Or.inl ⟨_, _, rfl, rfl⟩
    · rw [hstop]
      exact Or.inr rfl
  · rcases readString_ends h.tag_fits htag (w :=
      { w with
        input := wireString env.lp r.tag ++ (wireString env.lp r.message ++ rest) })
      rfl with herr | hstop
    · rw [herr]
      exact Or.inl ⟨_, _, rfl, rfl⟩
    · rw [hstop]
      exact Or.inr rfl

theorem effects_of_undecodable {env : RequestEnv} {r : LogRecord}
    (h : Sendable env.lp r) (hnot : ¬ Decodable env.toSurroundings r) {fuel : Nat}
    {rest : List Byte} {w w' : World}
    (hinput : w.input = wireRecord env.lp r ++ rest)
    (hrun : logcatLoop env (fuel + 1) w = Outcome.ok () w' ∨
      exists e, logcatLoop env (fuel + 1) w = Outcome.err e w') :
    w'.effects = w.effects := by
  rcases logcatLoop_undecodable h hnot fuel hinput with ⟨e, w1, herr, hsame⟩ | hstop
  · rw [herr] at hrun
    rcases hrun with hok | ⟨e', herr'⟩
    · cases hok
    · cases herr'
      exact hsame
  · rw [hstop] at hrun
    rcases hrun with hok | ⟨e', herr'⟩
    · cases hok
    · cases herr'

/-- If the loop does not stop the daemon, it logs a prefix of the records, and
all of them only if it can decode all. -/
theorem logcatLoop_prefix {env : RequestEnv} {records : List LogRecord}
    (h : forall r, r ∈ records -> Sendable env.lp r) {fuel : Nat}
    (hfuel : records.length < fuel) {w w' : World}
    (hinput : w.input = records.flatMap (wireRecord env.lp))
    (hrun : logcatLoop env fuel w = Outcome.ok () w' ∨
      exists e, logcatLoop env fuel w = Outcome.err e w') :
    exists n, w'.effects = w.effects ++ (records.take n).map Effect.logged ∧
      (records.length ≤ n ->
        forall r, r ∈ records -> Decodable env.toSurroundings r) := by
  induction records generalizing fuel w with
  | nil =>
      have hempty : forall r, r ∈ ([] : List LogRecord) ->
          Loggable env.toSurroundings r := by
        intro r hr
        cases hr
      have hend := logcatLoop_wireRecords hempty hfuel hinput
      refine ⟨0, ?_, ?_⟩
      · rw [hend] at hrun
        rcases hrun with hok | ⟨e, herr⟩
        · cases hok
          rfl
        · cases herr
      · intro _ r hr
        cases hr
  | cons r rest ih =>
      have hr := h r List.mem_cons_self
      rw [List.flatMap_cons] at hinput
      cases fuel with
      | zero => exact absurd hfuel (Nat.not_lt_zero _)
      | succ fuel =>
          by_cases hdecodable : Decodable env.toSurroundings r
          · rw [logcatLoop_wireRecord (loggable_of_decodable hr hdecodable) fuel
              hinput] at hrun
            rcases ih (fun r' hr' => h r' (List.mem_cons_of_mem r hr'))
              (Nat.lt_of_succ_lt_succ hfuel) rfl hrun with ⟨n, heffects, hall⟩
            refine ⟨n + 1, ?_, ?_⟩
            · rw [heffects, List.take_succ_cons, List.map_cons, List.append_assoc,
                List.singleton_append]
            · intro hn r' hr'
              rcases List.mem_cons.mp hr' with heq | hrest
              · rw [heq]
                exact hdecodable
              · exact hall (Nat.le_of_succ_le_succ hn) r' hrest
          · refine ⟨0, ?_, ?_⟩
            · rw [effects_of_undecodable hr hdecodable hinput hrun]
              exact (List.append_nil _).symm
            · intro hn
              exact absurd hn (Nat.not_succ_le_zero _)

/-!
# What is relayed
-/

theorem sendable_record {lp : Lp} (c : AnyLogCall lp) : Sendable lp c.record where
  level := c.prio_lt
  tag_fits := c.tag_fits
  tag_nulFree := c.tag_nulFree
  message_fits := by
    have hcut : c.message.length ≤ BUFSIZ - 1 := by
      rw [c.message_eq]
      exact List.length_take_le _ _
    refine Nat.le_trans hcut ?_
    cases lp <;> decide
  message_nulFree := not_mem_cstr _

theorem relaysExactly_of_relayable {env : RequestEnv}
    {calls : List (AnyLogCall env.lp)}
    (h : forall c, c ∈ calls -> Relayable env.toSurroundings c.record) :
    RelaysExactly env calls := by
  intro w hinput
  rw [AnyLogCall.streamBytes_logs] at hinput
  have hloggable : forall r, r ∈ calls.map AnyLogCall.record ->
      Loggable env.toSurroundings r := by
    intro r hr
    rcases List.mem_map.mp hr with ⟨c, hc, heq⟩
    rw [← heq]
    have hc := h c hc
    exact loggable_of_decodable (sendable_record c)
      ⟨⟨hc.tag_room, hc.tag_utf8⟩, ⟨hc.message_room, hc.message_utf8⟩⟩
  refine ⟨calls.map AnyLogCall.record, _,
    Or.inl (requestLogcatFd_wireRecords hloggable hinput), rfl, ?_⟩
  rw [List.forall₂_same]
  intro r hr
  rcases List.mem_map.mp hr with ⟨c, hc, heq⟩
  rw [← heq]
  exact ⟨rfl, rfl, (printf_eq_self_iff _).mpr (h c hc).message_literal⟩

theorem relayable_of_relaysExactly {env : RequestEnv}
    {calls : List (AnyLogCall env.lp)} (h : RelaysExactly env calls) :
    forall c, c ∈ calls -> Relayable env.toSurroundings c.record := by
  have hsendable : forall r, r ∈ calls.map AnyLogCall.record ->
      Sendable env.lp r := by
    intro r hr
    rcases List.mem_map.mp hr with ⟨c, _, heq⟩
    rw [← heq]
    exact sendable_record c
  have hinput := AnyLogCall.streamBytes_logs calls
  rcases h { input := streamBytes (calls.flatMap AnyLogCall.log), effects := [],
             companions := fun _ => none } rfl with ⟨given, w', hrun, hgiven, happears⟩
  have hfuel : (calls.map AnyLogCall.record).length <
      (streamBytes (calls.flatMap AnyLogCall.log)).length + 1 := by
    rw [hinput]
    exact Nat.lt_succ_of_le (length_le_wireRecords env.lp _)
  rcases logcatLoop_prefix hsendable hfuel hinput hrun with ⟨n, heffects, hall⟩
  have hshared : given = (calls.map AnyLogCall.record).take n := by
    rw [heffects] at hgiven
    have hmap := List.append_cancel_left hgiven
    exact (List.map_injective_iff.mpr
      (fun _ _ heq => by injection heq) hmap).symm
  have hlength := happears.length_eq
  have hn : (calls.map AnyLogCall.record).length ≤ n := by
    rw [hshared, List.length_take] at hlength
    omega
  have hself : given = calls.map AnyLogCall.record := by
    rw [hshared]
    exact List.take_of_length_le hn
  rw [hself, List.forall₂_same] at happears
  intro c hc
  have hmem : c.record ∈ calls.map AnyLogCall.record := List.mem_map_of_mem hc
  rcases hall hn c.record hmem with ⟨htag, hmessage⟩
  exact {
    tag_room := htag.left
    tag_utf8 := htag.right
    message_room := hmessage.left
    message_utf8 := hmessage.right
    message_literal :=
      (printf_eq_self_iff _).mp (happears c.record hmem).right.right }

/-- The writer's records appear in the system's log, all of them and as they
are, exactly when each of them is UTF-8, can be allocated, and has no percent
sign in its text. -/
theorem relaysExactly_iff (env : RequestEnv) (calls : List (AnyLogCall env.lp)) :
    RelaysExactly env calls <->
      forall c, c ∈ calls -> Relayable env.toSurroundings c.record :=
  ⟨relayable_of_relaysExactly, relaysExactly_of_relayable⟩

/-- The text `100%`. -/
def percentCall : AnyLogCall plainEnv.lp where
  prio := 6
  tag := bytesOf "zygisk"
  text := bytesOf "100%"
  prio_lt := by decide
  tag_nulFree := by decide
  text_nulFree := by decide
  tag_fits := by decide

theorem not_relaysExactly_percent : ¬ RelaysExactly plainEnv [percentCall] := by
  intro h
  have hrelayable := relayable_of_relaysExactly h percentCall List.mem_cons_self
  exact absurd hrelayable.message_literal (by decide)

end Injector
end ReZygisk
