import Mathlib.Data.Nat.Find
import ReZygisk.Foundation.Lines
import ReZygisk.Injector.ModuleIdentity
import ReZygisk.Injector.WireFields

/-!
# The info command

`GetInfo` asks the daemon for its pid, its root implementation and its modules, and
looks up the name of each module in the module's own `module.prop`.  The `info`
command then prints what it finds in the structure, which starts out uninitialised.
-/

namespace ReZygisk
namespace Injector

open Foundation
open Kernel
open Zygiskd

/-!
# The name of a module
-/

/-- `sizeof(line)` -/
def LINE_SIZE : Nat := 1024

def PATH_MAX : Nat := 4096

def nameField : List Byte := bytesOf "name="

/-- The path as `snprintf` leaves it. -/
def modulePropPath (name : List Byte) : List Byte :=
  (bytesOf "/data/adb/modules/" ++ name ++ bytesOf "/module.prop").take (PATH_MAX - 1)

/-- `strncmp(line, "name=", 5) == 0` -/
def beginsName (line : List Byte) : Bool :=
  nameField.isPrefixOf line

/-- `strndup(line + 5, strlen(line) - 6)` -/
def cutName (lp : Lp) (line : List Byte) : List Byte :=
  ((cstr line).drop 5).take (lp.sizeT (((cstr line).length : Int) - 6))

/-- The content of the files that can be opened, by path. -/
abbrev PropFiles := List Byte -> Option (List Byte)

/-- What is stored for a module; `none` if nothing is. -/
def moduleName (lp : Lp) (files : PropFiles) (name : List Byte) : Option (List Byte) :=
  match files (modulePropPath name) with
  | none => some name
  | some content =>
      (fgetsFind (LINE_SIZE - 1) beginsName content.length content).map (cutName lp)

/-- The name that is to be shown: the value of the first line that starts with
the field, or the module's directory. -/
def shownName (name : List Byte) (content : Option (List Byte)) : List Byte :=
  match content with
  | none => name
  | some content =>
      match (getlines content).find? beginsName with
      | none => name
      | some line => (line.takeWhile (fun b => b ≠ 0x0a)).drop 5

/-!
# When the right name is stored
-/

/-- The field stands in the line where the buffer begins for the `i`-th time. -/
def NameAt (line : List Byte) (i : Nat) : Prop :=
  nameField <+: line.drop ((LINE_SIZE - 1) * i)

instance nameAtDecidable (line : List Byte) (i : Nat) : Decidable (NameAt line i) :=
  inferInstanceAs (Decidable (_ <+: _))

/-- The buffer holds the field, the value and one more byte; or just the field,
for an empty value. -/
def Spells (line value : List Byte) : Prop :=
  (exists b, cstr line = nameField ++ value ++ [b]) ∨ (cstr line = nameField ∧ value = [])

/-- The first place where the loop sees the field is at the start of a line which
fits the buffer with its newline, or which is nothing but the field and ends the
file; or it is inside of a longer line, and happens to spell the right name. -/
inductive NameReadRight (name content : List Byte) : Prop where
  | whole (before after : List (List Byte)) (line : List Byte)
      (hlines : getlines content = before ++ line :: after)
      (hbefore : forall l, l ∈ before -> forall i, ¬ NameAt l i) (hname : NameAt line 0)
      (hline : (0 : Byte) ∉ line ∧ line.length < LINE_SIZE ∧ (0x0a : Byte) ∈ line ∨
        line = nameField) :
      NameReadRight name content
  | inside (before after : List (List Byte)) (line : List Byte) (i : Nat)
      (hlines : getlines content = before ++ line :: after)
      (hbefore : forall l, l ∈ before -> forall i, ¬ NameAt l i)
      (hi : NameAt line i) (hfirst : forall j, j < i -> ¬ NameAt line j) (hpos : i ≠ 0)
      (hspells : Spells (linePiece (LINE_SIZE - 1) line i) (shownName name (some content))) :
      NameReadRight name content

theorem beginsName_iff (line : List Byte) : beginsName line = true <-> nameField <+: line :=
  List.isPrefixOf_iff_prefix

theorem beginsName_linePiece (line : List Byte) (i : Nat) :
    beginsName (linePiece (LINE_SIZE - 1) line i) = true <-> NameAt line i := by
  rw [beginsName_iff, linePiece, List.prefix_take_iff]
  have hshort : nameField.length ≤ LINE_SIZE - 1 := by decide
  exact and_iff_left hshort

theorem not_beginsName_linePiece {line : List Byte} {i : Nat} (h : ¬ NameAt line i) :
    beginsName (linePiece (LINE_SIZE - 1) line i) = false := by
  rw [← beginsName_linePiece] at h
  exact Bool.not_eq_true _ ▸ h

theorem cstr_name {line : List Byte} (h : nameField <+: line) :
    exists value, cstr line = nameField ++ value ∧ value.length + 5 ≤ line.length := by
  rcases h with ⟨rest, heq⟩
  have hfree : (0 : Byte) ∉ nameField := by decide
  refine ⟨cstr rest, ?_, ?_⟩
  · rw [← heq, cstr_append hfree]
  · have hle : (cstr rest).length ≤ rest.length := (List.takeWhile_sublist _).length_le
    have hfield : nameField.length = 5 := by decide
    rw [← heq, List.length_append, hfield]
    omega

/-- The name is cut right exactly if one byte follows it, or nothing at all. -/
theorem cutName_eq_iff (lp : Lp) {line : List Byte} (h : nameField <+: line)
    (hshort : line.length < LINE_SIZE) (value : List Byte) :
    cutName lp line = value <-> Spells line value := by
  rcases cstr_name h with ⟨rest, hrest, hlength⟩
  have hfield : nameField.length = 5 := by decide
  have hdrop : (nameField ++ rest).drop 5 = rest := by
    rw [← hfield, List.drop_left]
  unfold cutName Spells
  rw [hrest, hdrop, List.length_append, hfield]
  rcases List.eq_nil_or_concat' rest with hnil | ⟨front, b, hconcat⟩
  · rw [hnil, List.take_nil, List.append_nil]
    constructor
    · intro hvalue
      exact Or.inr ⟨rfl, hvalue.symm⟩
    · intro hspells
      rcases hspells with ⟨b, hno⟩ | ⟨_, hvalue⟩
      · have hno := congrArg List.length hno
        rw [List.length_append, List.length_append, List.length_singleton] at hno
        omega
      · exact hvalue.symm
  · have hsize : lp.sizeT (((5 + rest.length : Nat) : Int) - 6) = front.length := by
      have hlen : rest.length = front.length + 1 := by
        rw [hconcat, List.length_append, List.length_singleton]
      have hint : (((5 + rest.length : Nat) : Int) - 6) = (front.length : Nat) := by
        omega
      have hbits : LINE_SIZE < 2 ^ lp.bits := by
        cases lp <;> decide
      rw [hint, Lp.sizeT_natCast (by omega)]
    rw [hsize, hconcat, List.take_left]
    constructor
    · intro hvalue
      left
      exact ⟨b, by rw [← hvalue, List.append_assoc]⟩
    · intro hspells
      rcases hspells with ⟨c, hsame⟩ | ⟨hno, _⟩
      · rw [List.append_assoc] at hsame
        have hsame := List.append_cancel_left hsame
        exact (List.append_inj' hsame rfl).left
      · have hno := congrArg List.length hno
        simp at hno

/-- The text of a line that begins with the field is the field and the value. -/
theorem nameField_append_value {line text : List Byte} (h : nameField <+: line)
    (htext : line = text ++ [0x0a] ∨ line = text) : nameField ++ text.drop 5 = text := by
  have hnewline : (0x0a : Byte) ∉ nameField := by decide
  have hfield : nameField.length = 5 := by decide
  have hbegins : nameField <+: text := by
    rcases htext with heq | heq
    · rw [heq, List.prefix_concat_iff] at h
      rcases h with hno | hbegins
      · rw [hno] at hnewline
        exact absurd (List.mem_append_right _ (List.mem_singleton_self _)) hnewline
      · exact hbegins
    · rw [heq] at h
      exact h
  rcases hbegins with ⟨value, heq⟩
  rw [← heq, ← hfield, List.drop_left]

/-- With a newline, the value is read right exactly if the whole line is in the
buffer and has no NUL. -/
theorem spells_ended_iff {text : List Byte} (h : nameField <+: text ++ [0x0a]) :
    Spells (linePiece (LINE_SIZE - 1) (text ++ [0x0a]) 0) (text.drop 5) <->
      (0 : Byte) ∉ text ++ [0x0a] ∧ (text ++ [0x0a]).length < LINE_SIZE := by
  have htext := nameField_append_value h (Or.inl rfl)
  constructor
  · intro hspells
    rcases hspells with ⟨b, hb⟩ | ⟨hb, hempty⟩
    · rw [htext] at hb
      have hfull : (cstr (linePiece (LINE_SIZE - 1) (text ++ [0x0a]) 0)).length =
          (text ++ [0x0a]).length := by
        rw [hb, List.length_append, List.length_append, List.length_singleton,
          List.length_singleton]
      have hshort : (text ++ [0x0a]).length ≤ LINE_SIZE - 1 := by
        rw [← hfull]
        exact (List.takeWhile_sublist _).length_le.trans (List.length_take_le _ _)
      rw [linePiece_zero, List.take_of_length_le hshort] at hfull
      have hsame : cstr (text ++ [0x0a]) = text ++ [0x0a] :=
        (List.takeWhile_prefix _).eq_of_length hfull
      constructor
      · rw [← hsame]
        exact not_mem_cstr _
      · exact Nat.lt_of_le_of_lt hshort (by decide)
    · rw [hempty, List.append_nil] at htext
      rw [← htext] at hb
      exact absurd hb (by decide)
  · intro hgood
    left
    refine ⟨0x0a, ?_⟩
    rw [linePiece_zero, List.take_of_length_le (Nat.le_sub_one_of_lt hgood.right),
      cstr_eq_self hgood.left, htext]

/-- Without one, the last byte of the value is lost. -/
theorem spells_open_iff {line : List Byte} (h : nameField <+: line) :
    Spells (linePiece (LINE_SIZE - 1) line 0) (line.drop 5) <-> line = nameField := by
  have htext := nameField_append_value h (Or.inr rfl)
  constructor
  · intro hspells
    rcases hspells with ⟨b, hb⟩ | ⟨_, hempty⟩
    · have hcstr : (cstr (linePiece (LINE_SIZE - 1) line 0)).length ≤ line.length := by
        rw [linePiece_zero]
        exact (List.takeWhile_sublist _).length_le.trans (List.take_sublist _ _).length_le
      rw [hb, htext, List.length_append, List.length_singleton] at hcstr
      exact absurd hcstr (Nat.not_succ_le_self _)
    · rw [hempty, List.append_nil] at htext
      exact htext.symm
  · intro hfieldOnly
    right
    rw [hfieldOnly]
    decide

/-- At the start of a line that begins with the field, the loop reads the value
right exactly if the whole line is in the buffer, with its newline and without a
NUL, or if there is no value. -/
theorem spells_line_iff {line rest : List Byte} (hline : LineBefore line rest)
    (h : nameField <+: line) :
    Spells (linePiece (LINE_SIZE - 1) line 0)
        ((line.takeWhile (fun b => b ≠ 0x0a)).drop 5) <->
      ((0 : Byte) ∉ line ∧ line.length < LINE_SIZE ∧ (0x0a : Byte) ∈ line ∨
        line = nameField) := by
  have hnewline : (0x0a : Byte) ∉ nameField := by decide
  rcases hline.text_cases with heq | ⟨heq, hopen⟩
  · generalize line.takeWhile (fun b => b ≠ 0x0a) = text at heq
    rw [heq] at h
    rw [heq, spells_ended_iff h]
    have hmem : (0x0a : Byte) ∈ text ++ [0x0a] :=
      List.mem_append_right _ (List.mem_singleton_self _)
    constructor
    · intro hgood
      left
      exact ⟨hgood.left, hgood.right, hmem⟩
    · intro hgood
      rcases hgood with ⟨hfree, hshort, _⟩ | hno
      · exact ⟨hfree, hshort⟩
      · rw [hno] at hmem
        exact absurd hmem hnewline
  · rw [← heq, spells_open_iff h]
    constructor
    · intro hfieldOnly
      exact Or.inr hfieldOnly
    · intro hgood
      rcases hgood with ⟨_, _, hno⟩ | hfieldOnly
      · exact absurd hno hopen
      · exact hfieldOnly

section Loop

variable {content line : List Byte} {before after : List (List Byte)}

/-- The loop stores what it cuts out of the first piece that has the field. -/
theorem fgetsFind_name (hlines : getlines content = before ++ line :: after)
    (hbefore : forall l, l ∈ before -> forall i, ¬ NameAt l i) {i : Nat}
    (hi : NameAt line i) (hfirst : forall j, j < i -> ¬ NameAt line j) :
    fgetsFind (LINE_SIZE - 1) beginsName content.length content =
      some (linePiece (LINE_SIZE - 1) line i) :=
  fgetsFind_first (by decide) (by decide) hlines
    (fun l hl i => not_beginsName_linePiece (hbefore l hl i))
    ((beginsName_linePiece line i).mpr hi)
    (fun j hj => not_beginsName_linePiece (hfirst j hj)) (Nat.le_refl _)

theorem shownName_of_first (name : List Byte)
    (hlines : getlines content = before ++ line :: after)
    (hbefore : forall l, l ∈ before -> forall i, ¬ NameAt l i) (hname : NameAt line 0) :
    shownName name (some content) = (line.takeWhile (fun b => b ≠ 0x0a)).drop 5 := by
  have hfind : (getlines content).find? beginsName = some line := by
    rw [List.find?_eq_some_iff_append]
    refine ⟨(beginsName_iff line).mpr hname, before, after, hlines, ?_⟩
    intro l hl
    have hnot := hbefore l hl 0
    rw [Bool.not_eq_true', ← Bool.not_eq_true, beginsName_iff]
    exact hnot
  rw [shownName, hfind]

/-- If the field is anywhere to be seen, there is a first place. -/
theorem exists_first_name (h : exists line, line ∈ getlines content ∧ exists i, NameAt line i) :
    exists before line after i, getlines content = before ++ line :: after ∧
      (forall l, l ∈ before -> forall i, ¬ NameAt l i) ∧ NameAt line i ∧
      forall j, j < i -> ¬ NameAt line j := by
  classical
  rcases h with ⟨l, hl, hsome⟩
  have hfind : ((getlines content).find? (fun l => decide (exists i, NameAt l i))).isSome := by
    rw [List.find?_isSome]
    exact ⟨l, hl, decide_eq_true hsome⟩
  rcases Option.isSome_iff_exists.mp hfind with ⟨line, hline⟩
  rcases List.find?_eq_some_iff_append.mp hline with ⟨hname, before, after, hlines, hbefore⟩
  have hname := of_decide_eq_true hname
  refine ⟨before, line, after, Nat.find hname, hlines, ?_, Nat.find_spec hname, ?_⟩
  · intro l hl i hno
    have hnot := hbefore l hl
    rw [decide_eq_true ⟨i, hno⟩] at hnot
    cases hnot
  · intro j hj
    exact Nat.find_min hname hj

theorem linePiece_name {i : Nat} (hi : NameAt line i) :
    nameField <+: linePiece (LINE_SIZE - 1) line i ∧
      (linePiece (LINE_SIZE - 1) line i).length < LINE_SIZE := by
  constructor
  · rw [← beginsName_iff]
    exact (beginsName_linePiece line i).mpr hi
  · exact Nat.lt_of_le_of_lt (List.length_take_le _ _) (by decide)

/-- The name that is stored is the one to be shown exactly under the condition
on the content. -/
theorem storedName_iff (lp : Lp) (name content : List Byte) :
    (fgetsFind (LINE_SIZE - 1) beginsName content.length content).map (cutName lp) =
        some (shownName name (some content)) <->
      NameReadRight name content := by
  constructor
  · intro hstored
    have hseen : exists line, line ∈ getlines content ∧ exists i, NameAt line i := by
      by_contra hno
      have hnone : fgetsFind (LINE_SIZE - 1) beginsName content.length content = none := by
        apply fgetsFind_none (by decide) _ (Nat.le_refl _)
        intro l hl i
        exact not_beginsName_linePiece (fun hname => hno ⟨l, hl, i, hname⟩)
      rw [hnone] at hstored
      cases hstored
    rcases exists_first_name hseen with ⟨before, line, after, i, hlines, hbefore, hi, hfirst⟩
    rw [fgetsFind_name hlines hbefore hi hfirst, Option.map_some] at hstored
    injection hstored with hcut
    rcases linePiece_name hi with ⟨hbegins, hshort⟩
    rw [cutName_eq_iff lp hbegins hshort] at hcut
    by_cases hpos : i = 0
    · rw [hpos] at hi hcut
      rcases exists_lineBefore hlines with ⟨rest, hline⟩
      rw [shownName_of_first name hlines hbefore hi, spells_line_iff hline hi] at hcut
      exact NameReadRight.whole before after line hlines hbefore hi hcut
    · exact NameReadRight.inside before after line i hlines hbefore hi hfirst hpos hcut
  · intro hright
    cases hright with
    | whole before after line hlines hbefore hname hgood =>
        rcases exists_lineBefore hlines with ⟨rest, hline⟩
        rcases linePiece_name hname with ⟨hbegins, hshort⟩
        rw [fgetsFind_name hlines hbefore hname (fun j hj => absurd hj (Nat.not_lt_zero j)),
          Option.map_some, shownName_of_first name hlines hbefore hname]
        have hspells := (spells_line_iff hline hname).mpr hgood
        rw [(cutName_eq_iff lp hbegins hshort _).mpr hspells]
    | inside before after line i hlines hbefore hi hfirst _ hspells =>
        rcases linePiece_name hi with ⟨hbegins, hshort⟩
        rw [fgetsFind_name hlines hbefore hi hfirst, Option.map_some,
          (cutName_eq_iff lp hbegins hshort _).mpr hspells]

end Loop

/-!
# The structure

`none` is a member that has not been assigned.
-/

inductive ZygoteRootImpl where
  | none
  | apatch
  | kernelSU
  | magisk
  deriving DecidableEq

/-- `modules` is null, or an array of pointers. -/
structure ZygoteModules where
  modulesCount : Nat
  modules : Option (List (Option (List Byte)))
  deriving DecidableEq

structure ZygoteInfo where
  modules : Option ZygoteModules := none
  rootImpl : Option ZygoteRootImpl := none
  pid : Option Int := none
  running : Option Bool := none
  deriving DecidableEq

/-- Whether the two allocations of `GetInfo` succeed. -/
structure Mallocs where
  modules : Bool := true
  names : Bool := true

def rootImplOf (flags : Nat) : ZygoteRootImpl :=
  if flags.testBit 27 then ZygoteRootImpl.apatch
  else if flags.testBit 29 then ZygoteRootImpl.kernelSU
  else if flags.testBit 30 then ZygoteRootImpl.magisk
  else ZygoteRootImpl.none

section Get

variable (lp : Lp) (uninit : Uninit) (mallocs : Mallocs) (files : PropFiles)

def readNames : Nat -> Conn -> Option (List (Option (List Byte)))
  | 0, _ => some []
  | count + 1, c =>
      (Conn.readString lp uninit c).bind (fun name =>
        (readNames count name.2).map (fun names => moduleName lp files name.1 :: names))

/-- `GetInfo` on its connection, if it gets one.  Where an allocation fails, the
count is written through a null pointer, and nothing is left. -/
def getInfo (conn : Option Conn) : Option ZygoteInfo :=
  match conn with
  | none => some { running := some false }
  | some c =>
      (readExactOr 4 c).bind (fun flags =>
        (readExactOr 4 flags.2).bind (fun pid =>
          if mallocs.modules then
            (Conn.readUsize lp pid.2).bind (fun count =>
              if count.1 = 0 then
                some { modules := some { modulesCount := 0, modules := none }
                       rootImpl := some (rootImplOf flags.1)
                       pid := some (int32 pid.1)
                       running := some true }
              else if mallocs.names then
                (readNames lp uninit files count.1 count.2).map (fun names =>
                  { modules := some { modulesCount := count.1, modules := some names }
                    rootImpl := some (rootImplOf flags.1)
                    pid := some (int32 pid.1)
                    running := some true })
              else none)
          else none))

end Get

/-- The `module.prop` of the module in this directory. -/
def ownPropPath (name : List Byte) : List Byte :=
  bytesOf "/data/adb/modules/" ++ name ++ bytesOf "/module.prop"

/-- What the `info` command prints of the structure. -/
structure InfoOutput where
  pid : Int
  rootImpl : ZygoteRootImpl
  modules : List (List Byte)

/-- The loop over `modules[i]`. -/
def printNames : Nat -> List (Option (List Byte)) -> Option (List (List Byte))
  | 0, _ => some []
  | _ + 1, [] => none
  | count + 1, name :: rest =>
      name.bind (fun name => (printNames count rest).map (fun names => name :: names))

/-- The `info` command; `none` if it comes to read a member that has not been
assigned. -/
def infoCommand (info : ZygoteInfo) : Option InfoOutput :=
  info.pid.bind (fun pid =>
    info.rootImpl.bind (fun rootImpl =>
      info.modules.bind (fun modules =>
        if modules.modulesCount ≠ 0 then
          (modules.modules.bind (printNames modules.modulesCount)).map (fun names =>
            ⟨pid, rootImpl, names⟩)
        else some ⟨pid, rootImpl, []⟩)))

/-- The `info` command reads nothing that has not been assigned, and prints the
names that are to be shown. -/
def Filled (files : PropFiles) (names : List (List Byte)) (info : Option ZygoteInfo) : Prop :=
  exists i output, info = some i ∧ infoCommand i = some output ∧
    output.modules = names.map (fun name => shownName name (files (ownPropPath name)))

/-!
# The daemon's answer
-/

/-- The modules of the daemon; their names are those of directories. -/
structure Installed (lp : Lp) extends Context lp where
  name_max : forall m, m ∈ modules -> m.name.length ≤ 255

/-- An answer in full, and how the client gets to read it. -/
structure Answer {lp : Lp} (installed : Installed lp) where
  root : Root
  env : RequestEnv
  sameLp : env.lp = lp
  world : World
  fresh : world.effects = []
  world' : World
  replied : Zygiskd.getInfo root installed.modules env world = Outcome.ok () world'
  reads : List ReadResult
  readable : ReadResult.failed ∉ reads

def Answer.conn {lp : Lp} {installed : Installed lp} (answer : Answer installed) : Conn :=
  { items := replyItems answer.world'.effects, reads := answer.reads, recvs := [] }

/-- The path is not cut, so it is the module's own. -/
theorem modulePropPath_eq {name : List Byte} (h : name.length ≤ 255) :
    modulePropPath name = ownPropPath name := by
  have hdir : (bytesOf "/data/adb/modules/").length = 18 := by decide
  have hfile : (bytesOf "/module.prop").length = 12 := by decide
  apply List.take_of_length_le
  rw [List.length_append, List.length_append, hdir, hfile, PATH_MAX]
  omega

theorem rootFlag_ok {root : Root} {w w' : World} {flag : Nat}
    (h : rootFlag root w = Outcome.ok flag w') : w' = w := by
  unfold rootFlag at h
  cases hroot : root.impl <;> rw [hroot] at h <;> cases h <;> rfl

theorem forEach_writeName_ok {env : RequestEnv} {modules : List Module} {w w' : World}
    (h : Prog.forEach (writeName env) modules w = Outcome.ok () w') :
    exists written, w'.effects = w.effects ++ written ∧
      replyItems written = modules.flatMap (fun m => Conn.stringItems env.lp m.name) := by
  induction modules generalizing w with
  | nil =>
      cases h
      exact ⟨[], (List.append_nil _).symm, rfl⟩
  | cons m rest ih =>
      rcases Prog.exists_of_bind_ok h with ⟨_, w1, hfirst, hrest⟩
      rcases Prog.exists_of_bind_ok hfirst with ⟨_, w2, hlen, htext⟩
      rcases ih hrest with ⟨written, heffects, hitems⟩
      refine ⟨[Effect.wrote (leBytes env.lp.bytes m.name.length), Effect.wrote m.name] ++
        written, ?_, ?_⟩
      · rw [heffects, tryEmit_ok htext, tryEmit_ok hlen]
        simp [World.emit]
      · rw [replyItems, List.flatMap_append, List.flatMap_cons]
        change _ ++ replyItems written = _
        rw [hitems]
        simp [effectItems, Conn.stringItems]

/-- The answer on the wire. -/
theorem replyItems_getInfo {lp : Lp} {installed : Installed lp} (answer : Answer installed) :
    exists flags, replyItems answer.world'.effects =
      dataItems (leBytes 4 flags) ++ (dataItems (leBytes 4 answer.env.pid) ++
        (dataItems (leBytes lp.bytes installed.modules.length) ++
          installed.modules.flatMap (fun m => Conn.stringItems lp m.name))) := by
  rcases Prog.exists_of_bind_ok answer.replied with ⟨flags, w1, hroot, hrest1⟩
  rcases Prog.exists_of_bind_ok hrest1 with ⟨_, w2, hflags, hrest2⟩
  rcases Prog.exists_of_bind_ok hrest2 with ⟨_, w3, hpid, hrest3⟩
  rcases Prog.exists_of_bind_ok hrest3 with ⟨_, w4, hcount, hnames⟩
  rcases forEach_writeName_ok hnames with ⟨written, heffects, hitems⟩
  refine ⟨flags, ?_⟩
  rw [heffects, tryEmit_ok hcount, tryEmit_ok hpid, tryEmit_ok hflags, rootFlag_ok hroot]
  rw [answer.sameLp] at hitems
  simp only [World.emit, answer.fresh, List.nil_append, replyItems, List.flatMap_append,
    List.flatMap_cons, List.flatMap_nil, List.append_nil, effectItems, List.append_assoc,
    answer.sameLp]
  rw [← hitems]
  rfl

/-!
# Reading the answer
-/

section Read

variable {lp : Lp}

theorem readExactOr_number {width n : Nat} {c : Conn} {rest : List WireItem}
    (hitems : c.items = dataItems (leBytes width n) ++ rest)
    (hclean : ReadResult.failed ∉ c.reads) :
    exists reads, ReadResult.failed ∉ reads ∧
      readExactOr width c =
        some (n % 256 ^ width, { c with items := rest, reads := reads }) := by
  rcases Conn.xread_dataItems hitems hclean with ⟨reads, hclean', hread⟩
  rw [leBytes_length] at hread
  refine ⟨reads, hclean', ?_⟩
  rw [readExactOr, hread, Option.map_some]
  simp only [leBytes_length, and_self, if_true, leValue_leBytes]

theorem readExactOr_leBytes {width n : Nat} {c : Conn} {rest : List WireItem}
    (hitems : c.items = dataItems (leBytes width n) ++ rest)
    (hclean : ReadResult.failed ∉ c.reads) :
    exists value reads, ReadResult.failed ∉ reads ∧
      readExactOr width c = some (value, { c with items := rest, reads := reads }) :=
  ⟨n % 256 ^ width, readExactOr_number hitems hclean⟩

theorem readNames_items (uninit : Uninit) (files : PropFiles) {modules : List Module}
    {c : Conn}
    (hitems : c.items = modules.flatMap (fun m => Conn.stringItems lp m.name))
    (hfits : forall m, m ∈ modules -> m.name.length < 256 ^ lp.bytes)
    (hnul : forall m, m ∈ modules -> (0 : Byte) ∉ m.name)
    (hclean : ReadResult.failed ∉ c.reads) :
    readNames lp uninit files modules.length c =
      some (modules.map (fun m => moduleName lp files m.name)) := by
  induction modules generalizing c with
  | nil => rfl
  | cons m rest ih =>
      rw [List.flatMap_cons] at hitems
      rcases Conn.readString_stringItems hitems (hfits m List.mem_cons_self)
        (hnul m List.mem_cons_self) hclean with ⟨reads, hclean', hread⟩
      have hrest := ih
        (c := { c with
          items := rest.flatMap (fun m => Conn.stringItems lp m.name), reads := reads })
        rfl (fun m' hm' => hfits m' (List.mem_cons_of_mem m hm'))
        (fun m' hm' => hnul m' (List.mem_cons_of_mem m hm')) hclean'
      rw [List.length_cons, readNames, hread, Option.bind_some, hrest]
      rfl

/-- `GetInfo` with an answer, as far as the allocations let it get. -/
theorem getInfo_answer {installed : Installed lp} (answer : Answer installed)
    (uninit : Uninit) (mallocs : Mallocs) (files : PropFiles) :
    exists rootImpl pid, getInfo lp uninit mallocs files (some answer.conn) =
      if mallocs.modules = true ∧ (installed.modules ≠ [] -> mallocs.names = true) then
        some
          { modules := some
              { modulesCount := installed.modules.length
                modules := if installed.modules = [] then none
                  else some (installed.modules.map (fun m => moduleName lp files m.name)) }
            rootImpl := some rootImpl
            pid := some pid
            running := some true }
      else none := by
  rcases replyItems_getInfo answer with ⟨flags, hitems⟩
  rcases readExactOr_leBytes (c := answer.conn) hitems answer.readable with
    ⟨flagsRead, reads1, hclean1, hflags⟩
  rcases readExactOr_leBytes
    (c := { answer.conn with
      items := dataItems (leBytes 4 answer.env.pid) ++
        (dataItems (leBytes lp.bytes installed.modules.length) ++
          installed.modules.flatMap (fun m => Conn.stringItems lp m.name))
      reads := reads1 }) rfl hclean1 with
    ⟨pidRead, reads2, hclean2, hpid⟩
  have hfits : installed.modules.length < 256 ^ lp.bytes :=
    Lp.fits_usize ((length_modules_le installed.toContext).trans lp.int_le_ptrdiffMax)
  rcases Conn.readUsize_dataItems
    (c := { answer.conn with
      items := dataItems (leBytes lp.bytes installed.modules.length) ++
        installed.modules.flatMap (fun m => Conn.stringItems lp m.name)
      reads := reads2 }) rfl hfits hclean2 with
    ⟨reads3, hclean3, hcount⟩
  have hnames := readNames_items uninit files
    (c := { answer.conn with
      items := installed.modules.flatMap (fun m => Conn.stringItems lp m.name)
      reads := reads3 }) rfl
    (fun m hm => Lp.fits_usize (Nat.le_succ_of_le (installed.name_length m hm)))
    installed.name_nulFree hclean3
  refine ⟨rootImplOf flagsRead, int32 pidRead, ?_⟩
  simp only [getInfo, hflags, Option.bind_some, hpid, hcount, hnames, Option.map_some]
  by_cases hmodules : mallocs.modules = true
  · by_cases hempty : installed.modules = []
    · simp [hmodules, hempty]
    · have hlength : installed.modules.length ≠ 0 := by
        rw [ne_eq, List.length_eq_zero_iff]
        exact hempty
      by_cases hnamesMalloc : mallocs.names = true
      · simp [hmodules, hempty, hnamesMalloc]
      · simp [hmodules, hempty, hnamesMalloc]
  · simp [hmodules]

end Read

/-!
# Every outcome
-/

section Outcome

variable {lp : Lp} {installed : Installed lp}

theorem moduleName_eq_iff (lp : Lp) (files : PropFiles) {name : List Byte}
    (h : name.length ≤ 255) :
    moduleName lp files name = some (shownName name (files (ownPropPath name))) <->
      forall content, files (ownPropPath name) = some content ->
        NameReadRight name content := by
  rw [moduleName, modulePropPath_eq h]
  cases hfile : files (ownPropPath name) with
  | none =>
      apply iff_of_true rfl
      intro content hno
      cases hno
  | some content =>
      simp only [storedName_iff, Option.some.injEq, forall_eq']

/-- The array is printed if every name is there. -/
theorem printNames_eq_some_iff (array : List (Option (List Byte))) (names : List (List Byte)) :
    printNames array.length array = some names <-> array = names.map some := by
  induction array generalizing names with
  | nil =>
      cases names with
      | nil => simp [printNames]
      | cons name names => simp [printNames]
  | cons first rest ih =>
      rw [List.length_cons, printNames]
      cases first with
      | none => cases names <;> simp
      | some name =>
          cases names with
          | nil => simp
          | cons name' names => simp [ih, and_comm]

/-- The names are printed right exactly if each of them is read right. -/
theorem printNames_iff (files : PropFiles) :
    printNames installed.modules.length
          (installed.modules.map (fun m => moduleName lp files m.name)) =
        some ((installed.modules.map Module.name).map
          (fun name => shownName name (files (ownPropPath name)))) <->
      forall m, m ∈ installed.modules -> forall content,
        files (ownPropPath m.name) = some content -> NameReadRight m.name content := by
  have hprint := printNames_eq_some_iff
    (installed.modules.map (fun m => moduleName lp files m.name))
    ((installed.modules.map Module.name).map
      (fun name => shownName name (files (ownPropPath name))))
  rw [List.length_map, List.map_map, List.map_map, List.map_inj_left] at hprint
  rw [List.map_map, hprint]
  apply forall₂_congr
  intro m hm
  exact moduleName_eq_iff lp files (installed.name_max m hm)

theorem filled_answer_iff (answer : Answer installed) (uninit : Uninit) (mallocs : Mallocs)
    (files : PropFiles) :
    Filled files (installed.modules.map Module.name)
        (getInfo lp uninit mallocs files (some answer.conn)) <->
      (mallocs.modules = true ∧ (installed.modules ≠ [] -> mallocs.names = true)) ∧
        forall m, m ∈ installed.modules -> forall content,
          files (ownPropPath m.name) = some content -> NameReadRight m.name content := by
  rcases getInfo_answer answer uninit mallocs files with ⟨rootImpl, pid, hinfo⟩
  rw [hinfo, ← printNames_iff]
  by_cases hmallocs : mallocs.modules = true ∧ (installed.modules ≠ [] -> mallocs.names = true)
  · rw [if_pos hmallocs, and_iff_right hmallocs]
    by_cases hempty : installed.modules = []
    · simp [Filled, infoCommand, printNames, hempty]
    · simp [Filled, infoCommand, hempty]
  · rw [if_neg hmallocs]
    constructor
    · intro hfilled
      rcases hfilled with ⟨i, output, hno, _⟩
      cases hno
    · intro hright
      exact absurd hright.left hmallocs

end Outcome

/-- After `GetInfo` all that the `info` command reads is there and right exactly
if the daemon answers, the allocations succeed, and the name of every module that
has a `module.prop` is read right. -/
theorem getInfo_filled_iff {lp : Lp} (installed : Installed lp)
    (answer : Option (Answer installed)) (uninit : Uninit) (mallocs : Mallocs)
    (files : PropFiles) :
    Filled files (installed.modules.map Module.name)
        (getInfo lp uninit mallocs files (answer.map Answer.conn)) <->
      answer.isSome = true ∧
        (mallocs.modules = true ∧ (installed.modules ≠ [] -> mallocs.names = true)) ∧
        forall m, m ∈ installed.modules -> forall content,
          files (ownPropPath m.name) = some content -> NameReadRight m.name content := by
  cases answer with
  | none =>
      constructor
      · intro hfilled
        rcases hfilled with ⟨i, output, hi, hread, _⟩
        injection hi with hi
        rw [← hi] at hread
        cases hread
      · intro hno
        cases hno.left
  | some answer =>
      rw [Option.map_some, filled_answer_iff]
      exact (and_iff_right rfl).symm

def twoInstalled : Installed Lp.lp64 where
  toContext := twoModules
  name_max := by decide

def twoAnswered : Answer twoInstalled where
  root := plainRoot
  env := plainEnv
  sameLp := rfl
  world := requestWorld [] (fun _ => none)
  fresh := rfl
  world' := _
  replied := rfl
  reads := [ReadResult.interrupted, ReadResult.upTo 2]
  readable := by decide

/-- One module with a name and one without a `module.prop`. -/
theorem getInfo_filled_two :
    Filled (fun path => if path = ownPropPath (bytesOf "first") then
        some (bytesOf "id=first\nname=One\n") else none)
      [bytesOf "first", bytesOf "second"]
      (getInfo Lp.lp64 ⟨fun _ => 0, -1⟩ {}
        (fun path => if path = ownPropPath (bytesOf "first") then
          some (bytesOf "id=first\nname=One\n") else none)
        (some twoAnswered.conn)) := by
  refine (getInfo_filled_iff twoInstalled (some twoAnswered) ⟨fun _ => 0, -1⟩ {} _).mpr
    ⟨rfl, ⟨rfl, fun _ => rfl⟩, ?_⟩
  intro m hm content hfile
  split at hfile
  · injection hfile with hfile
    rw [← hfile]
    refine NameReadRight.whole [bytesOf "id=first\n"] [] (bytesOf "name=One\n") (by decide)
      ?_ (by decide) (Or.inl (by decide))
    intro l hl i
    rw [List.mem_singleton.mp hl]
    intro hno
    cases i with
    | zero => exact absurd hno (by decide)
    | succ i =>
        -- the line is shorter than the buffer
        have hlength := hno.length_le
        have hline : (bytesOf "id=first\n").length = 9 := by decide
        have hfield : nameField.length = 5 := by decide
        rw [List.length_drop, hline, hfield, LINE_SIZE] at hlength
        omega
  · cases hfile

/-- A refused connection leaves the pid unassigned; a `module.prop` without the
field leaves the name unassigned, and one that ends without a newline loses the
last byte of the name. -/
theorem not_filled_refused :
    ¬ Filled (fun _ => none) []
        (getInfo Lp.lp64 ⟨fun _ => 0, -1⟩ {} (fun _ => none) none) ∧
      moduleName Lp.lp64 (fun _ => some (bytesOf "id=a\n")) (bytesOf "a") = none ∧
      moduleName Lp.lp64 (fun _ => some (bytesOf "name=abc")) (bytesOf "a") =
        some (bytesOf "ab") := by
  refine ⟨?_, by decide, by decide⟩
  intro hfilled
  rcases hfilled with ⟨i, output, hi, hread, _⟩
  injection hi with hi
  rw [← hi] at hread
  cases hread

end Injector
end ReZygisk
