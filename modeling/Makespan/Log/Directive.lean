import Makespan.Log.Record
import Makespan.Text.Alphanumeric
import Makespan.Text.Blank
import Makespan.Text.Pattern.OfText

/-! Directives say how verbose the log is for the records of some targets, for those that have some
field, or for those within some span. They are written `target[span{field=value}]=level`, and each
part but one may be left out. -/

namespace Makespan.Log

/-- What a directive wants of a field, besides that it is there. -/
inductive Wanted where
  | anything
  /-- A flag or a number, which no text equals. -/
  | constant (written : String)
  | matching (written : String) (pattern : Text.Pattern)
  deriving DecidableEq

namespace Wanted

/-- Decimal numbers with or without a point and an exponent, the infinities, and what is no
number. -/
def isNumber (s : String) : Bool :=
  let unsigned : List Char → List Char
    | '+' :: rest => rest
    | '-' :: rest => rest
    | cs => cs
  let cs := unsigned s.toList
  let digits := cs.filter (· ≠ '.')
  let mantissa := digits.takeWhile Char.isDigit
  let point := (cs.takeWhile fun c => c.isDigit || c = '.').count '.'
  ["inf", "infinity", "nan"].contains ((String.ofList cs).map Char.toLower) ||
    (point ≤ 1 && mantissa ≠ [] &&
      match cs.dropWhile fun c => c.isDigit || c = '.' with
      | [] => true
      | mark :: exponent =>
        let exponent := unsigned exponent
        (mark = 'e' || mark = 'E') && exponent ≠ [] && exponent.all Char.isDigit)

/-- Whatever is neither a flag nor a number is a pattern. -/
def ofText? (s : String) : Option Wanted :=
  if s = "true" ∨ s = "false" ∨ isNumber s then some (.constant s)
  else (Text.Pattern.ofText? s).map (.matching s)

def accepts (w : Wanted) (text : String) : Bool :=
  match w with
  | anything => true
  | constant _ => false
  | matching _ pattern => pattern.endsText text

end Wanted

structure FieldTest where
  name : String
  wanted : Wanted := .anything
  deriving DecidableEq

/-- Reads `name` or `name=value`; a second `=` ends the value. -/
def FieldTest.ofText? (cs : List Char) : Option FieldTest :=
  let name := String.ofList (cs.takeWhile (· ≠ '='))
  match cs.dropWhile (· ≠ '=') with
  | [] => if cs = [] then none else some { name }
  | _ :: value => (Wanted.ofText? (String.ofList (value.takeWhile (· ≠ '=')))).map (⟨name, ·⟩)

/-- The records that a directive is about. -/
structure Scope where
  /-- The targets that start with this text, or every target. -/
  target? : Option String := none
  /-- The spans of this name, or every span. -/
  span? : Option String := none
  field? : Option FieldTest := none
  deriving DecidableEq

namespace Scope

def coversTarget (s : Scope) (target : String) : Bool :=
  s.target?.all fun t => t.toList.isPrefixOf target.toList

/-- Whether it is known without looking at spans which records are meant. -/
def isStatic (s : Scope) : Bool := s.span?.isNone && s.field?.all (·.wanted = .anything)

/-- Whether spans can be meant, and with them the records within. -/
def isDynamic (s : Scope) : Bool := s.span?.isSome || s.field?.isSome

/-- Whether a record is covered, as far as that does not depend on spans. -/
def coversRecord (s : Scope) (r : Record) : Bool :=
  s.coversTarget r.target.name && s.field?.all fun f => r.fieldNames.contains f.name

/-- Whether the spans of runs are covered. -/
def coversRuns (s : Scope) : Bool :=
  s.coversTarget RunName.target.name && s.span?.all (· = RunName.span) &&
    s.field?.all fun f => RunName.fields.any (·.1 = f.name)

/-- Whether the span of a run holds what is wanted of its field. -/
def accepts (s : Scope) (run : RunName) : Bool :=
  s.field?.all fun f => RunName.fields.any fun (name, value) =>
    name = f.name && f.wanted.accepts (value run)

def wantsValue (s : Scope) : Bool := s.field?.any (·.wanted ≠ .anything)

/-- How specific a scope is: a longer target comes before a field. -/
def weight (s : Scope) : Nat :=
  2 * s.target?.elim 0 (·.utf8ByteSize + 1) + s.field?.toList.length

/-- Of scopes that weigh the same, the one whose field comes later in the alphabet is heavier. -/
def noHeavier (s t : Scope) : Bool :=
  s.weight < t.weight ||
    s.weight = t.weight && s.field?.elim "" (·.name) ≤ t.field?.elim "" (·.name)

end Scope

structure Directive where
  scope : Scope
  /-- Shows levels up to this verbosity; 0 shows nothing. -/
  verbosity : Nat
  deriving DecidableEq

namespace Directive

/-- Of directives with one scope only the last. -/
def latest : List Directive → List Directive
  | [] => []
  | d :: later => if later.any (·.scope = d.scope) then latest later else d :: latest later

def levelNames : List (String × Nat) :=
  ("off", 0) :: Level.all.map fun l => (l.keyword, l.verbosity)

/-- The names of levels may be in any case; numbers from 0 to 5 stand for them. -/
def verbosity? (s : String) : Option Nat :=
  match (levelNames.find? fun l => l.1 = s.map Char.toLower).map (·.2) with
  | some v => some v
  | none =>
    let digits := match s.toList with
      | '+' :: rest => rest
      | cs => cs
    if digits ≠ [] ∧ digits.all Char.isDigit then
      let n := digits.foldl (fun n c => 10 * n + (c.toNat - '0'.toNat)) 0
      if n ≤ 5 then some n else none
    else none

def mayStart (c : Char) : Bool :=
  c = '-' || c = ':' || c = '_' || c = '[' || Text.alphanumeric.contains c

open Text (Reader)
open Text.Reader

/-- `[span]`, `[{field}]` or `[span{field}]` -/
def spanScope : Reader Scope := do
  let _ ← char '['
  let name := String.ofList (← spanWhere fun c => c ≠ ']' && c ≠ '\x7b')
  let test? ← Reader.optional (do
    let _ ← char '\x7b'
    let cs ← spanWhere (· ≠ '\x7d')
    let _ ← char '\x7d'
    match FieldTest.ofText? cs with
    | some test => return test
    | none => failure)
  let _ ← char ']'
  let span? := if name = "" ∧ test?.isSome then none else some name
  return { span?, field? := test? }

/-- `=level`; everything is shown where no level is given. -/
def levelBehind : Reader (Option Nat) :=
  (do
    let _ ← char '='
    let cs ← spanWhere fun _ => true
    if cs = [] then return some Level.trace.verbosity
    match verbosity? (String.ofList cs) with
    | some v => return some v
    | none => failure) <|>
  (do
    let _ ← spanWhere Text.isBlank
    return none)

/-- A target, a span or both, and perhaps a level. No level is read behind a target that begins
with a blank. -/
def withScope : Reader Directive := do
  let target ← spanWhere fun c => c ≠ '=' && c ≠ '['
  let span? ← Reader.optional spanScope
  let level? ← levelBehind
  if target.head?.any Text.isBlank && level?.isSome then failure
  let target? := if target = [] then none else some (String.ofList target)
  return ⟨{ span?.getD {} with target? }, level?.getD Level.trace.verbosity⟩

/-- Reads a level, a target, or a scope with a level. A target alone is shown whole, and blanks are
part of it. -/
def parse? (s : String) : Option Directive :=
  if !(Text.trim s).toList.head?.any mayStart then none
  else if s.toList.any fun c => c = '=' || c = '[' then withScope.whole? s.toList
  else
    match verbosity? s with
    | some v => some ⟨{}, v⟩
    | none => some ⟨{ target? := some s }, Level.trace.verbosity⟩

end Directive

end Makespan.Log
