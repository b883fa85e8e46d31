import Makespan.Text.Pattern
import Makespan.Text.Reader

/-! Patterns as they are written: `a|b`, `(..)`, `*`, `+`, `?` and their lazy forms, `.`, `^`, `$`,
sets in brackets and escapes. Counted repetitions, flags, word boundaries, and sets within sets are
refused. -/

namespace Makespan.Text.Pattern

open Reader

inductive Token where
  | part (p : Pattern)
  | again (once many greedy : Bool)
  | bar
  | opening
  | closing

/-- An escaped character that stands for itself or for a control character. -/
def escapedChar : Reader Char := do
  let _ ← char '\\'
  match ← charWhere fun _ => true with
  | 'a' => return '\x07'
  | 't' => return '\t'
  | 'n' => return '\n'
  | 'v' => return '\x0b'
  | 'f' => return '\x0c'
  | 'r' => return '\r'
  | 'x' => codePoint 2
  | 'u' => codePoint 4
  | 'U' => codePoint 8
  | c => if c.toNat < 0x80 && !c.isAlphanum && c ≠ '<' && c ≠ '>' then return c else failure

/-- A class with a name of its own. -/
def namedClass : Reader (CharClass × Bool) := do
  let _ ← char '\\'
  match ← charWhere fun _ => true with
  | 'd' => return (.digit, true)
  | 'D' => return (.digit, false)
  | 's' => return (.blank, true)
  | 'S' => return (.blank, false)
  | 'w' => return (.word, true)
  | 'W' => return (.word, false)
  | _ => failure

/-- A hyphen that goes on to the end of a range. -/
def hyphen : Reader Unit := do
  notAhead "-]"
  notAhead "--"
  text "-"

/-- A character, a range or a named class in a set. A doubled sign would join two sets. -/
def setClass : Reader (CharClass × Bool) :=
  (do
    let k ← namedClass
    if (← Reader.optional hyphen).isSome then failure else return k) <|>
  (do
    notAhead "&&"
    notAhead "--"
    notAhead "~~"
    let first ← member
    if (← Reader.optional hyphen).isNone then return (.range first first, true)
    let last ← member
    if first ≤ last then return (.range first last, true) else failure)
where
  member : Reader Char := escapedChar <|> charWhere fun c => c ≠ '\\' && c ≠ '[' && c ≠ ']'

def charSet : Reader CharSet := do
  let _ ← char '['
  let outside? ← Reader.optional (char '^')
  let hyphens ← many (char '-')
  let bracket? ← if hyphens = [] then Reader.optional (char ']') else pure none
  let literals := (hyphens.take 1 ++ bracket?.toList).map fun c => (CharClass.range c c, true)
  let classes ← many setClass
  let _ ← char ']'
  return ⟨literals ++ classes, outside?.isNone⟩

def single (c : Char) : CharSet := ⟨[(.range c c, true)], true⟩

def part : Reader Pattern :=
  (do let _ ← char '.'; return one { single '\n' with inside := false }) <|>
  (do text "^" <|> text "\\A"; return start) <|>
  (do text "$" <|> text "\\z"; return finish) <|>
  (do return one ⟨[← namedClass], true⟩) <|>
  (do return one (← charSet)) <|>
  (do
    let c ← escapedChar <|> charWhere fun c => !"\\[\x7b()|*+?".toList.contains c
    return one (single c))

def again : Reader Token := do
  let c ← charWhere ['*', '+', '?'].contains
  let lazy? ← Reader.optional (char '?')
  return .again (c = '+') (c ≠ '?') lazy?.isNone

/-- Groups may have names. -/
def opening : Reader Token := do
  let name : Reader Unit := do
    text "(?P<" <|> text "(?<"
    let _ ← charWhere fun c => c.isAlpha || c = '_'
    let _ ← spanWhere fun c => c.isAlphanum || ['_', '.', '[', ']'].contains c
    text ">"
  name <|> text "(?:" <|> (do text "("; notAhead "?")
  return .opening

def token : Reader Token :=
  again <|> opening <|> (do text "|"; return .bar) <|> (do text ")"; return .closing) <|>
    (do return .part (← part))

/-- A group that is still open. -/
structure Group where
  /-- The alternatives before the last bar, the latest first. -/
  choices : List Pattern := []
  /-- The parts since then, the latest first. -/
  parts : List Pattern := []

namespace Group

def sequence (g : Group) : Pattern := g.parts.foldl (fun behind p => p.seq behind) .empty

def pattern (g : Group) : Pattern := g.choices.foldl (fun behind p => p.either behind) g.sequence

/-- Repeats the latest part. -/
def again? (g : Group) (once many greedy : Bool) : Option Group :=
  match g.parts with
  | [] => none
  | p :: earlier =>
    let repeated :=
      if many then (if once then p.seq (.repeated greedy p) else .repeated greedy p)
      else if greedy then p.either .empty
      else Pattern.empty.either p
    some { g with parts := repeated :: earlier }

/-- Adds a token to the innermost group; the groups around it come behind. -/
def add? : Group × List Group → Token → Option (Group × List Group)
  | (g, outer), .part p => some ({ g with parts := p :: g.parts }, outer)
  | (g, outer), .again once many greedy => (g.again? once many greedy).map (·, outer)
  | (g, outer), .bar => some (⟨g.sequence :: g.choices, []⟩, outer)
  | (g, outer), .opening => some ({}, g :: outer)
  | (g, around :: outer), .closing =>
    some ({ around with parts := g.pattern :: around.parts }, outer)
  | (_, []), .closing => none

end Group

/-- The pattern that is written, or `none` if it is malformed. -/
def ofText? (s : String) : Option Pattern := do
  let tokens ← (many token).whole? s.toList
  match ← tokens.foldlM Group.add? (({} : Group), []) with
  | (g, []) => some g.pattern
  | _ => none

end Makespan.Text.Pattern
