import Makespan.Text.Alphanumeric
import Makespan.Text.Blank
import Makespan.Text.DecimalDigit

/-! Regular expressions over texts. Where a pattern can match in several ways, the ways are ordered:
earlier alternatives come first, and repetitions take as much as they can, or as little if they are
lazy. -/

namespace Makespan.Text

/-- Characters that a set in a pattern names together. -/
inductive CharClass where
  | range (first last : Char)
  | digit
  | blank
  /-- Letters and digits of any script, and the underscore. -/
  | word
  deriving DecidableEq

def CharClass.contains (c : Char) : CharClass → Bool
  | .range first last => first ≤ c && c ≤ last
  | .digit => isDecimalDigit c
  | .blank => isBlank c
  | .word => c = '_' || alphanumeric.contains c

/-- The characters of one of these classes, or all the others. -/
structure CharSet where
  /-- Each class, and whether its characters are meant rather than those outside it. -/
  classes : List (CharClass × Bool)
  inside : Bool := true
  deriving DecidableEq

def CharSet.contains (s : CharSet) (c : Char) : Bool :=
  s.classes.any (fun (k, inside) => k.contains c = inside) = s.inside

inductive Pattern where
  | empty
  | one (set : CharSet)
  /-- The place where the text begins. -/
  | start
  /-- The place where the text ends. -/
  | finish
  | seq (first second : Pattern)
  | either (first second : Pattern)
  /-- Any number of times; a greedy repetition prefers more. -/
  | repeated (greedy : Bool) (body : Pattern)
  deriving DecidableEq

namespace Pattern

/-- Goes on for as long as something is taken off the text. -/
def repeatedRests (step : List Char → List (List Char)) (greedy : Bool) :
    Nat → List Char → List (List Char)
  | 0, cs => [cs]
  | fuel + 1, cs =>
    let more := (step cs).flatMap fun rest =>
      if rest.length < cs.length then repeatedRests step greedy fuel rest else [rest]
    (if greedy then more ++ [cs] else cs :: more).eraseDups

/-- What may be left behind a match at the beginning of `cs`, the preferred rest first. The whole
text has `size` characters. -/
def rests (size : Nat) : Pattern → List Char → List (List Char)
  | empty, cs => [cs]
  | one _, [] => []
  | one set, c :: rest => if set.contains c then [rest] else []
  | start, cs => if cs.length = size then [cs] else []
  | finish, cs => if cs = [] then [cs] else []
  | seq p q, cs => ((p.rests size cs).flatMap (q.rests size)).eraseDups
  | either p q, cs => (p.rests size cs ++ q.rests size cs).eraseDups
  | repeated greedy p, cs => repeatedRests (p.rests size) greedy cs.length cs

/-- What is left behind the first match in `cs`. -/
def firstRest? (p : Pattern) (size : Nat) : List Char → Option (List Char)
  | [] => (p.rests size []).head?
  | c :: rest => (p.rests size (c :: rest)).head? <|> p.firstRest? size rest

/-- Whether the first match in a text goes up to its end. -/
def endsText (p : Pattern) (s : String) : Bool :=
  p.firstRest? s.length s.toList = some []

end Pattern

end Makespan.Text
