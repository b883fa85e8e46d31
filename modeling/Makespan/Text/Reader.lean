/-! Readers take a part off the front of a text. A reader that fails leaves no trace, so that
another one can be tried in its place. -/

namespace Makespan.Text

/-- What was read and the text behind it, or `none`. -/
abbrev Reader (α : Type) := List Char → Option (α × List Char)

def hexValue? (c : Char) : Option Nat :=
  if c.isDigit then some (c.toNat - '0'.toNat)
  else if 'a' ≤ c ∧ c ≤ 'f' then some (c.toNat - 'a'.toNat + 10)
  else if 'A' ≤ c ∧ c ≤ 'F' then some (c.toNat - 'A'.toNat + 10)
  else none

namespace Reader

variable {α β : Type}

instance : Monad Reader where
  pure a := fun cs => some (a, cs)
  bind p f := fun cs => match p cs with
    | some (a, rest) => f a rest
    | none => none

instance : Alternative Reader where
  failure := fun _ => none
  orElse p q := fun cs => match p cs with
    | some r => some r
    | none => q () cs

def charWhere (p : Char → Bool) : Reader Char
  | c :: rest => if p c then some (c, rest) else none
  | [] => none

def char (c : Char) : Reader Char := charWhere (· = c)

/-- Exactly this text. -/
def text (s : String) : Reader Unit := fun cs =>
  if s.toList.isPrefixOf cs then some ((), cs.drop s.length) else none

/-- Succeeds, taking nothing, where the text does not begin like this. -/
def notAhead (s : String) : Reader Unit := fun cs =>
  if s.toList.isPrefixOf cs then none else some ((), cs)

def atEnd : Reader Unit
  | [] => some ((), [])
  | _ :: _ => none

def spanWhere (p : Char → Bool) : Reader (List Char) := fun cs =>
  some (cs.takeWhile p, cs.dropWhile p)

def optional (p : Reader α) : Reader (Option α) := fun cs =>
  match p cs with
  | some (a, rest) => some (some a, rest)
  | none => some (none, cs)

/-- As many parts in a row as there are; a part that is empty is not counted and ends the row. -/
def many (p : Reader α) : Reader (List α) := fun cs =>
  match p cs with
  | none => some ([], cs)
  | some (a, rest) =>
    if _h : rest.length < cs.length then
      match many p rest with
      | some (as, rest) => some (a :: as, rest)
      | none => some ([a], rest)
    else some ([], cs)
termination_by cs => cs.length
decreasing_by exact _h

/-- Parts with a separator between each two. -/
def separated (p : Reader α) (separator : Reader β) : Reader (List α) := do
  let first ← p
  let rest ← many (do let _ ← separator; p)
  return first :: rest

/-- The character whose code is written in so many hexadecimal digits. -/
def codePoint (digits : Nat) : Reader Char := fun cs => do
  let shown := cs.take digits
  if shown.length < digits then none
  let values ← shown.mapM hexValue?
  let code := values.foldl (fun n v => 16 * n + v) 0
  if code.isValidChar then some (Char.ofNat code, cs.drop digits) else none

/-- What a reader makes of a whole text. -/
def whole? (p : Reader α) (cs : List Char) : Option α :=
  match p cs with
  | some (a, []) => some a
  | _ => none

end Reader

end Makespan.Text
