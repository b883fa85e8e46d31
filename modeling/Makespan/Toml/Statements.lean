import Makespan.Toml.Numbers

/-! Values and the statements of a document. Arrays and tables may be nested to a fixed depth. -/

namespace Makespan.Toml

open Text (Reader)
open Text.Reader

/-- Items between brackets: separated by commas, with one more comma at the end if wanted, and with
gaps everywhere around them. -/
def bracketed {α : Type} (left right : Char) (item : Reader α) : Reader (List α) := do
  let _ ← char left
  gap
  let items ← Reader.optional (separated item (do gap; let _ ← char ','; gap))
  gap
  if items.isSome then
    let _ ← Reader.optional (char ',')
    gap
  let _ ← char right
  return items.getD []

/-- `key = value`, with room around the sign. -/
def assignment {α : Type} (room : Reader Unit) (value : Reader α) : Reader (KeyPath × α) := do
  let path ← keyPath
  room
  let _ ← char '='
  room
  return (path, ← value)

/-- A value with at most so many arrays and tables around its innermost part. Between braces an
entry may go over several lines. -/
def literal : Nat → Reader Literal
  | 0 => do return .scalar (← scalar)
  | depth + 1 =>
    (do return .scalar (← scalar)) <|>
      (do return .array (← bracketed '[' ']' (literal depth))) <|>
      (do return .table (← bracketed '\x7b' '\x7d' (assignment gap (literal depth))))

/-- How deep arrays and tables may be nested. -/
def maxDepth : Nat := 80

def header (left right : String) : Reader KeyPath := do
  text left
  spaces
  let path ← keyPath
  spaces
  text right
  return path

def statement : Reader Statement :=
  (do return .arrayHeader (← header "[[" "]]")) <|>
    (do return .header (← header "[" "]")) <|>
    (do
      let (path, value) ← assignment spaces (literal maxDepth)
      return .entry path value)

/-- A line up to its end: at most one statement, and a comment. -/
def line : Reader (Option Statement) := do
  spaces
  let s ← Reader.optional statement
  spaces
  let _ ← Reader.optional comment
  newline <|> atEnd
  return s

/-- The statements of a document; a byte order mark at its start is left out. -/
def statements? (document : String) : Option (List Statement) :=
  let cs := match document.toList with
    | '\ufeff' :: rest => rest
    | cs => cs
  ((many line).whole? cs).map (·.filterMap fun s => s)

end Makespan.Toml
