import Makespan.Text.Reader

/-! Blanks, comments, keys and quoted texts. -/

namespace Makespan.Toml

open Text (Reader)
open Text.Reader

def isSpace (c : Char) : Bool := c = ' ' || c = '\t'

/-- What may stand in comments and quoted texts: everything but control characters; a tab is
allowed. -/
def isPrintable (c : Char) : Bool := c = '\t' || (' ' ≤ c && c ≠ '\x7f')

def spaces : Reader Unit := do
  let _ ← spanWhere isSpace

def newline : Reader Unit := text "\n" <|> text "\r\n"

def comment : Reader Unit := do
  let _ ← char '#'
  let _ ← spanWhere isPrintable

/-- Blanks, line ends and whole comments, as between the items of an array. -/
def gap : Reader Unit := do
  let space : Reader Unit := do
    let _ ← charWhere isSpace
  let _ ← many (space <|> newline <|> (do comment; newline))

/-- An escaped character, behind its backslash. -/
def escaped : Reader Char := do
  match ← charWhere fun _ => true with
  | 'b' => return '\x08'
  | 't' => return '\t'
  | 'n' => return '\n'
  | 'f' => return '\x0c'
  | 'r' => return '\r'
  | 'e' => return '\x1b'
  | '"' => return '"'
  | '\\' => return '\\'
  | 'x' => codePoint 2
  | 'u' => codePoint 4
  | 'U' => codePoint 8
  | _ => failure

def escape : Reader Char := do
  let _ ← char '\\'
  escaped

/-- A text in double quotes, on one line. -/
def basicText : Reader String := do
  let _ ← char '"'
  let cs ← many (charWhere (fun c => isPrintable c && c ≠ '"' && c ≠ '\\') <|> escape)
  let _ ← char '"'
  return String.ofList cs

/-- A text in single quotes, on one line and without escapes. -/
def literalText : Reader String := do
  let _ ← char '\''
  let cs ← spanWhere fun c => isPrintable c && c ≠ '\''
  let _ ← char '\''
  return String.ofList cs

/-- A line end within a text, as it is. -/
def lineEnd : Reader (List Char) :=
  (do newline' "\n") <|> newline' "\r\n"
where
  newline' (s : String) : Reader (List Char) := do
    text s
    return s.toList

/-- A backslash at the end of a line leaves out the blanks and line ends behind it. -/
def continuation : Reader (List Char) := do
  let _ ← char '\\'
  spaces
  newline
  let _ ← many (do
    let _ ← (do let _ ← charWhere isSpace) <|> newline)
  return []

/-- The end of a text in triple quotes: up to two more quotes still belong to the text. -/
def closing (quote : Char) : Reader (List Char) := do
  text (String.ofList [quote, quote, quote])
  let first ← Reader.optional (char quote)
  let second ← Reader.optional (char quote)
  return first.toList ++ second.toList

/-- A text in triple quotes; a line end right behind the opening is left out. -/
def tripleText (quote : Char) (piece : Reader (List Char)) : Reader String := do
  let quotes := String.ofList [quote, quote, quote]
  text quotes
  let _ ← Reader.optional newline
  let loneQuote : Reader (List Char) := do
    notAhead quotes
    let c ← char quote
    return [c]
  let pieces ← many (piece <|> lineEnd <|> loneQuote)
  return String.ofList (pieces.flatten ++ (← closing quote))

def basicLines : Reader String :=
  tripleText '"' <|
    (do return [← charWhere fun c => isPrintable c && c ≠ '"' && c ≠ '\\']) <|> continuation <|>
      (do return [← escape])

def literalLines : Reader String :=
  tripleText '\'' (do return [← charWhere fun c => isPrintable c && c ≠ '\''])

def anyText : Reader String := basicLines <|> basicText <|> literalLines <|> literalText

def isBareKeyChar (c : Char) : Bool := c.isAlphanum || c = '_' || c = '-'

def bareKey : Reader String := do
  let cs ← spanWhere isBareKeyChar
  if cs = [] then failure
  return String.ofList cs

def keyPart : Reader String := bareKey <|> basicText <|> literalText

/-- How many parts a key may have. -/
def maxKeyParts : Nat := 80

/-- The parts of a key; blanks may stand around the dots. -/
def keyPath : Reader (List String) := do
  let parts ← separated keyPart (do spaces; let _ ← char '.'; spaces)
  if parts.length ≤ maxKeyParts then return parts else failure

end Makespan.Toml
