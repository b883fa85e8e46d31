import Makespan.Text.CaseRun
import Makespan.Text.Cased

/-! Lower case of a whole text. Two characters are not lowered on their own: a dotted capital I
keeps its dot as a mark of its own, and a capital sigma becomes final at the end of a word. -/

namespace Makespan.Text

/-- Whether the first character that a word may not merely hold is a letter with case. -/
def meetsCased (cs : List Char) : Bool :=
  match cs.dropWhile caseIgnorable.contains with
  | c :: _ => cased.contains c
  | [] => false

/-- Lowers `rest`, where `before` is what stands before it, last character first. -/
def lowerAfter (before : List Char) : List Char → List Char
  | [] => []
  | c :: rest =>
    let lowered :=
      if c = 'Σ' then
        if meetsCased before && !meetsCased rest then ['ς'] else ['σ']
      else if c = 'İ' then ['i', '\u0307']
      else [lowerChar c]
    lowered ++ lowerAfter (c :: before) rest

def lowercase (s : String) : String :=
  String.ofList (lowerAfter [] s.toList)

end Makespan.Text
