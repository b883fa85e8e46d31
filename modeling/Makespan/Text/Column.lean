/-! Columns of text. A width counts characters; a longer text is not cut. -/

namespace Makespan.Text

def column (width : Nat) (s : String) : String :=
  s ++ String.ofList (List.replicate (width - s.length) ' ')

end Makespan.Text
