import Makespan.Binary64.Arithmetic

/-! Documents as written, before it is known which tables they describe. -/

namespace Makespan.Toml

inductive Scalar where
  | string (s : String)
  | integer (n : Int)
  /-- `none` if the number is too large for any finite value. -/
  | float (x? : Option Binary64)
  | boolean (b : Bool)
  /-- A date, a time, or both; which one is never asked for. -/
  | dateTime
  deriving DecidableEq

/-- A key as written: its parts between the dots. -/
abbrev KeyPath := List String

inductive Literal where
  | scalar (s : Scalar)
  | array (items : List Literal)
  | table (entries : List (KeyPath × Literal))

inductive Statement where
  /-- `[path]` -/
  | header (path : KeyPath)
  /-- `[[path]]` -/
  | arrayHeader (path : KeyPath)
  | entry (path : KeyPath) (value : Literal)

end Makespan.Toml
