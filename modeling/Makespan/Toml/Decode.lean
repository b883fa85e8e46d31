import Makespan.Toml.Document

/-! Taking values apart. A record is written as a table, by the names of its fields, or as an array,
by their order. Fields that are not known are skipped if they can be read at all. -/

namespace Makespan.Toml.Value

mutual

/-- Integers have at most 128 bits and floats are finite unless written as infinity or NaN. -/
def readable : Value → Bool
  | .scalar (.integer n) =>
    -0x80000000000000000000000000000000 ≤ n && n ≤ 0xffffffffffffffffffffffffffffffff
  | .scalar (.float x?) => x?.isSome
  | .scalar _ => true
  | .array items => allReadable items
  | .table entries => entriesReadable entries

def allReadable : List Value → Bool
  | [] => true
  | v :: rest => v.readable && allReadable rest

def entriesReadable : List (String × Value) → Bool
  | [] => true
  | (_, v) :: rest => v.readable && entriesReadable rest

end

def string? : Value → Option String
  | .scalar (.string s) => some s
  | _ => none

/-- A float, or an integer of at most 64 bits. -/
def number? : Value → Option Binary64
  | .scalar (.float x?) => x?
  | .scalar (.integer n) =>
    if -0x8000000000000000 ≤ n ∧ n ≤ Binary64.largestCount then some (.ofInt n) else none
  | _ => none

/-- A natural of at most 64 bits. -/
def count? : Value → Option Nat
  | .scalar (.integer n) => if 0 ≤ n ∧ n ≤ Binary64.largestCount then some n.toNat else none
  | _ => none

def list? {α : Type} (item? : Value → Option α) : Value → Option (List α)
  | .array items => items.mapM item?
  | _ => none

/-- The fields of a record with these field names. A date stands for a record without any of
them. -/
def fields? (names : List String) : Value → Option (List (Option Value))
  | .table entries =>
    if entriesReadable (entries.filter fun e => e.1 ∉ names) then
      some (names.map fun name => (entries.find? (·.1 = name)).map (·.2))
    else none
  | .array items => some ((List.range names.length).map (items[·]?))
  | .scalar .dateTime => some (names.map fun _ => none)
  | .scalar _ => none

/-- A field that may be missing. -/
def orElse {α : Type} (default : α) (item? : Value → Option α) : Option Value → Option α
  | none => some default
  | some v => item? v

/-- The name of a choice without contents: alone, or with an empty table or array behind it. -/
def choice? : Value → Option String
  | .scalar (.string s) => some s
  | .table [(name, .table [])] => some name
  | .table [(name, .array [])] => some name
  | _ => none

end Makespan.Toml.Value
