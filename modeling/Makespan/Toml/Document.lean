import Makespan.Toml.Statements

/-! The tables that a document describes. A key is defined once, and a table is opened once: by a
header, by dotted keys or as a value. Tables that were only passed through on the way to another
one may still be opened by a header, and later keys may add to tables made by dotted keys. -/

namespace Makespan.Toml

/-- What a document means. A table lists its entries in order of definition, without repeats. -/
inductive Value where
  | scalar (s : Scalar)
  | array (items : List Value)
  | table (entries : List (String × Value))

/-- How a table came to be. -/
inductive Origin where
  /-- Opened by a header, or the top of a document. -/
  | header
  /-- Passed through by a header. -/
  | passed
  /-- Made by a dotted key. -/
  | dotted
  deriving DecidableEq

/-- A part of a document that is still being read. -/
inductive Part where
  /-- A value, to which nothing can be added. -/
  | closed (v : Value)
  | table (origin : Origin) (entries : List (String × Part))
  /-- The tables of one array header, the latest first. -/
  | tables (items : List (List (String × Part)))

abbrev Entries := List (String × Part)

namespace Entries

def get? (entries : Entries) (key : String) : Option Part :=
  (entries.find? (·.1 = key)).map (·.2)

/-- Replaces the part under a key, or adds it. -/
def put (entries : Entries) (key : String) (part : Part) : Entries :=
  if (entries.get? key).isSome then
    entries.map fun e => if e.1 = key then (key, part) else e
  else entries ++ [(key, part)]

/-- Applies a change to the table at the end of a path and makes the tables on the way. A dotted
key may not pass through a table that has a header of its own. -/
def changeAt (byKey : Bool) (change : Origin → Entries → Option Entries) :
    KeyPath → Origin → Entries → Option Entries
  | [], origin, entries => change origin entries
  | key :: rest, _, entries => do
    let part ← match entries.get? key with
      | none =>
        let origin := if byKey then .dotted else .passed
        (changeAt byKey change rest origin []).map (Part.table origin)
      | some (.table origin inner) =>
        if byKey && origin = .header then none
        else (changeAt byKey change rest origin inner).map (Part.table origin)
      | some (.tables (latest :: earlier)) =>
        (changeAt byKey change rest .header latest).map fun t => Part.tables (t :: earlier)
      | some _ => none
    return entries.put key part

/-- Applies a change to the table that was opened last under a path. -/
def changeOpen (change : Origin → Entries → Option Entries) :
    KeyPath → Origin → Entries → Option Entries
  | [], origin, entries => change origin entries
  | key :: rest, _, entries => do
    let part ← match entries.get? key with
      | some (.table origin inner) =>
        (changeOpen change rest origin inner).map (Part.table origin)
      | some (.tables (latest :: earlier)) =>
        (changeOpen change rest .header latest).map fun t => Part.tables (t :: earlier)
      | _ => none
    return entries.put key part

/-- Defines a key in a table. Dotted keys define in tables that dotted keys made, and plain keys in
all others. -/
def define (path : KeyPath) (part : Part) (origin : Origin) (entries : Entries) :
    Option Entries := do
  let key ← path.getLast?
  let way := path.dropLast
  changeAt true
    (fun origin entries =>
      if (origin = .dotted) = (way = []) then none
      else if (entries.get? key).isSome then none
      else some (entries.put key part))
    way origin entries

def openTable (path : KeyPath) (entries : Entries) : Option Entries := do
  let key ← path.getLast?
  changeAt false
    (fun _ entries =>
      match entries.get? key with
      | none => some (entries.put key (.table .header []))
      | some (.table .passed inner) => some (entries.put key (.table .header inner))
      | some _ => none)
    path.dropLast .header entries

def openArrayTable (path : KeyPath) (entries : Entries) : Option Entries := do
  let key ← path.getLast?
  changeAt false
    (fun _ entries =>
      match entries.get? key with
      | none => some (entries.put key (.tables [[]]))
      | some (.tables items) => some (entries.put key (.tables ([] :: items)))
      | some _ => none)
    path.dropLast .header entries

end Entries

mutual

/-- A part once nothing is added to it any more. -/
def Part.value : Part → Value
  | .closed v => v
  | .table _ entries => .table (entryValues entries)
  | .tables items => .array (tableValues items).reverse

def entryValues : List (String × Part) → List (String × Value)
  | [] => []
  | (key, part) :: rest => (key, part.value) :: entryValues rest

def tableValues : List (List (String × Part)) → List Value
  | [] => []
  | entries :: rest => .table (entryValues entries) :: tableValues rest

end

mutual

/-- The value that is written, unless a table in it defines a key twice. -/
def Literal.value? : Literal → Option Value
  | .scalar s => some (.scalar s)
  | .array items => (literalValues? items).map .array
  | .table entries => (literalEntries? [] entries).map fun e => .table (entryValues e)

def literalValues? : List Literal → Option (List Value)
  | [] => some []
  | item :: rest => do return (← item.value?) :: (← literalValues? rest)

/-- Defines the written entries after those that there are. -/
def literalEntries? (done : Entries) : List (KeyPath × Literal) → Option Entries
  | [] => some done
  | (path, item) :: rest => do
    let done ← done.define path (.closed (← item.value?)) .header
    literalEntries? done rest

end

/-- A document up to some statement: its entries, and the table that was opened last. -/
structure Draft where
  entries : Entries := []
  current : KeyPath := []

def Draft.add? (d : Draft) : Statement → Option Draft
  | .header path => (d.entries.openTable path).map (⟨·, path⟩)
  | .arrayHeader path => (d.entries.openArrayTable path).map (⟨·, path⟩)
  | .entry path item => do
    let v ← item.value?
    let entries ← d.entries.changeOpen (Entries.define path (.closed v)) d.current .header
    return { d with entries }

/-- The top table of a document, or `none` if the document is malformed. -/
def document? (s : String) : Option Value := do
  let draft ← (← statements? s).foldlM Draft.add? {}
  return .table (entryValues draft.entries)

end Makespan.Toml
