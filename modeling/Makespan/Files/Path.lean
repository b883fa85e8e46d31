/-! Paths are texts. They are compared by their components, so that different texts can be the same
path. -/

namespace Makespan

inductive Component where
  | root
  /-- A dot at the start of a relative path; other dots do not count. -/
  | here
  | up
  | name (s : String)
  deriving DecidableEq

namespace Component

/-- Names come after all other components. -/
def rank : Component → Nat
  | root => 0
  | here => 1
  | up => 2
  | name _ => 3

def text : Component → String
  | name s => s
  | _ => ""

def lt (a b : Component) : Bool :=
  a.rank < b.rank || (a.rank = b.rank && decide (a.text < b.text))

end Component

namespace Path

/-- Cuts a text at each slash, into one piece more than there are slashes. -/
def cut : List Char → List (List Char)
  | [] => [[]]
  | c :: cs =>
    if c = '/' then [] :: cut cs
    else
      match cut cs with
      | [] => [[c]]
      | piece :: rest => (c :: piece) :: rest

/-- What stands between the slashes. -/
def segments (path : String) : List String := (cut path.toList).map String.ofList

def isAbsolute (path : String) : Bool := path.toList.head? = some '/'

def components (path : String) : List Component :=
  let start : List Component :=
    if isAbsolute path then [.root]
    else if (segments path).head? = some "." then [.here]
    else []
  start ++ (segments path).filterMap fun s =>
    if s = "" || s = "." then none
    else if s = ".." then some .up
    else some (.name s)

/-- Component by component; a path comes before the paths that go on from it. -/
def leComponents : List Component → List Component → Bool
  | [], _ => true
  | _ :: _, [] => false
  | a :: as, b :: bs => a.lt b || (a = b && leComponents as bs)

def le (p q : String) : Bool := leComponents (components p) (components q)

/-- Whether two texts are the same path. -/
def same (p q : String) : Bool := components p = components q

/-- The last component, if it is a name. -/
def fileName? (path : String) : Option String :=
  match (components path).getLast? with
  | some (.name s) => some s
  | _ => none

/-- A name before and behind its last dot; a dot at the start does not count. -/
def splitName (name : String) : String × Option String :=
  let behind := name.toList.reverse.takeWhile (· ≠ '.')
  let before := (name.toList.reverse.drop (behind.length + 1)).reverse
  if before = [] then (name, none) else (String.ofList before, some (String.ofList behind.reverse))

def stem? (path : String) : Option String := (fileName? path).map fun s => (splitName s).1

def extension? (path : String) : Option String :=
  (fileName? path).bind fun s => (splitName s).2

/-- The path of an entry of a directory. -/
def join (dir name : String) : String :=
  if dir = "" || dir.toList.getLast? = some '/' then dir ++ name else dir ++ "/" ++ name

end Path

end Makespan
