import Certified.Toml.Basic

/-!
Tables under construction. A table may be written in several places of a document as long as no
place defines again what another has closed, so each table remembers how it came about.
-/

namespace Certified.Toml

/-- How a table came about. -/
inductive Origin where
  /-- On the way to a table that a header names. -/
  | implied
  /-- On the way of a dotted key. -/
  | dotted
  /-- By a header of its own. -/
  | header
deriving DecidableEq

inductive Node where
  | value (value : Value)
  | table (origin : Origin) (entries : List (String × Node))
  /-- An array of tables, the last element first. -/
  | elements (last : List (String × Node)) (earlier : List (List (String × Node)))

abbrev Entries := List (String × Node)

namespace Entries

def get? (key : String) (entries : Entries) : Option Node :=
  (entries.find? (·.1 = key)).map (·.2)

/-- Replaces the node under a key, or adds it at the end. -/
def set (key : String) (node : Node) (entries : Entries) : Entries :=
  if entries.any (·.1 = key) then
    entries.map fun (k, old) => if k = key then (k, node) else (k, old)
  else entries ++ [(key, node)]

/-- Changes the entries at the end of a path by `change`, which is told whether a dotted key made the
table that holds them. Tables on the way are made if they are missing. A dotted key goes through no
table that has a header. -/
def descend (dotted : Bool) (change : Bool → Entries → Option Entries) :
    (here : Bool) → KeyPath → Entries → Option Entries
  | here, [], entries => change here entries
  | _, key :: path, entries =>
    match get? key entries with
    | none => do
      let inner ← descend dotted change dotted path []
      some (set key (.table (if dotted then .dotted else .implied) inner) entries)
    | some (.value _) => none
    | some (.elements last earlier) => do
      let last ← descend dotted change false path last
      some (set key (.elements last earlier) entries)
    | some (.table origin inner) =>
      if dotted && origin = .header then none
      else do
        let inner ← descend dotted change (origin = .dotted) path inner
        some (set key (.table origin inner) entries)

/-- Adds a value under a new key. A dotted key ends in a table that dotted keys made, a simple key in
one that they did not make. -/
def assign (path : KeyPath) (value : Value) (entries : Entries) : Option Entries :=
  match path.getLast? with
  | none => none
  | some key =>
    let parents := path.dropLast
    let add (here : Bool) (table : Entries) : Option Entries :=
      if here = parents.isEmpty then none
      else if (get? key table).isSome then none
      else some (set key (.value value) table)
    descend true add false parents entries

def assignAll (assignments : List (KeyPath × Value)) (entries : Entries) : Option Entries :=
  assignments.foldlM (fun table (path, value) => assign path value table) entries

/-- Adds the table of a header with its assignments. Only a table that was implied may be there. -/
def addTable (path : KeyPath) (assignments : List (KeyPath × Value)) (entries : Entries) :
    Option Entries := do
  let key ← path.getLast?
  let add (_ : Bool) (parent : Entries) : Option Entries := do
    let start ← match get? key parent with
      | none => some []
      | some (.table .implied inner) => some inner
      | _ => none
    some (set key (.table .header (← assignAll assignments start)) parent)
  descend false add false path.dropLast entries

/-- Adds an element with its assignments to the array of tables at a path. -/
def addElement (path : KeyPath) (assignments : List (KeyPath × Value)) (entries : Entries) :
    Option Entries := do
  let key ← path.getLast?
  let element ← assignAll assignments []
  let add (_ : Bool) (parent : Entries) : Option Entries :=
    match get? key parent with
    | none => some (set key (.elements element []) parent)
    | some (.elements last earlier) => some (set key (.elements element (last :: earlier)) parent)
    | _ => none
  descend false add false path.dropLast entries

end Entries

mutual

/-- The value that a finished node stands for. -/
def Node.toValue : Node → Value
  | .value value => value
  | .table _ entries => .table (toValues entries)
  | .elements last earlier => .array (toTables earlier ++ [.table (toValues last)])

def toValues : List (String × Node) → List (String × Value)
  | [] => []
  | (key, node) :: rest => (key, node.toValue) :: toValues rest

/-- The elements in the order of the document. -/
def toTables : List (List (String × Node)) → List Value
  | [] => []
  | entries :: earlier => toTables earlier ++ [.table (toValues entries)]

end

/-- The assignments up to the next header, and the statements from that header on. -/
def splitAssignments : List Statement → List (KeyPath × Value) × List Statement
  | .assign path value :: rest =>
    let (assignments, rest) := splitAssignments rest
    ((path, value) :: assignments, rest)
  | rest => ([], rest)

/-- The tables that statements build; each header takes the assignments after it. The fuel is the
number of statements. -/
def addStatements : Nat → List Statement → Entries → Option Entries
  | fuel + 1, .table path :: rest, entries => do
    let (assignments, rest) := splitAssignments rest
    addStatements fuel rest (← entries.addTable path assignments)
  | fuel + 1, .element path :: rest, entries => do
    let (assignments, rest) := splitAssignments rest
    addStatements fuel rest (← entries.addElement path assignments)
  | fuel + 1, .assign path value :: rest, entries => do
    addStatements fuel rest (← entries.assign path value)
  | _, _, entries => some entries

/-- The table of a whole document. -/
def ofStatements? (statements : List Statement) : Option (List (String × Value)) :=
  (addStatements statements.length statements []).map toValues

/-- The table between braces; what it holds is closed. -/
def inlineTable? (assignments : List (KeyPath × Value)) : Option Value :=
  (Entries.assignAll assignments []).map fun entries => .table (toValues entries)

end Certified.Toml
