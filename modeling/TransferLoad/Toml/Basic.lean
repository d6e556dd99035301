import TransferLoad.Toml.Lexical

/-!
# TOML documents

A document is a row of lines: keys with values, and headers that open a table or a further table of a
row of tables. A table may come into being in several ways, and which of them decides what may still be
added to it: a table with a header of its own is not opened again, a table that a dotted key made is
only added to by dotted keys, and a table in braces is complete.
-/

namespace TransferLoad.Toml

inductive Making where
  /-- On the way to a table with a header, or as a table of its own that no line has opened yet. -/
  | implied
  /-- By a dotted key. -/
  | dotted
  /-- By a header. -/
  | opened
  deriving Repr, DecidableEq

inductive Node where
  | value (scalar : Scalar)
  | array (items : List Node)
  /-- A table in braces. -/
  | inline (making : Making) (entries : List (String × Node))
  | table (making : Making) (entries : List (String × Node))
  /-- A row of tables, the latest first, by their entries. -/
  | tables (rows : List (List (String × Node)))

abbrev Entries := List (String × Node)

namespace Entries

def put (key : String) (node : Node) : Entries → Entries
  | [] => [(key, node)]
  | (other, old) :: rest => if other = key then (key, node) :: rest else (other, old) :: put key node rest

/-- Applies a change at the end of the keys on the way to a table. Missing tables are made on the way;
of a row of tables the latest is meant. With `dotted`, the way consists of parts of a dotted key. -/
def change (dotted : Bool) (action : Making → Entries → Option Entries) :
    List String → Making → Entries → Option Entries
  | [], making, entries => action making entries
  | key :: rest, _, entries =>
    match entries.lookup key with
    | none =>
      let making := if dotted then Making.dotted else .implied
      (change dotted action rest making []).map fun inner => put key (.table making inner) entries
    | some (.table making inner) =>
      if dotted ∧ making = .opened then none
      else (change dotted action rest making inner).map fun inner => put key (.table making inner) entries
    | some (.tables (latest :: earlier)) =>
      (change dotted action rest .opened latest).map fun latest =>
        put key (.tables (latest :: earlier)) entries
    | some _ => none

/-- The same inside braces, where every table is in braces. -/
def changeInline (action : Entries → Option Entries) : List String → Entries → Option Entries
  | [], entries => action entries
  | key :: rest, entries =>
    match entries.lookup key with
    | none => (changeInline action rest []).map fun inner => put key (.inline .dotted inner) entries
    | some (.inline .dotted inner) =>
      (changeInline action rest inner).map fun inner => put key (.inline .dotted inner) entries
    | some _ => none

def add (key : String) (node : Node) (entries : Entries) : Option Entries :=
  if (entries.lookup key).isSome then none else some (entries ++ [(key, node)])

/-- Adds a value under a dotted key to a table that was opened. A table on the way that is not the work
of dotted keys is not added to. -/
def addPair (path : List String) (node : Node) (entries : Entries) : Option Entries :=
  match path.getLast? with
  | none => none
  | some key =>
    change true (fun making inner =>
      if path.length = 1 ∨ making = .dotted then add key node inner else none)
      path.dropLast .opened entries

def addInlinePair (path : List String) (node : Node) (entries : Entries) : Option Entries :=
  match path.getLast? with
  | none => none
  | some key => changeInline (add key node) path.dropLast entries

end Entries

/-! ### Values -/

mutual

def value : (fuel : Nat) → Reader Node
  | 0, _ => none
  | fuel + 1, chars =>
    match chars with
    | '[' :: rest => (items fuel rest).map fun (found, rest) => (.array found, rest)
    | '{' :: rest =>
      match skipInline rest with
      | '}' :: rest => some (.inline .opened [], rest)
      | rest => (pairs fuel [] rest).map fun (found, rest) => (.inline .opened found, rest)
    | chars => (scalar chars).map fun (found, rest) => (.value found, rest)

/-- The items of an array up to its closing bracket; a comma may stand behind the last. -/
def items : (fuel : Nat) → Reader (List Node)
  | 0, _ => none
  | fuel + 1, chars =>
    match skipLines (chars.length + 1) chars with
    | ']' :: rest => some ([], rest)
    | chars =>
      match value fuel chars with
      | none => none
      | some (first, rest) =>
        match skipLines (rest.length + 1) rest with
        | ',' :: rest => (items fuel rest).map fun (more, rest) => (first :: more, rest)
        | ']' :: rest => some ([first], rest)
        | _ => none

/-- The pairs of a table in braces, on one line and without a comma behind the last. -/
def pairs : (fuel : Nat) → Entries → Reader Entries
  | 0, _, _ => none
  | fuel + 1, entries, chars =>
    match key (chars.length + 1) (skipInline chars) with
    | none => none
    | some (path, rest) =>
      match skipInline rest with
      | '=' :: rest =>
        match value fuel (skipInline rest) with
        | none => none
        | some (found, rest) =>
          match Entries.addInlinePair path found entries with
          | none => none
          | some entries =>
            match skipInline rest with
            | ',' :: rest => pairs fuel entries rest
            | '}' :: rest => some (entries, rest)
            | _ => none
      | _ => none

end

/-! ### Documents -/

/-- A document as far as it has been read: the finished tables, and the table whose lines are being
read, with the path of its header. -/
structure Draft where
  root : Entries := []
  path : List String := []
  /-- The header opened a further table of a row. -/
  isRow : Bool := false
  current : Entries := []

namespace Draft

def finish (d : Draft) : Option Entries :=
  match d.path.getLast? with
  | none => some d.current
  | some key =>
    Entries.change false (fun _ inner =>
      if d.isRow then
        match inner.lookup key with
        | none => some (inner ++ [(key, .tables [d.current])])
        | some (.tables rows) => some (Entries.put key (.tables (d.current :: rows)) inner)
        | some _ => none
      else
        match inner.lookup key with
        | none => some (inner ++ [(key, .table .opened d.current)])
        | some (.table .implied _) => some (Entries.put key (.table .opened d.current) inner)
        | some _ => none)
      d.path.dropLast .opened d.root

/-- What a header finds in its place: the entries that the table has already. -/
def found (root : Entries) (isRow : Bool) : List String → Option Entries
  | [] => none
  | [key] =>
    match root.lookup key with
    | none => some []
    | some (.table .implied entries) => if isRow then none else some entries
    | some (.tables _) => if isRow then some [] else none
    | some _ => none
  | key :: rest =>
    match root.lookup key with
    | none => some []
    | some (.table _ entries) => found entries isRow rest
    | some (.tables (latest :: _)) => found latest isRow rest
    | some _ => none

def openTable (d : Draft) (path : List String) (isRow : Bool) : Option Draft := do
  let root ← d.finish
  let current ← found root isRow path
  return { root, path, isRow, current }

end Draft

def endOfLine (chars : List Char) : Option (List Char) :=
  match skipComment (skipInline chars) with
  | [] => some []
  | chars => (lineEnd chars).map Prod.snd

def lines : (fuel : Nat) → Draft → List Char → Option Draft
  | 0, _, _ => none
  | fuel + 1, d, chars =>
    match skipLines (chars.length + 1) chars with
    | [] => some d
    | '[' :: '[' :: rest => do
      let (path, rest) ← key (rest.length + 1) (skipInline rest)
      match skipInline rest with
      | ']' :: ']' :: rest => lines fuel (← d.openTable path true) (← endOfLine rest)
      | _ => none
    | '[' :: rest => do
      let (path, rest) ← key (rest.length + 1) (skipInline rest)
      match skipInline rest with
      | ']' :: rest => lines fuel (← d.openTable path false) (← endOfLine rest)
      | _ => none
    | chars => do
      let (path, rest) ← key (chars.length + 1) chars
      match skipInline rest with
      | '=' :: rest =>
        let (found, rest) ← value (2 * rest.length + 2) (skipInline rest)
        let current ← d.current.addPair path found
        lines fuel { d with current } (← endOfLine rest)
      | _ => none

mutual

def Node.tree (source : String) : Node → SettingTree
  | .value scalar => .scalar source scalar
  | .array items => .array source (trees source items)
  | .inline _ entries => .table source (entryTrees source entries)
  | .table _ entries => .table source (entryTrees source entries)
  | .tables rows => .array source (rowTrees source rows []) 

def trees (source : String) : List Node → List SettingTree
  | [] => []
  | node :: rest => node.tree source :: trees source rest

def entryTrees (source : String) : List (String × Node) → List (String × SettingTree)
  | [] => []
  | (key, node) :: rest => (key, node.tree source) :: entryTrees source rest

/-- Rows come with the latest first and are put in order. -/
def rowTrees (source : String) : List (List (String × Node)) → List SettingTree → List SettingTree
  | [], done => done
  | row :: rest, done => rowTrees source rest (.table source (entryTrees source row) :: done)

end

def byteOrderMark : Char := Char.ofNat 0xFEFF

def parse? (source text : String) : Option SettingTree := do
  let chars := match text.toList with
    | c :: rest => if c = byteOrderMark then rest else c :: rest
    | [] => []
  let draft ← lines (chars.length + 1) {} chars
  let root ← draft.finish
  return .table source (entryTrees source root)

end TransferLoad.Toml
