import TransferLoad.Yaml.Lexical

/-!
# YAML documents

A document is a node: a text, a row of items that begin with a dash, or a table of keys with colons.
Rows and tables are held together by the column in which their items or keys begin; inside brackets and
braces the columns do not matter. A node can be given a name and be used again under it.
-/

namespace TransferLoad.Yaml

/-- What may stand before a node: a name for it, and a tag. -/
structure Properties where
  anchor : Option String := none
  tag : Option String := none
  deriving Repr, DecidableEq

def isWordChar (c : Char) : Bool := c.isAlphanum || c = '_' || c = '-'

def properties : (fuel : Nat) → Properties → Cursor → Option (Properties × Cursor)
  | 0, _, _ => none
  | fuel + 1, found, cur =>
    match cur.chars with
    | '&' :: rest =>
      let name := rest.takeWhile isWordChar
      if name.isEmpty || found.anchor.isSome then none
      else
        properties fuel { found with anchor := some (String.ofList name) }
          ((cur.advance (name.length + 1)).skipAll)
    | '!' :: rest =>
      let name := rest.takeWhile fun c => !isSpace c && !isFlowMark c
      if found.tag.isSome then none
      else
        properties fuel { found with tag := some (String.ofList name) }
          ((cur.advance (name.length + 1)).skipAll)
    | _ => some (found, cur)

/-- The value of a text without quotes under a tag; one that does not fit its tag is nothing. -/
def taggedScalar? (tag : Option String) (text : String) : Option Scalar :=
  match tag with
  | none => plainScalar? text
  | some "!bool" =>
    some (if text = "true" then .boolean true else if text = "false" then .boolean false else .nothing)
  | some "!int" =>
    some (match Text.readInt64 text.toList with | .ok n => .integer n | .error _ => .nothing)
  | some "!float" =>
    if unreadableReals.contains text then none
    else some (match Decimal.readFloat? text.toList with | some x => .real x | none => .nothing)
  | some "!null" => some .nothing
  | some _ => some (.text text)

/-- A node can be a key when it is a text or a whole number. -/
def keyText? : SettingTree → Option String
  | .scalar _ (.text name) => some name
  | .scalar _ (.integer n) => some (toString n)
  | _ => none

def Cursor.name (cur : Cursor) (p : Properties) (node : SettingTree) : Cursor :=
  match p.anchor with
  | some name => { cur with anchors := (name, node) :: cur.anchors }
  | none => cur

/-- A character that cannot begin a text without quotes. -/
def startsNoText (inFlow : Bool) (cur : Cursor) : Bool :=
  match cur.chars with
  | [] => true
  | c :: rest =>
    c = '%' || c = '@' || c = Char.ofNat 96 || c = '&' || c = '!' || isFlowMark c ||
      (c = '-' && atSpace rest) || (c = '?' && (inFlow || atSpace rest)) ||
      (c = ':' && endsKey inFlow rest) || (!inFlow && (c = '|' || c = '>')) || isSpace c

/-- A text at a place where nothing but a text can stand, on one line if it is to be a key. -/
def textNode (source : String) (p : Properties) (inFlow oneLine : Bool) (indent : Nat) :
    Reader SettingTree := fun cur =>
  match cur.chars with
  | '*' :: rest =>
    let name := rest.takeWhile isWordChar
    match name.isEmpty, cur.anchors.lookup (String.ofList name) with
    | false, some node => some (node, cur.advance (name.length + 1))
    | _, _ => none
  | c :: _ =>
    if c = '"' || c = singleQuote then
      match quotedText (c = '"') (cur.chars.length + 1) (cur.advance 1) with
      | none => none
      | some (found, next) =>
        if oneLine && next.column ≠ cur.column + (cur.chars.length - next.chars.length) then none
        else some (.scalar source (.text (String.ofList found)), next)
    else if startsNoText inFlow cur then none
    else
      let (found, next) :=
        if oneLine then
          let found := plainLine inFlow (cur.chars.length + 1) cur.chars
          (found, cur.advance found.length)
        else plainText inFlow indent (cur.chars.length + 1) cur
      (taggedScalar? p.tag (String.ofList found)).map fun scalar => (.scalar source scalar, next)
  | [] => none

/-- The place behind the colon of a key, if there is one. -/
def pastColon (inFlow : Bool) (cur : Cursor) : Option Cursor :=
  let spaces := (cur.chars.takeWhile isInlineSpace).length
  match cur.chars.drop spaces with
  | ':' :: rest => if endsKey inFlow rest then some (cur.advance (spaces + 1)) else none
  | _ => none

/-! ### Brackets and braces -/

mutual

def flowNode (source : String) : (fuel : Nat) → Reader SettingTree
  | 0, _ => none
  | fuel + 1, cur =>
    match properties 3 {} cur.skipAll with
    | none => none
    | some (p, cur) =>
      let found := match cur.chars with
        | '[' :: _ => flowItems source fuel [] (cur.advance 1).skipAll
        | '{' :: _ => flowPairs source fuel [] (cur.advance 1).skipAll
        | _ =>
          match textNode source p true false 0 cur with
          | some found => some found
          | none =>
            if cur.chars.head?.any isFlowMark || cur.startsWith ':' then
              some (.scalar source .nothing, cur)
            else none
      found.map fun (node, cur) => (node, cur.name p node)

/-- The items of a row up to its closing bracket. An item with a colon is a table of one key. -/
def flowItems (source : String) : (fuel : Nat) → List SettingTree → Reader SettingTree
  | 0, _, _ => none
  | fuel + 1, found, cur =>
    match cur.chars with
    | ']' :: _ => some (.array source found, cur.advance 1)
    | _ =>
      match flowNode source fuel cur with
      | none => none
      | some (node, cur) =>
        let item := match pastColon true cur.skipAll with
          | none => some (node, cur)
          | some cur =>
            match keyText? node, flowNode source fuel cur with
            | some name, some (value, cur) => some (.table source [(name, value)], cur)
            | _, _ => none
        match item with
        | none => none
        | some (item, cur) =>
          let cur := cur.skipAll
          match cur.chars with
          | ',' :: _ => flowItems source fuel (found ++ [item]) (cur.advance 1).skipAll
          | ']' :: _ => some (.array source (found ++ [item]), cur.advance 1)
          | _ => none

def flowPairs (source : String) : (fuel : Nat) → List (String × SettingTree) → Reader SettingTree
  | 0, _, _ => none
  | fuel + 1, found, cur =>
    match cur.chars with
    | '}' :: _ => some (.table source found, cur.advance 1)
    | _ =>
      match flowNode source fuel cur with
      | none => none
      | some (key, cur) =>
        let value := match pastColon true cur.skipAll with
          | none => some (SettingTree.scalar source .nothing, cur)
          | some cur => flowNode source fuel cur
        match keyText? key, value with
        | some name, some (value, cur) =>
          let found := SettingTree.put name value found
          let cur := cur.skipAll
          match cur.chars with
          | ',' :: _ => flowPairs source fuel found (cur.advance 1).skipAll
          | '}' :: _ => some (.table source found, cur.advance 1)
          | _ => none
        | _, _ => none

end

/-! ### Rows and tables of lines -/

/-- The key of a table, if the place begins with a key on one line, and the place behind its colon. -/
def keyAt (source : String) (cur : Cursor) : Option (SettingTree × Cursor) := do
  let (p, start) ← properties 3 {} cur
  if p ≠ {} ∧ start.fresh then none
  else
    let (node, next) ← textNode source p false true 0 start
    (pastColon false next).map fun next => (node, next.name p node)

mutual

/-- A node that belongs to something in column `parent`. With `rows`, a row may begin in the same
column. With `inline`, a row or a table may begin in the middle of the line. -/
def blockNode (source : String) (parent : Int) (rows inline : Bool) : (fuel : Nat) → Reader SettingTree
  | 0, _ => none
  | fuel + 1, cur =>
    let cur := cur.skipAll
    let inPlace := !cur.fresh || parent < cur.column ||
      (rows && parent = cur.column && cur.startsWith '-')
    if cur.chars.isEmpty || !inPlace || cur.atDocumentMark then some (.scalar source .nothing, cur)
    else
      let blocks := cur.fresh || inline
      match cur.chars with
      | '|' :: _ | '>' :: _ =>
        (blockText (cur.chars.head? = some '>') parent (cur.advance 1)).map fun (found, next) =>
          (.scalar source (.text (String.ofList found)), next)
      | _ =>
        if cur.startsWith '-' then
          if blocks then blockItems source cur.column fuel [] cur else none
        else
          match keyAt source cur with
          | some (key, next) =>
            if blocks then blockPairs source cur.column fuel [] key next else none
          | none =>
            match properties 3 {} cur with
            | none => none
            | some (p, next) =>
              if p = {} then
                match cur.chars with
                | '[' :: _ | '{' :: _ => flowNode source fuel cur
                | _ => textNode source p false false (parent + 1).toNat cur
              else
                let found :=
                  if next.fresh then blockNode source parent rows inline fuel next
                  else
                    match next.chars with
                    | '[' :: _ | '{' :: _ => flowNode source fuel next
                    | '|' :: _ | '>' :: _ => blockNode source parent rows false fuel next
                    | _ => textNode source p false false (parent + 1).toNat next
                found.map fun (node, cur) => (node, cur.name p node)

def blockItems (source : String) (column : Nat) : (fuel : Nat) → List SettingTree → Reader SettingTree
  | 0, _, _ => none
  | fuel + 1, found, cur =>
    match blockNode source column false true fuel (cur.advance 1) with
    | none => none
    | some (item, next) =>
      let next := next.skipAll
      let found := found ++ [item]
      if next.chars.isEmpty || next.atDocumentMark then some (.array source found, next)
      else if !next.fresh || column < next.column then none
      else if next.column = column && next.startsWith '-' then blockItems source column fuel found next
      else some (.array source found, next)

def blockPairs (source : String) (column : Nat) :
    (fuel : Nat) → List (String × SettingTree) → (key : SettingTree) → Reader SettingTree
  | 0, _, _, _ => none
  | fuel + 1, found, key, cur =>
    match keyText? key, blockNode source column true false fuel cur with
    | some name, some (value, next) =>
      let next := next.skipAll
      let found := SettingTree.put name value found
      if next.chars.isEmpty || next.atDocumentMark then some (.table source found, next)
      else if !next.fresh || column < next.column then none
      else if next.column = column then
        match keyAt source next with
        | none => none
        | some (key, next) => blockPairs source column fuel found key next
      else some (.table source found, next)
    | _, _ => none

end

/-! ### Documents -/

/-- Goes over marks for the ends of documents that have not begun. -/
def skipEndMarks : (fuel : Nat) → Cursor → Cursor
  | 0, cur => cur
  | fuel + 1, cur => if cur.atMark '.' then skipEndMarks fuel (cur.advance 3).skipAll else cur

/-- Goes over directives, which stand on lines of their own. -/
def skipDirectives : (fuel : Nat) → Cursor → Cursor
  | 0, cur => cur
  | fuel + 1, cur =>
    if cur.fresh && cur.column = 0 && cur.chars.head? = some '%' then
      let line := cur.chars.takeWhile fun c => !isBreak c
      skipDirectives fuel { cur with chars := cur.chars.drop line.length }.skipAll
    else cur

/-- What is left behind a document: nothing, or a mark for its end with nothing behind it. -/
def endsHere (cur : Cursor) : Bool :=
  let cur := cur.skipAll
  if cur.atMark '.' then (cur.advance 3).skipAll.chars.isEmpty else cur.chars.isEmpty

/-- The tree of a text that holds one document. A text without any document is an empty table. -/
def parse? (source text : String) : Option SettingTree :=
  let begun := skipEndMarks text.length ({ chars := text.toList } : Cursor).skipAll
  let start := skipDirectives text.length begun
  if begun.chars.isEmpty then some (.table source [])
  else if start.chars.length < begun.chars.length ∧ !start.atMark '-' then none
  else
    let body := if start.atMark '-' then start.advance 3 else start
    match blockNode source (-1) false body.fresh (4 * text.length + 4) body with
    | none => none
    | some (node, cur) => if endsHere cur then some node else none

end TransferLoad.Yaml
