import TransferLoad.Net.Host

/-!
# URLs

A URL is read leniently, the way it is typed: control characters and blanks around it and tabs and line
ends inside it do not count, a backslash is as good as a slash in URLs of the web, and whatever cannot
stand in a URL is percent encoded. What comes out is written in exactly one way: with the scheme and the
host in lower case, without the usual service number of the scheme, and with `.` and `..` followed.
-/

namespace TransferLoad.Net

structure Authority where
  username : List Char := []
  password : Option (List Char) := none
  /-- Without a host in URLs of files, and in some that are not of the web. -/
  host : Option Host
  /-- The number of the service at the host, unless it is the usual one. -/
  service : Option Nat := none
  deriving Repr, DecidableEq

structure Url where
  scheme : List Char
  authority : Option Authority
  path : List Char
  query : Option (List Char) := none
  fragment : Option (List Char) := none
  deriving Repr, DecidableEq

/-! ### Schemes -/

inductive SchemeKind where
  | web
  | file
  | other
  deriving Repr, DecidableEq

namespace SchemeKind

def webSchemes : List (String × Nat) :=
  [("http", 80), ("https", 443), ("ws", 80), ("wss", 443), ("ftp", 21)]

def ofScheme (scheme : List Char) : SchemeKind :=
  if (webSchemes.lookup (String.ofList scheme)).isSome then web
  else if scheme = "file".toList then file
  else other

/-- A backslash is read as a slash. -/
def isLenient : SchemeKind → Bool
  | other => false
  | _ => true

def isSlash (kind : SchemeKind) (c : Char) : Bool := c = '/' || (kind.isLenient && c = '\\')

def endsAuthority (kind : SchemeKind) (c : Char) : Bool := kind.isSlash c || c = '?' || c = '#'

end SchemeKind

def isSchemeChar (c : Char) : Bool := c.isAlphanum || "+-.".toList.contains c

namespace Url

/-! ### Writing -/

def renderAuthority (a : Authority) : List Char :=
  let password := match a.password with
    | some password => ':' :: password
    | none => []
  let credentials := if a.username = [] ∧ a.password = none then [] else a.username ++ password ++ ['@']
  let host := match a.host with
    | some host => host.render
    | none => []
  let service := match a.service with
    | some service => ':' :: (toString service).toList
    | none => []
  credentials ++ host ++ service

def renderPart (mark : Char) : Option (List Char) → List Char
  | some part => mark :: part
  | none => []

/-- A path that begins with two slashes is kept apart from an authority. -/
def renderChars (u : Url) : List Char :=
  let place := match u.authority with
    | some a => '/' :: '/' :: renderAuthority a
    | none => if ['/', '/'].isPrefixOf u.path then ['/', '.'] else []
  u.scheme ++ ':' :: place ++ u.path ++ renderPart '?' u.query ++ renderPart '#' u.fragment

def render (u : Url) : String := String.ofList u.renderChars

/-! ### Reading a path -/

def isSingleDot (segment : List Char) : Bool := [".", "%2e"].contains (String.ofList (segment.map Char.toLower))

def isDoubleDot (segment : List Char) : Bool :=
  ["..", ".%2e", "%2e.", "%2e%2e"].contains (String.ofList (segment.map Char.toLower))

/-- A letter and a colon, or a bar for the colon: a drive in paths of files. -/
def isDrive : List Char → Bool
  | [letter, mark] => letter.isAlpha && (mark = ':' || mark = '|')
  | _ => false

/-- The path so far without its last segment; a drive in front stays. -/
def shorten (kind : SchemeKind) (above : List (List Char)) : List (List Char) :=
  match kind, above with
  | .file, [first] => if isDrive first then above else []
  | _, _ => above.dropLast

/-- Adds segments to a path. Dots at the very end leave an empty segment behind. -/
def follow (kind : SchemeKind) : (above : List (List Char)) → List (List Char) → List (List Char)
  | above, [] => above
  | above, segment :: rest =>
    if isDoubleDot segment then
      let above := shorten kind above
      follow kind (if rest = [] then above ++ [[]] else above) rest
    else if isSingleDot segment then follow kind (if rest = [] then above ++ [[]] else above) rest
    else if kind = .file ∧ above = [] ∧ isDrive segment then
      follow kind [segment.take 1 ++ [':']] rest
    else follow kind (above ++ [Percent.encode Percent.inPath segment]) rest

def splitAtSlashes (kind : SchemeKind) (chars : List Char) : List (List Char) :=
  splitAt '/' (chars.map fun c => if kind.isSlash c then '/' else c)

/-- Empty segments at the beginning of the path of a file do not count. -/
def dropEmptySegments : List (List Char) → List (List Char)
  | [] :: rest => if rest = [] then [[]] else dropEmptySegments rest
  | segments => segments

def absolutePath (kind : SchemeKind) (chars : List Char) : List Char :=
  let segments := follow kind [] (splitAtSlashes kind chars)
  '/' :: ['/'].intercalate (if kind = .file then dropEmptySegments segments else segments)

/-- The path after an authority; on the web it is never empty. -/
def pathAfterAuthority (kind : SchemeKind) : List Char → List Char
  | [] => if kind.isLenient then absolutePath kind [] else []
  | c :: rest => absolutePath kind (if kind.isSlash c then rest else c :: rest)

/-- What stands before the first question mark or number sign, and the rest. -/
def splitAtParts (chars : List Char) : List Char × List Char :=
  (chars.takeWhile fun c => c ≠ '?' && c ≠ '#', chars.dropWhile fun c => c ≠ '?' && c ≠ '#')

def readParts (kind : SchemeKind) (u : Url) (parts : List Char) : Url :=
  let inClass := if kind.isLenient then Percent.inWebQuery else Percent.inQuery
  let query := match parts.takeWhile (· ≠ '#') with
    | '?' :: rest => some (Percent.encode inClass rest)
    | _ => none
  let fragment := match parts.dropWhile (· ≠ '#') with
    | '#' :: rest => some (Percent.encode Percent.inFragment rest)
    | _ => none
  { u with query, fragment }

/-! ### Reading an authority -/

/-- A service number: digits, or nothing for the usual one. -/
def service? (scheme digits : List Char) : Option (Option Nat) :=
  if digits = [] then some none
  else
    match numberIn? 10 digits with
    | some service =>
      if service < 65536 then
        some (if SchemeKind.webSchemes.lookup (String.ofList scheme) = some service then none else some service)
      else none
    | none => none

/-- The host and what follows its colon, which does not count inside brackets. -/
def splitHost : (inside : Bool) → List Char → List Char × Option (List Char)
  | _, [] => ([], none)
  | inside, c :: rest =>
    if c = ':' ∧ !inside then ([], some rest)
    else
      let (host, service) := splitHost (if c = '[' then true else if c = ']' then false else inside) rest
      (c :: host, service)

/-- What stands before the last occurrence of a character and what follows it. -/
def splitAtLast (c : Char) (chars : List Char) : Option (List Char × List Char) :=
  if chars.contains c then
    let reversed := chars.reverse
    some (((reversed.dropWhile (· ≠ c)).drop 1).reverse, (reversed.takeWhile (· ≠ c)).reverse)
  else none

/-- The name and the password in front of a host. An empty password is none. -/
def credentials (chars : List Char) : List Char × Option (List Char) :=
  let encode := Percent.encode Percent.inCredentials
  match chars.dropWhile (· ≠ ':') with
  | _ :: c :: rest => (encode (chars.takeWhile (· ≠ ':')), some (encode (c :: rest)))
  | _ => (encode (chars.takeWhile (· ≠ ':')), none)

/-- A host with its service number behind the given name and password. Only where there is no name, no password,
no service number and no web may the host be empty. -/
def authority? (scheme : List Char) (kind : SchemeKind) (username : List Char)
    (password : Option (List Char)) (chars : List Char) : Option Authority :=
  let (host, digits) := splitHost false chars
  if host = [] then
    if kind = .other ∧ username = [] ∧ password = none ∧ digits = none then some { host := none } else none
  else do
    let host ← if kind = .other then Host.parseOther? host else Host.parseWeb? host
    let service ← service? scheme (digits.getD [])
    return { username, password, host := some host, service }

def afterSlashes? (scheme : List Char) (kind : SchemeKind) (chars : List Char) : Option Url := do
  let text := chars.takeWhile fun c => !kind.endsAuthority c
  let rest := chars.dropWhile fun c => !kind.endsAuthority c
  let authority ← match splitAtLast '@' text with
    | none => authority? scheme kind [] none text
    | some ([], host) => if host = [] ∧ rest ≠ [] then none else authority? scheme kind [] none host
    | some (before, host) => authority? scheme kind (credentials before).1 (credentials before).2 host
  let (path, parts) := splitAtParts rest
  return readParts kind { scheme, authority := some authority, path := pathAfterAuthority kind path } parts

/-! ### Reading a URL -/

/-- The host in a URL of a file; the own machine is no host. -/
def fileHost? (chars : List Char) : Option (Option Host) :=
  if chars = [] then some none
  else (Host.parseWeb? chars).map fun host => if host = .name "localhost".toList then none else some host

def ofFile? (chars : List Char) : Option Url :=
  let kind := SchemeKind.file
  let make := fun (host : Option Host) (rest : List Char) =>
    let (path, parts) := splitAtParts rest
    readParts kind
      { scheme := "file".toList, authority := some { host }, path := pathAfterAuthority kind path } parts
  match chars with
  | a :: b :: rest =>
    if kind.isSlash a ∧ kind.isSlash b then
      let host := rest.takeWhile fun c => !kind.endsAuthority c
      if isDrive host then some (make none rest)
      else (fileHost? host).map fun host => make host (rest.dropWhile fun c => !kind.endsAuthority c)
    else some (make none chars)
  | _ => some (make none chars)

/-- A URL without the web, from what follows the scheme. -/
def ofOther? (scheme chars : List Char) : Option Url :=
  match chars with
  | '/' :: '/' :: rest => afterSlashes? scheme .other rest
  | '/' :: rest =>
    let (path, parts) := splitAtParts rest
    some (readParts .other { scheme, authority := none, path := absolutePath .other path } parts)
  | _ =>
    let (path, parts) := splitAtParts chars
    some (readParts .other { scheme, authority := none, path := Percent.encode Percent.isControl path } parts)

def isEdge (c : Char) : Bool := c.toNat ≤ 0x20

def isTabOrLineEnd (c : Char) : Bool := c = '\t' || c = '\n' || c = '\r'

def significant (chars : List Char) : List Char :=
  (((chars.dropWhile isEdge).reverse.dropWhile isEdge).reverse).filter fun c => !isTabOrLineEnd c

def parse? (text : String) : Option Url :=
  let chars := significant text.toList
  let scheme := (chars.takeWhile isSchemeChar).map Char.toLower
  match chars.dropWhile isSchemeChar with
  | ':' :: rest =>
    if !(scheme.head?.any Char.isAlpha) then none
    else
      match SchemeKind.ofScheme scheme with
      | .web => afterSlashes? scheme .web (rest.dropWhile SchemeKind.web.isSlash)
      | .file => ofFile? rest
      | .other => ofOther? scheme rest
  | _ => none

/-! ### Questions about a URL -/

def hasHost (u : Url) : Bool := u.authority.any (·.host.isSome)

def isFetchable (u : Url) : Bool := u.scheme = "http".toList || u.scheme = "https".toList

/-- The URL without name and password, which are sent apart. They stay if the name is no text. -/
def withoutCredentials (u : Url) : Url :=
  match u.authority with
  | none => u
  | some a =>
    let isText := fun chars => (Text.Utf8.decode (Percent.decode chars)).toBool
    let given := a.username ≠ [] || a.password.any isText
    if isText a.username && given then
      { u with authority := some { a with username := [], password := none } }
    else u

end Url

end TransferLoad.Net
