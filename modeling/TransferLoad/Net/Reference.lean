import TransferLoad.Net.Url

/-!
# References

Where a redirect leads is written as a reference, which may leave out what it shares with the place it
is found at. Unlike a URL that somebody types, a reference has to keep to the grammar to the letter, and
resolving one changes nothing in it but following `.` and `..` in its path.
-/

namespace TransferLoad.Net

structure Reference where
  scheme : Option (List Char) := none
  authority : Option (List Char) := none
  path : List Char := []
  query : Option (List Char) := none
  fragment : Option (List Char) := none
  deriving Repr, DecidableEq

namespace Reference

def renderChars (r : Reference) : List Char :=
  let scheme := match r.scheme with
    | some scheme => scheme ++ [':']
    | none => []
  let authority := match r.authority with
    | some authority => '/' :: '/' :: authority
    | none => []
  scheme ++ authority ++ r.path ++ Url.renderPart '?' r.query ++ Url.renderPart '#' r.fragment

def render (r : Reference) : String := String.ofList r.renderChars

def ofUrl (u : Url) : Reference where
  scheme := some u.scheme
  authority := u.authority.map Url.renderAuthority
  path := u.path
  query := u.query
  fragment := u.fragment

def withoutFragment (r : Reference) : Reference := { r with fragment := none }

/-! ### The grammar -/

def isUnreserved (c : Char) : Bool := c.isAlphanum || "-._~".toList.contains c

def isDelimiter (c : Char) : Bool := "!$&'()*+,;=".toList.contains c

def isNameChar (c : Char) : Bool := isUnreserved c || isDelimiter c

def isCredentialChar (c : Char) : Bool := isNameChar c || c = ':'

def isPathChar (c : Char) : Bool := isCredentialChar c || c = '@' || c = '/'

def isPartChar (c : Char) : Bool := isPathChar c || c = '?'

def isHexDigit (c : Char) : Bool := (digitIn? 16 c).isSome

/-- Nothing but characters of a class and percent signs with their two digits. -/
def consistsOf (inClass : Char → Bool) : List Char → Bool
  | '%' :: high :: low :: rest => isHexDigit high && isHexDigit low && consistsOf inClass rest
  | c :: rest => c ≠ '%' && inClass c && consistsOf inClass rest
  | [] => true

/-- An address of some later version: the letter, its number, a point, and anything. -/
def isFutureAddress : List Char → Bool
  | v :: rest =>
    let version := rest.takeWhile isHexDigit
    (v = 'v' || v = 'V') && version ≠ [] &&
      match rest.dropWhile isHexDigit with
      | '.' :: address => address ≠ [] && address.all isCredentialChar
      | _ => false
  | [] => false

def isHost : List Char → Bool
  | '[' :: rest =>
    rest.getLast? = some ']' && ((Ipv6.parse? rest.dropLast).isSome || isFutureAddress rest.dropLast)
  | chars => consistsOf isNameChar chars

def isAuthority (chars : List Char) : Bool :=
  let (credentials, place) := (Url.splitAtLast '@' chars).getD ([], chars)
  let (host, service) := Url.splitHost false place
  consistsOf isCredentialChar credentials && isHost host && (service.getD []).all fun c => (Text.digit? c).isSome

def isWellFormed (r : Reference) : Bool :=
  r.authority.all isAuthority && consistsOf isPathChar r.path &&
    r.query.all (consistsOf isPartChar) && r.fragment.all (consistsOf isPartChar)

/-- The scheme in front, or nothing, and the rest; without a scheme there is no colon in the first
segment. -/
def splitScheme (chars : List Char) : Option (Option (List Char) × List Char) :=
  match chars.dropWhile fun c => c ≠ ':' && c ≠ '/' && c ≠ '?' && c ≠ '#' with
  | ':' :: rest =>
    let scheme := chars.takeWhile (· ≠ ':')
    if scheme.head?.any Char.isAlpha && scheme.all isSchemeChar then some (some scheme, rest) else none
  | _ => some (none, chars)

def isPathEnd (c : Char) : Bool := c = '?' || c = '#'

def parse? (chars : List Char) : Option Reference := do
  let (scheme, rest) ← splitScheme chars
  let (authority, rest) := match rest with
    | '/' :: '/' :: rest =>
      (some (rest.takeWhile fun c => c ≠ '/' && !isPathEnd c), rest.dropWhile fun c => c ≠ '/' && !isPathEnd c)
    | _ => (none, rest)
  let parts := rest.dropWhile (!isPathEnd ·)
  let query := match parts.takeWhile (· ≠ '#') with
    | _ :: query => some query
    | [] => none
  let fragment := match parts.dropWhile (· ≠ '#') with
    | _ :: fragment => some fragment
    | [] => none
  let r : Reference := { scheme, authority, path := rest.takeWhile (!isPathEnd ·), query, fragment }
  if r.isWellFormed then some r else none

/-! ### Resolving -/

/-- Follows the dots in the segments of a path; at the very end they leave an empty segment behind. -/
def followDots : (above : List (List Char)) → List (List Char) → List (List Char)
  | above, [] => above
  | above, segment :: rest =>
    if segment = ['.', '.'] then
      followDots (if rest = [] then above.dropLast ++ [[]] else above.dropLast) rest
    else if segment = ['.'] then followDots (if rest = [] then above ++ [[]] else above) rest
    else followDots (above ++ [segment]) rest

def settle : List Char → List Char
  | '/' :: rest => '/' :: ['/'].intercalate (followDots [] (splitAt '/' rest))
  | path => path

/-- A path that begins where another one has its last segment. -/
def merge (base : Reference) (path : List Char) : List Char :=
  if base.authority.isSome ∧ base.path = [] then '/' :: path
  else (base.path.reverse.dropWhile (· ≠ '/')).reverse ++ path

def resolve (base r : Reference) : Reference :=
  if r.scheme.isSome then { r with path := settle r.path }
  else if r.authority.isSome then { r with scheme := base.scheme, path := settle r.path }
  else if r.path = [] then { base with query := r.query.or base.query, fragment := r.fragment }
  else
    let path := if r.path.head? = some '/' then r.path else merge base r.path
    { base with path := settle path, query := r.query, fragment := r.fragment }

/-! ### Asking -/

def maxLength : Nat := 65534

/-- A host, perhaps with a service, that can be asked, behind a name and a password. -/
def isReachable (authority : List Char) : Bool :=
  let place := ((Url.splitAtLast '@' authority).map Prod.snd).getD authority
  let (host, service) := Url.splitHost false place
  place ≠ [] && host.all (fun c => isNameChar c || "[]:".toList.contains c) && (service.getD []).all isNameChar

/-- A reference that can be asked for. One without a host is let through if it is all one piece. -/
def canBeAsked (r : Reference) : Bool :=
  r.renderChars.length ≤ maxLength &&
    match r.authority with
    | some authority => isReachable authority
    | none => r.query = none && r.fragment = none && !r.path.contains '/' && isReachable r.renderChars

/-- What a server is asked for: the path, which begins with a slash, and the query. -/
def target (r : Reference) : String :=
  let path := if r.path.head? = some '/' then r.path else '/' :: r.path
  String.ofList (path ++ Url.renderPart '?' r.query)

end Reference

end TransferLoad.Net
