import ItemClient.Http.Host

/-!
# URLs

A URL in its parts, each already encoded. `Url.read` is as lenient as browsers are: blanks around
the text and line breaks inside it are dropped, a backslash parts segments of a path of the web,
dots that stand for the same or the upper level are resolved, and the usual port is left out.
`Url.push` puts a segment below the path that is there, whatever characters it has.
-/

namespace ItemClient.Http

/-- The kinds of schemes, which are read differently. -/
inductive SchemeKind where
  /-- A scheme of the web, or one like it. -/
  | special
  | file
  | other
  deriving DecidableEq

/-- The path of a URL. -/
inductive UrlPath where
  /-- Segments with slashes before each. -/
  | segments (names : List (List Char))
  /-- A text that is no hierarchy. -/
  | rootless (text : List Char)

/-- A URL. -/
structure Url where
  scheme : List Char
  username : List Char := []
  password : Option (List Char) := none
  host : Option Host := none
  /-- The port, when it is not the usual one of the scheme. -/
  port : Option Nat := none
  path : UrlPath
  query : Option (List Char) := none
  fragment : Option (List Char) := none

namespace Url

/-! ## Schemes -/

def usualPort? (scheme : List Char) : Option Nat :=
  match String.ofList scheme with
  | "http" | "ws" => some 80
  | "https" | "wss" => some 443
  | "ftp" => some 21
  | _ => none

def schemeKind (scheme : List Char) : SchemeKind :=
  if scheme = "file".toList then .file
  else if (usualPort? scheme).isSome then .special
  else .other

def isSchemeChar (c : Char) : Bool := c.isAlphanum || c == '+' || c == '-' || c == '.'

/-- The scheme of a text, in lower case, and what follows its colon. -/
def takeScheme? (cs : List Char) : Option (List Char × List Char) :=
  let scheme := cs.takeWhile isSchemeChar
  match scheme, cs.dropWhile isSchemeChar with
  | c :: _, ':' :: rest => if c.isAlpha then some (scheme.map Char.toLower, rest) else none
  | _, _ => none

/-! ## Authorities -/

/-- Whether a character ends the authority. -/
def endsAuthority (kind : SchemeKind) (c : Char) : Bool :=
  c == '/' || c == '?' || c == '#' || (c == '\\' && kind != .other)

/-- The part of an authority before its last `@`, if it has one, and the part after it. -/
def cutUserInfo (authority : List Char) : Option (List Char) × List Char :=
  if authority.contains '@' then
    let host := (authority.reverse.takeWhile (· ≠ '@')).reverse
    (some (authority.take (authority.length - host.length - 1)), host)
  else (none, authority)

/-- The user name and the password of user info; a password without any character is none. -/
def readUserInfo (info : List Char) : List Char × Option (List Char) :=
  let (name, password) := Text.cut ':' info
  (percentEncode inUserInfo name,
    (password.filter (· ≠ [])).map (percentEncode inUserInfo))

/-- The host of an authority, up to a colon outside of brackets, and what follows it. -/
def takeHost : Bool → List Char → List Char × List Char
  | _, [] => ([], [])
  | inBrackets, c :: rest =>
      if c = ':' ∧ !inBrackets then ([], c :: rest)
      else
        let (host, rest) := takeHost (c = '[' || (inBrackets && c ≠ ']')) rest
        (c :: host, rest)

/-- The number of a port: digits alone, which make a number of 16 bits. -/
def readPort (cs : List Char) : Except UrlFault (Option Nat) :=
  if cs = [] then .ok none
  else if cs.all Char.isDigit ∧ Text.decimalValue cs < 0x10000 then
    .ok (some (Text.decimalValue cs))
  else .error .badPort

/-- Where a request goes. -/
structure Authority where
  username : List Char
  password : Option (List Char)
  host : Host
  /-- The port, when it is not the usual one of the scheme. -/
  port : Option Nat

def readHost (kind : SchemeKind) (cs : List Char) : Except UrlFault Host :=
  if kind = .other then Host.readOpaque cs
  else if cs = [] then .error .emptyHost
  else Host.read cs

def readAuthority (kind : SchemeKind) (scheme cs : List Char) : Except UrlFault Authority := do
  let (info, rest) := cutUserInfo cs
  if info.isSome ∧ rest = [] then throw .emptyHost
  let (username, password) := readUserInfo (info.getD [])
  let (name, rest) := takeHost false rest
  let host ← readHost kind name
  if host.isEmpty ∧ (rest ≠ [] ∨ username ≠ [] ∨ password.isSome) then throw .emptyHost
  let port ← readPort (rest.drop 1)
  return { username, password, host, port := if port = usualPort? scheme then none else port }

/-! ## Paths -/

/-- Whether a segment stands for the level it is on. -/
def isSameLevel (segment : List Char) : Bool :=
  [".", "%2e"].contains (Text.lowerAscii (String.ofList segment))

/-- Whether a segment stands for the level above. -/
def isUpperLevel (segment : List Char) : Bool :=
  ["..", "%2e.", ".%2e", "%2e%2e"].contains (Text.lowerAscii (String.ofList segment))

/-- Put segments below a path, resolving those that stand for a level. Such a segment at the end
leaves an empty one. -/
def resolve : List (List Char) → List (List Char) → List (List Char)
  | path, [] => path
  | path, segment :: rest =>
      let isLast := rest.isEmpty
      if isUpperLevel segment then resolve (path.dropLast ++ if isLast then [[]] else []) rest
      else if isSameLevel segment then resolve (path ++ if isLast then [[]] else []) rest
      else resolve (path ++ [segment]) rest

/-- The raw segments of a path: what stands between slashes, or backslashes where they count. -/
def rawSegments (kind : SchemeKind) (cs : List Char) : List (List Char) :=
  Text.split '/' (if kind = .other then cs else cs.map fun c => if c = '\\' then '/' else c)

/-- Read a path that follows an authority. A URL of the web always has one. -/
def readPath (kind : SchemeKind) (cs : List Char) : List (List Char) :=
  match rawSegments kind cs with
  | [[]] => if kind = .other then [] else [[]]
  | [] :: segments | segments => resolve [] (segments.map (percentEncode inPath))

/-! ## Whole URLs -/

/-- Drop the blanks and control characters at both ends, and line breaks and tabs anywhere. -/
def clean (cs : List Char) : List Char :=
  let blank (c : Char) : Bool := c.toNat ≤ 0x20
  ((((cs.dropWhile blank).reverse).dropWhile blank).reverse).filter fun c =>
    c ≠ '\t' ∧ c ≠ '\n' ∧ c ≠ '\r'

/-- Put query and fragment into a URL. -/
def withTail (u : Url) (query fragment : Option (List Char)) : Url :=
  let set := if schemeKind u.scheme = .other then inQuery else inSpecialQuery
  { u with query := query.map (percentEncode set),
           fragment := fragment.map (percentEncode inFragment) }

def readWithAuthority (kind : SchemeKind) (scheme cs : List Char) : Except UrlFault Url := do
  let ends := endsAuthority kind
  let a ← readAuthority kind scheme (cs.takeWhile fun c => !ends c)
  return { scheme, username := a.username, password := a.password, host := some a.host,
           port := a.port, path := .segments (readPath kind (cs.dropWhile fun c => !ends c)) }

/-- Whether a character is a slash, or counts as one in a URL of the web. -/
def isSlash (c : Char) : Bool := c == '/' || c == '\\'

/-- Drop the empty segments that a path starts with, except the last. -/
def dropLeadingEmpty : List (List Char) → List (List Char)
  | [] :: segment :: rest => dropLeadingEmpty (segment :: rest)
  | path => path

def readFileHost (cs : List Char) : Except UrlFault Host := do
  if cs = [] then return .domain []
  match ← Host.read cs with
  | .domain name => return .domain (if name = "localhost".toList then [] else name)
  | host => return host

def readFile (scheme cs : List Char) : Except UrlFault Url := do
  let (host, path) ←
    match cs with
    | a :: b :: rest =>
        if isSlash a ∧ isSlash b then
          let host ← readFileHost (rest.takeWhile fun c => !isSlash c)
          pure (host, rest.dropWhile fun c => !isSlash c)
        else pure (.domain [], cs)
    | _ => pure (.domain [], cs)
  return { scheme, host := some host,
           path := .segments (dropLeadingEmpty (readPath .file path)) }

/-- Read a URL after its scheme, without query and fragment. -/
def readHierarchy (scheme cs : List Char) : Except UrlFault Url :=
  match schemeKind scheme, cs with
  | .special, cs => readWithAuthority .special scheme (cs.dropWhile isSlash)
  | .file, cs => readFile scheme cs
  | .other, '/' :: '/' :: rest => readWithAuthority .other scheme rest
  | .other, '/' :: rest => .ok { scheme, path := .segments (readPath .other ('/' :: rest)) }
  | .other, cs => .ok { scheme, path := .rootless (percentEncode isRaw cs) }

def read (s : String) : Except UrlFault Url := do
  match takeScheme? (clean s.toList) with
  | none => throw .relative
  | some (scheme, rest) =>
      let (rest, fragment) := Text.cut '#' rest
      let (rest, query) := Text.cut '?' rest
      return (← readHierarchy scheme rest).withTail query fragment

/-! ## Writing -/

def writeUserInfo (u : Url) : List Char :=
  match u.username, u.password with
  | [], none => []
  | name, none => name ++ ['@']
  | name, some password => name ++ [':'] ++ password ++ ['@']

def writeAuthority (u : Url) : List Char :=
  match u.host with
  | none => []
  | some host =>
      ['/', '/'] ++ u.writeUserInfo ++ host.write ++
        (u.port.elim [] fun p => ':' :: Nat.toDigits 10 p)

/-- The path of a URL. Where there is no host, a path may not look like one. -/
def writePath (u : Url) : List Char :=
  match u.path with
  | .rootless text => text
  | .segments names =>
      (if u.host.isNone ∧ names.head? = some [] ∧ 1 < names.length then ['/', '.'] else []) ++
        names.flatMap ('/' :: ·)

def write (u : Url) : List Char :=
  u.scheme ++ [':'] ++ u.writeAuthority ++ u.writePath ++ u.query.elim [] ('?' :: ·) ++
    u.fragment.elim [] ('#' :: ·)

def text (u : Url) : String := String.ofList u.write

/-! ## Extending a URL -/

def hasPath (u : Url) : Bool :=
  match u.path with
  | .segments _ => true
  | .rootless _ => false

/-- Drop an empty segment at the end of a path, unless it is all there is. -/
def dropEmptyEnd (path : List (List Char)) : List (List Char) :=
  if path.getLast? = some [] ∧ 1 < path.length then path.dropLast else path

/-- Put an encoded segment below a path. The root alone has an empty segment, which is filled. -/
def pushEncoded (path : List (List Char)) (segment : List Char) : List (List Char) :=
  let path := if path = [[]] then [] else path
  if isUpperLevel segment then path.dropLast ++ [[]]
  else if isSameLevel segment then path ++ [[]]
  else path ++ [segment]

/-- Put a segment below a path. A segment that stands for a level is skipped; line breaks and
tabs are dropped from the others. -/
def pushSegment (kind : SchemeKind) (path : List (List Char)) (segment : String) :
    List (List Char) :=
  if segment = "." ∨ segment = ".." then path
  else
    let set := if kind = .other then inSegment else inSpecialSegment
    let raw := segment.toList.filter fun c => c ≠ '\t' ∧ c ≠ '\n' ∧ c ≠ '\r'
    pushEncoded path (percentEncode set raw)

/-- Put segments below the path of a URL. -/
def push (u : Url) (segments : List String) : Url :=
  match u.path with
  | .rootless _ => u
  | .segments path =>
      { u with
        path := .segments
          (segments.foldl (pushSegment (schemeKind u.scheme)) (dropEmptyEnd path)) }

/-- Add parameters to the query of a URL. Without any the query stays as it is. -/
def addQuery (u : Url) (pairs : List (String × String)) : Url :=
  if pairs = [] then u
  else
    let query := appendForm (u.query.getD []) pairs
    { u with query := if query = [] then none else some query }

end Url

end ItemClient.Http
