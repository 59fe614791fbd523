import AlertConsole.Number.Digits
import AlertConsole.Text.Percent
import AlertConsole.Text.Split

/-!
# Web addresses

`Url.ofText?` reads an address of the scheme `http` or `https` as browsers do: blanks at the ends and
line breaks do not count, a backslash is a slash, dot segments are resolved, and characters that may
not stand in a path or in a query are percent-encoded. The fragment and the user are dropped.
-/

namespace AlertConsole.Http

open Text (splitWhere)
open Text.Percent (encodeWhere)

inductive Scheme where
  | http
  | https
  deriving DecidableEq

namespace Scheme

def ofName? (name : String) : Option Scheme :=
  if name = "http" then some http else if name = "https" then some https else none

/-- The port of an address that names none. -/
def port : Scheme → Nat
  | http => 80
  | https => 443

end Scheme

structure Url where
  scheme : Scheme
  host : String
  port : Nat
  path : String
  query : Option String
  deriving DecidableEq

namespace Url

/-- What a request names after the method: the path, and the query if there is one. -/
def target (u : Url) : String :=
  u.path ++ u.query.elim "" ("?" ++ ·)

/-! ## Characters -/

/-- A control character or a space. -/
def isControlOrSpace (c : Char) : Bool :=
  c.toNat ≤ 0x20

/-- Tab, line feed and carriage return, which are taken out wherever they stand. -/
def isLineBreak (c : Char) : Bool :=
  c == '\t' || c == '\n' || c == '\r'

def isSlash (c : Char) : Bool :=
  c == '/' || c == '\\'

/-- The bytes that stand for themselves in a path and in a query. -/
def isGraphic (b : UInt8) : Bool :=
  0x21 ≤ b.toNat && b.toNat ≤ 0x7E && b.toNat != 0x22 && b.toNat != 0x3C && b.toNat != 0x3E

def keepInPath (b : UInt8) : Bool :=
  isGraphic b && b.toNat != 0x60 && b.toNat != 0x7B && b.toNat != 0x7D

def keepInQuery (b : UInt8) : Bool :=
  isGraphic b && b.toNat != 0x27

/-! ## Paths -/

/-- A dot, plain or percent-encoded, at the start of `cs`, and what follows it. -/
def afterDot? : List Char → Option (List Char)
  | '.' :: rest => some rest
  | '%' :: '2' :: 'e' :: rest => some rest
  | '%' :: '2' :: 'E' :: rest => some rest
  | _ => none

/-- `.`, the segment itself. -/
def isCurrent (segment : List Char) : Bool :=
  afterDot? segment == some []

/-- `..`, the segment before. -/
def isParent (segment : List Char) : Bool :=
  (afterDot? segment).bind afterDot? == some []

/-- The name of a drive: a letter, and a colon or a bar. -/
def isDrive : List Char → Bool
  | [letter, mark] => letter.isAlpha && (mark == ':' || mark == '|')
  | _ => false

/-- Takes the last segment away, which stands at the head; the name of a drive stays. -/
def shorten : List (List Char) → List (List Char)
  | [] => []
  | segment :: done => if isDrive segment then segment :: done else done

/-- Resolves dot segments; `done` holds the segments before, the last one at its head. A path that
ends in a dot segment ends in a slash. -/
def resolve (done : List (List Char)) : List (List Char) → List (List Char)
  | [] => done.reverse
  | segment :: rest =>
    if isParent segment then
      resolve (if rest = [] then [] :: shorten done else shorten done) rest
    else if isCurrent segment then resolve (if rest = [] then [] :: done else done) rest
    else resolve (segment :: done) rest

/-- The path of an address, from what stands between the authority and the query. -/
def pathOfChars (cs : List Char) : String :=
  let segments := match splitWhere isSlash cs with
    | [] :: rest => rest
    | segments => segments
  let resolved := resolve [] (if segments = [] then [[]] else segments)
  String.join (resolved.map fun segment =>
    "/" ++ String.ofList (encodeWhere keepInPath (String.ofList segment)))

/-! ## Authorities -/

/-- The port; digits above 65535 are none. -/
def portOfChars? (scheme : Scheme) : List Char → Option Nat
  | [] => some scheme.port
  | digits =>
    let n := Number.digitsValue digits
    if digits.all Char.isDigit ∧ n < 65536 then some n else none

/-- What stands after the last `@`, if there is one. -/
def withoutUser (cs : List Char) : List Char :=
  (cs.reverse.takeWhile (· != '@')).reverse

/-- The host, and the colon with what follows it. Colons between brackets belong to the host. -/
def splitHost (cs : List Char) : List Char × List Char :=
  if cs.head? = some '[' then
    let (inside, rest) := cs.span (· != ']')
    let (after, rest) := rest.span (· != ':')
    (inside ++ after, rest)
  else cs.span (· != ':')

/-- Host and port. -/
def authorityOfChars? (scheme : Scheme) (cs : List Char) : Option (String × Nat) :=
  let (host, port) := splitHost (withoutUser cs)
  if host = [] then none
  else (portOfChars? scheme (port.drop 1)).map fun port => ((String.ofList host).toLower, port)

/-! ## Addresses -/

/-- The scheme, and what follows the slashes after it. -/
def splitScheme? (cs : List Char) : Option (Scheme × List Char) :=
  match Text.splitOnce ':' cs with
  | none => none
  | some (name, rest) =>
    (Scheme.ofName? (String.ofList name).toLower).map fun scheme => (scheme, rest.dropWhile isSlash)

/-- Cuts off what follows the first `#`. -/
def withoutFragment (cs : List Char) : List Char :=
  cs.takeWhile (· != '#')

/-- The characters of an address that count. -/
def significant (cs : List Char) : List Char :=
  (((cs.dropWhile isControlOrSpace).reverse.dropWhile isControlOrSpace).reverse).filter
    fun c => !isLineBreak c

def isAuthorityChar (c : Char) : Bool :=
  !isSlash c && c != '?'

def ofChars? (cs : List Char) : Option Url := do
  let (scheme, cs) ← splitScheme? (withoutFragment (significant cs))
  let (host, port) ← authorityOfChars? scheme (cs.takeWhile isAuthorityChar)
  let rest := cs.dropWhile isAuthorityChar
  let query := (Text.splitOnce '?' rest).map fun (_, query) =>
    String.ofList (encodeWhere keepInQuery (String.ofList query))
  pure { scheme, host, port, path := pathOfChars (rest.takeWhile (· != '?')), query }

/-- Reads an address. -/
def ofText? (text : String) : Option Url :=
  ofChars? text.toList

end Url

end AlertConsole.Http
