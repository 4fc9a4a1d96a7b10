import RolloutWatch.Number.Decimal
import RolloutWatch.Web.Form

/-!
Addresses of telemetry backends. The reader follows the common standard for addresses of
the web: surrounding controls and spaces go, line breaks and tabs go, dots in the path are
resolved, and what may not stand in a path or a query is percent-encoded.
-/

namespace RolloutWatch

structure Url where
  scheme : List Char
  host : List Char
  port : Option Nat
  path : List (List Char)
  query : Option (List Char)
  fragment : Option (List Char)
  deriving DecidableEq

namespace Url

def isControlOrSpace (c : Char) : Bool :=
  c.toNat ≤ 0x20

def cleaned (text : List Char) : List Char :=
  let front := text.dropWhile isControlOrSpace
  let both := (front.reverse.dropWhile isControlOrSpace).reverse
  both.filter fun c => c ≠ '\t' && c ≠ '\n' && c ≠ '\r'

def isLetter (c : Char) : Bool :=
  ('a' ≤ c && c ≤ 'z') || ('A' ≤ c && c ≤ 'Z')

def isSchemeChar (c : Char) : Bool :=
  isLetter c || Digits.isDigit c || c = '+' || c = '-' || c = '.'

def scheme? (text : List Char) : Option (List Char × List Char) :=
  let name := text.takeWhile isSchemeChar
  match name, text.drop name.length with
  | first :: _, ':' :: rest =>
      if isLetter first then some (name.map Binary64.lower, rest) else none
  | _, _ => none

def webPort? (scheme : List Char) : Option Nat :=
  if scheme = "http".toList then some 80
  else if scheme = "https".toList then some 443
  else none

def isSlash (c : Char) : Bool :=
  c = '/' || c = '\\'

def isForbiddenInHost (c : Char) : Bool :=
  c.toNat ≤ 0x20 || c.toNat = 0x7F || "#%/:<>?@[\\]^|".toList.contains c

def encodeWith (keep : Nat → Bool) (text : List Char) : List Char :=
  (Utf8.encode text).flatMap fun b =>
    if keep b.toNat then [Char.ofNat b.toNat] else Form.percent b.toNat

def staysInPath (n : Nat) : Bool :=
  0x20 < n && n < 0x7F && !([0x22, 0x23, 0x3C, 0x3E, 0x3F, 0x60, 0x7B, 0x7D].contains n)

def staysInQuery (n : Nat) : Bool :=
  0x20 < n && n < 0x7F && !([0x22, 0x23, 0x27, 0x3C, 0x3E].contains n)

def staysInFragment (n : Nat) : Bool :=
  0x20 < n && n < 0x7F && !([0x22, 0x3C, 0x3E, 0x60].contains n)

/-- The name or the number of a host, in lower case. This is less than what the standard says:
a percent-encoded name is refused and not decoded, a number such as `127.1` or `[::00]` is
neither checked nor shortened, and a name outside ASCII is left as it stands and not turned
into its ASCII form. -/
def host? (text : List Char) : Option (List Char) :=
  match text with
  | '[' :: rest =>
      match rest.reverse with
      | ']' :: inner =>
          if inner ≠ [] ∧ inner.all fun c =>
            (Hex.value? c).isSome || c = ':' || c = '.' then some (text.map Binary64.lower)
          else none
      | _ => none
  | _ =>
      if text = [] ∨ text.any isForbiddenInHost then none
      else some (text.map Binary64.lower)

/-- A port that is not the standard one of the scheme. -/
def port? (standard : Nat) (digits : List Char) : Option (Option Nat) :=
  if digits = [] then some none
  else if digits.all Digits.isDigit then
    let n := Digits.toNat digits
    if 65535 < n then none else if n = standard then some none else some (some n)
  else none

/-- Splits a host from its port at the last colon outside brackets. -/
def splitPort (authority : List Char) : List Char × List Char :=
  let digits := (authority.reverse.takeWhile fun c => c ≠ ':' && c ≠ ']').reverse
  let front := authority.take (authority.length - digits.length)
  match front.reverse with
  | ':' :: host => (host.reverse, digits)
  | _ => (authority, [])

def withoutUser (authority : List Char) : List Char :=
  if authority.contains '@' then (authority.reverse.takeWhile (· ≠ '@')).reverse
  else authority

def isSingleDot (segment : List Char) : Bool :=
  let s := segment.map Binary64.lower
  s = ['.'] || s = "%2e".toList

def isDoubleDot (segment : List Char) : Bool :=
  let s := segment.map Binary64.lower
  s = ['.', '.'] || s = ".%2e".toList || s = "%2e.".toList || s = "%2e%2e".toList

def splitSlashes : List Char → List (List Char)
  | [] => [[]]
  | c :: rest =>
      if isSlash c then [] :: splitSlashes rest
      else
        match splitSlashes rest with
        | [] => [[c]]
        | first :: more => (c :: first) :: more

/-- The segments of a path after resolving dots; the segments so far are in reverse. -/
def resolve : List (List Char) → List (List Char) → List (List Char)
  | before, [] => before.reverse
  | before, [last] =>
      if isDoubleDot last then ([] :: before.drop 1).reverse
      else if isSingleDot last then ([] :: before).reverse
      else (encodeWith staysInPath last :: before).reverse
  | before, segment :: rest =>
      if isDoubleDot segment then resolve (before.drop 1) rest
      else if isSingleDot segment then resolve before rest
      else resolve (encodeWith staysInPath segment :: before) rest

def cut (mark : Char) (text : List Char) : List Char × Option (List Char) :=
  let front := text.takeWhile (· ≠ mark)
  if front.length < text.length then (front, some (text.drop (front.length + 1)))
  else (text, none)

def ofText? (text : List Char) : Option Url := do
  let (scheme, rest) ← scheme? (cleaned text)
  let standard ← webPort? scheme
  let rest := rest.dropWhile isSlash
  let (rest, fragment) := cut '#' rest
  let (rest, query) := cut '?' rest
  let authority := rest.takeWhile fun c => !isSlash c
  let (hostText, portText) := splitPort (withoutUser authority)
  let host ← host? hostText
  let port ← port? standard portText
  let path := match rest.drop authority.length with
    | [] => [[]]
    | _ :: more => resolve [] (splitSlashes more)
  pure
    { scheme, host, port, path
      query := query.map (encodeWith staysInQuery)
      fragment := fragment.map (encodeWith staysInFragment) }

def withParameter (u : Url) (name value : String) : Url :=
  let item := Form.encode name ++ '=' :: Form.encode value
  { u with
    query := match u.query with
      | none => some item
      | some [] => some item
      | some before => some (before ++ '&' :: item) }

def pathText (u : Url) : List Char :=
  u.path.flatMap fun segment => '/' :: segment

def target (u : Url) : List Char :=
  u.pathText ++ match u.query with
    | none => []
    | some query => '?' :: query

def chars (u : Url) : List Char :=
  u.scheme ++ ':' :: '/' :: '/' :: u.host
    ++ (match u.port with
      | none => []
      | some n => ':' :: Digits.ofNat n)
    ++ u.target
    ++ match u.fragment with
      | none => []
      | some fragment => '#' :: fragment

end Url

end RolloutWatch
