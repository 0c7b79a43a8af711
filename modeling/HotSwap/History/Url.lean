/-
Addresses of stores.

An address is a driver, two slashes, and then user, host, its number, place and query,
all of which may be missing.

* `Url.ofString` — reads an address;
* `UrlError` — why a text is none.
-/
import HotSwap.Text.Quoted
import HotSwap.Text.Word

namespace HotSwap

/-- What matters of the address of a store. -/
structure Url where
  driver : String
  /-- The place of the store, if one is given. -/
  place : Option String
  deriving DecidableEq, Repr

/-- Why a text is no address. -/
inductive UrlError where
  | shapeless
  /-- What should be the number of the host is none. -/
  | noNumber (given : String)
  deriving DecidableEq, Repr

/-- The name of the kind of the error. -/
def UrlError.kind : UrlError → String
  | shapeless => "ArgumentError"
  | noNumber _ => "ValueError"

/-- The message of the error. -/
def UrlError.message : UrlError → String
  | shapeless => "Could not parse SQLAlchemy URL from given URL string"
  | noNumber given => "invalid literal for int() with base 10: " ++ Text.quoted given

namespace Url

/-- Whether a character may stand in the name of a driver. -/
def isDriverChar (c : Char) : Bool := Text.isAlphanumeric c || c == '_' || c == '+'

/-- What is behind the user and the password, which end with an at sign. -/
def dropUser (cs : List Char) : List Char :=
  let user := cs.takeWhile fun c => c != ':' && c != '/'
  let after := cs.drop user.length
  if after.head? == some ':' && after.contains '@' then (after.dropWhile (· != '@')).drop 1
  else if user.contains '@' then
    (user.reverse.takeWhile (· != '@')).reverse ++ after
  else cs

/-- What is behind the host. -/
def dropHost (cs : List Char) : List Char :=
  let outside (c : Char) : Bool := c != '/' && c != '?'
  let inner := (cs.drop 1).takeWhile outside
  -- a host in brackets ends with the last bracket before a slash
  let bracketed := (inner.reverse.dropWhile (· != ']')).length
  if cs.head? == some '[' && bracketed ≥ 2 then cs.drop (1 + bracketed)
  else cs.dropWhile fun c => outside c && c != ':'

/-- Whether a text reads as an integer: digits of any script with single
underscores between them, a sign before them, blanks around. -/
def isInteger (cs : List Char) : Bool :=
  let cs := Text.strip Text.isSeparating cs
  let digits :=
    match cs with
    | '+' :: rest => rest
    | '-' :: rest => rest
    | _ => cs
  go false digits
where
  /-- Whether the rest goes on behind a digit, or behind none. -/
  go (digitBefore : Bool) : List Char → Bool
    | [] => digitBefore
    | c :: rest =>
      if (Text.digitValue? c).isSome then go true rest
      else c == '_' && digitBefore && go false rest

/-- Reads an address. -/
def ofString (s : String) : Except UrlError Url :=
  let cs := s.toList
  let driver := cs.takeWhile isDriverChar
  match cs.drop driver.length with
  | ':' :: '/' :: '/' :: rest =>
    if driver.isEmpty then .error .shapeless
    else
      let rest := dropHost (dropUser rest)
      let (number, rest) :=
        match rest with
        | ':' :: more =>
          let number := more.takeWhile fun c => c != '/' && c != '?'
          (some number, more.drop number.length)
        | _ => (none, rest)
      let place :=
        match rest with
        | '/' :: more => some (String.ofList (more.takeWhile (· != '?')))
        | _ => none
      match number with
      | none => .ok { driver := String.ofList driver, place }
      | some number =>
        if isInteger number then .ok { driver := String.ofList driver, place }
        else .error (.noNumber (String.ofList number))
  | _ => .error .shapeless

/-- Whether the address is that of a store in a file or in memory. -/
def isLocal (u : Url) : Bool := "sqlite".toList.isPrefixOf u.driver.toList

/-- The file of the store, if it is in one. -/
def file? (u : Url) : Option String :=
  match u.place with
  | none => none
  | some place => if place == "" || place == ":memory:" then none else some place

/-- Whether a driver is known. -/
def isKnown (u : Url) : Bool := u.driver == "sqlite" || u.driver == "sqlite+pysqlite"

end Url
end HotSwap
