/-
What can be wrong with settings.

* `Complaint` — what is wrong with one value, with its code and message;
* `Problem` — a complaint and the place of the value;
* `Checked` — a value, or all problems that were found on the way to it.
-/
import HotSwap.History.Url

namespace HotSwap

/-- What is wrong with one value. -/
inductive Complaint where
  | missing
  | noMapping (model : String)
  | noInteger
  | integerText
  | integerFraction
  | integerSize
  | notFinite
  | noNumber
  | numberText
  | noFlag
  | flagValue
  | noText
  | noPath
  /-- None of the texts that are allowed. -/
  | noneOf (allowed : List String)
  /-- Below the least value. -/
  | below (least : Nat)
  /-- Not above the bound. -/
  | notAbove (bound : Nat)
  | extension (given : String)
  | url (e : UrlError)
  /-- The settings cannot be changed. -/
  | frozen
  deriving DecidableEq, Repr

namespace Complaint

/-- Texts in quotes, the last one behind the word for a choice. -/
def choice (allowed : List String) : String :=
  let quotes := allowed.map fun s => "'" ++ s ++ "'"
  match quotes.getLast? with
  | none => ""
  | some last =>
    if quotes.length ≤ 1 then last else ", ".intercalate quotes.dropLast ++ " or " ++ last

/-- The code of a complaint. -/
def code : Complaint → String
  | missing => "missing"
  | noMapping _ => "model_type"
  | noInteger => "int_type"
  | integerText => "int_parsing"
  | integerFraction => "int_from_float"
  | integerSize => "int_parsing_size"
  | notFinite => "finite_number"
  | noNumber => "float_type"
  | numberText => "float_parsing"
  | noFlag => "bool_type"
  | flagValue => "bool_parsing"
  | noText => "string_type"
  | noPath => "path_type"
  | noneOf _ => "literal_error"
  | below _ => "greater_than_equal"
  | notAbove _ => "greater_than"
  | extension _ | url _ => "value_error"
  | frozen => "frozen_instance"

/-- The message of a complaint. -/
def message : Complaint → String
  | missing => "Field required"
  | noMapping model => "Input should be a valid dictionary or instance of " ++ model
  | noInteger => "Input should be a valid integer"
  | integerText => "Input should be a valid integer, unable to parse string as an integer"
  | integerFraction => "Input should be a valid integer, got a number with a fractional part"
  | integerSize => "Unable to parse input string as an integer, exceeded maximum size"
  | notFinite => "Input should be a finite number"
  | noNumber => "Input should be a valid number"
  | numberText => "Input should be a valid number, unable to parse string as a number"
  | noFlag => "Input should be a valid boolean"
  | flagValue => "Input should be a valid boolean, unable to interpret input"
  | noText => "Input should be a valid string"
  | noPath => "Input is not a valid path for <class 'pathlib.Path'>"
  | noneOf allowed => "Input should be " ++ choice allowed
  | below least => "Input should be greater than or equal to " ++ toString least
  | notAbove bound => "Input should be greater than " ++ toString bound
  | extension given =>
    "Value error, must be a file extension starting with '.', got " ++ Text.quoted given
  | url e => "Value error, Invalid database URL: " ++ e.message
  | frozen => "Instance is frozen"

end Complaint

/-- A complaint and the keys that lead to the value. -/
structure Problem where
  place : List String
  complaint : Complaint
  deriving DecidableEq, Repr

/-- A value, or all problems on the way to it. -/
inductive Checked (α : Type) where
  | good (value : α)
  | bad (problems : List Problem)

namespace Checked

variable {α β : Type}

/-- Applies a function, collecting the problems of both sides. -/
def apply : Checked (α → β) → Checked α → Checked β
  | good f, good a => good (f a)
  | good _, bad ps => bad ps
  | bad ps, good _ => bad ps
  | bad ps, bad qs => bad (ps ++ qs)

instance : Applicative Checked where
  pure := good
  seq f a := apply f (a ())

/-- The same problems, seen from one level further up. -/
def below (key : String) : Checked α → Checked α
  | good a => good a
  | bad ps => bad (ps.map fun p => { p with place := key :: p.place })

/-- A value with one complaint about it, if there is one. -/
def ofExcept (key : String) : Except Complaint α → Checked α
  | .ok a => good a
  | .error complaint => bad [{ place := [key], complaint }]

end Checked
end HotSwap
