/-
Settings that refer to environment variables.

A reference is a variable's name between a dollar sign with an opening brace and
a closing brace; behind the name a default may follow a colon and a dash.  The
name is in capital letters, digits and underscores, and begins with no digit.

* `Environment` — the variables that are set;
* `Reference` — a reference, and `Reference.read?` at the front of a text;
* `Environment.expand` — a text with its references replaced, from left to right
  and once: what is put in is not looked at again;
* `Environment.expandTexts` — the same for every text of a tree.
-/
import HotSwap.Data.Basic

namespace HotSwap

/-- The environment variables that are set. -/
abbrev Environment := List (String × String)

/-- The value of a variable. -/
def Environment.value? (env : Environment) (name : String) : Option String :=
  (env.find? fun e => e.1 == name).map (·.2)

/-- A reference to a variable. -/
structure Reference where
  name : List Char
  /-- What stands for the variable when it is not set. -/
  fallback : Option (List Char)
  deriving DecidableEq, Repr

namespace Reference

/-- Whether a character may begin the name of a variable. -/
def isFirst (c : Char) : Bool := c.isUpper || c == '_'

/-- Whether a character may stand in the name of a variable. -/
def isInner (c : Char) : Bool := isFirst c || c.isDigit

/-- A reference as it is written. -/
def text (r : Reference) : List Char :=
  '$' :: '\x7b' :: r.name
    ++ (match r.fallback with
      | none => []
      | some d => ':' :: '-' :: d)
    ++ ['\x7d']

/-- Reads what follows the name: a default, and the closing brace. -/
def readFallback? : List Char → Option (Option (List Char))
  | '\x7d' :: _ => some none
  | ':' :: '-' :: cs =>
    let d := cs.takeWhile (· != '\x7d')
    if d.length < cs.length then some (some d) else none
  | _ => none

/-- Reads a reference at the front of a text. -/
def read? : List Char → Option Reference
  | '$' :: '\x7b' :: cs =>
    let name := cs.takeWhile isInner
    if (name.head?.map isFirst).getD false then
      (readFallback? (cs.drop name.length)).map fun fallback => { name, fallback }
    else none
  | _ => none

/-- What stands for a reference: the value of its variable, its default, or the
reference itself. -/
def value (env : Environment) (r : Reference) : List Char :=
  match env.value? (String.ofList r.name) with
  | some v => v.toList
  | none => r.fallback.getD r.text

end Reference

namespace Environment

/-- The characters of a text with its references replaced. -/
def expandChars (env : Environment) (cs : List Char) : List Char :=
  match cs with
  | [] => []
  | c :: rest =>
    match Reference.read? (c :: rest) with
    | some r => r.value env ++ expandChars env (rest.drop (r.text.length - 1))
    | none => c :: expandChars env rest
termination_by cs.length
decreasing_by all_goals simp only [List.length_drop, List.length_cons]; omega

/-- A text with its references replaced. -/
def expand (env : Environment) (s : String) : String := String.ofList (env.expandChars s.toList)

/-- A tree with the references in its texts replaced. -/
def expandTexts (env : Environment) (d : Data) : Data := d.mapTexts env.expand

end Environment
end HotSwap
