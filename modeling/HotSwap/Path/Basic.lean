/-
Paths as text: parsing, naming and joining, without a file system.

A path is an anchor and a list of parts.  Reading drops empty parts and single
dots and keeps double dots; exactly two leading slashes are an anchor of their
own.

* `Path.ofString`, `Path.toString` — reading and writing;
* `Path.name`, `Path.stem`, `Path.suffix`, `Path.parent` — the final part and
  what is before it;
* `Path.withName` — another final part, refused when it is no single part;
* `Path.join`, `Path.absoluteIn`, `Path.resolvedIn` — placing one path below
  another.
-/
import HotSwap.Text.Quoted

namespace HotSwap

/-- How a path begins. -/
inductive Anchor where
  /-- Relative. -/
  | none
  /-- One slash, or three and more. -/
  | slash
  /-- Exactly two slashes. -/
  | doubleSlash
  deriving DecidableEq, Repr

/-- The text of an anchor. -/
def Anchor.text : Anchor → String
  | .none => ""
  | .slash => "/"
  | .doubleSlash => "//"

/-- A path: an anchor and the parts below it. -/
structure Path where
  anchor : Anchor
  parts : List String
  deriving DecidableEq, Repr

namespace Path

/-- Splits at every slash. -/
def splitSlashes : List Char → List (List Char)
  | [] => [[]]
  | c :: cs =>
    match splitSlashes cs with
    | [] => [[c]]
    | p :: ps => if c == '/' then [] :: p :: ps else (c :: p) :: ps

/-- The parts of a path text: what stands between slashes, empty parts and
single dots left out. -/
def partsOf (cs : List Char) : List String :=
  ((splitSlashes cs).filter fun p => !p.isEmpty && p != ['.']).map String.ofList

/-- The anchor of a path text. -/
def anchorOf : List Char → Anchor
  | '/' :: '/' :: '/' :: _ => .slash
  | '/' :: '/' :: _ => .doubleSlash
  | '/' :: _ => .slash
  | _ => .none

/-- Reads a path. -/
def ofString (s : String) : Path :=
  { anchor := anchorOf s.toList, parts := partsOf s.toList }

/-- The text of a path; an empty relative path is a single dot. -/
protected def toString (p : Path) : String :=
  if p.anchor == .none && p.parts.isEmpty then "."
  else p.anchor.text ++ "/".intercalate p.parts

instance : ToString Path := ⟨Path.toString⟩

/-- Whether the path has an anchor. -/
def isAbsolute (p : Path) : Bool := p.anchor != .none

/-- The final part, or nothing. -/
def name (p : Path) : String := p.parts.getLast?.getD ""

/-- The path without its final part. -/
def parent (p : Path) : Path := { p with parts := p.parts.dropLast }

/-- Splits a final part before its last dot, if that dot is neither its first
nor its last character: stem and suffix. -/
def splitName (name : String) : String × String :=
  let cs := name.toList
  let ending := cs.reverse.takeWhile (· != '.')
  let before := cs.length - ending.length - 1
  if cs.contains '.' && 0 < before && !ending.isEmpty then
    (String.ofList (cs.take before), String.ofList (cs.drop before))
  else (name, "")

/-- The final part without its suffix. -/
def stem (p : Path) : String := (splitName p.name).1

/-- The last extension of the final part, its dot included, or nothing. -/
def suffix (p : Path) : String := (splitName p.name).2

/-- Why a final part cannot be replaced. -/
inductive NameError where
  /-- The path has no final part. -/
  | noName (path : Path)
  /-- The new name is not a single part. -/
  | badName (name : String)
  deriving DecidableEq, Repr

/-- The message of a refused name. -/
def NameError.message : NameError → String
  | .noName path => "PosixPath(" ++ Text.quoted (toString path) ++ ") has an empty name"
  | .badName name => "Invalid name " ++ Text.quoted name

/-- Whether the text is a single part. -/
def isName (name : String) : Bool :=
  let cs := name.toList
  anchorOf cs == .none && cs.getLast? != some '/' && (partsOf cs).length == 1

/-- The path with another final part. -/
def withName (p : Path) (name : String) : Except NameError Path :=
  if p.name == "" then .error (.noName p)
  else if isName name then .ok { p with parts := p.parts.dropLast ++ [name] }
  else .error (.badName name)

/-- The path `q` seen from `p`: itself when absolute, below `p` otherwise. -/
def join (p q : Path) : Path :=
  if q.isAbsolute then q else { p with parts := p.parts ++ q.parts }

/-- The path made absolute below a working directory. -/
def absoluteIn (p directory : Path) : Path := directory.join p

/-- Climbs at every double dot; a double dot at the top is dropped. -/
def climb : (above : List String) → List String → List String
  | above, [] => above.reverse
  | above, p :: ps => if p == ".." then climb above.tail ps else climb (p :: above) ps

/-- The path below a working directory, with its double dots carried out. -/
def resolvedIn (p directory : Path) : Path :=
  { anchor := .slash, parts := climb [] (p.absoluteIn directory).parts }

end Path
end HotSwap
