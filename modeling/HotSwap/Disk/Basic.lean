/-
A disk: directories and files under their routes.

A route is the list of names from the top; the empty route is the top itself,
which is always a directory.  Paths are walked part by part, so that a double
dot climbs from a directory that has to be there.

* `Disk.node?` — what a route leads to;
* `Disk.route` — where a path leads, or the number of the refusal;
* `Disk.read`, `Disk.fill`, `Disk.move`, `Disk.remove`, `Disk.makeDirectory`,
  `Disk.makeDirectories`, `Disk.removeTree` — the accesses;
* `Disk.freshName` — a name that no route ends in.

Design notes: entries are kept as a list with one entry for each route, and
two disks are compared through `node?`.
-/
import HotSwap.Codec.Bytes
import HotSwap.Path.Basic
import HotSwap.Update.SystemError

namespace HotSwap

/-- The names from the top to a place. -/
abbrev Route := List String

/-- What a route leads to. -/
inductive Node where
  | file (content : Bytes)
  | directory
  deriving DecidableEq, Repr

/-- A disk. -/
structure Disk where
  entries : List (Route × Node) := []
  deriving DecidableEq, Repr

namespace Disk

/-! ### Routes -/

/-- What a route leads to. -/
def node? (d : Disk) (r : Route) : Option Node :=
  if r.isEmpty then some .directory
  else (d.entries.find? fun e => e.1 == r).map (·.2)

/-- The entries without a route. -/
def dropRoute (r : Route) (entries : List (Route × Node)) : List (Route × Node) :=
  entries.filter fun e => e.1 != r

/-- The disk with a node at a route. -/
def put (d : Disk) (r : Route) (n : Node) : Disk := { entries := (r, n) :: dropRoute r d.entries }

/-- The disk without what a route leads to. -/
def erase (d : Disk) (r : Route) : Disk := { entries := dropRoute r d.entries }

/-- The disk without everything at or below a route. -/
def eraseBelow (d : Disk) (r : Route) : Disk :=
  { entries := d.entries.filter fun e => !r.isPrefixOf e.1 }

/-- Walks the parts of a path, each of which has to be a directory. -/
def walk (d : Disk) (here : Route) : List String → Except Nat Route
  | [] => .ok here
  | p :: ps =>
    if p == ".." then walk d here.dropLast ps
    else match d.node? (here ++ [p]) with
      | none => .error SystemError.notFound
      | some (.file _) => .error SystemError.notDirectory
      | some .directory => walk d (here ++ [p]) ps

/-- Where a path leads: all parts but the last have to be directories. -/
def route (d : Disk) (p : Path) : Except Nat Route :=
  match p.parts.getLast? with
  | none => .ok []
  | some last => do
    let above ← walk d [] p.parts.dropLast
    if last == ".." then return above.dropLast else return above ++ [last]

/-- Whether a path names its place by climbing, and not by a name. -/
def climbs (p : Path) : Bool := p.name == ".." || p.parts.isEmpty

/-- What a path leads to. -/
def at? (d : Disk) (p : Path) : Except Nat (Option Node) := (d.route p).map d.node?

/-- Whether a path leads to a directory. -/
def isDirectory (d : Disk) (p : Path) : Bool :=
  match d.at? p with
  | .ok (some .directory) => true
  | _ => false

/-- Whether a path leads to a file. -/
def isFile (d : Disk) (p : Path) : Bool :=
  match d.at? p with
  | .ok (some (.file _)) => true
  | _ => false

/-! ### Accesses -/

/-- The content of a file. -/
def read (d : Disk) (p : Path) : Except Nat Bytes := do
  match d.node? (← d.route p) with
  | some (.file content) => return content
  | some .directory => throw SystemError.isDirectory
  | none => throw SystemError.notFound

/-- Gives a file its content, making it when it is not there. -/
def fill (d : Disk) (p : Path) (content : Bytes) : Except Nat Disk := do
  let r ← d.route p
  match d.node? r with
  | some .directory => throw SystemError.isDirectory
  | _ => return d.put r (.file content)

/-- Removes a file. -/
def remove (d : Disk) (p : Path) : Except Nat Disk := do
  let r ← d.route p
  match d.node? r with
  | some (.file _) => return d.erase r
  | some .directory => throw SystemError.isDirectory
  | none => throw SystemError.notFound

/-- Moves a file onto another place, replacing a file there. -/
def move (d : Disk) (source target : Path) : Except Nat Disk := do
  let r ← d.route source
  let q ← d.route target
  if climbs target then throw SystemError.busy
  match d.node? r, d.node? q with
  | some (.file _), some .directory => throw SystemError.isDirectory
  | some (.file content), _ => return (d.erase r).put q (.file content)
  | some .directory, _ => throw SystemError.isDirectory
  | none, _ => throw SystemError.notFound

/-- Makes one directory. -/
def makeDirectory (d : Disk) (p : Path) : Except Nat Disk := do
  let r ← d.route p
  match d.node? r with
  | some _ => throw SystemError.exists_
  | none => return d.put r .directory

/-- Makes one directory unless it is there already. -/
def ensureDirectory (d : Disk) (p : Path) : Except Nat Disk :=
  match d.makeDirectory p with
  | .ok d' => .ok d'
  | .error code => if d.isDirectory p then .ok d else .error code

/-- Makes a directory and those above it that are missing, the parts being
given from the last to the first.  A refusal names the refused path, and what
was made before it stays. -/
def makeUpward (d : Disk) (anchor : Anchor) : List String → Disk × Option SystemError
  | [] => (d, none)
  | last :: above =>
    let p : Path := { anchor, parts := (last :: above).reverse }
    let refuse (d : Disk) (code : Nat) : Disk × Option SystemError :=
      (d, some { code, path := some (toString p) })
    match d.makeDirectory p with
    | .ok d' => (d', none)
    | .error code =>
      if code == SystemError.notFound then
        match makeUpward d anchor above with
        | (d', some e) => (d', some e)
        | (d', none) =>
          match d'.ensureDirectory p with
          | .ok made => (made, none)
          | .error code => refuse d' code
      else if d.isDirectory p then (d, none)
      else refuse d code

/-- Makes a directory and those above it, as far as they are missing. -/
def makeDirectories (d : Disk) (p : Path) : Disk × Option SystemError :=
  d.makeUpward p.anchor p.parts.reverse

/-- Removes a directory with everything in it. -/
def removeTree (d : Disk) (p : Path) : Except Nat Disk := do
  let r ← d.route p
  match d.node? r with
  | some .directory => return d.eraseBelow r
  | some (.file _) => throw SystemError.notDirectory
  | none => throw SystemError.notFound

/-! ### Fresh names -/

/-- The length of the longest name on the disk. -/
def longestName (d : Disk) : Nat :=
  (d.entries.map fun e => (e.1.map String.length).foldr max 0).foldr max 0

/-- A name with the given beginning and end that no place on the disk has, and
that is none of the names in `apart` either. -/
def freshName (d : Disk) (front back : String) (apart : List String := []) : String :=
  let longest := (apart.map String.length).foldr max d.longestName
  front ++ String.ofList (List.replicate (max 8 (longest + 1)) '0') ++ back

/-! ### Listing -/

/-- An entry as a listing shows it: its names between slashes, with a slash
behind a directory. -/
def shown (e : Route × Node) : String :=
  "/".intercalate e.1 ++ (if e.2 == .directory then "/" else "")

/-- Everything below a route, with routes counted from there, in the order in
which a listing shows it. -/
def listing (d : Disk) (top : Route) : List (Route × Node) :=
  let below := d.entries.filterMap fun e =>
    if top.isPrefixOf e.1 && top.length < e.1.length then some (e.1.drop top.length, e.2) else none
  below.mergeSort fun a b => shown a ≤ shown b

end Disk
end HotSwap
