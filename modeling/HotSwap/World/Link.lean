/-
The link between the updater and its host.

Everything that an update cannot decide by itself goes through a link: the
questions to the host, the leave to touch a file, fresh identifiers, the clock.

* `Link` — the link;
* `Link.readFile`, `Link.discardFile`, `Link.moveFile` — file accesses: first the
  leave, then what the disk itself says.
-/
import HotSwap.World.Act

namespace HotSwap

/-- The connection between the updater and its host. -/
structure Link (σ : Type) where
  /-- Asks the host. -/
  ask : (r : Request) → Act σ r.Answer
  /-- Asks for leave to touch a file; the number of the refusal otherwise. -/
  gate : Access → σ → Option Nat × σ
  /-- An identifier that was not given before. -/
  freshId : σ → String × σ
  /-- The time, in microseconds. -/
  now : σ → Int × σ

namespace Link

variable {σ : Type}

/-- Lets the host choose a value. -/
def choose {α : Type} (f : σ → α × σ) : Act σ α := fun w =>
  let (a, host) := f w.host
  (.ok a, { w with host })

/-- A fresh identifier. -/
def newId (link : Link σ) : Act σ String := choose link.freshId

/-- The time, in microseconds. -/
def time (link : Link σ) : Act σ Int := choose link.now

/-! ### File accesses -/

/-- The path that the refusal of an access names. -/
def refusedPath : Access → Path
  | .read path | .remove path => path
  | .replace _ target => target

/-- Raises the refusal of an access, if it is refused. -/
def leave (link : Link σ) (a : Access) : Act σ Unit := do
  match ← choose (link.gate a) with
  | none => return ()
  | some code => Act.raise (.system { code, path := some (toString (refusedPath a)) })

/-- Puts a changed disk in place, or raises the refusal. -/
def applyDisk (refusal : Nat → SystemError) : Except Nat Disk → Act σ Unit
  | .ok disk => Act.change fun w => { w with disk }
  | .error code => Act.raise (.system (refusal code))

/-- Reads a file. -/
def readFile (link : Link σ) (path : Path) : Act σ Bytes :=
  Act.noted (.accessed (.read path)) do
    link.leave (.read path)
    match (← Act.look (·.disk)).read path with
    | .ok content => return content
    | .error code => Act.raise (.system { code, path := some (toString path) })

/-- Removes a file if it is there. -/
def discardFile (link : Link σ) (path : Path) : Act σ Unit :=
  Act.noted (.accessed (.remove path)) do
    link.leave (.remove path)
    match (← Act.look (·.disk)).remove path with
    | .ok disk => Act.change fun w => { w with disk }
    | .error code =>
      if code == SystemError.notFound then return ()
      else Act.raise (.system { code, path := some (toString path) })

/-- Moves a file onto another place, replacing a file there. -/
def moveFile (link : Link σ) (source target : Path) : Act σ Unit :=
  Act.noted (.accessed (.replace source target)) do
    link.leave (.replace source target)
    applyDisk
      (fun code => { code, path := some (toString source), target := some (toString target) })
      ((← Act.look (·.disk)).move source target)

/-- Makes a file with the given content at a path. -/
def makeFile (path : Path) (content : Bytes) : Act σ Unit :=
  Act.noted (.made path) do
    applyDisk (fun code => { code, path := some (toString path) })
      ((← Act.look (·.disk)).fill path content)

/-- Makes a directory and those above it, as far as they are missing. -/
def ensureDirectory (path : Path) : Act σ Unit :=
  Act.noted (.made path) do
    let (disk, refusal) := (← Act.look (·.disk)).makeDirectories path
    Act.change fun w => { w with disk }
    match refusal with
    | none => return ()
    | some e => Act.raise (.system e)

end Link
end HotSwap
