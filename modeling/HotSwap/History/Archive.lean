/-
Histories by the addresses of their stores.

A store in a file outlives the history that it was opened for: who opens the file
again finds its rows.  A store in memory is a new one each time.

* `Place` — where a store is;
* `Archive` — the disk, the stores in its files, and the history that is open;
* `Archive.openMemory`, `Archive.openUrl`, `Archive.openSettings` — opening one;
* `Archive.keep`, `Archive.tryInsert`, `Archive.close` — what changes it.
-/
import HotSwap.Disk.Basic
import HotSwap.History.Store
import HotSwap.Settings.Schema

namespace HotSwap

/-- Where a store is. -/
inductive Place where
  | memory
  | file (path : Path)
  deriving DecidableEq, Repr

/-- The disk, the stores in its files, and the history that is open. -/
structure Archive where
  disk : Disk
  /-- The directory from which relative places are seen. -/
  directory : Path
  stores : List (Path × Store) := []
  place : Place := .memory
  /-- The address under which the history was opened. -/
  url : String := ""
  history : History := { store := none }

namespace Archive

/-- The address of a store in memory. -/
def memoryUrl : String := "sqlite:///:memory:"

/-- The store in a file; an empty one where there is none yet. -/
def storeAt (a : Archive) (path : Path) : Store :=
  ((a.stores.find? fun e => e.1 == path).map (·.2)).getD {}

/-- The stores with another one in the place of that of a file. -/
def setStore (a : Archive) (path : Path) (s : Store) : Archive :=
  { a with stores := (path, s) :: a.stores.filter (·.1 != path) }

/-- Opens a store in memory. -/
def openMemory (a : Archive) : Archive :=
  { a with place := .memory, url := memoryUrl, history := {} }

/-- The fault of an address whose driver there is none for. -/
def unknownDriver (driver : String) : Fault :=
  .raised "NoSuchModuleError"
    ("Can't load plugin: sqlalchemy.dialects:" ++ driver.replace "+" ".")

/-- Opens the store in a file, which is made when it is not there. -/
def openFile (a : Archive) (url : String) (path : Path) : Except Fault Unit × Archive :=
  let place := path.absoluteIn a.directory
  let content := (a.disk.read place).toOption.getD []
  match a.disk.fill place content with
  | .error _ => (.error (.raised "OperationalError" "unable to open database file"), a)
  | .ok disk =>
    let place := path.resolvedIn a.directory
    (.ok (),
      { a with disk, place := .file place, url, history := { store := some (a.storeAt place) } })

/-- Opens the store of an address; the directories above a file are made first. -/
def openUrl (a : Archive) (url : String) : Except Fault Unit × Archive :=
  match Url.ofString url with
  | .error e => (.error (.raised e.kind e.message), a)
  | .ok u =>
    let file := if u.isLocal then u.file?.map Path.ofString else none
    let (a, refusal) :=
      match file with
      | none => (a, none)
      | some path =>
        let (disk, refusal) := a.disk.makeDirectories (path.parent.absoluteIn a.directory)
        ({ a with disk }, refusal)
    match refusal with
    | some e => (.error (.system e), a)
    | none =>
      if !u.isKnown then (.error (unknownDriver u.driver), a)
      else match file with
        | some path => a.openFile url path
        | none => (.ok (), { a with place := .memory, url, history := {} })

/-- Opens the history of some settings: whether there is one. -/
def openSettings (a : Archive) (s : HistorySettings) : Except Fault Bool × Archive :=
  if !s.enabled then (.ok false, a)
  else
    let (r, a) := a.openUrl s.url
    (r.map fun _ => true, a)

/-- Keeps the report of an attempt; a store in a file keeps it for those who open
the file again. -/
def keep (a : Archive) (r : UpdateReport) : Except HistoryError Archive := do
  let history ← a.history.keep r
  let a := { a with history }
  match a.place, history.store with
  | .file path, some s => return a.setStore path s
  | _, _ => return a

/-- Puts a report into a store that is given up again before it is kept. -/
def tryInsert (a : Archive) (r : UpdateReport) : Except HistoryError Unit :=
  (a.history.keep r).map fun _ => ()

/-- Closes the history. -/
def close (a : Archive) : Archive := { a with history := a.history.close }

/-- Whether there is something at a path. -/
def holds (a : Archive) (path : Path) : Bool :=
  match a.disk.at? (path.absoluteIn a.directory) with
  | .ok (some _) => true
  | _ => false

end Archive
end HotSwap
