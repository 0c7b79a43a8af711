/-
Backing up, replacing and restoring the files of a configuration.

* `writeAtomically` — gives a file a new content through a temporary file that
  is moved onto it, so that a stop halfway leaves the old content;
* `FileSet.backup` — copies both active files, after removing what an earlier
  attempt left behind;
* `FileSet.persist` — replaces both active files;
* `FileSet.revert` — restores what this attempt backed up, and nothing else;
* `FileSet.cleanup` — removes both backups;
* `FileSet.transaction` — a scope that ends with the cleanup.
-/
import HotSwap.Configuration.FilePaths
import HotSwap.World.Link

namespace HotSwap

variable {σ : Type}

/-! ### One file -/

/-- A place for a temporary file beside a target.  The system draws its name at
random among those that are not in use; the files in `apart`, there or not, are
never hit. -/
def temporaryFor (disk : Disk) (target : Path) (apart : List Path := []) : Path :=
  let directory := target.parent
  { directory with
    parts := Path.climb [] directory.parts
      ++ [disk.freshName ("." ++ target.name ++ ".") ".tmp" (apart.map Path.name)] }

/-- Gives the target a new content by moving a finished temporary file onto it;
the temporary file never stays. -/
def writeAtomically (link : Link σ) (target : Path) (content : Bytes)
    (apart : List Path := []) : Act σ Unit := do
  Link.ensureDirectory target.parent
  let temporary := temporaryFor (← Act.look (·.disk)) target apart
  Link.makeFile temporary content
  match ← (link.moveFile temporary target).outcome with
  | .ok () => return ()
  | .error e =>
    link.discardFile temporary
    Act.raise e

/-! ### The files of a configuration -/

namespace FileSet

/-- Writes a log record about files. -/
def say (level : Level) (event : String) (fields : List (String × Data)) : Act σ Unit :=
  Act.say "flowswap.core.files" level event fields

/-- A path as a log field. -/
def pathField (key : String) (path : Path) : String × Data := (key, .text (toString path))

/-- Whether a refusal came; a refusal is logged. -/
def removeLogged (link : Link σ) (path : Path) : Act σ Bool := do
  match ← (link.discardFile path).rescue with
  | .ok () => return true
  | .error e =>
    say .error "Unable to remove file" [pathField "path" path, ("error", .text e.message)]
    return false

/-- An act on files whose refusals become faults of this library. -/
def explained {α : Type} (problem : FileProblem) (path : Path) (a : Act σ α) : Act σ α := do
  match ← a.rescue with
  | .ok x => return x
  | .error _ => Act.raise (.configFile problem path)

/-- Removes backups that an earlier attempt left behind. -/
def removeStale (link : Link σ) : List Path → Act σ Unit
  | [] => return ()
  | path :: rest => do
    if ← removeLogged link path then removeStale link rest
    else Act.raise (.configFile .staleBackup path)

/-- Notes that an active file has a backup copy. -/
def noteCopied (path : Path) : Act σ Unit :=
  Act.changeBooks fun b => { b with copied := path :: b.copied }

/-- Copies an active file to its backup. -/
def copy (link : Link σ) (p : FilePaths) (unreadable : FileProblem) (active backup : Path) :
    Act σ Unit := do
  let content ← explained unreadable active (link.readFile active)
  explained .backupCopy backup (writeAtomically link backup content p.all)
  noteCopied active

/-- Copies the raw file to its backup, if there is one. -/
def backupRaw (link : Link σ) (p : FilePaths) : Act σ Unit := do
  if (← Act.look (·.disk)).isFile p.raw then
    copy link p .unreadableRaw p.raw p.backupRaw
    Act.changeBooks fun b => { b with rawWasAbsent := some false }
  else
    say .warning "Raw flow configuration does not exist, no backup copy will be created"
      [pathField "path" p.raw]
    Act.changeBooks fun b => { b with rawWasAbsent := some true }

/-- Copies both active files to their backups.  Backups that are there already
are removed first, so that a restore brings back only what was copied here. -/
def backup (link : Link σ) (p : FilePaths) : Act σ Unit := do
  Act.enter (.began .backup)
  Act.changeBooks fun _ => {}
  removeStale link p.backups
  copy link p .unreadableActive p.active p.backup
  backupRaw link p
  say .debug "Backed up flow configuration" [pathField "backup" p.backup]

/-- Replaces both active files. -/
def persist (link : Link σ) (p : FilePaths) (rendered raw : Bytes) : Act σ Unit := do
  Act.enter (.began .persist)
  explained .persist p.active (writeAtomically link p.active (p.encode rendered) p.all)
  explained .persist p.raw (writeAtomically link p.raw raw p.all)
  say .debug "Persisted flow configuration"
    [pathField "path" p.active, ("rendered_bytes", .int rendered.length),
      ("raw_bytes", .int raw.length), ("compressed", .bool p.compresses)]

/-- Restores an active file from its backup; whether it now has the content it
had before. -/
def restore (link : Link σ) (p : FilePaths) (active backup : Path) : Act σ Bool := do
  let books ← Act.books
  if books.copied.contains active then
    match ← (do writeAtomically link active (← link.readFile backup) p.all : Act σ Unit).rescue with
    | .ok () => return true
    | .error e =>
      say .error "Unable to revert flow configuration"
        [pathField "path" active, ("error", .text e.message)]
      return false
  else if active == p.raw && books.rawWasAbsent == some true then removeLogged link active
  else
    say .info "No backup taken for flow configuration file, leaving it as is"
      [pathField "path" active]
    return true

/-- Restores both active files; whether both now have the content they had
before.  A failed restore does not keep the other one from being tried. -/
def revert (link : Link σ) (p : FilePaths) : Act σ Bool := do
  Act.enter (.began .revert)
  let active ← restore link p p.active p.backup
  let raw ← restore link p p.raw p.backupRaw
  return active && raw

/-- Removes both backups and forgets that they were taken. -/
def cleanup (link : Link σ) (p : FilePaths) : Act σ Unit := do
  Act.enter (.began .cleanup)
  let _ ← removeLogged link p.backup
  let _ ← removeLogged link p.backupRaw
  Act.changeBooks fun _ => {}

/-- A scope that ends with the cleanup, whichever way it ends. -/
def transaction {α : Type} (link : Link σ) (p : FilePaths) (body : Act σ α) : Act σ α :=
  body.ensuring (cleanup link p)

end FileSet
end HotSwap
