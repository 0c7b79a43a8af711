/-
The four files of a persisted configuration.

The active file holds the configuration that can run; beside it are the raw
configuration as it was received, and a backup copy of each while an update is
under way:

    conf/flow.json.gz           active
    conf/flow.json.gz.backup    its backup
    conf/flow.json.raw          raw
    conf/flow.json.backup.raw   its backup

* `FilePaths.derive` — the four paths, from the active one;
* `FilePaths.encode`, `FilePaths.decode` — what the active file holds for a
  configuration, and back.
-/
import HotSwap.Codec.Gzip
import HotSwap.Path.Basic

namespace HotSwap

/-- The paths of the four files. -/
structure FilePaths where
  active : Path
  backup : Path
  raw : Path
  backupRaw : Path
  deriving DecidableEq, Repr

namespace FilePaths

/-- The extension of compressed files. -/
def compressedSuffix : String := ".gz"

/-- The paths beside an active file: the backup suffix goes behind its whole
name, the extension of raw files in the place of its last extension. -/
def derive (file directory : Path) (backupSuffix rawExtension : String) :
    Except Path.NameError FilePaths := do
  let active := file.absoluteIn directory
  let backup ← active.withName (active.name ++ backupSuffix)
  let raw ← active.withName (active.stem ++ rawExtension)
  let backupRaw ← active.withName (active.stem ++ backupSuffix ++ rawExtension)
  return { active, backup, raw, backupRaw }

/-- The four files. -/
def all (p : FilePaths) : List Path := [p.active, p.backup, p.raw, p.backupRaw]

/-- The two backup files. -/
def backups (p : FilePaths) : List Path := [p.backup, p.backupRaw]

/-- Whether a configuration is stored in compressed form at a path. -/
def storesCompressed (path : Path) : Bool := path.suffix == compressedSuffix

/-- Whether the active file is compressed. -/
def compresses (p : FilePaths) : Bool := storesCompressed p.active

/-- What the active file holds for a configuration. -/
def encode (p : FilePaths) (configuration : Bytes) : Bytes :=
  if p.compresses then Codec.gzip configuration else configuration

/-- The configuration that a file at a path holds. -/
def decodeAt (path : Path) (content : Bytes) : Except Codec.GzipError Bytes :=
  if storesCompressed path then Codec.gunzip content else .ok content

end FilePaths
end HotSwap
