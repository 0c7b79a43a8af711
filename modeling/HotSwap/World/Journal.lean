/-
The journal of an updater: what it did, entry by entry.

* `Access` — the file accesses that the system may refuse;
* `FileOperation` — the operations on the files of a configuration;
* `Entry` — a request and its answer, the beginning of a file operation, a file
  access and the disk that it left.

Design notes: nothing that the updater does depends on its journal.
-/
import HotSwap.Disk.Basic
import HotSwap.Flow.Request

namespace HotSwap

/-- A file access that the system may refuse. -/
inductive Access where
  | read (path : Path)
  /-- Moving a finished file onto its target. -/
  | replace (source target : Path)
  | remove (path : Path)
  deriving DecidableEq, Repr

/-- An operation on the files of a configuration. -/
inductive FileOperation where
  | backup
  | persist
  | revert
  | cleanup
  deriving DecidableEq, Repr

/-- What a journal notes. -/
inductive Entry where
  /-- A request goes out to the host. -/
  | asked (r : Request)
  /-- The host has answered a request, or a fault came instead. -/
  | answered (r : Request) (answer : Except Fault r.Answer)
  /-- An operation on the files begins. -/
  | began (o : FileOperation)
  /-- An access has ended: with which fault, and the disk it left. -/
  | accessed (a : Access) (failure : Option Fault) (disk : Disk)
  /-- A file or directories were to be made at a path: with which fault that
  ended, and the disk it left. -/
  | made (path : Path) (failure : Option Fault) (disk : Disk)

namespace Entry

/-- The disk that an action on files has left. -/
def disk? : Entry → Option Disk
  | accessed _ _ disk | made _ _ disk => some disk
  | asked _ | answered .. | began _ => none

/-- Whether an action on files has failed. -/
def failed : Entry → Bool
  | accessed _ failure _ | made _ failure _ => failure.isSome
  | asked _ | answered .. | began _ => false

/-- Whether the entry is the beginning of a cleanup. -/
def beginsCleanup : Entry → Bool
  | began .cleanup => true
  | _ => false

end Entry
end HotSwap
