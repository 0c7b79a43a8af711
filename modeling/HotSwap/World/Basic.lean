/-
What an update can see and change.

* `Desk` — the state of the updater itself: whether an attempt is running, its
  phase, its cancellation token, the candidates that wait;
* `Bookkeeping` — what the running attempt has backed up;
* `World` — the desk, the books, the disk, the log, the journal with the phases in
  which it was written, and the state of the host in which the updater is embedded.

Design notes: the state of the host has a type of its own, chosen by the host;
no rule of the updater looks into it.
-/
import HotSwap.Log.Record
import HotSwap.World.Journal

namespace HotSwap

/-- What the running attempt has backed up. -/
structure Bookkeeping where
  /-- The active files of which there is a backup copy. -/
  copied : List Path := []
  /-- Whether there was no raw file to back up; unknown before that is known. -/
  rawWasAbsent : Option Bool := none
  deriving DecidableEq, Repr

/-- The state of the updater itself. -/
structure Desk where
  /-- Whether an attempt is running. -/
  engaged : Bool := false
  /-- The phase of the running attempt. -/
  phase : Phase := .idle
  /-- The cancellation token, and whether it has been cancelled. -/
  token : Option Bool := none
  /-- How often the running drain has asked whether work is queued. -/
  queuePolls : Nat := 0
  /-- What the drain of the running attempt did. -/
  drained : Option DrainReport := none
  /-- Submitted candidates that wait for the worker, the oldest first. -/
  waiting : List Bytes := []
  deriving DecidableEq, Repr

/-- Whether the loops that listen to the token have been told to stop. -/
def Desk.cancelled (d : Desk) : Bool := d.token == some true

/-- Everything that an update can see and change. -/
structure World (σ : Type) where
  desk : Desk := {}
  books : Bookkeeping := {}
  disk : Disk := {}
  log : Array Record := #[]
  /-- What was done so far, the oldest entry first. -/
  journal : List Entry := []
  /-- The phase of the updater at each entry of the journal. -/
  phases : List Phase := []
  host : σ

/-- The world with one more entry in the journal. -/
def World.enter {σ : Type} (w : World σ) (e : Entry) : World σ :=
  { w with journal := w.journal ++ [e], phases := w.phases ++ [w.desk.phase] }

/-- What was done between two worlds of one run. -/
def World.since {σ : Type} (before after : World σ) : List Entry :=
  after.journal.drop before.journal.length

end HotSwap
