/-
Acts: what the updater does, step by step.

An act changes the world and ends with a value or a fault; a fault keeps the
world as it was when it was raised.

* `Act` — the type, with sequencing;
* `Act.outcome`, `Act.guarded`, `Act.rescue` — acts that catch every fault,
  every ordinary fault, every refusal of the system;
* `Act.ensuring` — an act followed by another, whichever way it ends;
* `Act.enter`, `Act.noted`, `Act.exchange` — acts that leave an entry in the
  journal.
-/
import HotSwap.World.Basic

namespace HotSwap

/-- A step that changes the world and ends with a value or a fault. -/
def Act (σ α : Type) : Type := World σ → Except Fault α × World σ

namespace Act

variable {σ α β : Type}

/-- The end of an act and the world it leaves. -/
def run (a : Act σ α) (w : World σ) : Except Fault α × World σ := a w

/-- Continues an act with what follows its value. -/
def next (a : Act σ α) (f : α → Act σ β) : Act σ β := fun w =>
  match a w with
  | (.ok x, w') => f x w'
  | (.error e, w') => (.error e, w')

instance : Monad (Act σ) where
  pure x := fun w => (.ok x, w)
  bind := next

/-- Raises a fault. -/
def raise (e : Fault) : Act σ α := fun w => (.error e, w)

/-- Ends as a given outcome. -/
def ofExcept (r : Except Fault α) : Act σ α := fun w => (r, w)

/-- Reads from the world. -/
def look (f : World σ → α) : Act σ α := fun w => (.ok (f w), w)

/-- Changes the world. -/
def change (f : World σ → World σ) : Act σ Unit := fun w => (.ok (), f w)

/-- The act with every fault caught. -/
def outcome (a : Act σ α) : Act σ (Except Fault α) := fun w =>
  let (r, w') := a w
  (.ok r, w')

/-- The act with every ordinary fault caught; the others pass. -/
def guarded (a : Act σ α) : Act σ (Except Fault α) := fun w =>
  match a w with
  | (.ok x, w') => (.ok (.ok x), w')
  | (.error e, w') => if e.interrupts then (.error e, w') else (.ok (.error e), w')

/-- The act with refusals of the system caught; other faults pass. -/
def rescue (a : Act σ α) : Act σ (Except SystemError α) := fun w =>
  match a w with
  | (.ok x, w') => (.ok (.ok x), w')
  | (.error (.system e), w') => (.ok (.error e), w')
  | (.error e, w') => (.error e, w')

/-- The act followed by another whichever way it ends; a fault of the second
one takes the place of the end of the first. -/
def ensuring (a : Act σ α) (after : Act σ Unit) : Act σ α := fun w =>
  let (r, w') := a w
  match after w' with
  | (.ok _, w'') => (r, w'')
  | (.error e, w'') => (.error e, w'')

/-! ### Parts of the world -/

/-- Reads the state of the updater. -/
def desk : Act σ Desk := look (·.desk)

/-- Changes the state of the updater. -/
def changeDesk (f : Desk → Desk) : Act σ Unit := change fun w => { w with desk := f w.desk }

/-- Reads the books of the running attempt. -/
def books : Act σ Bookkeeping := look (·.books)

/-- Changes the books of the running attempt. -/
def changeBooks (f : Bookkeeping → Bookkeeping) : Act σ Unit :=
  change fun w => { w with books := f w.books }

/-- Writes a log record. -/
def record (r : Record) : Act σ Unit := change fun w => { w with log := w.log.push r }

/-- Writes a log record from its parts. -/
def say (logger : String) (level : Level) (event : String) (fields : List (String × Data)) :
    Act σ Unit :=
  record { level, logger, event, fields }

/-! ### The journal -/

/-- Makes an entry. -/
def enter (e : Entry) : Act σ Unit := change (·.enter e)

/-- An act on files with an entry about its end. -/
def noted (entry : Option Fault → Disk → Entry) (a : Act σ α) : Act σ α := fun w =>
  match a w with
  | (.ok x, w') => (.ok x, w'.enter (entry none w'.disk))
  | (.error e, w') => (.error e, w'.enter (entry (some e) w'.disk))

/-- A request and the way to its answer, with an entry about each. -/
def exchange (r : Request) (a : Act σ r.Answer) : Act σ r.Answer := fun w =>
  let (answer, w') := a (w.enter (.asked r))
  (answer, w'.enter (.answered r answer))

end Act
end HotSwap
