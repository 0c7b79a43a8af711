/-
Hosts: what stands on the other side of the link.

A host answers each request in its own way.  On the way to an answer it may
change its own state and the disk, and it may turn round and order something
from the updater, even while the updater is waiting for that answer.

* `Scene` — what a host can see and change;
* `Command`, `Reply` — what a host can order, and what comes back;
* `Conduct` — how a host comes to an answer, as a tree of orders;
* `Play` — conducts in sequence;
* `Host` — a conduct for every request;
* `Host.link` — the link to a host.

Design notes: an order may lead to further requests, whose conducts may order
again; the link counts how deep that goes and refuses orders at the bottom.
-/
import HotSwap.World.Link

namespace HotSwap

/-- What a host can see and change. -/
structure Scene (σ : Type) where
  disk : Disk
  host : σ

/-- What a host can order from the updater. -/
inductive Command where
  /-- Cancel the token itself. -/
  | cancelToken
  /-- Cancel the running attempt. -/
  | cancelCurrent
  | askPhase
  | apply (raw : Bytes)
  | update (raw : Bytes)
  | submit (raw : Bytes)
  /-- Let the worker take a waiting candidate. -/
  | work
  deriving DecidableEq, Repr

/-- What comes back from an order. -/
inductive Reply where
  | done
  | flag (b : Bool)
  | phase (p : Phase)
  | report (r : UpdateReport)

/-- How a host comes to an answer. -/
inductive Conduct (S α : Type) where
  /-- The answer, or the fault that is raised instead of one. -/
  | done (result : Except Fault α) (scene : S)
  /-- An order, and how to go on with what comes back. -/
  | order (c : Command) (scene : S) (resume : Except Fault Reply → S → Conduct S α)

namespace Conduct

variable {S α β : Type}

/-- Goes on after an answer. -/
def next (f : α → S → Conduct S β) : Conduct S α → Conduct S β
  | done (.ok a) s => f a s
  | done (.error e) s => done (.error e) s
  | order c s resume => order c s fun reply s' => (resume reply s').next f

end Conduct

/-- Conducts in sequence. -/
def Play (S α : Type) : Type := S → Conduct S α

namespace Play

variable {S α : Type}

instance : Monad (Play S) where
  pure a := fun s => .done (.ok a) s
  bind p f := fun s => (p s).next f

/-- Raises a fault. -/
def raise (e : Fault) : Play S α := fun s => .done (.error e) s

/-- Reads from the scene. -/
def look (f : S → α) : Play S α := fun s => .done (.ok (f s)) s

/-- Changes the scene. -/
def change (f : S → S) : Play S Unit := fun s => .done (.ok ()) (f s)

/-- Orders something; what comes back, a fault included. -/
def order (c : Command) : Play S (Except Fault Reply) := fun s =>
  .order c s fun reply s' => .done (.ok reply) s'

end Play

/-- A host with a state of type `σ`. -/
structure Host (σ : Type) where
  reply : (r : Request) → Play (Scene σ) r.Answer
  gate : Access → σ → Option Nat × σ
  freshId : σ → String × σ
  now : σ → Int × σ

variable {σ : Type}

/-- What the host can see of the world. -/
def World.scene (w : World σ) : Scene σ := { disk := w.disk, host := w.host }

/-- Puts what the host has changed into the world. -/
def Act.setScene (s : Scene σ) : Act σ Unit :=
  Act.change fun w => { w with disk := s.disk, host := s.host }

/-- Carries a conduct out: its orders go to the console. -/
def Conduct.perform {α : Type} (console : Command → Act σ Reply) :
    Conduct (Scene σ) α → Act σ α
  | .done result s => do
    Act.setScene s
    Act.ofExcept result
  | .order c s resume => do
    Act.setScene s
    let reply ← (console c).outcome
    let s' ← Act.look World.scene
    (resume reply s').perform console

/-- Carries a play out on the world as it is. -/
def Play.perform {α : Type} (console : Command → Act σ Reply) (p : Play (Scene σ) α) :
    Act σ α := do
  let s ← Act.look World.scene
  (p s).perform console

/-- The fault of an order that is nested too deep. -/
def tooDeep : Fault := .raised "RecursionError" "maximum recursion depth exceeded"

/-- The console of a host to which only the token is left. -/
def tokenConsole (_ : Link σ) : Command → Act σ Reply
  | .cancelToken => do
    Act.changeDesk fun d => { d with token := d.token.map fun _ => true }
    return .done
  | _ => return .done

/-- The link to a host, with orders nested to a depth at most; `console` says
how an order is carried out through a link.  Requests and answers go into the
journal. -/
def Host.link (h : Host σ) (console : Link σ → Command → Act σ Reply) : (depth : Nat) → Link σ
  | 0 => {
      ask := fun r => Act.exchange r ((h.reply r).perform fun _ => Act.raise tooDeep)
      gate := h.gate
      freshId := h.freshId
      now := h.now }
  | depth + 1 => {
      ask := fun r => Act.exchange r ((h.reply r).perform (console (h.link console depth)))
      gate := h.gate
      freshId := h.freshId
      now := h.now }

end HotSwap
