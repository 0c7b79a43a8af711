/-
Spans around the parts of an attempt.

* `withSpan` — an act inside a span of a trace, or inside none when there is no
  tracer;
* `withUpdateSpan`, `withPhaseSpan` — the span of an attempt, and of a phase.
-/
import HotSwap.World.Link

namespace HotSwap.Tracing

variable {σ α : Type}

/-- Notes facts on a span. -/
def annotate (link : Link σ) (s : Span) : List (String × Data) → Act σ Unit
  | [] => return ()
  | (key, value) :: rest => do
    link.ask (.annotateSpan s key value)
    annotate link s rest

/-- An act inside a span that carries some facts.  The span is closed whichever
way the act ends. -/
def withSpan (link : Link σ) (tracing : Bool) (name : String) (facts : List (String × Data))
    (body : Option Span → Act σ α) : Act σ α := do
  if tracing then
    let s : Span ← link.ask (.openSpan name)
    Act.ensuring (do annotate link s facts; body (some s)) (link.ask (.closeSpan s))
  else body none

/-- An act inside the span of an attempt. -/
def withUpdateSpan (link : Link σ) (tracing : Bool) (attemptId : String) (digest : Option String)
    (body : Option Span → Act σ α) : Act σ α :=
  withSpan link tracing "update"
    (("update.attempt_id", .text attemptId)
      :: digest.toList.map fun digest => ("update.candidate_sha256", .text digest))
    body

/-- An act inside the span of a phase. -/
def withPhaseSpan (link : Link σ) (tracing : Bool) (phase : Phase)
    (body : Option Span → Act σ α) : Act σ α :=
  withSpan link tracing ("phase:" ++ phase.text) [("update.phase", .text phase.text)] body

/-- Notes a fault on a span, if there is one. -/
def recordFault (link : Link σ) (span : Option Span) (fault : Fault) : Act σ Unit :=
  match span with
  | none => return ()
  | some s => link.ask (.recordFault s fault)

end HotSwap.Tracing
