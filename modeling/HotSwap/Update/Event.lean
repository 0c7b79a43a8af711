/-
Events that tell observers how an update goes.

* `Event` — one constructor per kind of event;
* `Event.kind` — its name, on which observers subscribe;
* `Event.phase?`, `Event.attemptId?` — what an event is about.
-/
import HotSwap.Update.Report

namespace HotSwap

/-- Something an observer may want to know. -/
inductive Event where
  | updateStarted (attemptId digest : String) (bytes : Nat)
  | phaseStarted (attemptId : String) (phase : Phase)
  | phaseCompleted (attemptId : String) (phase : Phase)
  | phaseFailed (attemptId : String) (phase : Phase) (kind : FailureKind) (error : String)
  | drainForced (polls : Nat) (requestId : String)
  | transmissionStopTimedOut (endpointId : String) (timeout : Float)
  /-- The duration is in microseconds. -/
  | updateCompleted (attemptId : String) (state : Phase) (succeeded : Bool) (duration : Int)
      (failureKind : Option FailureKind)

namespace Event

/-- The name of an event's kind. -/
def kind : Event → String
  | updateStarted .. => "UpdateStarted"
  | phaseStarted .. => "PhaseStarted"
  | phaseCompleted .. => "PhaseCompleted"
  | phaseFailed .. => "PhaseFailed"
  | drainForced .. => "DrainForced"
  | transmissionStopTimedOut .. => "TransmissionStopTimedOut"
  | updateCompleted .. => "UpdateCompleted"

/-- The phase that an event is about. -/
def phase? : Event → Option Phase
  | phaseStarted _ p | phaseCompleted _ p | phaseFailed _ p _ _ => some p
  | _ => none

/-- The attempt that an event is about. -/
def attemptId? : Event → Option String
  | updateStarted id _ _ | phaseStarted id _ | phaseCompleted id _ | phaseFailed id _ _ _
  | updateCompleted id _ _ _ _ => some id
  | drainForced .. | transmissionStopTimedOut .. => none

end Event
end HotSwap
