/-
What the updater asks of the host in which it is embedded.

* `Component`, `Endpoint`, `Transmission`, `Span` — handles that the host gives
  out and the updater only hands back;
* `Payload` — what the enricher returns;
* `Request` — one constructor per question or order;
* `Request.Answer` — the type of the answer to each.
-/
import HotSwap.Flow.Connection
import HotSwap.Update.Event
import HotSwap.Codec.Bytes

namespace HotSwap

/-- A component of the running flow. -/
structure Component where
  index : Nat
  deriving DecidableEq, Repr

/-- A remote endpoint that the flow transmits to. -/
structure Endpoint where
  index : Nat
  deriving DecidableEq, Repr

/-- The end of a transmission that has been asked to stop. -/
structure Transmission where
  index : Nat
  deriving DecidableEq, Repr

/-- An open span of a trace. -/
structure Span where
  index : Nat
  deriving DecidableEq, Repr

/-- What the enricher returns. -/
inductive Payload where
  | bytes (content : Bytes)
  /-- Something that is no byte string; the name of its type. -/
  | other (typeName : String)
  deriving DecidableEq, Repr

/-- What can be asked of the host. -/
inductive Request where
  /-- Turn a candidate into a configuration that can run. -/
  | enrich (raw : Bytes)
  /-- Load the active configuration file into the flow. -/
  | loadConfiguration
  /-- Initialise the loaded flow as a fresh start would. -/
  | rebuild
  | processors
  | controllerServices
  | reportingTasks
  | connections
  | stopComponent (id : String)
  | stopProcessing
  | startProcessing
  | isDataQueued
  | dropAllQueued (requestId requestor : String)
  | remoteEndpoints
  | componentIdentifier (c : Component)
  | performValidation (c : Component)
  | validationErrors (c : Component)
  | endpointIdentifier (e : Endpoint)
  | stopTransmitting (e : Endpoint)
  /-- Wait for the end of a transmission, for so many seconds at most. -/
  | awaitStop (t : Transmission) (timeout : Float)
  /-- Wait for so many seconds between two polls. -/
  | pause (seconds : Float)
  /-- Tell the observers. -/
  | publish (e : Event)
  | openSpan (name : String)
  | annotateSpan (s : Span) (key : String) (value : Data)
  | recordFault (s : Span) (fault : Fault)
  | closeSpan (s : Span)
  /-- Keep the report of an attempt. -/
  | keepReport (r : UpdateReport)

/-- The type of the answer to a request. -/
def Request.Answer : Request → Type
  | enrich _ => Payload
  | processors | controllerServices | reportingTasks => List Component
  | connections => List Connection
  | isDataQueued => Bool
  | remoteEndpoints => List Endpoint
  | componentIdentifier _ | endpointIdentifier _ => String
  | performValidation _ => Status
  | validationErrors _ => List String
  | stopTransmitting _ => Transmission
  | openSpan _ => Span
  | loadConfiguration | rebuild | stopComponent _ | stopProcessing | startProcessing
  | dropAllQueued .. | awaitStop .. | pause _ | publish _ | annotateSpan .. | recordFault ..
  | closeSpan _ | keepReport _ => Unit

end HotSwap
