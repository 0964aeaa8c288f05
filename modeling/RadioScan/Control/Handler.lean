import RadioScan.Control.Response

/-!
# Handling messages

A message is applied to the registry and answered. A session counts the messages it has handled.
-/

namespace RadioScan.Control

/-- Applies a message to the registry; no result when a counter of the registry ends. -/
def answer (r : Registry) : Message → Option (Response × Registry)
  | .register client request => do
    let (result, r) ← r.register client request
    match result with
    | .ok id => return ({ Response.ofStatus .success with requestId := id }, r)
    | .error e => return (.withMessage .rejected e.message, r)
  | .unregister id => do
    let (result, r) ← r.unregister id
    match result with
    | .ok () => return ({ Response.ofStatus .success with requestId := id }, r)
    | .error e => return (.withMessage .notFound e.message, r)
  | .unregisterClient client => do
    let (removed, r) ← r.unregisterClient client
    return (.withMessage .success s!"{removed} request(s) removed", r)
  | .getSchedule => some ({ Response.ofStatus .success with schedule := r.schedule }, r)
  | .getLimits => some ({ Response.ofStatus .success with limits := r.limits }, r)
  | .setLimits limits => do
    let (result, r) ← r.setLimits limits
    match result with
    | .ok () => return ({ Response.ofStatus .success with limits := r.limits }, r)
    | .error e => return (.withMessage .rejected e.message, r)
  | .getStats => some ({ Response.ofStatus .success with stats := r.stats }, r)

/-- A registry together with the number of messages handled, which starts over after 32 bits. -/
structure Session where
  registry : Registry
  handled : UInt32

namespace Session

def ofRegistry (registry : Registry) : Session := ⟨registry, 0⟩

/-- Handles one message. -/
def handle (s : Session) (m : Message) : Option (Response × Session) := do
  let (response, registry) ← answer s.registry m
  return (response, ⟨registry, s.handled + 1⟩)

/-- Reads a line and handles its message; a line that is none changes nothing. -/
def receive (s : Session) (line : String) : Option (Except ProtocolError Response × Session) :=
  match Message.parse line with
  | .error e => some (.error e, s)
  | .ok m => do
    let (response, s) ← s.handle m
    return (.ok response, s)

end Session

end RadioScan.Control
