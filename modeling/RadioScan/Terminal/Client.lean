import RadioScan.Control.Response
import RadioScan.Terminal.Failure
import RadioScan.Text.Blank

/-!
# Talking to the service

A client sends one message and waits for its answer. The service may announce schedules on the same
connection at any time; a client passes over them.
-/

namespace RadioScan.Terminal

open Control (Message Response)

/-- How an attempt to reach a service went. -/
inductive Dial
  | failed (e : SystemError)
  /-- All that the service sent until it closed the connection. -/
  | connected (received : String)

/-- The first line that is not a push. -/
def awaitAnswer (notices : Json.Notices) : List String → Except Failure Response
  | [] => .error .closed
  | line :: lines =>
    match Response.ofText line with
    | .error fault => .error (.json fault (notices line))
    | .ok r => if r.isPush then awaitAnswer notices lines else .ok r

/-- The line that carries a message. -/
def messageLine (m : Message) : String := m.text ++ "\n"

/-- The answer to a message over a connection. -/
def exchange (notices : Json.Notices) : Dial → Except Failure Response
  | .failed e => .error (.network e)
  | .connected received => awaitAnswer notices (Text.lines received)

end RadioScan.Terminal
