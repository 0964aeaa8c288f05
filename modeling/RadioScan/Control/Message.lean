import RadioScan.Format.Config
import RadioScan.Registry.Basic

/-!
# Control messages

A client sends one message a line. A line is a message if it is short enough and is the JSON text of
one.
-/

namespace RadioScan.Control

open Json (Record)
open Format

inductive Message
  | register (client : String) (request : Request)
  | unregister (id : RequestId)
  | unregisterClient (client : String)
  | getSchedule
  | getLimits
  | setLimits (limits : Limits)
  | getStats
deriving DecidableEq

namespace Message

/-- The contents of a registration. -/
def registration : Record (String × Request) where
  title := "struct variant ControlMessage::Register"
  blank := ("", .ofScope (.channels []) 0)
  fields := [
    .needed "client" ofString Json.string Prod.fst fun v m => (v, m.2),
    .needed "request" request.encode request.decode Prod.snd fun v m => (m.1, v)]

def unregistration : Record RequestId where
  title := "struct variant ControlMessage::Unregister"
  blank := 0
  fields := [.needed "id" ofUInt32 Json.uint32 id fun v _ => v]

def departure : Record String where
  title := "struct variant ControlMessage::UnregisterClient"
  blank := ""
  fields := [.needed "client" ofString Json.string id fun v _ => v]

def limitation : Record Limits where
  title := "struct variant ControlMessage::SetLimits"
  blank := .standard
  fields := [.needed "limits" limits.encode limits.decode id fun v _ => v]

def encode : Message → Json
  | register client request => tagged "Register" (registration.encode (client, request))
  | unregister id => tagged "Unregister" (unregistration.encode id)
  | unregisterClient client => tagged "UnregisterClient" (departure.encode client)
  | getSchedule => ofString "GetSchedule"
  | getLimits => ofString "GetLimits"
  | setLimits limits => tagged "SetLimits" (limitation.encode limits)
  | getStats => ofString "GetStats"

def decode : Json.Decoder Message :=
  Json.choice [
    ⟨"Register", .record fun j => (registration.decode j).map fun m => register m.1 m.2⟩,
    ⟨"Unregister", .record fun j => (unregistration.decode j).map unregister⟩,
    ⟨"UnregisterClient", .record fun j => (departure.decode j).map unregisterClient⟩,
    ⟨"GetSchedule", .unit getSchedule⟩,
    ⟨"GetLimits", .unit getLimits⟩,
    ⟨"SetLimits", .record fun j => (limitation.decode j).map setLimits⟩,
    ⟨"GetStats", .unit getStats⟩]

def text (m : Message) : String := m.encode.compact

end Message

/-- The longest line that is read as a message, in bytes. -/
def maxMessageSize : Nat := 4096

/-- The longest response that is sent, in bytes. -/
def maxResponseSize : Nat := 16384

inductive ProtocolError
  | messageTooLarge (size greatest : Nat)
  | invalidJson (fault : Json.Fault)
deriving DecidableEq

def ProtocolError.message (n : Json.Notice) : ProtocolError → String
  | messageTooLarge size greatest => s!"message of {size} bytes exceeds {greatest}"
  | invalidJson fault => "invalid message: " ++ fault.report n

/-- Reads a line as a message. -/
def Message.parse (line : String) : Except ProtocolError Message :=
  if maxMessageSize < line.utf8ByteSize then
    .error (.messageTooLarge line.utf8ByteSize maxMessageSize)
  else
    match Json.decodeText decode line with
    | .ok m => .ok m
    | .error fault => .error (.invalidJson fault)

end RadioScan.Control
