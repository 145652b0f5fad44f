import WebFort.Library.Words

namespace WebFort

open Library

def ascii (s : String) : Bytes := s.toList.map fun c => UInt8.ofNat c.toNat

-- The websocketpp processor negotiated by the handshake.
inductive Processor
  | hybi00
  | hybi07
  | hybi08
  | hybi13
  deriving DecidableEq

inductive Opcode
  | text
  | binary
  | close
  | ping
  | pong
  deriving DecidableEq

inductive ProcessorError
  | invalidOpcode
  | invalidPayload
  deriving DecidableEq

def Opcode.isControl : Opcode → Bool
  | .text | .binary => false
  | .close | .ping | .pong => true

-- Whether the processor takes a frame for writing. `utf8` is the verdict of
-- the validator on the payload.
def prepareDataFrame (p : Processor) (op : Opcode) (utf8 : Bool) : Option ProcessorError :=
  match p with
  | .hybi00 =>
      if op ≠ .text then some .invalidOpcode
      else if utf8 then none else some .invalidPayload
  | .hybi07 | .hybi08 | .hybi13 =>
      if op.isControl then some .invalidOpcode
      else if op = .text && !utf8 then some .invalidPayload else none

-- What the handshake of a connection told the server. The uri class stores
-- "/" for an empty resource.
structure Conn where
  processor : Processor
  resource : Bytes
  resource_ne : resource ≠ []
  requestedSubprotocols : List Bytes
  remoteEndpoint : Bytes

-- owner_less on weak_ptr orders the connection handles.
abbrev Handle := Nat

abbrev Endpoint := Handle → Conn

def wfVersion : Bytes := ascii "WebFortress-v2.0"

def wfInvalid : Bytes := ascii "WebFortress-invalid"

-- The subprotocol that get_subprotocol reports afterwards.
def validateOpen (s : Endpoint) (hdl : Handle) : Bytes :=
  if wfVersion ∈ (s hdl).requestedSubprotocols then wfVersion
  else if wfInvalid ∈ (s hdl).requestedSubprotocols then wfInvalid
  else []

end WebFort
