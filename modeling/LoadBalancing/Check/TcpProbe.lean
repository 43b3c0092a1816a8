/-
TCP probes (`TcpProbeTransport`).

A TCP probe connects, sends its bytes if it has any, and then reads until it has
seen every expected segment: in order, without overlap, with anything before,
between and after them. If nothing is expected the connection alone passes. The
probe fails if the peer closes before that, or if more than 64 KiB came without a
match. How the bytes are cut into reads makes no difference up to that limit.
-/
import LoadBalancing.Check.Session

set_option autoImplicit false

namespace LoadBalancing

/-- Why a probe brought no answer (`ProbeError`). -/
inductive ProbeError where
  | connect
  | io
  | unexpectedResponse
  | unsupportedPayload
  deriving DecidableEq, Repr

namespace ProbeError

/-- Whether the connection failed, and not the answer (`is_network`). -/
def isNetwork : ProbeError → Bool
  | .connect | .io => true
  | .unexpectedResponse | .unsupportedPayload => false

end ProbeError

namespace TcpProbe

/-! ## Matching -/

/-- What follows the first occurrence of `segment`. -/
def afterFirst (segment : List UInt8) : List UInt8 → Option (List UInt8)
  | [] => if segment.isEmpty then some [] else none
  | b :: rest =>
    if segment.isPrefixOf (b :: rest) then some ((b :: rest).drop segment.length)
    else afterFirst segment rest

/-- Whether the segments occur in order and without overlap (`TcpHealthCheckMatcher::matches`). Each
one is taken at its first occurrence, which leaves the most room for the others. -/
def matchesAll : List (List UInt8) → List UInt8 → Bool
  | [], _ => true
  | segment :: rest, buffer =>
    if segment.isEmpty then matchesAll rest buffer
    else
      match afterFirst segment buffer with
      | some after => matchesAll rest after
      | none => false

/-! ## The exchange -/

/-- How many bytes may come without a match (`MAX_RESPONSE_BYTES`). -/
def maxResponse : Nat := 65536

/-- How many bytes one read can bring. -/
def maxRead : Nat := 4096

/-- Reads until all segments are seen. `reads` are the pieces that come one after the
other before the peer closes. Returns the outcome and what was buffered. -/
def receive (segments : List (List UInt8)) (buffer : List UInt8) :
    List (List UInt8) → Except ProbeError ProbeAnswer × List UInt8
  | [] => (.error .unexpectedResponse, buffer)
  | piece :: rest =>
    let buffer := buffer ++ piece
    if matchesAll segments buffer then (.ok .healthy, buffer)
    else if maxResponse < buffer.length then (.error .unexpectedResponse, buffer)
    else receive segments buffer rest

/-- What is at the other end of a connection. -/
inductive Peer where
  /-- Nothing that could be reached. -/
  | unreachable
  /-- Something that takes what is sent, answers in pieces, and closes. -/
  | answers (reads : List (List UInt8))

/-- The whole exchange of a probe with its peer (`TcpProbeTransport::probe`). -/
def run (payload : ProbePayload) (peer : Peer) : Except ProbeError ProbeAnswer :=
  match payload with
  | .tcp _ segments =>
    match peer with
    | .unreachable => .error .connect
    | .answers reads =>
      if segments.isEmpty then .ok .healthy else (receive segments [] reads).1
  | _ => .error .unsupportedPayload

end TcpProbe

end LoadBalancing
