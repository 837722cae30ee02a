import Snooping.Net.Checksum
import Snooping.Net.Ipv4
import Snooping.Table.Id

/-! The way out: the controller channel and the packet-out path. -/
namespace Snooping

/-- Expected traffic has not been seen for a whole timeout. -/
structure IdleNotification where
  table : TableId
  name : String
  vlan : UInt16
  group : Option Ipv4
deriving DecidableEq

inductive ControllerMessage
  | idleNotification (n : IdleNotification)
deriving DecidableEq

structure OutboundFrame where
  port : UInt32
  frame : Bytes
deriving DecidableEq

/-- The oldest protocol version with asynchronous messages. -/
def asyncMinVersion : UInt8 := 4

inductive ChannelError
  | notConnected
  | versionTooOld (version : UInt8)
  | closed
deriving DecidableEq

def ChannelError.message : ChannelError → String
  | notConnected => "no controller connected"
  | versionTooOld v =>
    "controller negotiated version " ++ v.toNat.repr ++ ", asynchronous messages need " ++
      asyncMinVersion.toNat.repr
  | closed => "control channel closed"

inductive TransmitError
  | portUnavailable (port : UInt32)
  | closed
deriving DecidableEq

def TransmitError.message : TransmitError → String
  | portUnavailable p => "egress port " ++ p.toNat.repr ++ " is not available"
  | closed => "packet-out channel closed"

/-- A connection to the controller, at the version negotiated on it. -/
class ControllerChannel (χ : Type) where
  version? : χ → Option UInt8
  send : χ → ControllerMessage → χ × Except ChannelError Unit

/-- A way for originated frames to leave the switch. -/
class PacketOut (ω : Type) where
  transmit : ω → OutboundFrame → ω × Except TransmitError Unit

/-- Whether a connected controller takes asynchronous messages. -/
def asyncCapable {χ : Type} [ControllerChannel χ] (c : χ) : Bool :=
  match ControllerChannel.version? c with
  | some v => asyncMinVersion ≤ v
  | none => false

/-- Connection state and the messages queued for the controller, the oldest first. -/
structure ControllerLink where
  version : Option UInt8
  isOpen : Bool
  queued : List ControllerMessage
deriving DecidableEq

namespace ControllerLink

def initial : ControllerLink := ⟨none, true, []⟩

def connect (l : ControllerLink) (version : UInt8) : ControllerLink :=
  { l with version := some version }

def disconnect (l : ControllerLink) : ControllerLink := { l with version := none }

def close (l : ControllerLink) : ControllerLink := { l with isOpen := false }

def emptied (l : ControllerLink) : ControllerLink := { l with queued := [] }

def send (l : ControllerLink) (m : ControllerMessage) : ControllerLink × Except ChannelError Unit :=
  match l.version with
  | none => (l, .error .notConnected)
  | some v =>
    if v < asyncMinVersion then (l, .error (.versionTooOld v))
    else if l.isOpen then ({ l with queued := l.queued ++ [m] }, .ok ())
    else (l, .error .closed)

instance : ControllerChannel ControllerLink := ⟨version, send⟩

end ControllerLink

/-- Frames queued for transmission, the oldest first. -/
structure FrameSender where
  isOpen : Bool
  queued : List OutboundFrame
deriving DecidableEq

namespace FrameSender

def initial : FrameSender := ⟨true, []⟩

def close (s : FrameSender) : FrameSender := { s with isOpen := false }

def emptied (s : FrameSender) : FrameSender := { s with queued := [] }

def transmit (s : FrameSender) (f : OutboundFrame) : FrameSender × Except TransmitError Unit :=
  if s.isOpen then ({ s with queued := s.queued ++ [f] }, .ok ()) else (s, .error .closed)

instance : PacketOut FrameSender := ⟨transmit⟩

end FrameSender

/-- A sender behind ports that may be down. -/
structure PortSender where
  down : List UInt32
  sender : FrameSender
deriving DecidableEq

namespace PortSender

def initial : PortSender := ⟨[], .initial⟩

def portDown (s : PortSender) (p : UInt32) : PortSender := { s with down := p :: s.down }

def portUp (s : PortSender) (p : UInt32) : PortSender :=
  { s with down := s.down.filter (· ≠ p) }

def close (s : PortSender) : PortSender := { s with sender := s.sender.close }

def emptied (s : PortSender) : PortSender := { s with sender := s.sender.emptied }

def transmit (s : PortSender) (f : OutboundFrame) : PortSender × Except TransmitError Unit :=
  if f.port ∈ s.down then (s, .error (.portUnavailable f.port))
  else
    let (sender, r) := s.sender.transmit f
    ({ s with sender }, r)

instance : PacketOut PortSender := ⟨transmit⟩

end PortSender
end Snooping
