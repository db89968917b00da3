import Blockcore.Networking.MessageMaps

/-!
# Endpoints and messages

The classes of `Messages/`, one structure each, and `BaseMessage`, any of them.
A `string` is a reference and may be null, so it is an `Option String`.

Addresses and endpoints travel as text.  How .NET writes and reads that text is
a parameter, `TextFormat`; `TextFormat.Lawful` says what its documentation does:
reading what was written gives the same value back, and written text is not
blank.
-/

namespace Blockcore.Networking

/-! ### Endpoints -/

/-- `System.Net.IPAddress`: the four bytes of an IPv4 address or the sixteen of
an IPv6 address. -/
structure IPAddress where
  bytes : List UInt8
  valid : bytes.length = 4 ∨ bytes.length = 16
  deriving DecidableEq

/-- `System.Net.IPEndPoint`. -/
structure IPEndPoint where
  address : IPAddress
  port : UInt16
  deriving DecidableEq

/-- `ConnectionTypes`. -/
inductive ConnectionTypes where
  | Unknown
  | LAN
  | WAN
  deriving DecidableEq, Repr

/-- `ConnectionTypes.ToString()`. -/
def ConnectionTypes.toString : ConnectionTypes → String
  | Unknown => "Unknown"
  | LAN => "LAN"
  | WAN => "WAN"

/-- `NotificationsTypes`. -/
inductive NotificationsTypes where
  | ServerShutdown
  | Disconnected
  deriving DecidableEq, Repr

/-- `System.Net.Sockets.ProtocolType`, as far as it occurs. -/
inductive ProtocolType where
  | Tcp
  | Udp
  deriving DecidableEq, Repr

/-- A `TcpClient`, which is compared by reference. -/
abbrev TcpClient := Nat

/-- `char.IsWhiteSpace`. -/
def isWhiteSpace (c : Char) : Bool :=
  (0x09 ≤ c.val && c.val ≤ 0x0d) || c.val == 0x20 || c.val == 0x85 || c.val == 0xa0 ||
    c.val == 0x1680 || (0x2000 ≤ c.val && c.val ≤ 0x200a) || c.val == 0x2028 ||
    c.val == 0x2029 || c.val == 0x202f || c.val == 0x205f || c.val == 0x3000

/-- `string.IsNullOrWhiteSpace`. -/
def isNullOrWhiteSpace : Option String → Bool
  | none => true
  | some s => s.toList.all isWhiteSpace

/-- The text of addresses, endpoints and connection types: `ToString` and
`Parse`, which throws (`none`) on other text. -/
structure TextFormat where
  addressToString : IPAddress → String
  addressParse : String → Option IPAddress
  endPointToString : IPEndPoint → String
  endPointParse : String → Option IPEndPoint
  connectionTypeParse : String → Option ConnectionTypes

/-- `Parse` is a left inverse of `ToString`. -/
structure TextFormat.Lawful (fmt : TextFormat) : Prop where
  addressParse_toString : ∀ a, fmt.addressParse (fmt.addressToString a) = some a
  endPointParse_toString : ∀ e, fmt.endPointParse (fmt.endPointToString e) = some e
  endPoint_not_blank : ∀ e, isNullOrWhiteSpace (some (fmt.endPointToString e)) = false
  connectionTypeParse_toString : ∀ t, fmt.connectionTypeParse t.toString = some t

/-! ### Messages -/

/-- `AckMessage`. -/
structure AckMessage where
  id : Option String := none
  recipientId : Option String := none
  response : Bool := false
  deriving DecidableEq

/-- `MessageMessage`. -/
structure MessageMessage where
  id : Option String := none
  «from» : Option String := none
  «to» : Option String := none
  content : Option String := none
  recipientId : Option String := none
  deriving DecidableEq

/-- `HubInfoMessage`. -/
structure HubInfoMessage where
  id : Option String := none
  name : Option String := none
  externalEndpoint : Option String := none
  internalEndpoint : Option String := none
  connectionType : Option String := none
  internalAddresses : Option (List (Option String)) := some []
  firstName : Option String := none
  deriving DecidableEq

/-- `KeepAliveMessage`. -/
structure KeepAliveMessage where
  id : Option String := none
  deriving DecidableEq

/-- `NotificationMessage`; the only tags in use are strings and null. -/
structure NotificationMessage where
  id : Option String := none
  type : NotificationsTypes := .ServerShutdown
  tag : Option String := none
  deriving DecidableEq

/-- `ReqMessage`. -/
structure ReqMessage where
  id : Option String := none
  recipientId : Option String := none
  deriving DecidableEq

/-- `BroadcastMessage`. -/
structure BroadcastMessage where
  id : Option String := none
  «from» : Option String := none
  «to» : Option String := none
  content : Option String := none
  deriving DecidableEq

/-- `TestMessage`. -/
structure TestMessage where
  id : Option String := none
  customString : Option String := none
  customInt : Int := 0
  endpoint : Option String := none
  deriving DecidableEq

inductive BaseMessage where
  | ack (m : AckMessage)
  | msg (m : MessageMessage)
  | info (m : HubInfoMessage)
  | keepAlive (m : KeepAliveMessage)
  | notification (m : NotificationMessage)
  | req (m : ReqMessage)
  | broadcast (m : BroadcastMessage)
  | test (m : TestMessage)
  deriving DecidableEq

inductive MessageType where
  | AckMessage
  | MessageMessage
  | HubInfoMessage
  | KeepAliveMessage
  | NotificationMessage
  | ReqMessage
  | BroadcastMessage
  | TestMessage
  deriving DecidableEq

namespace BaseMessage

def getType : BaseMessage → MessageType
  | ack _ => .AckMessage
  | msg _ => .MessageMessage
  | info _ => .HubInfoMessage
  | keepAlive _ => .KeepAliveMessage
  | notification _ => .NotificationMessage
  | req _ => .ReqMessage
  | broadcast _ => .BroadcastMessage
  | test _ => .TestMessage

/-- `BaseMessage.Id`. -/
def id : BaseMessage → Option String
  | ack m => m.id
  | msg m => m.id
  | info m => m.id
  | keepAlive m => m.id
  | notification m => m.id
  | req m => m.id
  | broadcast m => m.id
  | test m => m.id

end BaseMessage

/-- `MessageTypes`: the command each class overrides. -/
def MessageType.command : MessageType → UInt16
  | AckMessage => 0
  | MessageMessage => 1
  | HubInfoMessage => 2
  | KeepAliveMessage => 3
  | NotificationMessage => 4
  | ReqMessage => 5
  | BroadcastMessage => 6
  | TestMessage => 999

instance : MessageClass BaseMessage MessageType where
  getType := BaseMessage.getType
  commandOf := MessageType.command

/-- What `Process` is called with. -/
structure Received where
  message : BaseMessage
  protocol : ProtocolType
  endpoint : Option IPEndPoint := none
  client : Option TcpClient := none

instance : MessageClass Received MessageType where
  getType r := r.message.getType
  commandOf := MessageType.command

theorem MessageType.command_injective : Function.Injective MessageType.command := by
  intro a b h
  cases a <;> cases b <;> first | rfl | exact absurd h (by decide)

end Blockcore.Networking
