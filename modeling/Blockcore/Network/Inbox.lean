import Blockcore.Hub.Events
import Blockcore.Network.Origins
import Blockcore.Network.Steps
import Blockcore.Networking.Truncation

/-!
# What a hub's users receive

The gateway sends a hub texts, each as a `MessageMessage`.  A listener of the hub decodes
it and hands it to `MessageMessageHandler`, which publishes a `MessageReceivedEvent` if
the message has no sender, or if both an endpoint and a client come with it.

* `listen_msg`: of a message without a sender the handler asks for the id `""`, or the id of
  all zeros; and no listener passes a client.
* `decode_carried`: what the gateway sent is decoded as it was.
* `texts_only`: whatever happens at a gateway, its texts are the ones made by `new Message`,
  whose id is null.

So no text of the gateway is ever received (`text_never_received`).
-/

namespace Blockcore.Network.Inbox

open Lib Networking Gateway Hub
open Events (published)

/-! ### The handler -/

def NoSender (id : Option String) : Prop :=
  id = some "" ∨ id = some "00000000-0000-0000-0000-000000000000"

/-- **A listener takes a text**: it publishes one event if the text has no sender, and none
otherwise. -/
theorem listen_msg (fmt : TextFormat) (msg : MessageMessage) (protocol : ProtocolType)
    (endpoint : Option IPEndPoint) (h : HubManager) :
    (NoSender msg.id → h.listen fmt (.ok (some (.msg msg))) protocol endpoint =
      h.publish (.messageReceived (Message.ofMessage msg))) ∧
    (¬ NoSender msg.id → h.listen fmt (.ok (some (.msg msg))) protocol endpoint = h) := by
  rw [HubManager.listen_some, process_hubMaps]
  show (NoSender msg.id → processMessage msg endpoint none h = _) ∧
    (¬ NoSender msg.id → processMessage msg endpoint none h = h)
  refine ⟨?_, ?_⟩
  · intro hno
    exact if_pos hno
  · intro hno
    have hclient : ¬ (endpoint.isSome && (none : Option TcpClient).isSome) = true := by simp
    exact (if_neg hno).trans (if_neg hclient)

theorem not_noSender_new («from» «to» content : Option String) :
    ¬ NoSender (Message.new «from» «to» content).id := by
  rintro (h | h)
  · cases h
  · cases h

/-! ### From the gateway to the hub -/

/-- What `SendTCP` or `SendUDP` sends of a message. -/
inductive Departs (message : BaseMessage) (g : GatewayManager) : Sent → Prop where
  | tcp {x : Sent} (client : Option TcpClient)
    (hx : x ∈ (g.sendTCP message client).state.sent.drop g.sent.length) : Departs message g x
  | udp {x : Sent} (endPoint : Option IPEndPoint)
    (hx : x ∈ (g.sendUDP message endPoint).sent.drop g.sent.length) : Departs message g x

/-- What a listener of the hub reads from: the stream of its connection, or a datagram that comes
from somewhere. -/
inductive Arrival where
  | stream (s : ByteStream)
  | datagram (data : List UInt8) (endpoint : IPEndPoint)

/-- How a frame comes to the hub: first on the stream, its header in one piece; or as a
datagram. -/
inductive Carries (frame : List UInt8) : Sent → Arrival → Prop where
  | tcp {client : TcpClient} {message : BaseMessage} {s : ByteStream} {later : List UInt8}
    (hs : s.rest = frame ++ later) (hw : HeaderWhole s.cut s.pos) :
    Carries frame (.tcp client message) (.stream s)
  | udp {endPoint : IPEndPoint} {message : BaseMessage} (source : IPEndPoint) :
    Carries frame (.udp endPoint message) (.datagram frame source)

section

variable (pack : MessagePack BaseMessage MessageType) (fmt : TextFormat)

def Arrival.decode : Arrival → Except Exception (Option BaseMessage)
  | .stream s => (deserialize pack (hubMaps fmt) s).1
  | .datagram data _ => deserializeBytes pack (hubMaps fmt) data

/-- A round of `ListenTCP`, or of `ListenUDP`. -/
def round (h : HubManager) (a : Arrival) : HubManager :=
  match a with
  | .stream s => h.listen fmt (Arrival.decode pack fmt (.stream s)) .Tcp none
  | .datagram data endpoint =>
    h.listen fmt (Arrival.decode pack fmt (.datagram data endpoint)) .Udp (some endpoint)

variable {pack fmt}

theorem departs_message {message : BaseMessage} {g : GatewayManager} {x : Sent}
    (h : Departs message g x) : sentMessage x = message := by
  cases h with
  | tcp client hx =>
    obtain ⟨cs, hcs⟩ := GatewayManager.sendTCP_state message client g
    rw [hcs, GatewayManager.log_sent, List.drop_left] at hx
    obtain ⟨c, _, rfl⟩ := List.mem_map.mp hx
    rfl
  | udp endPoint hx =>
    rw [GatewayManager.sendUDP, GatewayManager.log_sent, List.drop_left] at hx
    rw [List.mem_singleton.mp hx]
    rfl

theorem msg_registered (fmt : TextFormat) (msg : MessageMessage) :
    IsRegistered (hubMaps fmt) (BaseMessage.msg msg) := rfl

/-- **What the gateway sent is decoded as it was.** -/
theorem decode_carried (hrt : pack.RoundTrip) {msg : MessageMessage} {frame : List UInt8}
    (hf : serialize pack (BaseMessage.msg msg) = .ok frame) {x : Sent} {a : Arrival}
    (ha : Carries frame x a) : Arrival.decode pack fmt a = .ok (some (.msg msg)) := by
  have hreg := msg_registered fmt msg
  cases ha with
  | @tcp client message s later hs hw =>
    obtain ⟨body, hb, rfl⟩ := frame_of_serialize hf
    have hread := deserialize_frame pack (hubMaps fmt) hreg (pack.length_lt _ body hb) hs hw
    rw [Arrival.decode, hread, decodeAs, MessageMaps.getMessageType_of_some hreg]
    simp only [hrt _ body hb]
  | udp source =>
    have hread := deserializeBytes_append hrt hreg hf []
    rw [List.append_nil] at hread
    exact hread

end

/-! ### What is received -/

def brings (m : Message) : BaseEvent → Bool
  | .messageReceived data => data.from == m.from && data.to == m.to && data.content == m.content
  | _ => false

/-- Exactly one event that was published brings the message. -/
def ReceivedOnce (m : Message) (h h' : HubManager) : Prop :=
  (published (reaction h h')).countP (brings m) = 1

section

variable {pack : MessagePack BaseMessage MessageType} {fmt : TextFormat}

/-- **A round that decodes a text** lets it be received exactly if it has no sender. -/
theorem receivedOnce_iff {a : Arrival} {msg : MessageMessage}
    (hdecode : Arrival.decode pack fmt a = .ok (some (.msg msg))) (h : HubManager) :
    ReceivedOnce (Message.ofMessage msg) h (round pack fmt h a) ↔ NoSender msg.id := by
  have hround : ∃ protocol endpoint,
      round pack fmt h a = h.listen fmt (.ok (some (.msg msg))) protocol endpoint := by
    cases a with
    | stream s => exact ⟨.Tcp, none, by rw [round, hdecode]⟩
    | datagram data endpoint => exact ⟨.Udp, some endpoint, by rw [round, hdecode]⟩
  obtain ⟨protocol, endpoint, hround⟩ := hround
  obtain ⟨hpublish, hnothing⟩ := listen_msg fmt msg protocol endpoint h
  rw [hround, ReceivedOnce]
  by_cases hno : NoSender msg.id
  · refine iff_of_true ?_ hno
    rw [hpublish hno, reaction_eq rfl]
    simp [published, brings]
  · refine iff_of_false ?_ hno
    rw [hnothing hno, reaction, List.drop_length]
    simp [published]

/-- **No text of the gateway is received.** The hub decodes it as it was. -/
theorem text_never_received (hrt : pack.RoundTrip) («from» «to» content : Option String)
    {g : GatewayManager} {x : Sent} (hx : Departs (Message.new «from» «to» content).toMessage g x)
    {frame : List UInt8} (hf : serialize pack (sentMessage x) = .ok frame) {a : Arrival}
    (ha : Carries frame x a) (h : HubManager) :
    Arrival.decode pack fmt a = .ok (some (Message.new «from» «to» content).toMessage) ∧
      ¬ ReceivedOnce (Message.new «from» «to» content) h (round pack fmt h a) := by
  rw [departs_message hx] at hf
  have hdecode : Arrival.decode pack fmt a = .ok (some (Message.new «from» «to» content).toMessage) :=
    decode_carried hrt hf ha
  refine ⟨hdecode, fun hreceived => ?_⟩
  exact not_noSender_new «from» «to» content ((receivedOnce_iff hdecode h).mp hreceived)

end

/-! ### The gateway's texts -/

/-- What the gateway has sent: of texts, only those to try a protocol. -/
def TextsOnly (g : GatewayManager) : Prop :=
  ∀ x ∈ g.sent, ∀ msg, sentMessage x = .msg msg → ∃ name t, sentMessage x = testMessage name t

section

variable {g : GatewayManager}

theorem TextsOnly.log (hg : TextsOnly g) {sent : List Sent}
    (hsent : ∀ x ∈ sent, ∀ msg, sentMessage x = .msg msg → ∃ name t, sentMessage x = testMessage name t) :
    TextsOnly (g.log sent) := by
  intro x hx
  rcases List.mem_append.mp hx with hx | hx
  · exact hg x hx
  · exact hsent x hx

/-- **A gateway that takes a message**: a hub's own is announced, with the texts; no other makes a
text, and no text is relayed. -/
theorem TextsOnly.attempt (hg : TextsOnly g) (fmt : TextFormat)
    (message : Except Exception (Option BaseMessage)) (protocol : ProtocolType)
    (endpoint : Option IPEndPoint) (client : Option TcpClient) :
    TextsOnly (attempt fmt message protocol endpoint client g).state := by
  by_cases hinfo : ∃ m, message = .ok (some (.info m))
  · obtain ⟨m, rfl⟩ := hinfo
    rw [attempt_info]
    refine processInfo_inv (P := TextsOnly) (fun g₁ sent h₁ hsent => ?_) (fun g₁ cs h₁ => h₁) hg
    refine h₁.log fun x hx msg hmsg => ?_
    obtain ⟨y, hy⟩ := hsent x hx
    cases hy with
    | hub c => cases hmsg
    | tcpTest c t => exact ⟨y.name, t, rfl⟩
    | udpTest t => exact ⟨y.name, t, rfl⟩
    | introduction hci => cases hmsg
  · by_cases htext : ∃ m, message = .ok (some (.msg m))
    · obtain ⟨m, rfl⟩ := htext
      rw [Gateway.attempt, dispatch, process_gatewayMaps, logPeer_state]
      exact hg
    · obtain ⟨sent, hstate, hsent⟩ := attempt_relays fmt hinfo protocol endpoint client g
      rw [hstate]
      refine hg.log fun x hx msg hmsg => ?_
      obtain ⟨c, m, hmessage, rfl⟩ := hsent x hx
      have hm : m = .msg msg := hmsg
      exact absurd ⟨msg, hm ▸ hmessage⟩ htext

theorem TextsOnly.disconnect (hg : TextsOnly g) (c : TcpClient) : TextsOnly (g.disconnect c).state := by
  by_cases h : Registered g c
  · obtain ⟨as, hubInfo, bs, _, hd⟩ := disconnect_eq h
    rw [hd]
    split
    · exact hg
    · rw [GatewayManager.broadcastTCP_state]
      refine TextsOnly.log hg fun x hx msg hmsg => ?_
      obtain ⟨d, _, rfl⟩ := List.mem_map.mp hx
      cases hmsg
  · rw [disconnect_unregistered h]
    exact hg

theorem TextsOnly.turn (hg : TextsOnly g) (fmt : TextFormat) (t : Turn) : TextsOnly (turn fmt g t) := by
  cases t with
  | network socket writeFails => exact hg
  | event e =>
    cases e with
    | receive source => exact hg
    | udp message =>
      rw [Gateway.turn, step_udp]
      exact hg.attempt fmt message .Udp (some g.udpEndpoint) none
    | tcp c message =>
      exact step_tcp_inv fmt (fun _ => hg.attempt fmt message .Tcp none (some c))
        (fun g h => h.disconnect c) hg

/-- **Whatever happens at a gateway**, its texts are those to try a protocol, and none has an id. -/
theorem texts_only (fmt : TextFormat) {g₀ : GatewayManager} (hsent : g₀.sent = []) (ts : List Turn) :
    ∀ x ∈ (turns fmt g₀ ts).sent, ∀ msg, sentMessage x = .msg msg →
      ∃ name t, .msg msg = (Message.new (some "Server") name (some t)).toMessage := by
  have hinv : TextsOnly (turns fmt g₀ ts) := by
    induction ts using List.reverseRecOn with
    | nil =>
      intro x hx
      change x ∈ g₀.sent at hx
      rw [hsent] at hx
      cases hx
    | append_singleton ts t ih =>
      rw [turns_concat]
      exact ih.turn fmt t
  intro x hx msg hmsg
  obtain ⟨name, t, htest⟩ := hinv x hx msg hmsg
  exact ⟨name, t, hmsg.symm.trans htest⟩

/-- **So no run of a gateway** has a hub's users receive a text. -/
theorem texts_not_received {pack : MessagePack BaseMessage MessageType} (hrt : pack.RoundTrip)
    (fmt : TextFormat) {g₀ : GatewayManager} (hsent : g₀.sent = []) {ts : List Turn} {x : Sent}
    (hx : x ∈ (turns fmt g₀ ts).sent) {msg : MessageMessage} (hmsg : sentMessage x = .msg msg)
    {frame : List UInt8} (hf : serialize pack (sentMessage x) = .ok frame) {a : Arrival}
    (ha : Carries frame x a) (h : HubManager) :
    ¬ ReceivedOnce (Message.ofMessage msg) h (round pack fmt h a) := by
  obtain ⟨name, t, htest⟩ := texts_only fmt hsent ts x hx msg hmsg
  rw [hmsg] at hf
  have hdecode : Arrival.decode pack fmt a = .ok (some (.msg msg)) := decode_carried hrt hf ha
  cases htest
  rw [receivedOnce_iff hdecode]
  exact not_noSender_new (some "Server") name (some t)

end

/-! ### One text -/

/-- The text for the hub `a`, which is an array of five: no id, three texts, no recipient. -/
def textBytes : List UInt8 :=
  0x95 :: 0xc0 :: (fixStr "Server" ++ fixStr "a" ++ fixStr "TCP Communication Test" ++ [0xc0])

def gateway : GatewayManager := .start anyEndPoint fun _ => .connected

/-- Its text for the hub `a`. -/
def text : BaseMessage := (Message.new (some "Server") (some "a") (some "TCP Communication Test")).toMessage

def textPack : MessagePack BaseMessage MessageType := tablePack [(text, textBytes)] (by decide)

theorem textPack_roundTrip : textPack.RoundTrip := tablePack_roundTrip (by decide)

theorem departs_text : Departs text gateway (.tcp 0 text) := .tcp (some 0) (List.mem_singleton_self _)

theorem serialize_text : serialize textPack text = .ok (frameBytes 1 textBytes) := by
  have hbody : textPack.serialize text = some textBytes := by decide
  rw [serialize, hbody]
  rfl

def textStream : ByteStream := ⟨frameBytes 1 textBytes, 0, fun _ => false⟩

theorem carries_text : Carries (frameBytes 1 textBytes) (.tcp 0 text) (.stream textStream) :=
  .tcp (List.append_nil _).symm fun _ _ _ => rfl

theorem text_never_received_test :
    Arrival.decode textPack dottedText (.stream textStream) = .ok (some text) ∧
      ¬ ReceivedOnce (Message.new (some "Server") (some "a") (some "TCP Communication Test"))
        Events.connectedHub (round textPack dottedText Events.connectedHub (.stream textStream)) :=
  text_never_received textPack_roundTrip _ _ _ departs_text serialize_text carries_text
    Events.connectedHub

/-- **The gateway's own text is not received.** -/
theorem test_not_received : ¬ ∀ (pack : MessagePack BaseMessage MessageType) (fmt : TextFormat)
    («from» «to» content : Option String) (g : GatewayManager) (x : Sent) (frame : List UInt8)
    (a : Arrival) (h : HubManager), pack.RoundTrip →
      Departs (Message.new «from» «to» content).toMessage g x →
      serialize pack (sentMessage x) = .ok frame → Carries frame x a →
        ReceivedOnce (Message.new «from» «to» content) h (round pack fmt h a) := by
  intro hall
  have hreceived := hall textPack dottedText _ _ _ gateway _ _ _ Events.connectedHub
    textPack_roundTrip departs_text serialize_text carries_text
  have hdecode : Arrival.decode textPack dottedText (.stream textStream) = .ok (some text) :=
    decode_carried textPack_roundTrip serialize_text carries_text
  exact not_noSender_new (some "Server") (some "a") (some "TCP Communication Test")
    ((receivedOnce_iff hdecode Events.connectedHub).mp hreceived)

end Blockcore.Network.Inbox
