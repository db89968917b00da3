import Blockcore.Network.Inbox
import Blockcore.Network.Traffic

/-!
# The bytes under way

`Links` has messages under way.  What is under way in fact are bytes: one frame after another on
each client, in whatever pieces they arrive, and one in each datagram.  Here the hubs and the
gateway are those of `Links`, and they serialize what they send and deserialize what they read.

A read that runs into the end of what has arrived waits (`waits`).  `step_matches` compares one
step with one of `Links`: as long as headers arrive whole (`Whole`), the two can be told apart only
by messages that MessagePack does not encode.  So what the bytes do the messages do
(`carried_run`), and the other way round (`carrying_run`).  A body may arrive in any pieces.
-/

namespace Blockcore.Network.Links.Bytes

open Lib Networking Gateway Hub

/-! ### Frames -/

section

variable (pack : MessagePack BaseMessage MessageType)

def Encodes (message : BaseMessage) : Prop := (pack.serialize message).isSome = true

instance : DecidablePred (Encodes pack) := fun _ => inferInstanceAs (Decidable (_ = true))

def frame (message : BaseMessage) : List UInt8 :=
  match serialize pack message with
  | .ok data => data
  | .error _ => []

def written (messages : List BaseMessage) : List UInt8 := messages.flatMap (frame pack)

variable {pack} {H : Type}

theorem serialize_of_encodes {message : BaseMessage} (h : Encodes pack message) :
    serialize pack message = .ok (frame pack message) := by
  obtain ⟨body, hbody⟩ := Option.isSome_iff_exists.mp h
  rw [frame, serialize, hbody]

/-- `Deserialize` waits for more: for a version, for any of a header, or for a body. -/
def waits (maps : MessageMaps MessageType H) (s : ByteStream) : Bool :=
  match readUInt16 s with
  | (.error _, _) => true
  | (.ok ver, s) =>
    if ver ≠ version then false
    else if s.rest.isEmpty then true
    else
      let (header, s) := readHeader s
      match maps.getMessageType header.command with
      | .error _ => false
      | .ok _ => decide (s.rest.length < header.size.toNat)

/-- A stream holds these messages, and arrives in these pieces. -/
def Holds (pack : MessagePack BaseMessage MessageType) (cut : Nat → Bool) (s : ByteStream)
    (messages : List BaseMessage) : Prop :=
  s.rest = written pack messages ∧ s.cut = cut

theorem Holds.write {cut : Nat → Bool} {s : ByteStream} {ms : List BaseMessage} (h : Holds pack cut s ms)
    (more : List BaseMessage) : Holds pack cut (s.write (written pack more)) (ms ++ more) := by
  refine ⟨?_, h.2⟩
  rw [ByteStream.write_rest, h.1, written, written, written, List.flatMap_append]

theorem Holds.waits {cut : Nat → Bool} {s : ByteStream} (h : Holds pack cut s [])
    (maps : MessageMaps MessageType H) : waits maps s = true := by
  have hrest : s.rest = [] := h.1
  rw [Bytes.waits, readUInt16_short s (by rw [hrest]; decide)]

/-- **A frame whose header arrives whole** is not waited for, and is read as it was sent. -/
theorem Holds.read (hrt : pack.RoundTrip) {maps : MessageMaps MessageType H} {cut : Nat → Bool}
    {s : ByteStream} {m : BaseMessage} {ms : List BaseMessage} (h : Holds pack cut s (m :: ms))
    (henc : Encodes pack m) (hreg : IsRegistered maps m) (hw : HeaderWhole s.cut s.pos) :
    Bytes.waits maps s = false ∧
      ∃ s', deserialize pack maps s = (.ok (some m), s') ∧ Holds pack cut s' ms := by
  obtain ⟨body, hbody, hf⟩ := frame_of_serialize (serialize_of_encodes henc)
  have hlt := pack.length_lt m body hbody
  have hrest : s.rest = frameBytes (command m) body ++ written pack ms := by
    rw [h.1, written, List.flatMap_cons, hf]
    rfl
  have htail : (s.advance 2).rest =
      HeaderInfo.bytes ⟨body.length, command m⟩ ++ (body ++ written pack ms) := by
    rw [ByteStream.advance_rest, hrest, frameBytes_eq]
    simp
  have hhead := readHeader_whole hlt htail fun j h0 h1 => hw j h0 h1
  have hver : readUInt16 s = (.ok version, s.advance 2) := by
    rw [readUInt16_cons s (by rw [hrest, frameBytes_eq]; rfl), version_ok]
  have hne : (s.advance 2).rest.isEmpty = false := by
    rw [htail]
    rfl
  have hread := deserialize_frame pack maps hreg hlt hrest hw
  rw [decodeAs, MessageMaps.getMessageType_of_some hreg] at hread
  simp only [hrt m body hbody] at hread
  refine ⟨?_, _, hread, ?_, h.2⟩
  · rw [Bytes.waits, hver]
    simp only [ne_eq, not_true_eq_false, if_false, hne, Bool.false_eq_true, hhead,
      MessageMaps.getMessageType_of_some hreg]
    rw [decide_eq_false_iff_not, ByteStream.advance_rest, htail,
      List.drop_left' (HeaderInfo.bytes_length _), List.length_append, Int.toNat_natCast]
    omega
  · rw [ByteStream.advance_rest, hrest, List.drop_left]

theorem deserializeBytes_frame (hrt : pack.RoundTrip) {maps : MessageMaps MessageType H} {m : BaseMessage}
    (henc : Encodes pack m) (hreg : IsRegistered maps m) :
    deserializeBytes pack maps (frame pack m) = .ok (some m) := by
  have hread := deserializeBytes_append hrt hreg (serialize_of_encodes henc) []
  rwa [List.append_nil] at hread

theorem hub_registered (fmt : TextFormat) (m : BaseMessage) : IsRegistered (hubMaps fmt) m := by
  cases m <;> rfl

theorem requestOrInfo_registered (fmt : TextFormat) {m : BaseMessage} (hm : requestOrInfo m) :
    IsRegistered (gatewayMaps fmt) m := by
  cases m with
  | req m => rfl
  | info m => rfl
  | _ => cases hm

/-- **A datagram at the gateway** has the effect of its message, also where it has no handler. -/
theorem step_udp_frame (hrt : pack.RoundTrip) (fmt : TextFormat) {m : BaseMessage} (henc : Encodes pack m)
    (g : GatewayManager) :
    Gateway.step fmt g (.udp (deserializeBytes pack (gatewayMaps fmt) (frame pack m))) =
      Gateway.step fmt g (.udp (.ok (some m))) := by
  by_cases hreg : IsRegistered (gatewayMaps fmt) m
  · rw [deserializeBytes_frame hrt henc hreg]
  · obtain ⟨body, hbody, hf⟩ := frame_of_serialize (serialize_of_encodes henc)
    have hnone : (gatewayMaps fmt).typeOf? (command m) = none := by
      cases m <;> first | exact absurd rfl hreg | rfl
    have hv : Versioned (frame pack m) := by rw [hf]; rfl
    obtain ⟨e, he⟩ : ∃ e, deserializeBytes pack (gatewayMaps fmt) (frame pack m) = .error e := by
      rw [deserializeBytes_eq pack _ hv, hf, frameBytes_eq, frameHeader_frame (pack.length_lt m body hbody)]
      refine decodeBody_error fun ty hty => ?_
      rw [hnone] at hty
      cases hty
    rw [he, step_udp, step_udp]
    cases m <;> first | exact absurd rfl hreg | rfl

end

/-! ### The network -/

structure Packet where
  source : IPEndPoint
  target : IPEndPoint
  data : List UInt8

/-- The hubs and the gateway, the clients, and the bytes under way on each of them; the datagrams;
and the one that the gateway's UDP worker has received and not handled. -/
structure State (ι : Type) where
  hub : ι → HubManager
  gateway : GatewayManager
  opened : List ι
  link : ι → Option TcpClient
  toGateway : TcpClient → ByteStream
  toHub : TcpClient → ByteStream
  packets : List Packet
  taken : Option (List UInt8)

section

variable {ι : Type} [DecidableEq ι] (pack : MessagePack BaseMessage MessageType) (fmt : TextFormat)
  (address : ι → IPEndPoint) (server : IPEndPoint)

def packet (d : Datagram) : Packet := ⟨d.source, d.target, frame pack d.message⟩

namespace State

/-- What a step of hub `i` that leaves it so sends. -/
def hubMessages (s : State ι) (i : ι) (h : HubManager) : List BaseMessage :=
  (if (s.link i).isSome then sentTCP (reaction (s.hub i) h) else []) ++
    (hubDatagrams (address i) (reaction (s.hub i) h)).map Datagram.message

/-- A step of hub `i` leaves it so, if what it sends can be serialized. -/
def setHub (s : State ι) (i : ι) (h : HubManager) : Option (State ι) :=
  if ∀ m ∈ s.hubMessages address i h, Encodes pack m then
    some { s with
      hub := Function.update s.hub i h
      toGateway := fun c =>
        if s.link i = some c then (s.toGateway c).write (written pack (sentTCP (reaction (s.hub i) h)))
        else s.toGateway c
      packets := s.packets ++ (hubDatagrams (address i) (reaction (s.hub i) h)).map (packet pack) }
  else none

/-- A step of the gateway leaves it so, if what it sends can be serialized. -/
def setGateway (s : State ι) (g : GatewayManager) : Option (State ι) :=
  let sent := g.sent.drop s.gateway.sent.length
  if ∀ x ∈ sent, Encodes pack (sentMessage x) then
    some { s with
      gateway := g
      toHub := fun c => (s.toHub c).write (written pack (sentTo sent c))
      packets := s.packets ++ (gatewayDatagrams server sent).map (packet pack) }
  else none

/-- Hub `i` has a new client, which the gateway accepts. -/
def accept (s : State ι) (i : ι) : State ι :=
  { s with
    opened := s.opened ++ [i]
    link := Function.update s.link i (some s.opened.length)
    gateway := { s.gateway with
      socket := Function.update s.gateway.socket s.opened.length .connected } }

end State

/-- One step, as in `Links`; what is received is what the bytes deserialize to. -/
def step (s : State ι) : Label ι → Option (State ι)
  | .connect i localEndPoint =>
    (s.accept i).setHub pack address i ((s.hub i).connectGateway fmt server localEndPoint)
  | .act i a => if ownStep a then s.setHub pack address i (Events.step fmt (s.hub i) a) else none
  | .send i message =>
    if message.getType = .HubInfoMessage then none
    else s.setHub pack address i ((s.hub i).sendMessageTCP message)
  | .receive i =>
    match s.link i with
    | none => none
    | some c =>
      if (s.hub i).listening .Tcp && !waits (hubMaps fmt) (s.toHub c) then
        let (message, rest) := deserialize pack (hubMaps fmt) (s.toHub c)
        let s := { s with toHub := Function.update s.toHub c rest }
        s.setHub pack address i ((s.hub i).listen fmt message .Tcp none)
      else none
  | .datagram i k =>
    match s.packets[k]? with
    | none => none
    | some p =>
      if p.target = address i ∧ (s.hub i).listening .Udp then
        let message := deserializeBytes pack (hubMaps fmt) p.data
        let s := { s with packets := s.packets.eraseIdx k }
        s.setHub pack address i ((s.hub i).listen fmt message .Udp (some p.source))
      else none
  | .lose k => some { s with packets := s.packets.eraseIdx k }
  | .network lost writeFails =>
    let socket c := if lost c && s.gateway.connected c then .lost else s.gateway.socket c
    some { s with gateway := { s.gateway with socket := socket, writeFails := writeFails } }
  | .gatewayDatagram k =>
    match s.packets[k]? with
    | none => none
    | some p =>
      if p.target = server ∧ s.taken.isNone then
        let s := { s with packets := s.packets.eraseIdx k, taken := some p.data }
        s.setGateway pack server (Gateway.step fmt s.gateway (.receive p.source))
      else none
  | .gatewayHandle =>
    match s.taken with
    | none => none
    | some data =>
      let message := deserializeBytes pack (gatewayMaps fmt) data
      let s := { s with taken := none }
      s.setGateway pack server (Gateway.step fmt s.gateway (.udp message))
  | .gatewayReceive c =>
    if s.gateway.connected c && !waits (gatewayMaps fmt) (s.toGateway c) then
      let (message, rest) := deserialize pack (gatewayMaps fmt) (s.toGateway c)
      let s := { s with toGateway := Function.update s.toGateway c rest }
      s.setGateway pack server (Gateway.step fmt s.gateway (.tcp c message))
    else none
  | .gatewayEnd c e => s.setGateway pack server (Gateway.step fmt s.gateway (.tcp c (.error e)))

/-- The gateway has a handler for what users send. -/
def Handled : Label ι → Prop
  | .send _ message => IsRegistered (gatewayMaps fmt) message
  | _ => True

def Whole (s : State ι) : Label ι → Prop
  | .receive i => ∀ c ∈ s.link i, HeaderWhole (s.toHub c).cut (s.toHub c).pos
  | .gatewayReceive c => HeaderWhole (s.toGateway c).cut (s.toGateway c).pos
  | _ => True

instance (l : Label ι) : Decidable (Handled fmt l) := by
  cases l <;> unfold Handled <;> infer_instance

instance (s : State ι) (l : Label ι) : Decidable (Whole s l) := by
  cases l <;> unfold Whole <;> infer_instance

/-! ### What the bytes stand for -/

/-- Where the pieces end, on each client and either way. -/
structure Pieces where
  toGateway : TcpClient → Nat → Bool
  toHub : TcpClient → Nat → Bool

/-- MessagePack encodes what is under way. -/
structure Encodable (s : Links.State ι) : Prop where
  toGateway : ∀ c, ∀ m ∈ s.toGateway c, Encodes pack m
  toHub : ∀ c, ∀ m ∈ s.toHub c, Encodes pack m
  datagrams : ∀ d ∈ s.datagrams, Encodes pack d.message
  taken : ∀ m ∈ s.taken, Encodes pack m

/-- The bytes under way are those of the messages. -/
structure Carries (pieces : Pieces) (b : State ι) (s : Links.State ι) : Prop where
  hub : b.hub = s.hub
  gateway : b.gateway = s.gateway
  opened : b.opened = s.opened
  link : b.link = s.link
  toGateway : ∀ c, Holds pack (pieces.toGateway c) (b.toGateway c) (s.toGateway c)
  toHub : ∀ c, Holds pack (pieces.toHub c) (b.toHub c) (s.toHub c)
  packets : b.packets = s.datagrams.map (packet pack)
  taken : b.taken = s.taken.map (frame pack)
  encodable : Encodable pack s
  handled : ∀ c, ∀ m ∈ s.toGateway c, IsRegistered (gatewayMaps fmt) m

variable {pack fmt address server} {pieces : Pieces} {b : State ι} {s : Links.State ι}

omit [DecidableEq ι] in
theorem Carries.mem_hubMessages (hc : Carries pack fmt pieces b s) {i : ι} {h : HubManager} {m : BaseMessage} :
    m ∈ b.hubMessages address i h ↔
      ((s.link i).isSome = true ∧ m ∈ sentTCP (reaction (s.hub i) h)) ∨
        ∃ d ∈ hubDatagrams (address i) (reaction (s.hub i) h), d.message = m := by
  rw [State.hubMessages, hc.hub, hc.link, List.mem_append, List.mem_map]
  refine or_congr_left ?_
  cases (s.link i).isSome <;> simp

/-- **A hub goes on**, and sends the same. -/
theorem Carries.setHub (hc : Carries pack fmt pieces b s) {i : ι} {h : HubManager}
    (hreg : ∀ m ∈ sentTCP (reaction (s.hub i) h), IsRegistered (gatewayMaps fmt) m) :
    Matches (Carries pack fmt pieces) (fun s' => ¬ Encodable pack s') (b.setHub pack address i h)
      (some (s.setHub address i h)) := by
  by_cases henc : ∀ m ∈ b.hubMessages address i h, Encodes pack m
  · rw [State.setHub, if_pos henc, hc.hub, hc.link]
    have hwrites : ∀ c m, m ∈ (s.setHub address i h).toGateway c → m ∈ s.toGateway c ∨
        s.link i = some c ∧ m ∈ sentTCP (reaction (s.hub i) h) := by
      intro c m hm
      simp only [Links.State.setHub] at hm
      split at hm
      · next hlink =>
        rcases List.mem_append.mp hm with hm | hm
        · exact Or.inl hm
        · exact Or.inr ⟨hlink, hm⟩
      · exact Or.inl hm
    refine .both ⟨rfl, hc.gateway, hc.opened, rfl, fun c => ?_, hc.toHub, ?_, hc.taken, ?_,
      fun c m hm => ?_⟩
    · simp only [Links.State.setHub]
      split
      · exact (hc.toGateway c).write _
      · exact hc.toGateway c
    · simp only [Links.State.setHub]
      rw [hc.packets, List.map_append]
    · refine ⟨fun c m hm => ?_, hc.encodable.toHub, fun d hd => ?_, hc.encodable.taken⟩
      · rcases hwrites c m hm with hm | ⟨hlink, hm⟩
        · exact hc.encodable.toGateway c m hm
        · exact henc m (hc.mem_hubMessages.mpr (Or.inl ⟨by rw [hlink]; rfl, hm⟩))
      · rcases List.mem_append.mp hd with hd | hd
        · exact hc.encodable.datagrams d hd
        · exact henc _ (hc.mem_hubMessages.mpr (Or.inr ⟨d, hd, rfl⟩))
    · rcases hwrites c m hm with hm | ⟨_, hm⟩
      · exact hc.handled c m hm
      · exact hreg m hm
  · rw [State.setHub, if_neg henc]
    refine .beyond fun hall => henc fun m hm => ?_
    rcases hc.mem_hubMessages.mp hm with ⟨hsome, hm⟩ | ⟨d, hd, rfl⟩
    · obtain ⟨c, hlink⟩ := Option.isSome_iff_exists.mp hsome
      refine hall.toGateway c m ?_
      simp only [Links.State.setHub, if_pos hlink]
      exact List.mem_append_right _ hm
    · exact hall.datagrams d (List.mem_append_right _ hd)

omit [DecidableEq ι] in
/-- **The gateway goes on**, and sends the same. -/
theorem Carries.setGateway (hc : Carries pack fmt pieces b s) (g : GatewayManager) :
    Matches (Carries pack fmt pieces) (fun s' => ¬ Encodable pack s') (b.setGateway pack server g)
      (some (s.setGateway server g)) := by
  by_cases henc : ∀ x ∈ g.sent.drop b.gateway.sent.length, Encodes pack (sentMessage x)
  · rw [State.setGateway, if_pos henc]
    rw [hc.gateway] at henc ⊢
    refine .both ⟨hc.hub, rfl, hc.opened, hc.link, hc.toGateway, fun c => (hc.toHub c).write _, ?_, hc.taken,
      ⟨hc.encodable.toGateway, fun c m hm => ?_, fun d hd => ?_, hc.encodable.taken⟩, hc.handled⟩
    · simp only [Links.State.setGateway]
      rw [hc.packets, List.map_append]
    · rcases List.mem_append.mp hm with hm | hm
      · exact hc.encodable.toHub c m hm
      · exact henc _ (mem_sentTo.mp hm)
    · rcases List.mem_append.mp hd with hd | hd
      · exact hc.encodable.datagrams d hd
      · exact henc _ (mem_gatewayDatagrams.mp hd).2
  · rw [State.setGateway, if_neg henc]
    refine .beyond fun hall => henc fun x hx => ?_
    rw [hc.gateway] at hx
    cases x with
    | tcp c m => exact hall.toHub c m (List.mem_append_right _ (mem_sentTo.mpr hx))
    | udp target m =>
      refine hall.datagrams ⟨server, target, m⟩ (List.mem_append_right _ ?_)
      exact mem_gatewayDatagrams.mpr ⟨rfl, hx⟩

theorem Carries.accept (hc : Carries pack fmt pieces b s) (i : ι) :
    Carries pack fmt pieces (b.accept i) (s.accept i) := by
  refine ⟨hc.hub, ?_, ?_, ?_, hc.toGateway, hc.toHub, hc.packets, hc.taken,
    ⟨hc.encodable.toGateway, hc.encodable.toHub, hc.encodable.datagrams, hc.encodable.taken⟩, hc.handled⟩
  · simp only [State.accept, Links.State.accept, hc.gateway, hc.opened]
  · simp only [State.accept, Links.State.accept, hc.opened]
  · simp only [State.accept, Links.State.accept, hc.opened, hc.link]

theorem holds_update {cut : TcpClient → Nat → Bool} {q : TcpClient → ByteStream}
    {ms : TcpClient → List BaseMessage} (h : ∀ c, Holds pack (cut c) (q c) (ms c)) {c : TcpClient}
    {q' : ByteStream} {rest : List BaseMessage} (hrest : Holds pack (cut c) q' rest) (d : TcpClient) :
    Holds pack (cut d) (Function.update q c q' d) (Function.update ms c rest d) := by
  by_cases hd : d = c
  · subst hd
    rw [Function.update_self, Function.update_self]
    exact hrest
  · rw [Function.update_of_ne hd, Function.update_of_ne hd]
    exact h d

omit [DecidableEq ι] in
theorem Carries.readHub (hc : Carries pack fmt pieces b s) {c : TcpClient} {m : BaseMessage}
    {rest : List BaseMessage} (hq : s.toHub c = m :: rest) {q : ByteStream}
    (hrest : Holds pack (pieces.toHub c) q rest) :
    Carries pack fmt pieces { b with toHub := Function.update b.toHub c q }
      { s with toHub := Function.update s.toHub c rest } :=
  ⟨hc.hub, hc.gateway, hc.opened, hc.link, hc.toGateway, holds_update hc.toHub hrest, hc.packets, hc.taken,
    ⟨hc.encodable.toGateway, fun d m hm => hc.encodable.toHub d m (mem_of_update hq hm),
      hc.encodable.datagrams, hc.encodable.taken⟩, hc.handled⟩

omit [DecidableEq ι] in
theorem Carries.readGateway (hc : Carries pack fmt pieces b s) {c : TcpClient} {m : BaseMessage}
    {rest : List BaseMessage} (hq : s.toGateway c = m :: rest) {q : ByteStream}
    (hrest : Holds pack (pieces.toGateway c) q rest) :
    Carries pack fmt pieces { b with toGateway := Function.update b.toGateway c q }
      { s with toGateway := Function.update s.toGateway c rest } :=
  ⟨hc.hub, hc.gateway, hc.opened, hc.link, holds_update hc.toGateway hrest, hc.toHub, hc.packets, hc.taken,
    ⟨fun d m hm => hc.encodable.toGateway d m (mem_of_update hq hm), hc.encodable.toHub,
      hc.encodable.datagrams, hc.encodable.taken⟩, fun d m hm => hc.handled d m (mem_of_update hq hm)⟩

omit [DecidableEq ι] in
theorem Carries.take (hc : Carries pack fmt pieces b s) (taken : Option BaseMessage)
    (htaken : ∀ m ∈ taken, Encodes pack m) :
    Carries pack fmt pieces { b with taken := taken.map (frame pack) } { s with taken := taken } :=
  ⟨hc.hub, hc.gateway, hc.opened, hc.link, hc.toGateway, hc.toHub, hc.packets, rfl,
    ⟨hc.encodable.toGateway, hc.encodable.toHub, hc.encodable.datagrams, htaken⟩, hc.handled⟩

omit [DecidableEq ι] in
theorem Carries.erase (hc : Carries pack fmt pieces b s) (k : Nat) :
    Carries pack fmt pieces { b with packets := b.packets.eraseIdx k }
      { s with datagrams := s.datagrams.eraseIdx k } := by
  refine ⟨hc.hub, hc.gateway, hc.opened, hc.link, hc.toGateway, hc.toHub, ?_, hc.taken,
    ⟨hc.encodable.toGateway, hc.encodable.toHub, fun d hd => ?_, hc.encodable.taken⟩, hc.handled⟩
  · simp only [hc.packets, List.eraseIdx_map]
  · exact hc.encodable.datagrams d (List.mem_of_mem_eraseIdx hd)

omit [DecidableEq ι] in
theorem Carries.gateway_step (hc : Carries pack fmt pieces b s) (e : Gateway.Event) :
    Gateway.step fmt b.gateway e = Gateway.step fmt s.gateway e := by rw [hc.gateway]

omit [DecidableEq ι] in
theorem registered_of_puts {i : ι} {h : HubManager} {new : List (BaseMessage × IPEndPoint)}
    (hp : Puts requestOrInfo (s.hub i) h new) :
    ∀ m ∈ sentTCP (reaction (s.hub i) h), IsRegistered (gatewayMaps fmt) m :=
  fun _ hm => requestOrInfo_registered fmt (hp.writes.sentTCP hm)

section

variable (address server) (hrt : pack.RoundTrip) (hc : Carries pack fmt pieces b s)
include hrt hc

theorem receive_matches {i : ι} (hw : Whole b (.receive i)) :
    Matches (Carries pack fmt pieces) (fun s' => ¬ Encodable pack s')
      (step pack fmt address server b (.receive i)) (Links.step fmt address server s (.receive i)) := by
  have hhub : b.hub i = s.hub i := congrFun hc.hub i
  rw [step, Links.step]
  cases hlink : s.link i with
  | none =>
    rw [show b.link i = none by rw [hc.link, hlink]]
    exact .neither
  | some c =>
    have hblink : b.link i = some c := by rw [hc.link, hlink]
    have hhold := hc.toHub c
    cases hq : s.toHub c with
    | nil =>
      rw [hq] at hhold
      simp only [hblink, hq, hhold.waits, Bool.not_true, Bool.and_false, Bool.false_eq_true, if_false]
      exact .neither
    | cons m rest =>
      rw [hq] at hhold
      have henc : Encodes pack m := hc.encodable.toHub c m (by rw [hq]; exact List.mem_cons_self ..)
      obtain ⟨hwaits, q, hread, hrest⟩ := hhold.read hrt henc (hub_registered fmt m) (hw c hblink)
      simp only [hblink, hq, hwaits, hread, hhub, Bool.not_false, Bool.and_true]
      split
      · obtain ⟨new, hnew, _⟩ := puts_listen fmt m .Tcp none (s.hub i)
        exact (hc.readHub hq hrest).setHub (registered_of_puts hnew)
      · exact .neither

theorem datagram_matches (i : ι) (k : Nat) :
    Matches (Carries pack fmt pieces) (fun s' => ¬ Encodable pack s')
      (step pack fmt address server b (.datagram i k)) (Links.step fmt address server s (.datagram i k)) := by
  have hhub : b.hub i = s.hub i := congrFun hc.hub i
  rw [step, Links.step]
  cases hd : s.datagrams[k]? with
  | none =>
    rw [show b.packets[k]? = none by rw [hc.packets, List.getElem?_map, hd]; rfl]
    exact .neither
  | some d =>
    have hp : b.packets[k]? = some (packet pack d) := by rw [hc.packets, List.getElem?_map, hd]; rfl
    have henc : Encodes pack d.message := hc.encodable.datagrams d (List.mem_of_getElem? hd)
    simp only [hp, packet, deserializeBytes_frame hrt henc (hub_registered fmt d.message), hhub]
    split
    · obtain ⟨new, hnew, _⟩ := puts_listen fmt d.message .Udp (some d.source) (s.hub i)
      exact (hc.erase k).setHub (registered_of_puts hnew)
    · exact .neither

theorem gatewayHandle_matches :
    Matches (Carries pack fmt pieces) (fun s' => ¬ Encodable pack s')
      (step pack fmt address server b .gatewayHandle) (Links.step fmt address server s .gatewayHandle) := by
  have hgateway := hc.gateway_step
  rw [step, Links.step]
  cases htaken : s.taken with
  | none =>
    rw [show b.taken = none by rw [hc.taken, htaken]; rfl]
    exact .neither
  | some m =>
    have htook : b.taken = some (frame pack m) := by rw [hc.taken, htaken]; rfl
    simp only [htook, step_udp_frame hrt fmt (hc.encodable.taken m htaken), hgateway]
    exact (hc.take none fun m hm => by cases hm).setGateway _

theorem gatewayReceive_matches {c : TcpClient} (hw : Whole b (.gatewayReceive c)) :
    Matches (Carries pack fmt pieces) (fun s' => ¬ Encodable pack s')
      (step pack fmt address server b (.gatewayReceive c))
      (Links.step fmt address server s (.gatewayReceive c)) := by
  have hgateway := hc.gateway_step
  have hconnected : b.gateway.connected c = s.gateway.connected c := by rw [hc.gateway]
  rw [step, Links.step]
  have hhold := hc.toGateway c
  cases hq : s.toGateway c with
  | nil =>
    rw [hq] at hhold
    simp only [hhold.waits, Bool.not_true, Bool.and_false, Bool.false_eq_true, if_false]
    exact .neither
  | cons m rest =>
    rw [hq] at hhold
    have hmem : m ∈ s.toGateway c := by rw [hq]; exact List.mem_cons_self ..
    have henc : Encodes pack m := hc.encodable.toGateway c m hmem
    obtain ⟨hwaits, q, hread, hrest⟩ := hhold.read hrt henc (hc.handled c m hmem) hw
    simp only [hwaits, hread, Bool.not_false, Bool.and_true, hgateway, hconnected]
    split
    · exact (hc.readGateway hq hrest).setGateway _
    · exact .neither

/-- **One step of the bytes is one of the messages**, unless MessagePack does not encode what is
sent. -/
theorem step_matches (l : Label ι) (hw : Whole b l) (hl : Handled fmt l) :
    Matches (Carries pack fmt pieces) (fun s' => ¬ Encodable pack s') (step pack fmt address server b l)
      (Links.step fmt address server s l) := by
  have hhub : ∀ i, b.hub i = s.hub i := fun i => congrFun hc.hub i
  have hgateway := hc.gateway_step
  cases l with
  | connect i localEndPoint =>
    rw [step, Links.step, hhub]
    exact (hc.accept i).setHub (registered_of_puts (puts_connectGateway fmt server localEndPoint (s.hub i)))
  | act i a =>
    rw [step, Links.step, hhub]
    split
    · next hown =>
      obtain ⟨new, hnew, _⟩ := puts_own fmt hown (s.hub i)
      exact hc.setHub (registered_of_puts hnew)
    · exact .neither
  | send i message =>
    rw [step, Links.step, hhub]
    split
    · exact .neither
    · refine hc.setHub fun m hm => ?_
      rw [(puts_sendMessageTCP message (s.hub i)).writes.sentTCP hm]
      exact hl
  | receive i => exact receive_matches address server hrt hc hw
  | datagram i k => exact datagram_matches address server hrt hc i k
  | lose k => exact .both (hc.erase k)
  | network lost writeFails =>
    rw [step, Links.step, hc.gateway]
    have henc : Encodable pack s := hc.encodable
    exact .both ⟨hc.hub, rfl, hc.opened, hc.link, hc.toGateway, hc.toHub, hc.packets, hc.taken,
      ⟨henc.toGateway, henc.toHub, henc.datagrams, henc.taken⟩, hc.handled⟩
  | gatewayDatagram k =>
    rw [step, Links.step]
    cases hd : s.datagrams[k]? with
    | none =>
      rw [show b.packets[k]? = none by rw [hc.packets, List.getElem?_map, hd]; rfl]
      exact .neither
    | some d =>
      have hp : b.packets[k]? = some (packet pack d) := by rw [hc.packets, List.getElem?_map, hd]; rfl
      have hnone : b.taken.isNone = s.taken.isNone := by rw [hc.taken, Option.isNone_map]
      simp only [hp, packet, hnone, hgateway]
      split
      · refine ((hc.erase k).take (some d.message) fun m hm => ?_).setGateway _
        rw [← Option.some.inj hm]
        exact hc.encodable.datagrams d (List.mem_of_getElem? hd)
      · exact .neither
  | gatewayHandle => exact gatewayHandle_matches address server hrt hc
  | gatewayReceive c => exact gatewayReceive_matches address server hrt hc hw
  | gatewayEnd c e =>
    rw [step, Links.step, hgateway]
    exact hc.setGateway _

end

/-! ### Runs -/

/-- MessagePack encodes what is under way after the step. -/
def Sendable (pack : MessagePack BaseMessage MessageType) (fmt : TextFormat) (address : ι → IPEndPoint)
    (server : IPEndPoint) (s : Links.State ι) (l : Label ι) : Prop :=
  ∀ s', Links.step fmt address server s l = some s' → Encodable pack s'

/-- **What the bytes do the messages do**, as long as headers arrive whole: the hubs and the gateway
are the same after every run. -/
theorem carried_run (hrt : pack.RoundTrip) {b₀ : State ι} {s₀ : Links.State ι}
    (h₀ : Carries pack fmt pieces b₀ s₀) {ls : List (Label ι)}
    (hrun : Reaches (step pack fmt address server) (fun b l => Whole b l ∧ Handled fmt l) b₀ ls b) :
    ∃ s, Reaches (Links.step fmt address server) (Sendable pack fmt address server) s₀ ls s ∧
      Carries pack fmt pieces b s := by
  obtain ⟨s, hs, hc⟩ :=
    hrun.matched (fun _ _ l hc hm => step_matches address server hrt hc l hm.1 hm.2) h₀
  refine ⟨s, hs.mono fun s l hm s' hs' => ?_, hc⟩
  obtain ⟨b', hb'⟩ := hm s' hs'
  exact hb'.encodable

/-- **What the messages do the bytes do**, if MessagePack encodes all of them and the headers that
the bytes come to arrive whole. -/
theorem carrying_run (hrt : pack.RoundTrip) {b₀ : State ι} {s₀ : Links.State ι}
    (h₀ : Carries pack fmt pieces b₀ s₀) {ls : List (Label ι)}
    (hwhole : Along (step pack fmt address server) Whole b₀ ls)
    (hrun : Reaches (Links.step fmt address server)
      (fun s l => Handled fmt l ∧ Sendable pack fmt address server s l) s₀ ls s) :
    ∃ b, Reaches (step pack fmt address server) (fun b l => Whole b l ∧ Handled fmt l) b₀ ls b ∧
      Carries pack fmt pieces b s := by
  refine Reaches.matching (fun _ l => Handled fmt l)
    (fun _ _ l hc hm => step_matches address server hrt hc l hm.1 hm.2)
    (fun _ _ _ _ hl hw => ⟨hw, hl⟩) h₀ ?_ hwhole
  exact hrun.mono fun s l hm => ⟨hm.1, fun s' hs' hnot => hnot (hm.2 s' hs')⟩

end

/-! ### A broadcast and a probe -/

/-- The hubs `b` and `a`, which are connected and know each other; nothing is under way. -/
def idle : Links.State Bool where
  hub i := { Events.connectedHub with
    localHubInfo := { id := some (if i then "a" else "b"), internalEndpoint := some (homes i) }
    connections := ConnectionManager.empty.addConnection
      { id := some (if i then "b" else "a"), externalEndpoint := some (homes !i) } }
  gateway := { Inbox.gateway with
    connections := [{ id := some "b", client := some 0 }, { id := some "a", client := some 1 }] }
  opened := [false, true]
  link i := some (if i then 1 else 0)
  toGateway _ := []
  toHub _ := []
  datagrams := []
  taken := none

/-- The frames of `a` are cut in their bodies and between them, and so are those the gateway
writes; one of its versions, too. -/
def cutUp : Pieces where
  toGateway _ n := [11, 13, 24, 30, 35, 46].contains n
  toHub _ n := [1, 14, 22, 33].contains n

def idleBytes : State Bool where
  hub := idle.hub
  gateway := idle.gateway
  opened := idle.opened
  link := idle.link
  toGateway c := ⟨[], 0, cutUp.toGateway c⟩
  toHub c := ⟨[], 0, cutUp.toHub c⟩
  packets := []
  taken := none

/-- What `a` broadcasts. -/
def greeting : BaseMessage := .broadcast ⟨some "a", some "a", some "HUB", some "hi"⟩

def talkPack : MessagePack BaseMessage MessageType :=
  tablePack [(keepAlive, keepAliveBytes),
    (greeting, 0x94 :: (fixStr "a" ++ fixStr "a" ++ fixStr "HUB" ++ fixStr "hi")),
    (.req ⟨some "a", some "b"⟩, 0x92 :: (fixStr "a" ++ fixStr "b")),
    (.ack ⟨some "a", none, false⟩, 0x93 :: (fixStr "a" ++ [0xc0, 0xc2])),
    (.ack ⟨some "a", some "b", true⟩, 0x93 :: (fixStr "a" ++ fixStr "b" ++ [0xc3]))] (by decide)

/-- `a` sends a keep-alive and broadcasts, which both hubs hear; it asks to be connected with `b`, of
which the gateway tells `b`; and it probes `b`, which replies. -/
def talk : List (Label Bool) :=
  [.send true keepAlive, .send true greeting, .gatewayReceive 1, .gatewayReceive 1, .receive true,
    .receive false, .act true (.connectToClient 0), .gatewayReceive 1, .receive false,
    .act true (.advance 0), .act true (.advance 0), .act true (.advance 0), .datagram false 0,
    .datagram true 0]

theorem talkPack_roundTrip : talkPack.RoundTrip := tablePack_roundTrip (by decide)

theorem carries_idle : Carries talkPack dottedText cutUp idleBytes idle where
  hub := rfl
  gateway := rfl
  opened := rfl
  link := rfl
  toGateway _ := ⟨rfl, rfl⟩
  toHub _ := ⟨rfl, rfl⟩
  packets := rfl
  taken := rfl
  encodable := by
    refine ⟨fun _ m hm => ?_, fun _ m hm => ?_, fun d hd => ?_, fun m hm => ?_⟩
    · cases hm
    · cases hm
    · cases hd
    · cases hm
  handled _ m hm := by cases hm

theorem talk_reaches : ∃ b, Reaches (step talkPack dottedText homes anyEndPoint)
    (fun b l => Whole b l ∧ Handled dottedText l) idleBytes talk b := by
  have hexec : (exec (fun b l => if Whole b l ∧ Handled dottedText l then
      step talkPack dottedText homes anyEndPoint b l else none) idleBytes talk).isSome = true := by
    decide +kernel
  obtain ⟨b, hb⟩ := Option.isSome_iff_exists.mp hexec
  exact ⟨b, reaches_of_exec hb⟩

theorem carried_run_talk : ∃ b s, Carries talkPack dottedText cutUp b s ∧
    Reaches (Links.step dottedText homes anyEndPoint) (Sendable talkPack dottedText homes anyEndPoint)
      idle talk s := by
  obtain ⟨b, hb⟩ := talk_reaches
  obtain ⟨s, hs, hc⟩ := carried_run talkPack_roundTrip carries_idle hb
  exact ⟨b, s, hc, hs⟩

theorem talk_messages : ∃ s, Reaches (Links.step dottedText homes anyEndPoint)
    (fun s l => Handled dottedText l ∧ Sendable talkPack dottedText homes anyEndPoint s l) idle talk s := by
  obtain ⟨b, hb⟩ := talk_reaches
  obtain ⟨s, hs, -⟩ := hb.matched
    (fun _ _ l hc hm => step_matches homes anyEndPoint talkPack_roundTrip hc l hm.1 hm.2) carries_idle
  have hhandled : ∀ l ∈ talk, Handled dottedText l := by decide
  refine ⟨s, hs.mono_mem fun t l hl hm => ⟨hhandled l hl, fun t' ht' => ?_⟩⟩
  obtain ⟨b', hb'⟩ := hm t' ht'
  exact hb'.encodable

theorem carrying_run_talk : ∃ b s, Carries talkPack dottedText cutUp b s ∧
    Reaches (step talkPack dottedText homes anyEndPoint) (fun b l => Whole b l ∧ Handled dottedText l)
      idleBytes talk b := by
  obtain ⟨b, hb⟩ := talk_reaches
  obtain ⟨s, hs⟩ := talk_messages
  obtain ⟨b', hb', hc⟩ := carrying_run talkPack_roundTrip carries_idle
    (fun done l t hpre ht => (hb.along done l t hpre ht).1) hs
  exact ⟨b', s, hc, hb'⟩

end Blockcore.Network.Links.Bytes
