import Blockcore.Networking.Messages

/-!
# Entities

The classes of `Entities/` and their conversions to and from messages.

`HubInfo` is the one with state: a gateway and a hub keep one for every hub they
know and change it as messages come.  Both conversions of a `HubInfoMessage`
parse text and may throw.  The constructor then makes no object; `update` has
already assigned what stands before the text that does not parse, so it returns
an `Outcome`.

`update_of_parses` and `ofMessage_of_parses` are what both do on a message whose
texts parse, and `toMessage_parses` says every message a `HubInfo` is turned
into is one.
-/

namespace Blockcore.Networking

open Lib

/-! ### Acknowledgements, requests, broadcasts, messages, notifications -/

/-- `Ack`. -/
structure Ack where
  id : Option String := none
  recipientId : Option String := none
  response : Bool := false
  deriving DecidableEq

/-- `new Ack(senderId)`. -/
def Ack.new (senderId : Option String) : Ack := { id := senderId }

/-- `new Ack(message)`. -/
def Ack.ofMessage (message : AckMessage) : Ack :=
  { id := message.id, recipientId := message.recipientId, response := message.response }

def Ack.toMessage (a : Ack) : BaseMessage :=
  .ack { id := a.id, recipientId := a.recipientId, response := a.response }

/-- `Req`. -/
structure Req where
  id : Option String := none
  recipientId : Option String := none
  deriving DecidableEq

/-- `new Req(senderId, recipientId)`. -/
def Req.new (senderId recipientId : Option String) : Req :=
  { id := senderId, recipientId := recipientId }

/-- `new Req(message)`. -/
def Req.ofMessage (message : ReqMessage) : Req :=
  { id := message.id, recipientId := message.recipientId }

def Req.toMessage (r : Req) : BaseMessage := .req { id := r.id, recipientId := r.recipientId }

/-- `Broadcast`. -/
structure Broadcast where
  id : Option String := none
  «from» : Option String := none
  content : Option String := none
  «to» : Option String := none
  deriving DecidableEq

/-- `new Broadcast(message)`. -/
def Broadcast.ofMessage (message : BroadcastMessage) : Broadcast :=
  { «from» := message.from, content := message.content, id := message.id, «to» := message.to }

def Broadcast.toMessage (b : Broadcast) : BaseMessage :=
  .broadcast { «from» := b.from, content := b.content, id := b.id, «to» := b.to }

/-- **A relayed broadcast is the broadcast**: the copy has all four fields. -/
@[simp] theorem Broadcast.toMessage_ofMessage (m : BroadcastMessage) :
    (Broadcast.ofMessage m).toMessage = .broadcast m := rfl

/-- `Message`. -/
structure Message where
  id : Option String := none
  «from» : Option String := none
  «to» : Option String := none
  content : Option String := none
  recipientId : Option String := none
  deriving DecidableEq

/-- `new Message(from, to, content)`. -/
def Message.new («from» «to» content : Option String) : Message :=
  { «from» := «from», «to» := «to», content := content }

/-- `new Message(message)`. -/
def Message.ofMessage (message : MessageMessage) : Message :=
  { «from» := message.from, «to» := message.to, content := message.content, id := message.id,
    recipientId := message.recipientId }

def Message.toMessage (m : Message) : BaseMessage :=
  .msg { «from» := m.from, «to» := m.to, content := m.content, id := m.id,
         recipientId := m.recipientId }

/-- `Notification`. -/
structure Notification where
  id : Option String := none
  type : NotificationsTypes
  tag : Option String
  deriving DecidableEq

/-- `new Notification(type, tag)`. -/
def Notification.new (type : NotificationsTypes) (tag : Option String) : Notification :=
  { type := type, tag := tag }

/-- The message has the type and the tag; its `Id` stays null. -/
def Notification.toMessage (n : Notification) : BaseMessage :=
  .notification { type := n.type, tag := n.tag }

/-! ### `HubInfo` -/

/-- `HubInfo`. -/
structure HubInfo where
  id : Option String := none
  name : Option String := none
  externalEndpoint : Option IPEndPoint := none
  internalEndpoint : Option IPEndPoint := none
  firstName : Option String := none
  connectionType : ConnectionTypes := .Unknown
  internalAddresses : List IPAddress := []
  client : Option TcpClient := none
  initialized : Bool := false
  deriving DecidableEq

section

variable (fmt : TextFormat)

/-- `IPEndPoint.Parse` behind the guard both conversions have: blank text is
left alone, the rest has to parse. -/
def parseEndpoint (text : Option String) : Except Exception (Option IPEndPoint) :=
  if isNullOrWhiteSpace text then .ok none
  else
    match text.bind fmt.endPointParse with
    | none => .error .format
    | some e => .ok (some e)

/-- `Enum.Parse<ConnectionTypes>`. -/
def parseConnectionType (text : Option String) : Except Exception ConnectionTypes :=
  match text with
  | none => .error (.argumentNull "value")
  | some s =>
    match fmt.connectionTypeParse s with
    | none => .error .argument
    | some t => .ok t

/-- `IPAddress.Parse`. -/
def parseAddress (text : Option String) : Except Exception IPAddress :=
  match text with
  | none => .error (.argumentNull "ipString")
  | some s =>
    match fmt.addressParse s with
    | none => .error .format
    | some a => .ok a

/-- `new HubInfo(message)`. -/
def HubInfo.ofMessage (message : HubInfoMessage) : Except Exception HubInfo := do
  let externalEndpoint ← parseEndpoint fmt message.externalEndpoint
  let internalEndpoint ← parseEndpoint fmt message.internalEndpoint
  let connectionType ← parseConnectionType fmt message.connectionType
  let internalAddresses ← (message.internalAddresses.getD []).mapM (parseAddress fmt)
  return { name := message.name, id := message.id, firstName := message.firstName,
           externalEndpoint := externalEndpoint, internalEndpoint := internalEndpoint,
           connectionType := connectionType, internalAddresses := internalAddresses }

namespace HubInfo

/-- An assignment whose right-hand side is parsed. -/
def assign {α : Type} (value : Except Exception α) (set : HubInfo → α → HubInfo) (h : HubInfo) :
    Outcome Exception HubInfo :=
  match value with
  | .error e => .thrown e h
  | .ok a => .done (set h a)

/-- The loop that adds the addresses of a message. -/
def addAddresses (addresses : List (Option String)) (h : HubInfo) : Outcome Exception HubInfo :=
  Outcome.forEach (fun addr h => assign (parseAddress fmt addr)
    (fun h a => { h with internalAddresses := h.internalAddresses ++ [a] }) h) addresses h

/-- `HubInfo.Update(HubInfoMessage)`, on the object as it goes. -/
def update (h : HubInfo) (message : HubInfoMessage) : Outcome Exception HubInfo :=
  if h.id = message.id then
    (assign (parseConnectionType fmt message.connectionType)
        (fun h t => { h with connectionType := t }) { h with name := message.name}).andThen fun h =>
    (assign (parseEndpoint fmt message.externalEndpoint)
        (fun h e => { h with externalEndpoint := e <|> h.externalEndpoint })
        { h with firstName := message.firstName }).andThen fun h =>
    (assign (parseEndpoint fmt message.internalEndpoint)
        (fun h e => { h with internalEndpoint := e <|> h.internalEndpoint }) h).andThen fun h =>
    match message.internalAddresses with
    | some (a :: as) => addAddresses fmt (a :: as) { h with internalAddresses := [] }
    | _ => .done h
  else .done h

/-- `HubInfo.Simplified`. -/
def simplified (h : HubInfo) : HubInfo :=
  { name := h.name, id := h.id, externalEndpoint := h.externalEndpoint,
    internalEndpoint := h.internalEndpoint }

/-- `HubInfo.ToMessage`; the first name is not sent. -/
def toHubInfoMessage (h : HubInfo) : HubInfoMessage :=
  { name := h.name, id := h.id,
    externalEndpoint := h.externalEndpoint.map fmt.endPointToString,
    internalEndpoint := h.internalEndpoint.map fmt.endPointToString,
    connectionType := some h.connectionType.toString,
    internalAddresses := some (h.internalAddresses.map (fun a => some (fmt.addressToString a))) }

def toMessage (h : HubInfo) : BaseMessage := .info (h.toHubInfoMessage fmt)

end HubInfo

/-! ### What is sent -/

/-- `IBaseEntity`, of what hubs send over UDP; the texts of a `HubInfo` are made by `fmt`. -/
inductive Entity where
  | ack (a : Ack)
  | hubInfo (fmt : TextFormat) (x : HubInfo)

namespace Entity

def id : Entity → Option String
  | ack a => a.id
  | hubInfo _ x => x.id

def setId (id : Option String) : Entity → Entity
  | ack a => .ack { a with id := id }
  | hubInfo fmt x => .hubInfo fmt { x with id := id }

def toMessage : Entity → BaseMessage
  | ack a => a.toMessage
  | hubInfo fmt x => x.toMessage fmt

@[simp] theorem setId_id (id : Option String) (entity : Entity) : (entity.setId id).id = id := by
  cases entity <;> rfl

end Entity

/-! ### Messages that parse -/

/-- What the texts of a message parse to. -/
structure Parsed where
  externalEndpoint : Option IPEndPoint
  internalEndpoint : Option IPEndPoint
  connectionType : ConnectionTypes
  internalAddresses : List IPAddress

/-- Every text of the message parses, to these values. -/
structure Parses (message : HubInfoMessage) (p : Parsed) : Prop where
  externalEndpoint : parseEndpoint fmt message.externalEndpoint = .ok p.externalEndpoint
  internalEndpoint : parseEndpoint fmt message.internalEndpoint = .ok p.internalEndpoint
  connectionType : parseConnectionType fmt message.connectionType = .ok p.connectionType
  internalAddresses :
    (message.internalAddresses.getD []).mapM (parseAddress fmt) = .ok p.internalAddresses

variable {fmt}

/-- The object a constructor makes of a message that parses. -/
def Parsed.create (p : Parsed) (message : HubInfoMessage) : HubInfo :=
  { name := message.name, id := message.id, firstName := message.firstName,
    externalEndpoint := p.externalEndpoint, internalEndpoint := p.internalEndpoint,
    connectionType := p.connectionType, internalAddresses := p.internalAddresses }

/-- What an update by a message that parses makes of an object: null endpoints
and empty lists leave what is known alone. -/
def Parsed.apply (p : Parsed) (message : HubInfoMessage) (h : HubInfo) : HubInfo :=
  { h with
    name := message.name, firstName := message.firstName, connectionType := p.connectionType,
    externalEndpoint := p.externalEndpoint <|> h.externalEndpoint,
    internalEndpoint := p.internalEndpoint <|> h.internalEndpoint,
    internalAddresses :=
      if p.internalAddresses = [] then h.internalAddresses else p.internalAddresses }

theorem ofMessage_of_parses {message : HubInfoMessage} {p : Parsed} (hp : Parses fmt message p) :
    HubInfo.ofMessage fmt message = .ok (p.create message) := by
  rw [HubInfo.ofMessage, hp.externalEndpoint, hp.internalEndpoint, hp.connectionType,
    hp.internalAddresses]
  rfl

/-- **A constructor that succeeds parsed every text.** -/
theorem parses_of_ofMessage {message : HubInfoMessage} {h : HubInfo}
    (hm : HubInfo.ofMessage fmt message = .ok h) : ∃ p, Parses fmt message p := by
  rw [HubInfo.ofMessage] at hm
  cases he : parseEndpoint fmt message.externalEndpoint with
  | error e => rw [he] at hm; simp [bind, Except.bind] at hm
  | ok externalEndpoint =>
    cases hi : parseEndpoint fmt message.internalEndpoint with
    | error e => rw [he, hi] at hm; simp [bind, Except.bind] at hm
    | ok internalEndpoint =>
      cases ht : parseConnectionType fmt message.connectionType with
      | error e => rw [he, hi, ht] at hm; simp [bind, Except.bind] at hm
      | ok connectionType =>
        cases ha : (message.internalAddresses.getD []).mapM (parseAddress fmt) with
        | error e => rw [he, hi, ht, ha] at hm; simp [bind, Except.bind] at hm
        | ok addresses => exact ⟨⟨_, _, _, _⟩, he, hi, ht, ha⟩

theorem ofMessage_id {message : HubInfoMessage} {h : HubInfo}
    (hm : HubInfo.ofMessage fmt message = .ok h) : h.id = message.id := by
  obtain ⟨p, hp⟩ := parses_of_ofMessage hm
  rw [ofMessage_of_parses hp] at hm
  rw [← Except.ok.inj hm]
  rfl

theorem mapM_cons_eq_ok {α β ε : Type} {f : α → Except ε β} {a : α} {as : List α} {bs : List β} :
    (a :: as).mapM f = .ok bs ↔ ∃ b bs', f a = .ok b ∧ as.mapM f = .ok bs' ∧ bs = b :: bs' := by
  rw [List.mapM_cons]
  cases f a with
  | error e => simp [bind, Except.bind]
  | ok b =>
    cases as.mapM f with
    | error e => simp [bind, Except.bind]
    | ok bs' => simp [bind, Except.bind, pure, Except.pure, eq_comm]

theorem addAddresses_of_parses : ∀ {addresses : List (Option String)} {as : List IPAddress}
    {h : HubInfo}, addresses.mapM (parseAddress fmt) = .ok as →
    HubInfo.addAddresses fmt addresses h =
      .done { h with internalAddresses := h.internalAddresses ++ as } := by
  intro addresses
  induction addresses with
  | nil =>
    intro as h ha
    cases ha
    simp [HubInfo.addAddresses]
  | cons addr addresses ih =>
    intro as h ha
    obtain ⟨a, as', h1, h2, rfl⟩ := mapM_cons_eq_ok.mp ha
    have := ih (h := { h with internalAddresses := h.internalAddresses ++ [a] }) h2
    simp only [List.append_assoc, List.singleton_append] at this
    rw [HubInfo.addAddresses, Outcome.forEach_cons, h1]
    exact this

theorem addAddresses_of_error : ∀ {addresses : List (Option String)} {e : Exception}
    {h h' : HubInfo}, addresses.mapM (parseAddress fmt) = .error e →
    HubInfo.addAddresses fmt addresses h ≠ .done h' := by
  intro addresses
  induction addresses with
  | nil => intro e h h' ha; cases ha
  | cons addr addresses ih =>
    intro e h h' ha
    rw [HubInfo.addAddresses, Outcome.forEach_cons]
    cases hp : parseAddress fmt addr with
    | error e' => simp [HubInfo.assign]
    | ok a =>
      rw [List.mapM_cons, hp] at ha
      cases hm : addresses.mapM (parseAddress fmt) with
      | error e' => exact ih hm
      | ok as => rw [hm] at ha; cases ha

/-- **An update by a message that parses** succeeds. -/
theorem update_of_parses {message : HubInfoMessage} {p : Parsed} (hp : Parses fmt message p)
    {h : HubInfo} (hid : h.id = message.id) : h.update fmt message = .done (p.apply message h) := by
  have ha := hp.internalAddresses
  rw [HubInfo.update, if_pos hid, hp.connectionType, hp.externalEndpoint, hp.internalEndpoint]
  simp only [HubInfo.assign, Outcome.done_andThen]
  match hm : message.internalAddresses, ha with
  | none, ha =>
    have hnil : p.internalAddresses = [] := (Except.ok.inj ha).symm
    simp only [Parsed.apply, if_pos hnil]
  | some [], ha =>
    have hnil : p.internalAddresses = [] := (Except.ok.inj ha).symm
    simp only [Parsed.apply, if_pos hnil]
  | some (a :: as), ha =>
    rw [Option.getD_some] at ha
    obtain ⟨b, bs, _, _, hb⟩ := mapM_cons_eq_ok.mp ha
    simp only [addAddresses_of_parses ha, Parsed.apply, List.nil_append]
    rw [if_neg (by rw [hb]; simp)]

theorem parses_of_update {message : HubInfoMessage} {h h' : HubInfo} (hid : h.id = message.id)
    (hu : h.update fmt message = .done h') : ∃ p, Parses fmt message p := by
  rw [HubInfo.update, if_pos hid] at hu
  cases ht : parseConnectionType fmt message.connectionType with
  | error e => rw [ht] at hu; cases hu
  | ok connectionType =>
    cases he : parseEndpoint fmt message.externalEndpoint with
    | error e => rw [ht, he] at hu; cases hu
    | ok externalEndpoint =>
      cases hi : parseEndpoint fmt message.internalEndpoint with
      | error e => rw [ht, he, hi] at hu; cases hu
      | ok internalEndpoint =>
        cases ha : (message.internalAddresses.getD []).mapM (parseAddress fmt) with
        | ok addresses => exact ⟨⟨_, _, _, _⟩, he, hi, ht, ha⟩
        | error e =>
          rw [ht, he, hi] at hu
          simp only [HubInfo.assign, Outcome.done_andThen] at hu
          match hm : message.internalAddresses, ha with
          | none, ha => cases ha
          | some [], ha => cases ha
          | some (a :: as), ha =>
            rw [hm] at hu
            rw [Option.getD_some] at ha
            exact absurd hu (addAddresses_of_error ha)

variable (fmt) in
/-- **What an update keeps**, however it ends: it touches six fields, and an endpoint
that is known stays known. -/
theorem update_state_inv {P : HubInfo → Prop}
    (hset : ∀ k name firstName connectionType (externalEndpoint internalEndpoint : Option IPEndPoint)
      internalAddresses, P k →
      P { k with name := name, firstName := firstName, connectionType := connectionType,
                 externalEndpoint := externalEndpoint <|> k.externalEndpoint,
                 internalEndpoint := internalEndpoint <|> k.internalEndpoint,
                 internalAddresses := internalAddresses })
    {h : HubInfo} (message : HubInfoMessage) (hP : P h) : P (h.update fmt message).state := by
  have hassign : ∀ {α : Type} (v : Except Exception α) {set : HubInfo → α → HubInfo} {k : HubInfo},
      P k → (∀ a, P (set k a)) → P (HubInfo.assign v set k).state := by
    intro α v set k hk hs
    cases v with
    | error e => exact hk
    | ok a => exact hs a
  rw [HubInfo.update]
  split
  · have hname : P { h with name := message.name } :=
      hset h message.name h.firstName h.connectionType none none h.internalAddresses hP
    refine Outcome.andThen_inv
      (hassign _ hname fun t => hset _ message.name h.firstName t none none _ hname) fun k hk => ?_
    have hfirst : P { k with firstName := message.firstName } :=
      hset k k.name message.firstName k.connectionType none none k.internalAddresses hk
    refine Outcome.andThen_inv (hassign _ hfirst fun e =>
      hset _ k.name message.firstName k.connectionType e none _ hfirst) fun k hk => ?_
    refine Outcome.andThen_inv (hassign _ hk fun e =>
      hset k k.name k.firstName k.connectionType none e k.internalAddresses hk) fun k hk => ?_
    have haddresses : ∀ k as, P k → P { k with internalAddresses := as } := fun k as hk =>
      hset k k.name k.firstName k.connectionType none none as hk
    split
    · exact Outcome.forEach_inv (P := P) (fun _ _ k hk => hassign _ hk fun _ => haddresses k _ hk)
        (haddresses k [] hk)
    · exact hk
  · exact hP

variable (fmt) in
theorem update_state_id (h : HubInfo) (message : HubInfoMessage) :
    (h.update fmt message).state.id = h.id :=
  update_state_inv fmt (P := fun k => k.id = h.id) (fun _ _ _ _ _ _ _ hk => hk) message rfl

/-- The second is the same hub over the same client; whatever endpoint was known
still is. -/
structure Carried (x x' : HubInfo) : Prop where
  id : x'.id = x.id
  client : x'.client = x.client
  initialized : x'.initialized = x.initialized
  externalEndpoint : x.externalEndpoint.isSome = true → x'.externalEndpoint.isSome = true

theorem Carried.refl (x : HubInfo) : Carried x x := ⟨rfl, rfl, rfl, fun h => h⟩

theorem isSome_orElse {α : Type} (x : Option α) {y : Option α} (hy : y.isSome = true) :
    (x <|> y).isSome = true := by
  cases x with
  | none => exact hy
  | some a => rfl

variable (fmt) in
theorem update_carried (h : HubInfo) (message : HubInfoMessage) :
    Carried h (h.update fmt message).state :=
  update_state_inv fmt (P := Carried h) (fun _ _ _ _ e _ _ hk =>
    ⟨hk.id, hk.client, hk.initialized, fun hh => isSome_orElse e (hk.externalEndpoint hh)⟩)
    message (.refl h)

/-! ### The messages hubs send -/

theorem parseEndpoint_toString (hf : fmt.Lawful) (e : Option IPEndPoint) :
    parseEndpoint fmt (e.map fmt.endPointToString) = .ok e := by
  cases e with
  | none => rfl
  | some e =>
    rw [Option.map_some, parseEndpoint, if_neg (by rw [hf.endPoint_not_blank]; simp),
      Option.bind_some, hf.endPointParse_toString]

theorem mapM_parseAddress_toString (hf : fmt.Lawful) (as : List IPAddress) :
    (as.map (fun a => some (fmt.addressToString a))).mapM (parseAddress fmt) = .ok as := by
  induction as with
  | nil => rfl
  | cons a as ih =>
    rw [List.map_cons]
    refine mapM_cons_eq_ok.mpr ⟨a, as, ?_, ih, rfl⟩
    rw [parseAddress]
    simp only [hf.addressParse_toString]

/-- The values the texts of a hub's message stand for. -/
def HubInfo.parsed (h : HubInfo) : Parsed :=
  ⟨h.externalEndpoint, h.internalEndpoint, h.connectionType, h.internalAddresses⟩

/-- **Every message a `HubInfo` is turned into parses**, to the values it had. -/
theorem toMessage_parses (hf : fmt.Lawful) (h : HubInfo) :
    Parses fmt (h.toHubInfoMessage fmt) h.parsed where
  externalEndpoint := parseEndpoint_toString hf h.externalEndpoint
  internalEndpoint := parseEndpoint_toString hf h.internalEndpoint
  connectionType := by
    simp [HubInfo.toHubInfoMessage, parseConnectionType, hf.connectionTypeParse_toString,
      HubInfo.parsed]
  internalAddresses := mapM_parseAddress_toString hf h.internalAddresses

end

end Blockcore.Networking
