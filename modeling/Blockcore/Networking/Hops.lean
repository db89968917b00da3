import Blockcore.Networking.DottedText
import Blockcore.Networking.Entities

/-!
# Relay hops

A gateway makes an entity of a message and a message of the entity.  An `Ack`, a
`Req`, a `Message` or a `Broadcast` comes out of any number of such hops as it
went in.  A `HubInfo` loses its first name in the first: `HubInfoMessage` has one,
the constructor and `Update` read it, and `ToMessage` does not write it.
-/

namespace Blockcore.Networking

/-! ### Casts -/

/-- `new Ack((AckMessage)message)`. -/
def Ack.ofBaseMessage : BaseMessage → Except Exception Ack
  | .ack m => .ok (Ack.ofMessage m)
  | _ => .error .invalidCast

/-- `new Req((ReqMessage)message)`. -/
def Req.ofBaseMessage : BaseMessage → Except Exception Req
  | .req m => .ok (Req.ofMessage m)
  | _ => .error .invalidCast

/-- `new Message((MessageMessage)message)`. -/
def Message.ofBaseMessage : BaseMessage → Except Exception Message
  | .msg m => .ok (Message.ofMessage m)
  | _ => .error .invalidCast

/-- `new Broadcast((BroadcastMessage)message)`. -/
def Broadcast.ofBaseMessage : BaseMessage → Except Exception Broadcast
  | .broadcast m => .ok (Broadcast.ofMessage m)
  | _ => .error .invalidCast

/-- `new HubInfo((HubInfoMessage)message)`. -/
def HubInfo.ofBaseMessage (fmt : TextFormat) : BaseMessage → Except Exception HubInfo
  | .info m => HubInfo.ofMessage fmt m
  | _ => .error .invalidCast

/-! ### Hops -/

section

variable {E : Type} {toMessage : E → BaseMessage} {ofMessage : BaseMessage → Except Exception E}

variable (toMessage ofMessage) in
/-- An entity after so many hops, each to its message and back. -/
def hops : Nat → E → Except Exception E
  | 0, x => .ok x
  | n + 1, x => (ofMessage (toMessage x)).bind (hops n)

theorem hops_of_fixed {x : E} (h : ofMessage (toMessage x) = .ok x) (n : Nat) :
    hops toMessage ofMessage n x = .ok x := by
  induction n with
  | zero => rfl
  | succ n ih => rw [hops, h, Except.bind, ih]

end

/-- The fields a `HubInfoMessage` has are equal. -/
structure SameFields (x y : HubInfo) : Prop where
  id : y.id = x.id
  name : y.name = x.name
  firstName : y.firstName = x.firstName
  externalEndpoint : y.externalEndpoint = x.externalEndpoint
  internalEndpoint : y.internalEndpoint = x.internalEndpoint
  connectionType : y.connectionType = x.connectionType
  internalAddresses : y.internalAddresses = x.internalAddresses

/-- A `HubInfo` on the other side of a hop. -/
def HubInfo.relayed (x : HubInfo) : HubInfo :=
  { x with firstName := none, client := none, initialized := false }

section

variable {fmt : TextFormat}

/-- **One hop** takes the first name. -/
theorem hop_eq (hf : fmt.Lawful) (x : HubInfo) :
    HubInfo.ofBaseMessage fmt (x.toMessage fmt) = .ok x.relayed :=
  ofMessage_of_parses (toMessage_parses hf x)

theorem hops_succ_eq (hf : fmt.Lawful) (x : HubInfo) (n : Nat) :
    hops (HubInfo.toMessage fmt) (HubInfo.ofBaseMessage fmt) (n + 1) x = .ok x.relayed := by
  rw [hops, hop_eq hf, Except.bind]
  exact hops_of_fixed (hop_eq hf x.relayed) n

theorem hubInfo_survives_iff (hf : fmt.Lawful) (x : HubInfo) (n : Nat) :
    (∃ y, hops (HubInfo.toMessage fmt) (HubInfo.ofBaseMessage fmt) n x = .ok y ∧ SameFields x y) ↔
      n = 0 ∨ x.firstName = none := by
  cases n with
  | zero => exact ⟨fun _ => Or.inl rfl, fun _ => ⟨x, rfl, ⟨rfl, rfl, rfl, rfl, rfl, rfl, rfl⟩⟩⟩
  | succ n =>
    rw [hops_succ_eq hf]
    refine ⟨?_, ?_⟩
    · rintro ⟨y, hy, hsame⟩
      obtain rfl := Except.ok.inj hy
      exact Or.inr hsame.firstName.symm
    · rintro (h | h)
      · cases h
      · exact ⟨x.relayed, rfl, ⟨rfl, rfl, h.symm, rfl, rfl, rfl, rfl⟩⟩

end

/-- **Entities survive any number of hops**, and a `HubInfo` does exactly if it has no
first name to lose. -/
theorem entities_survive_iff {fmt : TextFormat} (hf : fmt.Lawful) (n : Nat) :
    (∀ x : Ack, hops Ack.toMessage Ack.ofBaseMessage n x = .ok x) ∧
    (∀ x : Req, hops Req.toMessage Req.ofBaseMessage n x = .ok x) ∧
    (∀ x : Message, hops Message.toMessage Message.ofBaseMessage n x = .ok x) ∧
    (∀ x : Broadcast, hops Broadcast.toMessage Broadcast.ofBaseMessage n x = .ok x) ∧
    ∀ x : HubInfo,
      (∃ y, hops (HubInfo.toMessage fmt) (HubInfo.ofBaseMessage fmt) n x = .ok y ∧
        SameFields x y) ↔ n = 0 ∨ x.firstName = none :=
  ⟨fun _ => hops_of_fixed rfl n, fun _ => hops_of_fixed rfl n, fun _ => hops_of_fixed rfl n,
    fun _ => hops_of_fixed rfl n, fun x => hubInfo_survives_iff hf x n⟩

def named : HubInfo := { id := some "a", firstName := some "f" }

theorem entities_survive_iff_named :
    (∃ y, hops (HubInfo.toMessage dottedText) (HubInfo.ofBaseMessage dottedText) 1 named = .ok y ∧
      SameFields named y) ↔ 1 = 0 ∨ named.firstName = none :=
  (entities_survive_iff dottedText_lawful 1).2.2.2.2 named

/-- **The first name is lost in one hop.** -/
theorem first_name_lost :
    ¬ ∃ y, hops (HubInfo.toMessage dottedText) (HubInfo.ofBaseMessage dottedText) 1 named = .ok y ∧
      SameFields named y := by
  rw [hubInfo_survives_iff dottedText_lawful]
  decide

end Blockcore.Networking
