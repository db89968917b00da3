import Blockcore.Gateway.Workers
import Blockcore.Networking.Framing

/-!
# When the thread of a client ends

The loop of a client's thread runs while the client is connected.  At the end of
its stream every `Deserialize` throws and every `catch` calls `Disconnect`, which
closes a client that is registered and does nothing about any other.

`tcpLoop_ends_iff` says when the loop ends: the client is not connected, or a hub
is registered under it, or one of the messages its bytes decode to registers one.
Each direction follows one step of the loop: `attempt_registered_iff` is what a
message does to the client's registration, and nothing takes it away again but
the `Disconnect` that closes it.
-/

namespace Blockcore.Gateway

open Lib Networking

/-- The messages that calling `Deserialize` again and again gets out of a stream,
whatever the calls in between throw. -/
inductive Receives {Msg Ty H : Type} (pack : MessagePack Msg Ty) (maps : MessageMaps Ty H) :
    ByteStream → Msg → Prop where
  | here {s : ByteStream} {m : Msg} : (deserialize pack maps s).1 = .ok (some m) →
      Receives pack maps s m
  | later {s : ByteStream} {m : Msg} : Receives pack maps (deserialize pack maps s).2 m →
      Receives pack maps s m

theorem not_receives_end {Msg Ty H : Type} {pack : MessagePack Msg Ty} {maps : MessageMaps Ty H}
    {s : ByteStream} {m : Msg} (hs : s.rest = []) : ¬ Receives pack maps s m := by
  intro h
  induction h with
  | @here s m hd =>
    rw [deserialize_short pack maps s (by rw [hs]; decide)] at hd
    cases hd
  | @later s m _ ih =>
    refine ih ?_
    obtain ⟨k, _, hk, _⟩ := deserialize_advance pack maps s
    rw [hk, ByteStream.advance_rest, hs, List.drop_nil]

section

variable {fmt : TextFormat} {g : GatewayManager} {c : TcpClient}

/-- A message registers the client it comes over if it is a hub's and its texts
parse. -/
def Registers (fmt : TextFormat) (message : Except Exception (Option BaseMessage)) : Prop :=
  ∃ m p, message = .ok (some (.info m)) ∧ Parses fmt m p

theorem processInfo_registered_iff (m : HubInfoMessage) (hc : g.socket c ≠ .closed) :
    Registered (processInfo fmt m .Tcp none (some c) g).state c ↔
      Registered g c ∨ ∃ p, Parses fmt m p := by
  by_cases hp : ∃ p, Parses fmt m p
  · obtain ⟨p, hparse⟩ := hp
    obtain ⟨as, found, bs, _, henter, hproc⟩ := processInfo_of_parses .Tcp none (some c) (g := g) hparse
      (fun d hd => by rw [Option.mem_some] at hd; rwa [← hd])
    refine ⟨fun _ => Or.inr ⟨p, hparse⟩, fun _ => ?_⟩
    rw [hproc, henter, registered_iff_mem_map,
      announce_map HubInfo.client (fun _ _ => rfl) (show _ = as ++ _ :: bs from rfl)]
    simp [entry, heardFrom]
  · obtain ⟨e, l, hproc, hl⟩ := processInfo_refused .Tcp none (some c) (g := g) hp
    rw [hproc, Outcome.state_thrown, registered_iff_mem_map, registered_iff_mem_map,
      map_eq_of_carried (fun _ _ h => h.client) hl]
    exact ⟨Or.inl, fun h => h.resolve_right hp⟩

variable (fmt) in
/-- **What one message over a client does to its registration.** -/
theorem attempt_registered_iff (message : Except Exception (Option BaseMessage))
    (hc : g.socket c ≠ .closed) :
    Registered (attempt fmt message .Tcp none (some c) g).state c ↔
      Registered g c ∨ Registers fmt message := by
  by_cases hinfo : ∃ m, message = .ok (some (.info m))
  · obtain ⟨m, rfl⟩ := hinfo
    rw [attempt_info, processInfo_registered_iff m hc]
    refine or_congr_right ⟨?_, ?_⟩
    · rintro ⟨p, hp⟩
      exact ⟨m, p, rfl, hp⟩
    · rintro ⟨m', p, hm, hp⟩
      cases hm
      exact ⟨p, hp⟩
  · have hno : ¬ Registers fmt message := fun ⟨m, _, hm, _⟩ => hinfo ⟨m, hm⟩
    rw [Registered, attempt_connections fmt hinfo, or_iff_left hno]
    rfl

/-! ### Steps of the loop -/

variable {pack : MessagePack BaseMessage MessageType} {s : ByteStream}

def Ends (fmt : TextFormat) (pack : MessagePack BaseMessage MessageType) (c : TcpClient)
    (s : ByteStream) (g : GatewayManager) : Prop := ∃ n, (tcpLoop fmt pack c n s g).isSome = true

theorem ends_of_not_connected (h : ¬ g.connected c = true) : Ends fmt pack c s g :=
  ⟨1, by rw [tcpLoop, if_neg h]; rfl⟩

theorem ends_of_round (h : g.connected c = true)
    (hnext : ∀ g', tcpRound fmt c (deserialize pack (gatewayMaps fmt) s).1 g = .done g' →
      Ends fmt pack c (deserialize pack (gatewayMaps fmt) s).2 g') : Ends fmt pack c s g := by
  cases hr : tcpRound fmt c (deserialize pack (gatewayMaps fmt) s).1 g with
  | thrown e g' => exact ⟨1, by rw [tcpLoop, if_pos h, hr]; rfl⟩
  | done g' =>
    obtain ⟨n, hn⟩ := hnext g' hr
    exact ⟨n + 1, by rw [tcpLoop, if_pos h, hr]; exact hn⟩

theorem round_of_thrown {message : Except Exception (Option BaseMessage)} {e : Exception}
    {g₁ g' : GatewayManager} (ha : attempt fmt message .Tcp none (some c) g = .thrown e g₁)
    (hreg : Registered g₁ c) (hr : tcpRound fmt c message g = .done g') :
    ¬ g'.connected c = true := by
  rw [tcpRound, ha, Outcome.thrown_handle] at hr
  have := disconnect_closes hreg
  rw [hr, Outcome.state_done] at this
  rw [this]
  simp

/-- **The thread of a registered client ends**: with every iteration its stream
gets shorter, and at the end it is closed. -/
theorem ends_of_registered : ∀ (n : Nat) (s : ByteStream) (g : GatewayManager),
    s.rest.length ≤ n → Registered g c → Ends fmt pack c s g := by
  intro n
  induction n with
  | zero =>
    intro s g hn hreg
    by_cases hconn : g.connected c = true
    · refine ends_of_round hconn fun g' hr => ends_of_not_connected ?_
      have hd : (deserialize pack (gatewayMaps fmt) s).1 = .error .endOfStream := by
        rw [deserialize_short pack (gatewayMaps fmt) s (by omega)]
      exact round_of_thrown (by rw [hd]; rfl) hreg hr
    · exact ends_of_not_connected hconn
  | succ n ih =>
    intro s g hn hreg
    by_cases hconn : g.connected c = true
    · refine ends_of_round hconn fun g' hr => ?_
      have hkeep := (attempt_registered_iff fmt (deserialize pack (gatewayMaps fmt) s).1
        (GatewayManager.connected_ne_closed hconn)).mpr (Or.inl hreg)
      cases ha : attempt fmt (deserialize pack (gatewayMaps fmt) s).1 .Tcp none (some c) g with
      | thrown e g₁ =>
        rw [ha] at hkeep
        exact ends_of_not_connected (round_of_thrown ha hkeep hr)
      | done g₁ =>
        rw [ha] at hkeep
        rw [tcpRound, ha] at hr
        rw [← Outcome.done.inj hr]
        -- a message was read, so the stream was not at its end
        have hne : s.rest ≠ [] := by
          intro hnil
          rw [deserialize_short pack (gatewayMaps fmt) s (by rw [hnil]; decide)] at ha
          cases ha
        obtain ⟨k, hk, hs, hpos⟩ := deserialize_advance pack (gatewayMaps fmt) s
        have := hpos hne
        refine ih _ _ ?_ hkeep
        rw [hs, ByteStream.advance_rest, List.length_drop]
        omega
    · exact ends_of_not_connected hconn

/-- **A message that registers the client** ends its thread in the end. -/
theorem ends_of_receives {m : HubInfoMessage} {p : Parsed} (hp : Parses fmt m p)
    (h : Receives pack (gatewayMaps fmt) s (.info m)) :
    ∀ g : GatewayManager, Ends fmt pack c s g := by
  generalize hm : BaseMessage.info m = message at h
  induction h with
  | @here s message hd =>
    intro g
    subst hm
    by_cases hconn : g.connected c = true
    · refine ends_of_round hconn fun g' hr => ?_
      have hreg := (attempt_registered_iff fmt (deserialize pack (gatewayMaps fmt) s).1
        (GatewayManager.connected_ne_closed hconn)).mpr (Or.inr ⟨m, p, hd, hp⟩)
      cases ha : attempt fmt (deserialize pack (gatewayMaps fmt) s).1 .Tcp none (some c) g with
      | thrown e g₁ =>
        rw [ha] at hreg
        exact ends_of_not_connected (round_of_thrown ha hreg hr)
      | done g₁ =>
        rw [ha] at hreg
        rw [tcpRound, ha] at hr
        rw [← Outcome.done.inj hr]
        exact ends_of_registered _ _ _ (Nat.le_refl _) hreg
    · exact ends_of_not_connected hconn
  | @later s message _ ih =>
    intro g
    by_cases hconn : g.connected c = true
    · exact ends_of_round hconn fun g' _ => ih hm g'
    · exact ends_of_not_connected hconn

/-- **Without either the thread goes on for ever**: every exception finds the
client unregistered. -/
theorem tcpLoop_none : ∀ (n : Nat) (s : ByteStream) (g : GatewayManager), g.connected c = true →
    ¬ Registered g c → (∀ m p, Receives pack (gatewayMaps fmt) s (.info m) → ¬ Parses fmt m p) →
    tcpLoop fmt pack c n s g = none := by
  intro n
  induction n with
  | zero => intro s g _ _ _; rfl
  | succ n ih =>
    intro s g hconn hreg hno
    have hsame := attempt_sameSockets fmt (deserialize pack (gatewayMaps fmt) s).1 .Tcp none (some c) g
    have hreg₁ : ¬ Registered
        (attempt fmt (deserialize pack (gatewayMaps fmt) s).1 .Tcp none (some c) g).state c := by
      rw [attempt_registered_iff _ _ (GatewayManager.connected_ne_closed hconn)]
      rintro (h | ⟨m, p, hm, hp⟩)
      · exact hreg h
      · exact hno m p (.here hm) hp
    have hround : tcpRound fmt c (deserialize pack (gatewayMaps fmt) s).1 g =
        .done (attempt fmt (deserialize pack (gatewayMaps fmt) s).1 .Tcp none (some c) g).state := by
      rw [tcpRound]
      cases ha : attempt fmt (deserialize pack (gatewayMaps fmt) s).1 .Tcp none (some c) g with
      | done g₁ => rfl
      | thrown e g₁ =>
        rw [ha] at hreg₁
        exact disconnect_unregistered hreg₁
    rw [tcpLoop, if_pos hconn, hround]
    refine ih _ _ ?_ hreg₁ fun m p h => hno m p (.later h)
    rw [hsame.connected]
    exact hconn

/-- **When the thread of a client ends**: exactly when the client is not
connected, or some hub is registered under it, or its bytes decode to a hub's
message that parses. -/
theorem tcpLoop_ends_iff (fmt : TextFormat) (pack : MessagePack BaseMessage MessageType)
    (c : TcpClient) (s : ByteStream) (g : GatewayManager) :
    (∃ n, (tcpLoop fmt pack c n s g).isSome = true) ↔
      g.connected c = false ∨ Registered g c ∨
        ∃ m p, Receives pack (gatewayMaps fmt) s (.info m) ∧ Parses fmt m p := by
  refine ⟨?_, ?_⟩
  · rintro ⟨n, hn⟩
    by_contra hnot
    push Not at hnot
    obtain ⟨hconn, hreg, hno⟩ := hnot
    rw [tcpLoop_none n s g (by simpa using hconn) hreg hno] at hn
    cases hn
  · rintro (hconn | hreg | ⟨m, p, h, hp⟩)
    · exact ends_of_not_connected (by rw [hconn]; simp)
    · exact ends_of_registered _ s g (Nat.le_refl _) hreg
    · exact ends_of_receives hp h g

end

/-- **A client that says nothing** is asked for ever. -/
theorem silent_client_never_ends :
    ¬ ∀ (fmt : TextFormat) (pack : MessagePack BaseMessage MessageType) (c : TcpClient)
      (s : ByteStream) (g : GatewayManager), ∃ n, (tcpLoop fmt pack c n s g).isSome = true := by
  intro hall
  obtain ⟨n, hn⟩ := hall ⟨fun _ => "", fun _ => none, fun _ => "", fun _ => none, fun _ => none⟩
    keepAlivePack 1 ⟨[], 0, fun _ => false⟩
    (.start anyEndPoint fun _ => .connected)
  rw [tcpLoop_none n _ _ rfl (by rintro ⟨h, hh, _⟩; cases hh)
    (fun m p h _ => not_receives_end rfl h)] at hn
  cases hn

end Blockcore.Gateway
