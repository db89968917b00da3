import Blockcore.Gateway.Workers
import Blockcore.Networking.DottedText

/-!
# What a disconnect leaves behind

`Disconnect` looks up one hub by the client, drops it and tells the others.  A
client may have announced several ids, each with its own object under the same
client; the others stay.

`departure_law_iff` is the exact condition, in every run: no registration under
the client is left, and every hub that was under it was reported gone, exactly
when it was one hub at most.
-/

namespace Blockcore.Gateway

open Lib Networking

/-- What a disconnect of `c` should have done: no hub is registered under it,
and every connected hub has been told of every one that was. -/
structure DepartureLaw (g g' : GatewayManager) (c : TcpClient) : Prop where
  gone : ¬ Registered g' c
  notified : ∀ h ∈ g.connections, h.client = some c →
    ∀ r ∈ g'.connections, ∀ d, r.client = some d → g'.connected d = true →
      disconnected h ∈ sentTo (g'.sent.drop g.sent.length) d

/-- How many hubs are registered under the client. -/
def registrations (g : GatewayManager) (c : TcpClient) : Nat :=
  g.connections.countP (fun h => h.client == some c)

section

variable {g g' : GatewayManager} {c : TcpClient}

theorem registered_iff_registrations : Registered g c ↔ 0 < registrations g c := by
  rw [registrations, List.countP_pos_iff]
  simp [Registered]

theorem registrations_of_cut {as bs : List HubInfo} {hubInfo : HubInfo}
    (hcut : CutAt (fun x => x.client == some c) g.connections as (some hubInfo) bs) :
    registrations g c = 1 + bs.countP (fun h => h.client == some c) := by
  have hl : g.connections = as ++ hubInfo :: bs := hcut.eq
  have has : as.countP (fun h => h.client == some c) = 0 := by
    rw [List.countP_eq_zero]
    intro h hh
    rw [hcut.not_before h hh]
    simp
  rw [registrations, hl, List.countP_append, List.countP_cons, has,
    if_pos (hcut.matches_found hubInfo rfl)]
  omega

/-- **One disconnect**: the law holds exactly when at most one hub was
registered under the client. -/
theorem disconnect_law_iff (hw : ∀ d, g.writeFails d = false) (hret : g.disconnect c = .done g') :
    DepartureLaw g g' c ↔ registrations g c ≤ 1 := by
  by_cases hreg : Registered g c
  · obtain ⟨as, hubInfo, bs, hcut, hd⟩ := disconnect_eq hreg
    have hl : g.connections = as ++ hubInfo :: bs := hcut.eq
    rw [hret] at hd
    split at hd
    · cases hd
    · rw [GatewayManager.broadcastTCP_alive (g := dropped g c as bs) _ (fun d _ => hw d)] at hd
      have hg' := Outcome.done.inj hd
      have hconn : g'.connections = as ++ bs := by rw [hg']; rfl
      have hsent : g'.sent.drop g.sent.length =
          ((dropped g c as bs).liveClients (as ++ bs)).map (.tcp · (disconnected hubInfo)) := by
        rw [hg', GatewayManager.log_sent, dropped_sent, List.drop_left]
        rfl
      rw [registrations_of_cut hcut]
      refine ⟨?_, ?_⟩
      · intro law
        have hbs : bs.countP (fun h => h.client == some c) = 0 := by
          rw [List.countP_eq_zero]
          intro h hh hc
          exact law.gone ⟨h, by rw [hconn]; exact List.mem_append_right _ hh, by simpa using hc⟩
        omega
      · intro hone
        have hbs : ∀ h ∈ bs, h.client ≠ some c := by
          have hzero : bs.countP (fun h => h.client == some c) = 0 := by omega
          rw [List.countP_eq_zero] at hzero
          intro h hh hc
          exact hzero h hh (by simpa using hc)
        have has : ∀ h ∈ as, h.client ≠ some c := by
          intro h hh hc
          have := hcut.not_before h hh
          simp [hc] at this
        refine ⟨?_, ?_⟩
        · rintro ⟨h, hh, hc⟩
          rw [hconn, List.mem_append] at hh
          rcases hh with hh | hh
          · exact has h hh hc
          · exact hbs h hh hc
        · intro h hh hc r hr d hd hlive
          -- the hub that was under the client is the one the others are told of
          have hself : h = hubInfo := by
            rw [hl, List.mem_append, List.mem_cons] at hh
            rcases hh with hh | hh | hh
            · exact absurd hc (has h hh)
            · exact hh
            · exact absurd hc (hbs h hh)
          have hmem : d ∈ (dropped g c as bs).liveClients (as ++ bs) := by
            rw [hg'] at hlive
            exact GatewayManager.mem_liveClients.mpr ⟨hlive, r, by rw [← hconn]; exact hr, hd⟩
          rw [hsent, sentTo_map_tcp, hself]
          exact List.mem_replicate.mpr ⟨(List.count_pos_iff.mpr hmem).ne', rfl⟩
  · rw [disconnect_unregistered hreg] at hret
    have hg' := (Outcome.done.inj hret).symm
    subst hg'
    rw [registered_iff_registrations] at hreg
    refine ⟨fun _ => by omega, fun _ => ⟨by rw [registered_iff_registrations]; exact hreg, ?_⟩⟩
    intro h hh hc
    exact absurd (registered_iff_registrations.mp ⟨h, hh, hc⟩) hreg

end

/-- **No stale registrations survive a disconnect, in any run, exactly when the
client had announced one hub at most.** -/
theorem departure_law_iff (fmt : TextFormat) (udpEndpoint : IPEndPoint)
    (socket : TcpClient → SocketState) (events : List Event) (c : TcpClient) (g' : GatewayManager)
    (hret : (run fmt (.start udpEndpoint socket) events).disconnect c = .done g') :
    DepartureLaw (run fmt (.start udpEndpoint socket) events) g' c ↔
      registrations (run fmt (.start udpEndpoint socket) events) c ≤ 1 :=
  disconnect_law_iff (fun d => by rw [run_writeFails]; rfl) hret

def announces (c : TcpClient) (id : String) : Event :=
  .tcp c (.ok (some (({ id := some id } : HubInfo).toMessage dottedText)))

/-- The gateway after these clients announced these ids. -/
def afterAnnouncing (hubs : List (TcpClient × String)) : GatewayManager :=
  run dottedText (.start anyEndPoint fun _ => .connected) (hubs.map fun hub => announces hub.1 hub.2)

/-- One of three hubs leaves. -/
theorem departure_law_iff_three :
    DepartureLaw (afterAnnouncing [(1, "a"), (2, "b"), (3, "c")])
      ((afterAnnouncing [(1, "a"), (2, "b"), (3, "c")]).disconnect 2).state 2 := by
  have hdone : (afterAnnouncing [(1, "a"), (2, "b"), (3, "c")]).disconnect 2 =
      .done ((afterAnnouncing [(1, "a"), (2, "b"), (3, "c")]).disconnect 2).state :=
    Outcome.eq_done_of_threw (by decide +kernel)
  exact (departure_law_iff dottedText anyEndPoint _ _ 2 _ hdone).mpr (by decide +kernel)

/-- **A client that announced two ids leaves one behind.** -/
theorem second_id_stays :
    ¬ ∀ (fmt : TextFormat) (udpEndpoint : IPEndPoint) (socket : TcpClient → SocketState)
      (events : List Event) (c : TcpClient) (g' : GatewayManager),
      (run fmt (.start udpEndpoint socket) events).disconnect c = .done g' →
      DepartureLaw (run fmt (.start udpEndpoint socket) events) g' c := by
  intro hall
  have hdone : (afterAnnouncing [(1, "a"), (2, "c"), (1, "b")]).disconnect 1 =
      .done ((afterAnnouncing [(1, "a"), (2, "c"), (1, "b")]).disconnect 1).state :=
    Outcome.eq_done_of_threw (by decide +kernel)
  have hstays : ∃ h ∈ ((afterAnnouncing [(1, "a"), (2, "c"), (1, "b")]).disconnect 1).state.connections,
      h.client = some 1 := by
    decide +kernel
  exact (hall dottedText anyEndPoint _ _ 1 _ hdone).gone hstays

end Blockcore.Gateway
