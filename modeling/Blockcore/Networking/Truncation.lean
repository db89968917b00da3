import Blockcore.Networking.Datagrams

/-!
# Datagrams that are cut

A datagram holds one frame, and may hold more; or it holds less, if it was cut on
the way.  `datagram_exact` says that what stands behind a frame does not matter, and
that no cut frame is taken for a message.

Where the frame is cut inside the header nobody notices at once: what is missing is
zero, so the header may name another class and another size.  But then no byte of a
body is left, and no class decodes from none.
-/

namespace Blockcore.Networking

open Lib

section

variable {Msg Ty H : Type} [MessageClass Msg Ty] {pack : MessagePack Msg Ty} {maps : MessageMaps Ty H}

/-- No class decodes from an encoding that is cut, or from no bytes. -/
structure MessagePack.RejectsCuts (pack : MessagePack Msg Ty) : Prop where
  cut : ∀ m body, pack.serialize m = some body → ∀ p, p <+: body → p ≠ body →
    pack.deserialize (MessageClass.getType m) p = none
  empty : ∀ ty, pack.deserialize ty [] = none

/-- The command of the message is registered, for its class. -/
def IsRegistered (maps : MessageMaps Ty H) (m : Msg) : Prop :=
  maps.typeOf? (command m) = some (MessageClass.getType m)

instance [DecidableEq Ty] (maps : MessageMaps Ty H) (m : Msg) : Decidable (IsRegistered maps m) :=
  inferInstanceAs (Decidable (_ = _))

theorem frame_of_serialize {m : Msg} {f : List UInt8} (h : serialize pack m = .ok f) :
    ∃ body, pack.serialize m = some body ∧ f = frameBytes (command m) body := by
  rw [serialize] at h
  cases hb : pack.serialize m with
  | none => rw [hb] at h; cases h
  | some body =>
    rw [hb] at h
    exact ⟨body, rfl, (Except.ok.inj h).symm⟩

/-- **What stands behind a frame does not matter.** -/
theorem deserializeBytes_append (hrt : pack.RoundTrip) {m : Msg} (hreg : IsRegistered maps m)
    {f : List UInt8} (hf : serialize pack m = .ok f) (rest : List UInt8) :
    deserializeBytes pack maps (f ++ rest) = .ok (some m) := by
  obtain ⟨body, hb, rfl⟩ := frame_of_serialize hf
  have hread := deserialize_frame pack maps (s := memoryStream (frameBytes (command m) body ++ rest))
    hreg (pack.length_lt m body hb) rfl (fun _ _ _ => rfl)
  rw [deserializeBytes, hread, decodeAs, MessageMaps.getMessageType_of_some hreg]
  simp only [hrt m body hb]

omit [MessageClass Msg Ty] in
/-- A header and the bytes behind it are refused if no class they could name decodes
from these bytes. -/
theorem decodeBody_error {header : HeaderInfo} {body : List UInt8}
    (h : ∀ ty, maps.typeOf? header.command = some ty →
      pack.deserialize ty (body.take header.size.toNat) = none) :
    ∃ e, decodeBody pack maps header body = .error e := by
  rw [decodeBody]
  cases hty : maps.typeOf? header.command with
  | none =>
    obtain ⟨e, he⟩ := MessageMaps.getMessageType_of_none hty
    exact ⟨e, by rw [he]⟩
  | some ty =>
    rw [MessageMaps.getMessageType_of_some hty]
    by_cases hneg : header.size < 0
    · exact ⟨_, if_pos hneg⟩
    · exact ⟨.messagePack, by simp only [if_neg hneg, h ty hty]⟩

theorem frameHeader_frame {n : Nat} (hn : n < 2 ^ 31) (c : UInt16) (p : List UInt8) :
    frameHeader (1 :: 0 :: (HeaderInfo.bytes ⟨n, c⟩ ++ p)) = ⟨n, c⟩ := by
  have htake : ((1 :: 0 :: (HeaderInfo.bytes ⟨n, c⟩ ++ p)).drop versionByteSize).take
      HeaderInfo.byteSize = HeaderInfo.bytes ⟨n, c⟩ :=
    List.take_left' (HeaderInfo.bytes_length _)
  rw [frameHeader, htake]
  simp [HeaderInfo.ofBytes_bytes hn]

theorem frameBody_frame (n : Nat) (c : UInt16) (p : List UInt8) :
    frameBody (1 :: 0 :: (HeaderInfo.bytes ⟨n, c⟩ ++ p)) = p :=
  List.drop_left' (HeaderInfo.bytes_length _)

/-- **A frame that is cut is refused**, wherever it is cut. -/
theorem deserializeBytes_prefix (hcuts : pack.RejectsCuts) {m : Msg} (hreg : IsRegistered maps m)
    {f : List UInt8} (hf : serialize pack m = .ok f) {p : List UInt8} (hp : p <+: f) (hne : p ≠ f) :
    ∃ e, deserializeBytes pack maps p = .error e := by
  obtain ⟨body, hb, rfl⟩ := frame_of_serialize hf
  have hlt := pack.length_lt m body hb
  by_cases hv : Versioned p
  · obtain ⟨l, rfl⟩ := versioned_iff.mp hv
    rw [deserializeBytes_eq pack maps hv]
    refine decodeBody_error fun ty hty => ?_
    rw [frameBytes_eq] at hp hne
    have hl : l <+: HeaderInfo.bytes ⟨body.length, command m⟩ ++ body := by
      simpa [List.cons_prefix_cons] using hp
    by_cases hlen : l.length ≤ HeaderInfo.byteSize
    · -- nothing is left behind the header
      have hnil : frameBody (1 :: 0 :: l) = [] := by
        rw [frameBody, List.drop_eq_nil_iff]
        simp only [List.length_cons, versionByteSize]
        omega
      rw [hnil, List.take_nil]
      exact hcuts.empty ty
    · -- the header is all there, and the body is cut
      obtain ⟨b, rfl⟩ : HeaderInfo.bytes ⟨body.length, command m⟩ <+: l :=
        List.prefix_of_prefix_length_le (List.prefix_append _ body) hl
          (by rw [HeaderInfo.bytes_length]; omega)
      have hbody : b <+: body := (List.prefix_append_right_inj _).mp hl
      rw [frameHeader_frame hlt] at hty ⊢
      rw [frameBody_frame, Int.toNat_natCast, List.take_of_length_le hbody.length_le]
      have hclass : ty = MessageClass.getType m := Option.some.inj (hty.symm.trans hreg)
      rw [hclass]
      refine hcuts.cut m body hb b hbody fun heq => hne ?_
      rw [heq]
  · exact deserializeBytes_unversioned pack maps hv

end

/-- **Datagram decoding is exact**: a frame decodes to its message whatever stands behind
it, and is refused as soon as anything of it is missing. -/
theorem datagram_exact {Msg Ty H : Type} [MessageClass Msg Ty] {pack : MessagePack Msg Ty}
    (hrt : pack.RoundTrip) (hcuts : pack.RejectsCuts) (maps : MessageMaps Ty H) {m : Msg}
    (hreg : IsRegistered maps m) {f : List UInt8} (hf : serialize pack m = .ok f) :
    (∀ rest, deserializeBytes pack maps (f ++ rest) = .ok (some m)) ∧
      ∀ p, p <+: f → p ≠ f → ∃ e, deserializeBytes pack maps p = .error e :=
  ⟨deserializeBytes_append hrt hreg hf, fun _ => deserializeBytes_prefix hcuts hreg hf⟩

/-- A table rejects cuts if it has none of a body's proper beginnings at its class, and no
empty body. -/
theorem tablePack_rejectsCuts {table : List (BaseMessage × List UInt8)}
    {hlt : ∀ e ∈ table, e.2.length < 2 ^ 31}
    (hcut : ∀ e ∈ table, ∀ k < e.2.length,
      (tablePack table hlt).deserialize e.1.getType (e.2.take k) = none)
    (hempty : ∀ e ∈ table, e.2 ≠ []) : (tablePack table hlt).RejectsCuts := by
  refine ⟨?_, ?_⟩
  · intro m body hb p hp hne
    have hlen : p.length < body.length :=
      lt_of_le_of_ne hp.length_le fun h => hne (hp.eq_of_length h)
    have hnone := hcut _ (mem_of_tablePack_serialize hb) p.length hlen
    rwa [← List.prefix_iff_eq_take.mp hp] at hnone
  · intro ty
    cases hread : (tablePack table hlt).deserialize ty [] with
    | none => rfl
    | some x =>
      obtain ⟨m, -, hmem, -⟩ := mem_of_tablePack_deserialize hread
      exact absurd rfl (hempty _ hmem)

theorem keepAlivePack_rejectsCuts : keepAlivePack.RejectsCuts :=
  tablePack_rejectsCuts (by decide) (by decide)

theorem datagram_exact_keepAlive :
    (∀ rest, deserializeBytes keepAlivePack keepAliveMaps (keepAliveFrame.bytes ++ rest) =
      .ok (some keepAlive)) ∧
      ∀ p, p <+: keepAliveFrame.bytes → p ≠ keepAliveFrame.bytes →
        ∃ e, deserializeBytes keepAlivePack keepAliveMaps p = .error e :=
  datagram_exact keepAlivePack_roundTrip keepAlivePack_rejectsCuts keepAliveMaps (m := keepAlive) rfl
    (serialize_message keepAliveFrame)

end Blockcore.Networking
