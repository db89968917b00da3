import Blockcore.Networking.Messages
import Blockcore.Networking.MessageSerializer

/-!
# Framing

Frames laid end to end are read back one message at a time.  Where the pieces
end that the stream arrives in does not matter to the version and the body, and
does matter to the header: `HeadersWhole` says that no piece ends strictly
inside a header.

`readMessages_frames` reads a stream of frames whose headers arrive whole, with
anything behind it.  `headerWhole_of_delivered` is the converse for the last
frame: unless its own header arrives whole too, the call leaves some of it
unread.
-/

namespace Blockcore.Networking

open Lib

section

variable {Msg Ty H : Type} (pack : MessagePack Msg Ty) (maps : MessageMaps Ty H)

/-- Call `Deserialize` `n` times on one stream; the first exception ends it. -/
def readMessages : Nat → ByteStream → Except Exception (List (Option Msg)) × ByteStream
  | 0, s => (.ok [], s)
  | n + 1, s =>
    match deserialize pack maps s with
    | (.error e, s) => (.error e, s)
    | (.ok m, s) =>
      match readMessages n s with
      | (.error e, s) => (.error e, s)
      | (.ok ms, s) => (.ok (m :: ms), s)

theorem readMessages_succ {n : Nat} {s s' : ByteStream} {m : Option Msg}
    (h : deserialize pack maps s = (.ok m, s')) :
    readMessages pack maps (n + 1) s =
      ((readMessages pack maps n s').1.map (m :: ·), (readMessages pack maps n s').2) := by
  rw [readMessages, h]
  dsimp only
  cases readMessages pack maps n s' with
  | mk r t => cases r <;> rfl

theorem readMessages_add : ∀ {a : Nat} {s s' : ByteStream} {ms : List (Option Msg)} (b : Nat),
    readMessages pack maps a s = (.ok ms, s') →
    readMessages pack maps (a + b) s =
      ((readMessages pack maps b s').1.map (ms ++ ·), (readMessages pack maps b s').2) := by
  intro a
  induction a with
  | zero =>
    intro s s' ms b h
    rw [readMessages] at h
    cases h
    rw [Nat.zero_add]
    cases readMessages pack maps b s with
    | mk r t => cases r <;> rfl
  | succ a ih =>
    intro s s' ms b h
    cases hd : deserialize pack maps s with
    | mk r t =>
      cases r with
      | error e => rw [readMessages, hd] at h; simp at h
      | ok m =>
        rw [readMessages_succ pack maps hd] at h
        cases hr : readMessages pack maps a t with
        | mk r' t' =>
          rw [hr] at h
          cases r' with
          | error e => simp [Except.map] at h
          | ok ms' =>
            simp only [Except.map, Prod.mk.injEq, Except.ok.injEq] at h
            obtain ⟨rfl, rfl⟩ := h
            rw [Nat.succ_add_eq_add_succ, Nat.add_succ, readMessages_succ pack maps hd,
              ih b hr]
            cases readMessages pack maps b t' with
            | mk r'' t'' => cases r'' <;> rfl

end

/-! ### Streams of frames -/

variable {Msg Ty H : Type} [MessageClass Msg Ty] {pack : MessagePack Msg Ty} (maps : MessageMaps Ty H)

/-- The frames of some messages, laid end to end. -/
def streamOf (ms : List (Serialized pack)) : List UInt8 := ms.flatMap Serialized.bytes

@[simp] theorem streamOf_nil : streamOf ([] : List (Serialized pack)) = [] := rfl

@[simp] theorem streamOf_cons (m : Serialized pack) (ms : List (Serialized pack)) :
    streamOf (m :: ms) = m.bytes ++ streamOf ms := rfl

@[simp] theorem streamOf_append (as bs : List (Serialized pack)) :
    streamOf (as ++ bs) = streamOf as ++ streamOf bs := List.flatMap_append

/-- Every header of the stream, which begins at `start`, arrives in one piece. -/
def HeadersWhole (cut : Nat → Bool) (start : Nat) (ms : List (Serialized pack)) : Prop :=
  ∀ before m after, ms = before ++ m :: after → HeaderWhole cut (start + (streamOf before).length)

theorem headersWhole_cons {cut : Nat → Bool} {start : Nat} {m : Serialized pack}
    {ms : List (Serialized pack)} (h : HeadersWhole cut start (m :: ms)) :
    HeaderWhole cut start ∧ HeadersWhole cut (start + m.bytes.length) ms := by
  refine ⟨by simpa using h [] m ms rfl, fun before m' after he => ?_⟩
  have := h (m :: before) m' after (by rw [he, List.cons_append])
  rwa [streamOf_cons, List.length_append, ← Nat.add_assoc] at this

theorem headersWhole_concat {cut : Nat → Bool} {start : Nat} {ms : List (Serialized pack)}
    {m : Serialized pack} : HeadersWhole cut start (ms ++ [m]) ↔
      HeadersWhole cut start ms ∧ HeaderWhole cut (start + (streamOf ms).length) := by
  refine ⟨?_, ?_⟩
  · intro h
    refine ⟨fun before m' after he => ?_, h ms m [] rfl⟩
    exact h before m' (after ++ [m]) (by rw [he, List.append_assoc, List.cons_append])
  · rintro ⟨h, hm⟩ before m' after he
    rcases List.eq_nil_or_concat after with rfl | ⟨after', x, rfl⟩
    · obtain ⟨rfl, -⟩ := List.append_inj' he rfl
      exact hm
    · rw [List.concat_eq_append, ← List.cons_append, ← List.append_assoc] at he
      obtain ⟨he, -⟩ := List.append_inj' he rfl
      exact h before m' after' he

/-- The class of every message is registered for its command. -/
def Registered (ms : List (Serialized pack)) : Prop :=
  ∀ m ∈ ms, maps.typeOf? (command m.message) = some (MessageClass.getType m.message)

variable {maps}

theorem decodeAs_serialized (hrt : pack.RoundTrip) {m : Serialized pack}
    (hreg : maps.typeOf? (command m.message) = some (MessageClass.getType m.message)) :
    decodeAs pack maps (command m.message) m.body = .ok (some m.message) := by
  rw [decodeAs, MessageMaps.getMessageType_of_some hreg]
  dsimp only
  rw [hrt m.message m.body m.serialize_eq]

/-- **Frames whose headers arrive whole are read back**, whatever follows. -/
theorem readMessages_frames (hrt : pack.RoundTrip) :
    ∀ {ms : List (Serialized pack)} {s : ByteStream} {l : List UInt8}, Registered maps ms →
      s.rest = streamOf ms ++ l → HeadersWhole s.cut s.pos ms →
      readMessages pack maps ms.length s =
        (.ok (ms.map (some ·.message)), s.advance (streamOf ms).length) := by
  intro ms
  induction ms with
  | nil => intro s l _ _ _; simp [readMessages]
  | cons m ms ih =>
    intro s l hreg hs hw
    obtain ⟨hm, hms⟩ := headersWhole_cons hw
    have hfirst : deserialize pack maps s = (.ok (some m.message), s.advance m.bytes.length) := by
      rw [← decodeAs_serialized hrt (hreg m (by simp))]
      exact deserialize_frame pack maps (hreg m (by simp)) m.body_lt
        (by rw [hs, streamOf_cons, List.append_assoc]; rfl) hm
    have hrest : (s.advance m.bytes.length).rest = streamOf ms ++ l := by
      rw [ByteStream.advance_rest, hs, streamOf_cons, List.append_assoc, List.drop_left]
    rw [List.length_cons, readMessages_succ pack maps hfirst,
      ih (fun x hx => hreg x (List.mem_cons_of_mem m hx)) hrest hms]
    simp [Except.map]

/-! ### Delivery -/

variable (maps)

/-- Over a stream that consists of the frames of `ms` and arrives in the pieces
`cut`, calling `Deserialize` once for each message returns the messages in order
and leaves the stream at its end. -/
def Delivered (cut : Nat → Bool) (ms : List (Serialized pack)) : Prop :=
  ∃ s, readMessages pack maps ms.length ⟨streamOf ms, 0, cut⟩ =
    (.ok (ms.map (some ·.message)), s) ∧ s.rest = []

variable {maps}

theorem delivered_of_headersWhole (hrt : pack.RoundTrip) {cut : Nat → Bool}
    {ms : List (Serialized pack)} (hreg : Registered maps ms) (hw : HeadersWhole cut 0 ms) :
    Delivered maps cut ms :=
  ⟨_, readMessages_frames (l := []) hrt hreg (by simp) hw, by simp⟩

/-- **A frame whose header arrives in two pieces is not delivered**, though
every frame before it is. -/
theorem headerWhole_of_delivered (hrt : pack.RoundTrip) {cut : Nat → Bool}
    {ms : List (Serialized pack)} {m : Serialized pack} (hreg : Registered maps ms)
    (hw : HeadersWhole cut 0 ms) (h : Delivered maps cut (ms ++ [m])) :
    HeaderWhole cut (streamOf ms).length := by
  by_contra hcut
  have hfirst : readMessages pack maps ms.length ⟨streamOf (ms ++ [m]), 0, cut⟩ =
      (.ok (ms.map (some ·.message)),
        (⟨streamOf (ms ++ [m]), 0, cut⟩ : ByteStream).advance (streamOf ms).length) :=
    readMessages_frames (l := m.bytes) hrt hreg (by simp) hw
  -- what is left is the frame of `m`, of which one call reads only a part
  have hrest : ((⟨streamOf (ms ++ [m]), 0, cut⟩ : ByteStream).advance (streamOf ms).length).rest =
      frameBytes (command m.message) m.body ++ [] := by
    simp [Serialized.bytes]
  obtain ⟨k, hk, hs⟩ := deserialize_cut pack maps m.body_lt hrest (by simpa using hcut)
  obtain ⟨s, hread, hend⟩ := h
  rw [List.length_append, List.length_singleton, readMessages_add pack maps 1 hfirst] at hread
  cases hd : deserialize pack maps
      ((⟨streamOf (ms ++ [m]), 0, cut⟩ : ByteStream).advance (streamOf ms).length) with
  | mk r t =>
    rw [hd] at hs
    cases r with
    | error e => rw [readMessages, hd] at hread; simp [Except.map] at hread
    | ok x =>
      rw [readMessages_succ pack maps hd, readMessages] at hread
      have ht : t = s := (Prod.mk.inj hread).2
      rw [← ht, show t = _ from hs] at hend
      have := congrArg List.length hend
      rw [ByteStream.advance_rest, List.length_drop, hrest, List.append_nil, List.length_nil] at this
      omega

/-- **What arrives intact.**  For a list of messages and the pieces its stream
arrives in, the list and each of its initial lists is delivered exactly when no
piece ends strictly inside a header. -/
theorem delivered_iff_headersWhole (hrt : pack.RoundTrip) (cut : Nat → Bool)
    (ms : List (Serialized pack)) (hreg : Registered maps ms) :
    (∀ k, Delivered maps cut (ms.take k)) ↔ HeadersWhole cut 0 ms := by
  refine ⟨?_, ?_⟩
  · induction ms using List.reverseRecOn with
    | nil => intro _ before m after he; simp at he
    | append_singleton ms m ih =>
      intro h
      have hreg' : Registered maps ms := fun x hx => hreg x (by simp [hx])
      have hw : HeadersWhole cut 0 ms := by
        refine ih hreg' (fun k => ?_)
        have := h (min k ms.length)
        rwa [List.take_append_of_le_length (Nat.min_le_right ..), ← List.take_take,
          List.take_length] at this
      refine headersWhole_concat.mpr ⟨hw, ?_⟩
      have hall := h (ms ++ [m]).length
      rw [List.take_length] at hall
      simpa using headerWhole_of_delivered hrt hreg' hw hall
  · intro hw k
    refine delivered_of_headersWhole hrt (fun x hx => hreg x (List.mem_of_mem_take hx)) ?_
    intro before m after he
    refine hw before m (after ++ ms.drop k) ?_
    rw [← List.cons_append, ← List.append_assoc, ← he, List.take_append_drop]

/-! ### Two keep-alives, and one in two pieces -/

section

variable {table : List (BaseMessage × List UInt8)}

/-- MessagePack on the messages of a table, with their bodies. -/
def tablePack (table : List (BaseMessage × List UInt8)) (hlt : ∀ e ∈ table, e.2.length < 2 ^ 31) :
    MessagePack BaseMessage MessageType where
  serialize m := (table.find? fun e => e.1 = m).map Prod.snd
  deserialize ty b := (table.find? fun e => e.1.getType = ty ∧ e.2 = b).map fun e => some e.1
  length_lt m b h := by
    obtain ⟨e, he, rfl⟩ := Option.map_eq_some_iff.mp h
    exact hlt e (List.mem_of_find?_eq_some he)

theorem mem_of_tablePack_serialize {hlt : ∀ e ∈ table, e.2.length < 2 ^ 31} {m : BaseMessage}
    {b : List UInt8} (h : (tablePack table hlt).serialize m = some b) : (m, b) ∈ table := by
  obtain ⟨e, he, rfl⟩ := Option.map_eq_some_iff.mp h
  obtain rfl : e.1 = m := by simpa using List.find?_some he
  exact List.mem_of_find?_eq_some he

theorem mem_of_tablePack_deserialize {hlt : ∀ e ∈ table, e.2.length < 2 ^ 31} {ty : MessageType}
    {b : List UInt8} {x : Option BaseMessage} (h : (tablePack table hlt).deserialize ty b = some x) :
    ∃ m, x = some m ∧ (m, b) ∈ table ∧ m.getType = ty := by
  obtain ⟨e, he, rfl⟩ := Option.map_eq_some_iff.mp h
  obtain ⟨hty, rfl⟩ : e.1.getType = ty ∧ e.2 = b := by simpa using List.find?_some he
  exact ⟨e.1, rfl, List.mem_of_find?_eq_some he, hty⟩

theorem tablePack_roundTrip {hlt : ∀ e ∈ table, e.2.length < 2 ^ 31}
    (hdistinct : (table.map fun e => (e.1.getType, e.2)).Nodup) : (tablePack table hlt).RoundTrip := by
  intro m b h
  have hmem := mem_of_tablePack_serialize h
  cases hread : (tablePack table hlt).deserialize m.getType b with
  | none =>
    have hnone := List.find?_eq_none.mp (Option.map_eq_none_iff.mp hread) _ hmem
    simp at hnone
  | some x =>
    obtain ⟨m', rfl, hmem', hty⟩ := mem_of_tablePack_deserialize hread
    have heq := List.inj_on_of_nodup_map hdistinct hmem hmem' (by rw [hty])
    rw [(Prod.mk.inj heq).1]

end

/-- A text of at most 31 characters, as MessagePack writes it. -/
def fixStr (s : String) : List UInt8 :=
  UInt8.ofNat (0xa0 + s.length) :: s.toList.map fun c => UInt8.ofNat c.toNat

/-- A keep-alive of the hub `a`. -/
def keepAlive : BaseMessage := .keepAlive ⟨some "a"⟩

/-- As MessagePack writes it: an array of one string of one character. -/
def keepAliveBytes : List UInt8 := [0x91, 0xa1, 0x61]

def keepAlivePack : MessagePack BaseMessage MessageType :=
  tablePack [(keepAlive, keepAliveBytes), (.keepAlive ⟨some "b"⟩, 0x91 :: fixStr "b")] (by decide)

theorem keepAlivePack_roundTrip : keepAlivePack.RoundTrip := tablePack_roundTrip (by decide)

def keepAliveMaps : MessageMaps MessageType Unit :=
  ⟨fun c => if c = 3 then some ⟨3, .KeepAliveMessage, []⟩ else none⟩

def keepAliveFrame : Serialized keepAlivePack := ⟨keepAlive, keepAliveBytes, rfl⟩

/-- A keep-alive of the hub `a` and one of the hub `b`. -/
def keepAliveFrames : List (Serialized keepAlivePack) :=
  [keepAliveFrame, ⟨.keepAlive ⟨some "b"⟩, 0x91 :: fixStr "b", rfl⟩]

theorem keepAlive_registered : Registered keepAliveMaps keepAliveFrames := by
  intro m hm
  rcases List.mem_pair.mp hm with rfl | rfl <;> rfl

/-- Their stream of 26 bytes ends pieces in a version, in both bodies and between the frames. -/
def cutBodies (n : Nat) : Bool := [1, 11, 12, 13, 24].contains n

theorem cutBodies_headersWhole : HeadersWhole cutBodies 0 keepAliveFrames := by
  have hnone : HeadersWhole cutBodies 0 ([] : List (Serialized keepAlivePack)) := by
    intro before m after he
    simp at he
  have hfirst : HeadersWhole cutBodies 0 [keepAliveFrame] :=
    headersWhole_concat.mpr ⟨hnone, by decide⟩
  exact headersWhole_concat.mpr ⟨hfirst, by decide⟩

theorem delivered_iff_headersWhole_keepAlive :
    Delivered keepAliveMaps cutBodies (keepAliveFrames.take 1) ∧
      Delivered keepAliveMaps cutBodies keepAliveFrames := by
  have hall := (delivered_iff_headersWhole keepAlivePack_roundTrip cutBodies keepAliveFrames
    keepAlive_registered).mpr cutBodies_headersWhole
  exact ⟨hall 1, hall 2⟩

/-- A piece that ends after three bytes of the header loses the message. -/
theorem keepAlive_lost : keepAlivePack.RoundTrip ∧ Registered keepAliveMaps [keepAliveFrame] ∧
    ¬ Delivered keepAliveMaps (fun p => p == 5) [keepAliveFrame] := by
  refine ⟨keepAlivePack_roundTrip, fun m hm => ?_, fun h => ?_⟩
  · rw [List.mem_singleton.mp hm]
    rfl
  · have hnone : Registered keepAliveMaps ([] : List (Serialized keepAlivePack)) := fun m hm => by
      simp at hm
    have hw := headerWhole_of_delivered keepAlivePack_roundTrip hnone
      (fun before m after he => by simp at he) h
    exact absurd (hw 3 (by decide) (by decide)) (by decide)

end Blockcore.Networking
