import Blockcore.Networking.Framing

/-!
# Byte arrays

`MessageSerializer` writes a frame twice and reads one twice.  `Serialize` lays
it out in one array, or writes its three parts to a stream.  `Deserialize` of an
array reads it through a `MemoryStream`; `Deserialize<T>` cuts it into slices,
and a slice that sticks out is refused.

`deserializeBytes_eq` says what the first reads: a header of which what is
missing is zero, and as much of the body as there is.  So a body that is shorter
than its header says is decoded as far as it goes, where `Deserialize<T>` refuses
it (`deserializeT_truncated`).  `encoders_decoders_agree_iff` says that this is the
only difference.
-/

namespace Blockcore.Networking

open Lib

/-- `new MemoryStream(data)`: every `Read` returns what it is asked for. -/
def memoryStream (data : List UInt8) : ByteStream := ⟨data, 0, fun _ => false⟩

/-- The header of a frame; what is missing of it is zero. -/
def frameHeader (data : List UInt8) : HeaderInfo :=
  let b := (data.drop versionByteSize).take HeaderInfo.byteSize
  HeaderInfo.ofBytes (b ++ List.replicate (HeaderInfo.byteSize - b.length) 0)

def frameBody (data : List UInt8) : List UInt8 := data.drop (versionByteSize + HeaderInfo.byteSize)

def Versioned (data : List UInt8) : Prop := data.take versionByteSize = leBytes versionByteSize version

section

variable {Msg Ty : Type} [MessageClass Msg Ty] (pack : MessagePack Msg Ty)

/-- `MessageSerializer.Serialize(BaseMessage, Stream)`, on what was written to the
stream before. -/
def serializeTo (message : Msg) (stream : List UInt8) : Outcome Exception (List UInt8) :=
  match pack.serialize message with
  | none => .thrown .messagePack stream
  | some messageDataBytes =>
    let header : HeaderInfo := ⟨messageDataBytes.length, command message⟩
    let stream := stream ++ leBytes versionByteSize version
    let stream := stream ++ header.bytes
    .done (stream ++ messageDataBytes)

theorem serializeTo_eq (message : Msg) (stream : List UInt8) : serializeTo pack message stream =
    match serialize pack message with
    | .error e => .thrown e stream
    | .ok bytes => .done (stream ++ bytes) := by
  rw [serializeTo, serialize]
  cases pack.serialize message with
  | none => rfl
  | some body => simp only [List.append_assoc]

end

/-! ### Reading -/

/-- `BitConverter.ToUInt16(data, 0)`. -/
def toUInt16 : List UInt8 → Except Exception Nat
  | [] => .error .argumentOutOfRange
  | [_] => .error .argument
  | x :: y :: _ => .ok (leValue [x, y])

/-- `Span.Slice`. -/
def slice (data : List UInt8) (start : Nat) (length : Int) : Except Exception (List UInt8) :=
  if length < 0 ∨ (data.length : Int) < start + length then .error .argumentOutOfRange
  else .ok ((data.drop start).take length.toNat)

section

variable {Msg Ty H : Type} (pack : MessagePack Msg Ty) (maps : MessageMaps Ty H)

/-- `MessageSerializer.Deserialize(byte[])`. -/
def deserializeBytes (data : List UInt8) : Except Exception (Option Msg) :=
  (deserialize pack maps (memoryStream data)).1

/-- `MessageSerializer.Deserialize<T>(byte[])`; nothing depends on the class it is
asked for. -/
def deserializeT (data : List UInt8) : Except Exception (Option Msg) := do
  let ver ← toUInt16 data
  if ver ≠ version then
    throw (.exception s!"Invalid version. Expected {version} but got {ver}")
  let header ← slice data versionByteSize HeaderInfo.byteSize
  let header := HeaderInfo.ofBytes header
  let messageType ← maps.getMessageType header.command
  let messageBytes ← slice data (versionByteSize + HeaderInfo.byteSize) header.size
  match pack.deserialize messageType messageBytes with
  | none => throw .messagePack
  | some message => return message

variable {data : List UInt8}

theorem versioned_iff : Versioned data ↔ ∃ l, data = 1 :: 0 :: l := by
  refine ⟨?_, ?_⟩
  · intro h
    match data, h with
    | [], h => cases h
    | [x], h => cases h
    | x :: y :: l, h =>
      obtain ⟨hx, h⟩ := List.cons.inj h
      obtain ⟨hy, -⟩ := List.cons.inj h
      exact ⟨l, by rw [hx, hy]; rfl⟩
  · rintro ⟨l, rfl⟩
    rfl

theorem deserializeBytes_unversioned (h : ¬ Versioned data) :
    ∃ e, deserializeBytes pack maps data = .error e := by
  rw [versioned_iff] at h
  match data, h with
  | [], _ => exact ⟨_, by rw [deserializeBytes, deserialize_short _ _ _ (by simp [memoryStream])]⟩
  | [x], _ => exact ⟨_, by rw [deserializeBytes, deserialize_short _ _ _ (by simp [memoryStream])]⟩
  | x :: y :: l, h =>
    rw [deserializeBytes, deserialize_cons pack maps (memoryStream (x :: y :: l)) rfl, if_pos]
    · exact ⟨_, rfl⟩
    · intro hv
      obtain ⟨rfl, rfl⟩ := eq_version hv
      exact h ⟨l, rfl⟩

theorem deserializeT_unversioned (h : ¬ Versioned data) :
    ∃ e, deserializeT pack maps data = .error e := by
  rw [versioned_iff] at h
  match data, h with
  | [], _ => exact ⟨_, rfl⟩
  | [x], _ => exact ⟨_, rfl⟩
  | x :: y :: l, h =>
    refine ⟨.exception s!"Invalid version. Expected {version} but got {leValue [x, y]}", ?_⟩
    have hv : leValue [x, y] ≠ version := by
      intro hv
      obtain ⟨rfl, rfl⟩ := eq_version hv
      exact h ⟨l, rfl⟩
    simp only [deserializeT, toUInt16, bind, Except.bind, if_pos hv]
    rfl

/-- What a header and the bytes behind it decode to. -/
def decodeBody (header : HeaderInfo) (body : List UInt8) : Except Exception (Option Msg) :=
  match maps.getMessageType header.command with
  | .error e => .error e
  | .ok ty =>
    if header.size < 0 then .error .argumentOutOfRange
    else
      match pack.deserialize ty (body.take header.size.toNat) with
      | none => .error .messagePack
      | some m => .ok m

theorem deserializeMessage_fst (header : HeaderInfo) (s : ByteStream) :
    (deserializeMessage pack maps header s).1 = decodeBody pack maps header s.rest := by
  rw [deserializeMessage, decodeBody]
  cases maps.getMessageType header.command with
  | error e => rfl
  | ok ty =>
    dsimp only
    by_cases hneg : header.size < 0
    · rw [readBytes, if_pos hneg, if_pos hneg]
    · rw [readBytes, if_neg hneg, if_neg hneg, ByteStream.fill_eq]
      dsimp only
      cases pack.deserialize ty (s.rest.take header.size.toNat) <;> rfl

/-- **What `Deserialize` of an array reads**: the header as far as it goes, and as
much of the body as there is. -/
theorem deserializeBytes_eq (h : Versioned data) : deserializeBytes pack maps data =
    decodeBody pack maps (frameHeader data) (frameBody data) := by
  obtain ⟨l, rfl⟩ := versioned_iff.mp h
  have hread : ((memoryStream (1 :: 0 :: l)).advance 2).read HeaderInfo.byteSize =
      (l.take HeaderInfo.byteSize, ((memoryStream (1 :: 0 :: l)).advance 2).advance
        (min HeaderInfo.byteSize l.length)) :=
    ByteStream.read_uncut _ _ (fun _ => rfl)
  have hbody : l.drop (min HeaderInfo.byteSize l.length) = frameBody (1 :: 0 :: l) := by
    rw [frameBody, versionByteSize, ← List.drop_drop]
    rcases Nat.le_total HeaderInfo.byteSize l.length with hl | hl
    · rw [Nat.min_eq_left hl]
      rfl
    · rw [Nat.min_eq_right hl, List.drop_length, List.drop_drop, List.drop_eq_nil_of_le]
      simp only [List.length_cons]
      omega
  rw [deserializeBytes, deserialize_version pack maps (s := memoryStream (1 :: 0 :: l)) rfl,
    deserializeBody, readHeader, hread]
  simp only [deserializeMessage_fst, ByteStream.advance_rest]
  rw [← hbody]
  rfl

theorem slice_ok {start : Nat} {length : Int} (h0 : 0 ≤ length)
    (h : start + length.toNat ≤ data.length) :
    slice data start length = .ok ((data.drop start).take length.toNat) :=
  if_neg (by omega)

theorem slice_error {start : Nat} {length : Int}
    (h : length < 0 ∨ data.length < start + length.toNat) :
    slice data start length = .error .argumentOutOfRange :=
  if_pos (by omega)

theorem deserializeT_versioned (h : Versioned data) : deserializeT pack maps data =
    (slice data versionByteSize HeaderInfo.byteSize).bind fun header =>
      (maps.getMessageType (HeaderInfo.ofBytes header).command).bind fun messageType =>
        (slice data (versionByteSize + HeaderInfo.byteSize) (HeaderInfo.ofBytes header).size).bind
          fun messageBytes =>
            match pack.deserialize messageType messageBytes with
            | none => .error .messagePack
            | some message => .ok message := by
  obtain ⟨l, rfl⟩ := versioned_iff.mp h
  rfl

theorem slice_header (hl : versionByteSize + HeaderInfo.byteSize ≤ data.length) :
    ∃ header, slice data versionByteSize HeaderInfo.byteSize = .ok header ∧
      HeaderInfo.ofBytes header = frameHeader data := by
  refine ⟨_, slice_ok (by simp) (by simpa using hl), ?_⟩
  have hlen : ((data.drop versionByteSize).take HeaderInfo.byteSize).length = HeaderInfo.byteSize := by
    rw [List.length_take, List.length_drop]
    omega
  rw [frameHeader, hlen]
  simp

/-- **On a frame that is all there `Deserialize<T>` reads the same.** -/
theorem deserializeT_whole (h : Versioned data)
    (hl : versionByteSize + HeaderInfo.byteSize + (frameHeader data).size.toNat ≤ data.length) :
    deserializeT pack maps data = decodeBody pack maps (frameHeader data) (frameBody data) := by
  have hhead : versionByteSize + HeaderInfo.byteSize ≤ data.length := by omega
  obtain ⟨header, hs, hh⟩ := slice_header hhead
  rw [deserializeT_versioned pack maps h, hs, Except.bind, hh, decodeBody]
  cases maps.getMessageType (frameHeader data).command with
  | error e => rfl
  | ok ty =>
    rw [Except.bind]
    by_cases hneg : (frameHeader data).size < 0
    · rw [slice_error (Or.inl hneg)]
      exact (if_pos hneg).symm
    · rw [slice_ok (by omega) hl]
      exact (if_neg hneg).symm

/-- **`Deserialize<T>` refuses a frame that is cut short.** -/
theorem deserializeT_truncated (h : Versioned data)
    (hl : data.length < versionByteSize + HeaderInfo.byteSize + (frameHeader data).size.toNat) :
    ∃ e, deserializeT pack maps data = .error e := by
  rw [deserializeT_versioned pack maps h]
  by_cases hhead : versionByteSize + HeaderInfo.byteSize ≤ data.length
  · obtain ⟨header, hs, hh⟩ := slice_header hhead
    rw [hs, Except.bind, hh, slice_error (Or.inr hl)]
    cases maps.getMessageType (frameHeader data).command with
    | error e => exact ⟨e, rfl⟩
    | ok ty => exact ⟨_, rfl⟩
  · rw [slice_error (Or.inr (by simpa using hhead))]
    exact ⟨_, rfl⟩

/-! ### Where the two differ -/

/-- The frame ends before its header says. -/
structure CutShort (data : List UInt8) : Prop where
  versioned : Versioned data
  size_nonneg : 0 ≤ (frameHeader data).size
  short : data.length < versionByteSize + HeaderInfo.byteSize + (frameHeader data).size.toNat

theorem deserializeBytes_cutShort (h : CutShort data) : deserializeBytes pack maps data =
    decodeAs pack maps (frameHeader data).command (frameBody data) := by
  have htake : (frameBody data).take (frameHeader data).size.toNat = frameBody data := by
    have hs := h.short
    refine List.take_of_length_le ?_
    rw [frameBody, List.length_drop]
    omega
  rw [deserializeBytes_eq pack maps h.versioned, decodeBody, decodeAs, htake]
  cases maps.getMessageType (frameHeader data).command with
  | error e => rfl
  | ok ty => exact if_neg (Int.not_lt.mpr h.size_nonneg)

/-- Both fail, or both return the same message. -/
def Agree (a b : Except Exception (Option Msg)) : Prop := a.toOption = b.toOption

theorem agree_error_iff {a b : Except Exception (Option Msg)} (hb : ∃ e, b = .error e) :
    Agree a b ↔ ∃ e, a = .error e := by
  obtain ⟨e, rfl⟩ := hb
  cases a with
  | error e' => exact ⟨fun _ => ⟨e', rfl⟩, fun _ => rfl⟩
  | ok m =>
    refine ⟨?_, ?_⟩
    · intro h
      cases h
    · rintro ⟨e', h⟩
      cases h

/-- **The two decoders agree on an array exactly when** it is no frame cut short
whose remains decode. -/
theorem deserialize_agree_iff (data : List UInt8) :
    Agree (deserializeBytes pack maps data) (deserializeT pack maps data) ↔
      (CutShort data → ∃ e, decodeAs pack maps (frameHeader data).command (frameBody data) = .error e) := by
  by_cases hv : Versioned data
  · by_cases hl : versionByteSize + HeaderInfo.byteSize + (frameHeader data).size.toNat ≤ data.length
    · rw [deserializeBytes_eq pack maps hv, deserializeT_whole pack maps hv hl]
      exact ⟨fun _ hc => absurd hc.short (by omega), fun _ => rfl⟩
    · rw [agree_error_iff (deserializeT_truncated pack maps hv (by omega))]
      by_cases hneg : (frameHeader data).size < 0
      · refine ⟨fun _ hc => absurd hc.size_nonneg (by omega), fun _ => ?_⟩
        rw [deserializeBytes_eq pack maps hv, decodeBody]
        cases maps.getMessageType (frameHeader data).command with
        | error e => exact ⟨e, rfl⟩
        | ok ty => exact ⟨.argumentOutOfRange, if_pos hneg⟩
      · have hc : CutShort data := ⟨hv, by omega, by omega⟩
        rw [deserializeBytes_cutShort pack maps hc]
        exact ⟨fun h _ => h, fun h => h hc⟩
  · obtain ⟨e, he⟩ := deserializeBytes_unversioned pack maps hv
    rw [agree_error_iff (deserializeT_unversioned pack maps hv), he]
    exact ⟨fun _ hc => absurd hc.versioned hv, fun _ => ⟨e, rfl⟩⟩

end

/-- **The parallel encoders agree, and the parallel decoders do exactly where no
frame cut short decodes.** -/
theorem encoders_decoders_agree_iff {Msg Ty H : Type} [MessageClass Msg Ty]
    (pack : MessagePack Msg Ty) (maps : MessageMaps Ty H) :
    (∀ (message : Msg) (stream : List UInt8), serializeTo pack message stream =
      match serialize pack message with
      | .error e => .thrown e stream
      | .ok bytes => .done (stream ++ bytes)) ∧
    ∀ data, Agree (deserializeBytes pack maps data) (deserializeT pack maps data) ↔
      (CutShort data → ∃ e, decodeAs pack maps (frameHeader data).command (frameBody data) = .error e) :=
  ⟨serializeTo_eq pack, deserialize_agree_iff pack maps⟩

/-- The frame of a keep-alive whose header says it has one byte more. -/
def overstated : List UInt8 := 1 :: 0 :: (HeaderInfo.bytes ⟨4, 3⟩ ++ keepAliveBytes)

/-- **Where they differ**: one returns the message, the other refuses the frame. -/
theorem overstated_differs :
    deserializeBytes keepAlivePack keepAliveMaps overstated = .ok (some keepAlive) ∧
      ¬ Agree (deserializeBytes keepAlivePack keepAliveMaps overstated)
        (deserializeT keepAlivePack keepAliveMaps overstated) := by
  have hbytes : deserializeBytes keepAlivePack keepAliveMaps overstated = .ok (some keepAlive) := rfl
  have hspan : deserializeT keepAlivePack keepAliveMaps overstated = .error .argumentOutOfRange := rfl
  refine ⟨hbytes, fun h => ?_⟩
  rw [hbytes, hspan] at h
  cases h

end Blockcore.Networking
