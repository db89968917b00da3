import Blockcore.Lib.ByteStream
import Blockcore.Networking.MessageMaps

/-!
# The wire format

A frame is a version, a header and a body.  The body is the MessagePack
encoding of the message, the header its length and the command of its class,
laid out as the struct `HeaderInfo` is in memory: four bytes of `Size`, two of
`Command`, two of padding.

`deserialize` reads one frame from a stream with three different calls.
`ReadUInt16` and `ReadBytes` ask until they have what they need, `Read` into the
header asks once and its count is dropped, so a short answer leaves the rest of
the header zero.  Three facts say what one call does to the stream:

* `deserialize_frame`: on a frame whose header arrives whole it returns the
  message and has read exactly the frame.
* `deserialize_cut`: on a frame whose header does not, it has read less than
  the frame, whatever it returns.
* `deserialize_advance`: it always moves forward, unless the stream is at its
  end, and never back.
-/

namespace Blockcore.Networking

open Lib

/-- The MessagePack codec, a third-party package.  Encoding, by runtime class,
fails on what does not fit an array; an array's length is an `int`.  Decoding at
a class fails or yields a reference, possibly null. -/
structure MessagePack (Msg Ty : Type) where
  serialize : Msg → Option (List UInt8)
  deserialize : Ty → List UInt8 → Option (Option Msg)
  length_lt : ∀ m b, serialize m = some b → b.length < 2 ^ 31

/-- Decoding an encoding at the message's class gives the message back. -/
def MessagePack.RoundTrip {Msg Ty : Type} [MessageClass Msg Ty] (pack : MessagePack Msg Ty) : Prop :=
  ∀ m b, pack.serialize m = some b → pack.deserialize (MessageClass.getType m) b = some (some m)

/-! ### The header -/

/-- The `int` with these 32 bits. -/
def toInt32 (n : Nat) : Int := if n < 2 ^ 31 then n else (n : Int) - 2 ^ 32

theorem toInt32_of_lt {n : Nat} (h : n < 2 ^ 31) : toInt32 n = n := if_pos h

/-- `HeaderInfo`. -/
structure HeaderInfo where
  size : Int
  command : UInt16
  deriving DecidableEq

namespace HeaderInfo

/-- `Unsafe.SizeOf<HeaderInfo>()`. -/
def byteSize : Nat := 8

/-- The struct as bytes; the last two are padding. -/
def bytes (header : HeaderInfo) : List UInt8 :=
  leBytes 4 (header.size % 2 ^ 32).toNat ++ leBytes 2 header.command.toNat ++ [0, 0]

def ofBytes (b : List UInt8) : HeaderInfo :=
  ⟨toInt32 (leValue (b.take 4)), UInt16.ofNat (leValue ((b.drop 4).take 2))⟩

@[simp] theorem bytes_length (header : HeaderInfo) : header.bytes.length = byteSize := by
  simp [bytes, byteSize]

theorem bytes_take (header : HeaderInfo) :
    header.bytes.take 4 = leBytes 4 (header.size % 2 ^ 32).toNat := by
  rw [bytes, List.append_assoc, List.take_left' (leBytes_length ..)]

theorem ofBytes_bytes {n : Nat} (hn : n < 2 ^ 31) (c : UInt16) :
    ofBytes (bytes ⟨n, c⟩) = ⟨n, c⟩ := by
  have hmod : ((n : Int) % 2 ^ 32).toNat = n := by omega
  have hsize : leValue ((bytes ⟨n, c⟩).take 4) = n := by
    rw [bytes_take, hmod, leValue_leBytes 4 n (by omega)]
  have hcmd : leValue (((bytes ⟨n, c⟩).drop 4).take 2) = c.toNat := by
    rw [bytes, List.append_assoc, List.drop_left' (leBytes_length ..),
      List.take_left' (leBytes_length ..), leValue_leBytes 2 _ c.toNat_lt]
  rw [ofBytes, hsize, hcmd, toInt32_of_lt hn]
  simp

/-- **A header read short** names a size no larger than the true one. -/
theorem size_ofBytes_take {n : Nat} (hn : n < 2 ^ 31) (c : UInt16) (k z : Nat) :
    ∃ n' : Nat, n' ≤ n ∧
      (ofBytes ((bytes ⟨n, c⟩).take k ++ List.replicate z 0)).size = n' := by
  have hmod : ((n : Int) % 2 ^ 32).toNat = n := by omega
  have h4 : leValue (((bytes ⟨n, c⟩).take k ++ List.replicate z 0).take 4) ≤ n := by
    rw [List.take_append, List.take_take, Nat.min_comm, ← List.take_take, bytes_take, hmod,
      List.take_replicate, leValue_append_zeros]
    exact (leValue_take_le _ k).trans (by rw [leValue_leBytes 4 n (by omega)])
  exact ⟨_, h4, toInt32_of_lt (by omega)⟩

end HeaderInfo

/-! ### Writing a frame -/

/-- `MessageSerializer.Version`. -/
def version : Nat := 1

/-- `VersionByteSize`. -/
def versionByteSize : Nat := 2

def frameBytes (command : UInt16) (body : List UInt8) : List UInt8 :=
  leBytes versionByteSize version ++ (HeaderInfo.bytes ⟨body.length, command⟩ ++ body)

@[simp] theorem frameBytes_length (c : UInt16) (body : List UInt8) :
    (frameBytes c body).length = versionByteSize + (HeaderInfo.byteSize + body.length) := by
  simp [frameBytes]

/-- A message `Serialize` accepts, with its encoding. -/
structure Serialized {Msg Ty : Type} (pack : MessagePack Msg Ty) where
  message : Msg
  body : List UInt8
  serialize_eq : pack.serialize message = some body

theorem Serialized.body_lt {Msg Ty : Type} {pack : MessagePack Msg Ty} (m : Serialized pack) :
    m.body.length < 2 ^ 31 := pack.length_lt _ _ m.serialize_eq

section

variable {Msg Ty : Type} [MessageClass Msg Ty] (pack : MessagePack Msg Ty)

/-- `MessageSerializer.Serialize(BaseMessage)`. -/
def serialize (message : Msg) : Except Exception (List UInt8) :=
  match pack.serialize message with
  | none => .error .messagePack
  | some messageDataBytes =>
    let header : HeaderInfo := ⟨messageDataBytes.length, command message⟩
    .ok (leBytes versionByteSize version ++ (header.bytes ++ messageDataBytes))

variable {pack}

/-- What `Serialize` returns for it. -/
def Serialized.bytes (m : Serialized pack) : List UInt8 := frameBytes (command m.message) m.body

theorem serialize_message (m : Serialized pack) : serialize pack m.message = .ok m.bytes := by
  rw [serialize, m.serialize_eq]
  rfl

end

/-! ### Reading a frame -/

/-- `BinaryReader.ReadUInt16`: it reads until it has two bytes. -/
def readUInt16 (s : ByteStream) : Except Exception Nat × ByteStream :=
  let (b, s) := s.fill versionByteSize
  if b.length < versionByteSize then (.error .endOfStream, s) else (.ok (leValue b), s)

/-- `reader.Read(headerByteSpan)`: one `Stream.Read` into the zeroed struct. -/
def readHeader (s : ByteStream) : HeaderInfo × ByteStream :=
  let (b, s) := s.read HeaderInfo.byteSize
  (HeaderInfo.ofBytes (b ++ List.replicate (HeaderInfo.byteSize - b.length) 0), s)

/-- `BinaryReader.ReadBytes`: it reads until it has `count` bytes or the stream
ends, and refuses a negative count.  It makes an array of `count` bytes first; that there is memory
for it, and that `count` is not above the maximal length of an array (0x7FFFFFC7), is assumed. -/
def readBytes (s : ByteStream) (count : Int) : Except Exception (List UInt8) × ByteStream :=
  if count < 0 then (.error .argumentOutOfRange, s)
  else
    let (b, s) := s.fill count.toNat
    (.ok b, s)

section

variable {Msg Ty H : Type} (pack : MessagePack Msg Ty) (maps : MessageMaps Ty H)

/-- What follows the header in `Deserialize`. -/
def deserializeMessage (header : HeaderInfo) (s : ByteStream) :
    Except Exception (Option Msg) × ByteStream :=
  match maps.getMessageType header.command with
  | .error e => (.error e, s)
  | .ok messageType =>
    match readBytes s header.size with
    | (.error e, s) => (.error e, s)
    | (.ok messageBytes, s) =>
      match pack.deserialize messageType messageBytes with
      | none => (.error .messagePack, s)
      | some message => (.ok message, s)

/-- What follows the version in `Deserialize`. -/
def deserializeBody (s : ByteStream) : Except Exception (Option Msg) × ByteStream :=
  let (header, s) := readHeader s
  deserializeMessage pack maps header s

/-- `MessageSerializer.Deserialize(Stream)`: the message (possibly null), or the
exception, and the stream as it was left. -/
def deserialize (s : ByteStream) : Except Exception (Option Msg) × ByteStream :=
  match readUInt16 s with
  | (.error e, s) => (.error e, s)
  | (.ok ver, s) =>
    if ver ≠ version then
      (.error (.exception s!"Invalid version. Expected {version} but got {ver}"), s)
    else deserializeBody pack maps s

/-! ### What one call does to the stream -/

theorem readBytes_snd (s : ByteStream) (count : Int) :
    ∃ k, k ≤ s.rest.length ∧ (readBytes s count).2 = s.advance k ∧ k ≤ count.toNat := by
  rw [readBytes]
  split
  · exact ⟨0, by omega, by simp, by omega⟩
  · exact ⟨min count.toNat s.rest.length, by omega, by rw [ByteStream.fill_eq], by omega⟩

theorem deserializeMessage_snd (header : HeaderInfo) (s : ByteStream) :
    ∃ k, k ≤ s.rest.length ∧ k ≤ header.size.toNat ∧
      (deserializeMessage pack maps header s).2 = s.advance k := by
  rw [deserializeMessage]
  cases maps.getMessageType header.command with
  | error e => exact ⟨0, by omega, by omega, by simp⟩
  | ok ty =>
    obtain ⟨k, hk, hs, hc⟩ := readBytes_snd s header.size
    refine ⟨k, hk, hc, ?_⟩
    rw [← hs]
    cases readBytes s header.size with
    | mk r s' =>
      cases r with
      | error e => rfl
      | ok b =>
        dsimp only
        cases pack.deserialize ty b <;> rfl

theorem deserializeBody_eq (s : ByteStream) : deserializeBody pack maps s =
    deserializeMessage pack maps (readHeader s).1
      (s.advance (s.read HeaderInfo.byteSize).1.length) := rfl

theorem readUInt16_cons (s : ByteStream) {x y : UInt8} {l : List UInt8}
    (h : s.rest = x :: y :: l) : readUInt16 s = (.ok (leValue [x, y]), s.advance 2) := by
  rw [readUInt16, show s.fill versionByteSize = ([x, y], s.advance 2) from
    ByteStream.fill_append (a := [x, y]) h]
  rfl

theorem readUInt16_short (s : ByteStream) (h : s.rest.length < 2) :
    readUInt16 s = (.error .endOfStream, s.advance s.rest.length) := by
  have hmin : min versionByteSize s.rest.length = s.rest.length := by
    simp only [versionByteSize]; omega
  rw [readUInt16, ByteStream.fill_eq, hmin]
  simp only [List.length_take, hmin]
  rw [if_pos (by simpa [versionByteSize] using h)]

theorem deserialize_cons (s : ByteStream) {x y : UInt8} {l : List UInt8} (h : s.rest = x :: y :: l) :
    deserialize pack maps s =
      if leValue [x, y] ≠ version then
        (.error (.exception s!"Invalid version. Expected {version} but got {leValue [x, y]}"),
          s.advance 2)
      else deserializeBody pack maps (s.advance 2) := by
  rw [deserialize, readUInt16_cons s h]

theorem deserialize_short (s : ByteStream) (h : s.rest.length < 2) :
    deserialize pack maps s = (.error .endOfStream, s.advance s.rest.length) := by
  rw [deserialize, readUInt16_short s h]

/-- **One call moves forward**, unless the stream is at its end. -/
theorem deserialize_advance (s : ByteStream) :
    ∃ k, k ≤ s.rest.length ∧ (deserialize pack maps s).2 = s.advance k ∧
      (s.rest ≠ [] → 0 < k) := by
  match hr : s.rest with
  | [] => exact ⟨0, by simp, by rw [deserialize_short pack maps s (by simp [hr]), hr]; rfl, by simp⟩
  | [x] =>
    exact ⟨1, by simp, by rw [deserialize_short pack maps s (by simp [hr]), hr]; rfl, by simp⟩
  | x :: y :: l =>
    rw [deserialize_cons pack maps s hr]
    split
    · exact ⟨2, by simp, rfl, by simp⟩
    · rw [deserializeBody_eq]
      have h8 := ByteStream.read_length_le (s.advance 2) HeaderInfo.byteSize
      obtain ⟨k, hk, _, hs⟩ := deserializeMessage_snd pack maps (readHeader (s.advance 2)).1
        ((s.advance 2).advance ((s.advance 2).read HeaderInfo.byteSize).1.length)
      refine ⟨2 + (((s.advance 2).read HeaderInfo.byteSize).1.length + k), ?_, ?_, by omega⟩
      · simp only [ByteStream.advance_rest, List.length_drop, hr, List.length_cons] at hk h8 ⊢
        omega
      · rw [hs, ByteStream.advance_advance, ByteStream.advance_advance]

theorem frameBytes_eq (c : UInt16) (body : List UInt8) :
    frameBytes c body = 1 :: 0 :: (HeaderInfo.bytes ⟨body.length, c⟩ ++ body) := rfl

theorem version_ok : leValue [1, 0] = version := rfl

theorem eq_version {x y : UInt8} (h : leValue [x, y] = version) : x = 1 ∧ y = 0 := by
  have hx := x.toNat_lt
  simp only [leValue, version] at h
  refine ⟨?_, ?_⟩
  · refine UInt8.toNat_inj.mp ?_
    show x.toNat = 1
    omega
  · refine UInt8.toNat_inj.mp ?_
    show y.toNat = 0
    omega

theorem deserialize_version {s : ByteStream} {l : List UInt8} (h : s.rest = 1 :: 0 :: l) :
    deserialize pack maps s = deserializeBody pack maps (s.advance 2) := by
  rw [deserialize_cons pack maps s h, if_neg (by rw [version_ok]; simp)]

theorem readHeader_whole {s : ByteStream} {n : Nat} (hn : n < 2 ^ 31) {c : UInt16}
    {l : List UInt8} (h : s.rest = HeaderInfo.bytes ⟨n, c⟩ ++ l)
    (hcut : ∀ j, 0 < j → j < HeaderInfo.byteSize → s.cut (s.pos + j) = false) :
    readHeader s = (⟨n, c⟩, s.advance HeaderInfo.byteSize) := by
  have hlen : HeaderInfo.byteSize ≤ s.rest.length := by rw [h]; simp
  have hfst : (s.read HeaderInfo.byteSize).1 = HeaderInfo.bytes ⟨n, c⟩ := by
    rw [(ByteStream.read_eq_take_iff s hlen).mpr hcut, h,
      List.take_left' (HeaderInfo.bytes_length _)]
  have hread : s.read HeaderInfo.byteSize =
      (HeaderInfo.bytes ⟨n, c⟩, s.advance HeaderInfo.byteSize) := by
    refine Prod.ext hfst ?_
    rw [ByteStream.read_snd, hfst, HeaderInfo.bytes_length]
  rw [readHeader, hread]
  simp [HeaderInfo.ofBytes_bytes hn]

/-! ### After the header -/

theorem deserializeMessage_unknown {header : HeaderInfo} (s : ByteStream)
    (h : maps.typeOf? header.command = none) :
    ∃ e, deserializeMessage pack maps header s = (.error e, s) := by
  obtain ⟨e, he⟩ := MessageMaps.getMessageType_of_none h
  exact ⟨e, by rw [deserializeMessage, he]⟩

theorem deserializeMessage_negative {header : HeaderInfo} (s : ByteStream) (h : header.size < 0) :
    ∃ e, deserializeMessage pack maps header s = (.error e, s) := by
  rw [deserializeMessage]
  cases maps.getMessageType header.command with
  | error e => exact ⟨e, rfl⟩
  | ok ty => exact ⟨.argumentOutOfRange, by simp only [readBytes, if_pos h]⟩

theorem deserializeMessage_size {header : HeaderInfo} (s : ByteStream) {ty : Ty} {n : Nat}
    (hty : maps.typeOf? header.command = some ty) (hn : header.size = n) :
    deserializeMessage pack maps header s =
      ((match pack.deserialize ty (s.rest.take n) with
        | none => .error .messagePack
        | some m => .ok m), s.advance (min n s.rest.length)) := by
  rw [deserializeMessage, MessageMaps.getMessageType_of_some hty]
  dsimp only
  rw [readBytes, hn, if_neg (by omega), Int.toNat_natCast, ByteStream.fill_eq]
  dsimp only
  cases pack.deserialize ty (s.rest.take n) <;> rfl

theorem deserialize_header {s : ByteStream} {h l : List UInt8} (hr : s.rest = 1 :: 0 :: (h ++ l))
    (hh : h.length = HeaderInfo.byteSize) (hcut : ∀ p, s.cut p = false) :
    deserialize pack maps s =
      deserializeMessage pack maps (HeaderInfo.ofBytes h) (s.advance (2 + HeaderInfo.byteSize)) := by
  have hrest : (s.advance 2).rest = h ++ l := by rw [ByteStream.advance_rest, hr]; rfl
  have hread : (s.advance 2).read HeaderInfo.byteSize = (h, s.advance (2 + HeaderInfo.byteSize)) := by
    rw [ByteStream.read_uncut (s.advance 2) _ hcut, hrest, List.take_left' hh, List.length_append, hh,
      Nat.min_eq_left (by omega), ByteStream.advance_advance]
  rw [deserialize_version pack maps hr, deserializeBody, readHeader, hread]
  simp [hh]

/-! ### Frames -/

/-- The header of a frame arrives whole: no piece ends strictly inside it. -/
def HeaderWhole (cut : Nat → Bool) (start : Nat) : Prop :=
  ∀ j, 0 < j → j < HeaderInfo.byteSize → cut (start + versionByteSize + j) = false

instance (cut : Nat → Bool) (start : Nat) : Decidable (HeaderWhole cut start) :=
  decidable_of_iff (∀ j < HeaderInfo.byteSize, 0 < j → cut (start + versionByteSize + j) = false)
    ⟨fun h j h0 h8 => h j h8 h0, fun h j h8 h0 => h j h0 h8⟩

/-- The outcome of decoding a body at its command. -/
def decodeAs (c : UInt16) (body : List UInt8) : Except Exception (Option Msg) :=
  match maps.getMessageType c with
  | .error e => .error e
  | .ok ty =>
    match pack.deserialize ty body with
    | none => .error .messagePack
    | some m => .ok m

/-- **A frame of a registered command whose header arrives whole** is read
exactly, and gives what its body decodes to. -/
theorem deserialize_frame {s : ByteStream} {c : UInt16} {ty : Ty} {body l : List UInt8}
    (hty : maps.typeOf? c = some ty) (hb : body.length < 2 ^ 31)
    (h : s.rest = frameBytes c body ++ l) (hw : HeaderWhole s.cut s.pos) :
    deserialize pack maps s = (decodeAs pack maps c body, s.advance (frameBytes c body).length) := by
  have hrest : (s.advance 2).rest = HeaderInfo.bytes ⟨body.length, c⟩ ++ (body ++ l) := by
    rw [ByteStream.advance_rest, h, frameBytes_eq]
    simp
  have hhead := readHeader_whole hb hrest (fun j h0 h1 => hw j h0 h1)
  have hbody : (s.advance (2 + HeaderInfo.byteSize)).rest = body ++ l := by
    rw [← ByteStream.advance_advance, ByteStream.advance_rest, hrest,
      List.drop_left' (HeaderInfo.bytes_length _)]
  have hget := MessageMaps.getMessageType_of_some hty
  rw [deserialize_version pack maps (by rw [h, frameBytes_eq]; rfl), deserializeBody, hhead]
  simp only [ByteStream.advance_advance]
  rw [deserializeMessage_size pack maps _ hty rfl, hbody, List.take_left, List.length_append,
    Nat.min_eq_left (by omega), ByteStream.advance_advance, decodeAs, hget, frameBytes_length,
    ← Nat.add_assoc, versionByteSize]

/-- **A frame whose header arrives in two pieces** is not read to its end. -/
theorem deserialize_cut {s : ByteStream} {c : UInt16} {body l : List UInt8}
    (hb : body.length < 2 ^ 31) (h : s.rest = frameBytes c body ++ l)
    (hw : ¬ HeaderWhole s.cut s.pos) :
    ∃ k, k < (frameBytes c body).length ∧ (deserialize pack maps s).2 = s.advance k := by
  have hrest : (s.advance 2).rest = HeaderInfo.bytes ⟨body.length, c⟩ ++ (body ++ l) := by
    rw [ByteStream.advance_rest, h, frameBytes_eq]
    simp
  have hlen : HeaderInfo.byteSize ≤ (s.advance 2).rest.length := by rw [hrest]; simp
  have hshort : ((s.advance 2).read HeaderInfo.byteSize).1.length < HeaderInfo.byteSize := by
    have hle := ByteStream.read_length_le (s.advance 2) HeaderInfo.byteSize
    have hne : ((s.advance 2).read HeaderInfo.byteSize).1.length ≠ HeaderInfo.byteSize := by
      rw [Ne, ByteStream.read_length_eq_iff _ hlen]
      exact fun hall => hw (fun j h0 h1 => hall j h0 h1)
    omega
  -- the header is a prefix of the true one, so its size is at most the true size
  have hpre : ((s.advance 2).read HeaderInfo.byteSize).1 =
      (HeaderInfo.bytes ⟨body.length, c⟩).take
        ((s.advance 2).read HeaderInfo.byteSize).1.length := by
    conv_lhs => rw [ByteStream.read_fst, hrest]
    rw [List.take_append_of_le_length (by rw [HeaderInfo.bytes_length]; omega)]
  obtain ⟨n', hn', hsize⟩ := HeaderInfo.size_ofBytes_take hb c
    ((s.advance 2).read HeaderInfo.byteSize).1.length
    (HeaderInfo.byteSize - ((s.advance 2).read HeaderInfo.byteSize).1.length)
  rw [← hpre] at hsize
  obtain ⟨k, _, hk, hs⟩ := deserializeMessage_snd pack maps (readHeader (s.advance 2)).1
    ((s.advance 2).advance ((s.advance 2).read HeaderInfo.byteSize).1.length)
  rw [show (readHeader (s.advance 2)).1.size = n' from hsize, Int.toNat_natCast] at hk
  refine ⟨2 + (((s.advance 2).read HeaderInfo.byteSize).1.length + k), ?_, ?_⟩
  · rw [frameBytes_length, versionByteSize]
    omega
  · rw [deserialize_version pack maps (by rw [h, frameBytes_eq]; rfl), deserializeBody_eq, hs,
      ByteStream.advance_advance, ByteStream.advance_advance]

end

end Blockcore.Networking
