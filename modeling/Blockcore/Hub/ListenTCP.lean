import Blockcore.Networking.Framing

/-!
# The hub's TCP reader

`HubManager.ListenTCP` decodes, hands the message on, and on an exception logs
it and goes on with the same stream from wherever the failed call left it.

A frame of a registered command is always read to its end, also when its body
does not decode.  A frame of any other command is left after its header, since
`Deserialize` asks for the class before it reads the body, and the reader goes
on inside that body.  `Skipped` says when it comes out at the end of it with
nothing passed on: the body is made of pieces each of which one exception
swallows (`Dropped`).

`sync_iff_skipped` is the reader's behaviour on a whole sequence of frames: it
stands at the end of the frames, having passed on exactly their messages,
whatever follows them, exactly when the bodies of the unknown ones are skipped.
-/

namespace Blockcore.Hub

open Lib Networking

section

variable {Msg Ty H : Type} (pack : MessagePack Msg Ty) (maps : MessageMaps Ty H)

/-- One round of the loop: what it passes to `messageProcessing.Process`. -/
def listenRound (s : ByteStream) : List (Option Msg) × ByteStream :=
  match deserialize pack maps s with
  | (.error _, s) => ([], s)
  | (.ok message, s) => ([message], s)

def listenRounds : Nat → ByteStream → List (Option Msg) × ByteStream
  | 0, s => ([], s)
  | n + 1, s =>
    let (ms, s) := listenRound pack maps s
    let (ms', s) := listenRounds n s
    (ms ++ ms', s)

/-- `HubManager.ListenTCP` over a stream that ends: every round before the end
takes at least a byte, and at the end every round throws. -/
def listenTCP (s : ByteStream) : List (Option Msg) :=
  (listenRounds pack maps s.rest.length s).1

theorem listenRounds_add : ∀ (a b : Nat) (s : ByteStream), listenRounds pack maps (a + b) s =
    ((listenRounds pack maps a s).1 ++ (listenRounds pack maps b (listenRounds pack maps a s).2).1,
      (listenRounds pack maps b (listenRounds pack maps a s).2).2) := by
  intro a
  induction a with
  | zero => intro b s; simp [listenRounds]
  | succ a ih =>
    intro b s
    rw [Nat.succ_add, listenRounds, listenRounds]
    simp only [ih b]
    rw [List.append_assoc]

theorem listenRound_snd (s : ByteStream) :
    (listenRound pack maps s).2 = (deserialize pack maps s).2 := by
  rw [listenRound]
  cases deserialize pack maps s with
  | mk r s' => cases r <;> rfl

theorem listenRounds_advance : ∀ (n : Nat) (s : ByteStream),
    ∃ k, k ≤ s.rest.length ∧ (listenRounds pack maps n s).2 = s.advance k := by
  intro n
  induction n with
  | zero => intro s; exact ⟨0, by omega, by simp [listenRounds]⟩
  | succ n ih =>
    intro s
    obtain ⟨j, hj, hs, _⟩ := deserialize_advance pack maps s
    rw [← listenRound_snd] at hs
    obtain ⟨k, hk, ht⟩ := ih (listenRound pack maps s).2
    rw [hs] at ht hk
    rw [ByteStream.advance_rest, List.length_drop] at hk
    exact ⟨j + k, by omega, by rw [listenRounds]; simp only [hs, ht, ByteStream.advance_advance]⟩

theorem listenRounds_end : ∀ (n : Nat) {s : ByteStream}, s.rest = [] →
    listenRounds pack maps n s = ([], s) := by
  intro n
  induction n with
  | zero => intro s _; rfl
  | succ n ih =>
    intro s hs
    have hd : deserialize pack maps s = (.error .endOfStream, s) := by
      rw [deserialize_short pack maps s (by rw [hs]; decide), hs]
      exact congrArg _ s.advance_zero
    rw [listenRounds, listenRound, hd]
    simp only [ih hs, List.append_nil]

theorem listenRounds_reaches_end : ∀ (n : Nat) {s : ByteStream}, s.rest.length ≤ n →
    (listenRounds pack maps n s).2.rest = [] := by
  intro n
  induction n with
  | zero => intro s hs; exact List.eq_nil_of_length_eq_zero (by simpa [listenRounds] using hs)
  | succ n ih =>
    intro s hs
    obtain ⟨k, hk, hd, hpos⟩ := deserialize_advance pack maps s
    rw [listenRounds]
    refine ih ?_
    rw [listenRound_snd, hd, ByteStream.advance_rest, List.length_drop]
    by_cases hne : s.rest = []
    · rw [hne]; simp
    · have := hpos hne
      omega

/-- **Rounds after the end add nothing**, so the loop passes on what any number
of rounds that reaches the end passes on. -/
theorem listenTCP_eq_of_end {n : Nat} {s s' : ByteStream} {ms : List (Option Msg)}
    (h : listenRounds pack maps n s = (ms, s')) (hs : s'.rest = []) :
    listenTCP pack maps s = ms := by
  have hlong : (listenRounds pack maps (n + s.rest.length) s).1 = ms := by
    rw [listenRounds_add, h, listenRounds_end pack maps _ hs]
    simp
  have hend : (listenRounds pack maps s.rest.length s).2.rest = [] :=
    listenRounds_reaches_end pack maps _ (Nat.le_refl _)
  rw [Nat.add_comm, listenRounds_add, listenRounds_end pack maps n hend, List.append_nil] at hlong
  exact hlong

/-! ### What an exception swallows -/

/-- The bytes one failed call takes from a stream that arrives in one piece: a
wrong version; a version and a header that names no registered class or a
negative size; or a whole frame whose body does not decode. -/
inductive Dropped : List UInt8 → Prop where
  | badVersion {x y : UInt8} : leValue [x, y] ≠ version → Dropped [x, y]
  | unknown {h : List UInt8} : h.length = HeaderInfo.byteSize →
      maps.typeOf? (HeaderInfo.ofBytes h).command = none → Dropped (1 :: 0 :: h)
  | negative {h : List UInt8} : h.length = HeaderInfo.byteSize →
      (HeaderInfo.ofBytes h).size < 0 → Dropped (1 :: 0 :: h)
  | undecodable {h b : List UInt8} {ty : Ty} : h.length = HeaderInfo.byteSize →
      maps.typeOf? (HeaderInfo.ofBytes h).command = some ty →
      (HeaderInfo.ofBytes h).size = b.length → pack.deserialize ty b = none →
      Dropped (1 :: 0 :: (h ++ b))

/-- Bytes that consist of what exceptions swallow. -/
inductive Skipped : List UInt8 → Prop where
  | nil : Skipped []
  | cons {c l : List UInt8} : Dropped pack maps c → Skipped l → Skipped (c ++ l)

theorem skipped_of_pairs : ∀ {l : List (UInt8 × UInt8)},
    (∀ p ∈ l, leValue [p.1, p.2] ≠ version) → Skipped pack maps (l.flatMap fun p => [p.1, p.2]) := by
  intro l
  induction l with
  | nil => intro _; exact .nil
  | cons p l ih =>
    intro h
    exact .cons (.badVersion (h p (by simp))) (ih fun q hq => h q (List.mem_cons_of_mem p hq))

def Uncut (s : ByteStream) : Prop := ∀ p, s.cut p = false

theorem header_length {h : List UInt8} (hh : h.length = HeaderInfo.byteSize) (b : List UInt8) :
    (1 :: 0 :: (h ++ b)).length = 2 + HeaderInfo.byteSize + b.length := by
  simp only [List.length_cons, List.length_append, hh]
  omega

theorem deserialize_dropped {s : ByteStream} (hcut : Uncut s) {c l : List UInt8}
    (hc : Dropped pack maps c) (hr : s.rest = c ++ l) :
    ∃ e, deserialize pack maps s = (.error e, s.advance c.length) := by
  cases hc with
  | @badVersion x y hv => exact ⟨_, by rw [deserialize_cons pack maps s hr, if_pos hv]; rfl⟩
  | @unknown h hh hty =>
    obtain ⟨e, he⟩ := deserializeMessage_unknown pack maps (s.advance (2 + HeaderInfo.byteSize)) hty
    have hlen := header_length hh []
    rw [List.append_nil] at hlen
    exact ⟨e, by rw [deserialize_header pack maps hr hh hcut, he, hlen]; rfl⟩
  | @negative h hh hsize =>
    obtain ⟨e, he⟩ := deserializeMessage_negative pack maps (s.advance (2 + HeaderInfo.byteSize)) hsize
    have hlen := header_length hh []
    rw [List.append_nil] at hlen
    exact ⟨e, by rw [deserialize_header pack maps hr hh hcut, he, hlen]; rfl⟩
  | @undecodable h b ty hh hty hsize hdec =>
    have hr' : s.rest = 1 :: 0 :: (h ++ (b ++ l)) := by rw [hr]; simp
    have hrest : (s.advance (2 + HeaderInfo.byteSize)).rest = b ++ l := by
      rw [← ByteStream.advance_advance, ByteStream.advance_rest, ByteStream.advance_rest, hr']
      exact List.drop_left' hh
    refine ⟨.messagePack, ?_⟩
    rw [deserialize_header pack maps hr' hh hcut, deserializeMessage_size pack maps _ hty hsize, hrest,
      List.take_left, hdec, List.length_append, Nat.min_eq_left (by omega),
      ByteStream.advance_advance, header_length hh b]

theorem advance_inj {s t : ByteStream} {j k : Nat} (hj : t = s.advance j) (hk : t = s.advance k) :
    j = k := by
  have := congrArg ByteStream.pos (hj.symm.trans hk)
  simpa using this

/-- A failed call on a version and a header swallows them, and the body with
them if it got to it. -/
theorem dropped_of_header {s : ByteStream} (hcut : Uncut s) {h b l : List UInt8} {e : Exception}
    {k : Nat} (hh : h.length = HeaderInfo.byteSize) (hl : l ≠ [])
    (hr : s.rest = 1 :: 0 :: (h ++ (b ++ l)))
    (hd : deserialize pack maps s = (.error e, s.advance k))
    (hk : k ≤ 2 + HeaderInfo.byteSize + b.length) :
    ∃ c d, 1 :: 0 :: (h ++ b) = c ++ d ∧ Dropped pack maps c ∧ k = c.length := by
  have hhead := deserialize_header pack maps hr hh hcut
  have hrest : (s.advance (2 + HeaderInfo.byteSize)).rest = b ++ l := by
    rw [← ByteStream.advance_advance, ByteStream.advance_rest, ByteStream.advance_rest, hr]
    exact List.drop_left' hh
  have hlen := header_length hh []
  rw [List.append_nil, List.length_nil, Nat.add_zero] at hlen
  cases hty : maps.typeOf? (HeaderInfo.ofBytes h).command with
  | none =>
    obtain ⟨e', he'⟩ := deserializeMessage_unknown pack maps (s.advance (2 + HeaderInfo.byteSize)) hty
    rw [hd, he'] at hhead
    refine ⟨1 :: 0 :: h, b, rfl, .unknown hh hty, ?_⟩
    rw [hlen]
    exact advance_inj rfl (Prod.mk.inj hhead).2
  | some ty =>
    rcases lt_or_ge (HeaderInfo.ofBytes h).size 0 with hneg | hnn
    · obtain ⟨e', he'⟩ :=
        deserializeMessage_negative pack maps (s.advance (2 + HeaderInfo.byteSize)) hneg
      rw [hd, he'] at hhead
      refine ⟨1 :: 0 :: h, b, rfl, .negative hh hneg, ?_⟩
      rw [hlen]
      exact advance_inj rfl (Prod.mk.inj hhead).2
    · obtain ⟨n, hn⟩ := Int.eq_ofNat_of_zero_le hnn
      rw [hd, deserializeMessage_size pack maps _ hty hn, hrest, ByteStream.advance_advance] at hhead
      have hkn : k = 2 + HeaderInfo.byteSize + min n (b ++ l).length :=
        advance_inj rfl (Prod.mk.inj hhead).2
      -- the body ends in `b`: otherwise the call would have run into `l`
      have hnb : n ≤ b.length := by
        have := List.length_pos_of_ne_nil hl
        rw [List.length_append] at hkn
        omega
      have hbody : (b.take n).length = n := by rw [List.length_take]; omega
      rw [List.take_append_of_le_length hnb] at hhead
      refine ⟨1 :: 0 :: (h ++ b.take n), b.drop n, ?_,
        .undecodable hh hty (by rw [hbody]; exact hn) ?_, ?_⟩
      · rw [List.cons_append, List.cons_append, List.append_assoc, List.take_append_drop]
      · cases hdec : pack.deserialize ty (b.take n) with
        | none => rfl
        | some m => rw [hdec] at hhead; simp at hhead
      · rw [header_length hh, hbody, hkn, List.length_append, Nat.min_eq_left (by omega)]

/-- **A failed call that stays inside some bytes** swallows the first of them. -/
theorem dropped_of_deserialize {s : ByteStream} (hcut : Uncut s) {b l : List UInt8} {e : Exception}
    {k : Nat} (hl : HeaderInfo.byteSize ≤ l.length) (hr : s.rest = b ++ l) (hb : b ≠ [])
    (hd : deserialize pack maps s = (.error e, s.advance k)) (hk : k ≤ b.length) :
    ∃ c d, b = c ++ d ∧ Dropped pack maps c ∧ k = c.length := by
  have hlne : l ≠ [] := by
    rintro rfl
    simp [HeaderInfo.byteSize] at hl
  -- a version is two bytes, read in any case
  obtain ⟨x, y, t, hxy⟩ : ∃ x y t, s.rest = x :: y :: t := by
    rcases b with _ | ⟨x, _ | ⟨y, b⟩⟩
    · exact absurd rfl hb
    · obtain ⟨y, l', rfl⟩ := List.exists_cons_of_ne_nil hlne
      exact ⟨x, y, l', hr⟩
    · exact ⟨x, y, b ++ l, hr⟩
  have hcons := deserialize_cons pack maps s hxy
  rw [hd] at hcons
  by_cases hv : leValue [x, y] = version
  · obtain ⟨rfl, rfl⟩ := eq_version hv
    rw [if_neg (by simp [hv]), deserializeBody_eq] at hcons
    -- the header is read whole, so it lies in `b`
    have ht : t.length + 2 = b.length + l.length := by
      have := congrArg List.length (hr.symm.trans hxy)
      simp only [List.length_append, List.length_cons] at this
      omega
    have hb1 : 0 < b.length := List.length_pos_of_ne_nil hb
    by_cases hb10 : 2 + HeaderInfo.byteSize ≤ b.length
    · rcases b with _ | ⟨x, _ | ⟨y, b⟩⟩
      · simp at hb1
      · simp [HeaderInfo.byteSize] at hb10
      · simp only [List.cons_append, hxy, List.cons.injEq] at hr
        obtain ⟨rfl, rfl, rfl⟩ := hr
        simp only [List.length_cons] at hb10 hk
        have hh : (b.take HeaderInfo.byteSize).length = HeaderInfo.byteSize := by
          rw [List.length_take]; omega
        have hdrop : (b.drop HeaderInfo.byteSize).length + HeaderInfo.byteSize = b.length := by
          rw [List.length_drop]; omega
        have := dropped_of_header pack maps hcut (b := b.drop HeaderInfo.byteSize) hh hlne
          (by rw [hxy, ← List.append_assoc, List.take_append_drop]) hd (by omega)
        rwa [List.take_append_drop] at this
    · -- the call has read a version and a header, which is more than `b`
      have hread : ((s.advance 2).read HeaderInfo.byteSize).1.length =
          min HeaderInfo.byteSize t.length := by
        rw [ByteStream.read_uncut (s.advance 2) _ hcut, ByteStream.advance_rest, hxy]
        simp
      obtain ⟨j, _, _, hj⟩ := deserializeMessage_snd pack maps (readHeader (s.advance 2)).1
        ((s.advance 2).advance ((s.advance 2).read HeaderInfo.byteSize).1.length)
      rw [← hcons, ByteStream.advance_advance, ByteStream.advance_advance, hread] at hj
      have := advance_inj rfl hj
      simp only [HeaderInfo.byteSize] at *
      omega
  · rw [if_pos hv] at hcons
    have hk2 : k = 2 := advance_inj rfl (Prod.mk.inj hcons).2
    rcases b with _ | ⟨x', _ | ⟨y', b⟩⟩
    · exact absurd rfl hb
    · simp [hk2] at hk
    · simp only [List.cons_append, hxy, List.cons.injEq] at hr
      obtain ⟨rfl, rfl, _⟩ := hr
      exact ⟨[x, y], b, rfl, .badVersion hv, hk2⟩

/-! ### Rounds over skipped bytes -/

theorem listenRounds_of_skipped {b : List UInt8} (hb : Skipped pack maps b) :
    ∀ {s : ByteStream} {l : List UInt8}, Uncut s → s.rest = b ++ l →
      ∃ n, listenRounds pack maps n s = ([], s.advance b.length) := by
  induction hb with
  | nil => intro s l _ _; exact ⟨0, by simp [listenRounds]⟩
  | @cons c b hc _ ih =>
    intro s l hcut hr
    obtain ⟨e, he⟩ := deserialize_dropped pack maps hcut hc (by rw [hr, List.append_assoc])
    obtain ⟨n, hn⟩ := ih (s := s.advance c.length) (l := l) hcut
      (by rw [ByteStream.advance_rest, hr, List.append_assoc, List.drop_left])
    refine ⟨n + 1, ?_⟩
    rw [listenRounds, listenRound, he]
    simp only [hn, List.nil_append, ByteStream.advance_advance, List.length_append]

/-- **Bytes gone through with nothing passed on are skipped**, if enough follows
them that no call comes to the end of the stream. -/
theorem skipped_of_listenRounds {l : List UInt8} (hl : HeaderInfo.byteSize ≤ l.length) :
    ∀ {n : Nat} {s : ByteStream} {b : List UInt8}, Uncut s → s.rest = b ++ l →
      listenRounds pack maps n s = ([], s.advance b.length) → Skipped pack maps b := by
  intro n
  induction n with
  | zero =>
    intro s b _ _ h
    have h0 : 0 = b.length := advance_inj (s.advance_zero).symm (Prod.mk.inj h).2
    rw [List.eq_nil_of_length_eq_zero h0.symm]
    exact .nil
  | succ n ih =>
    intro s b hcut hr h
    by_cases hb : b = []
    · rw [hb]; exact .nil
    · obtain ⟨k, _, hd, _⟩ := deserialize_advance pack maps s
      cases hcall : deserialize pack maps s with
      | mk r s' =>
        rw [hcall] at hd
        dsimp only at hd
        subst hd
        cases r with
        | ok m => rw [listenRounds, listenRound, hcall] at h; simp at h
        | error e =>
          rw [listenRounds, listenRound, hcall] at h
          simp only [List.nil_append, Prod.mk.injEq] at h
          obtain ⟨j, _, hj⟩ := listenRounds_advance pack maps n (s.advance k)
          have hkj : b.length = k + j :=
            advance_inj h.2 (by rw [hj, ByteStream.advance_advance])
          obtain ⟨c, d, rfl, hc, rfl⟩ :=
            dropped_of_deserialize pack maps hcut hl hr hb hcall (by omega)
          refine .cons hc (ih (s := s.advance c.length) hcut ?_ (Prod.ext h.1 ?_))
          · rw [ByteStream.advance_rest, hr, List.append_assoc, List.drop_left]
          · rw [h.2, ByteStream.advance_advance, List.length_append]

/-! ### Frames -/

/-- A well-formed frame: a command and a body whose length fits `Size`. -/
structure Frame where
  command : UInt16
  body : List UInt8
  body_lt : body.length < 2 ^ 31

def Frame.bytes (f : Frame) : List UInt8 := frameBytes f.command f.body

def framesOf (frames : List Frame) : List UInt8 := frames.flatMap Frame.bytes

@[simp] theorem framesOf_append (as bs : List Frame) :
    framesOf (as ++ bs) = framesOf as ++ framesOf bs := List.flatMap_append

/-- The messages of the frames with registered commands. -/
def messagesOf (frames : List Frame) : List (Option Msg) :=
  frames.filterMap (fun f => (decodeAs pack maps f.command f.body).toOption)

theorem decodeAs_unknown {f : Frame} (h : maps.typeOf? f.command = none) :
    (decodeAs pack maps f.command f.body).toOption = none := by
  obtain ⟨e, he⟩ := MessageMaps.getMessageType_of_none h
  rw [decodeAs, he]
  rfl

theorem skipped_frame_iff {f : Frame} (h : maps.typeOf? f.command = none) :
    Skipped pack maps f.bytes ↔ Skipped pack maps f.body := by
  have hsplit : f.bytes = (1 :: 0 :: HeaderInfo.bytes ⟨f.body.length, f.command⟩) ++ f.body := rfl
  have hlen := HeaderInfo.bytes_length ⟨f.body.length, f.command⟩
  have hof := HeaderInfo.ofBytes_bytes f.body_lt f.command
  refine ⟨?_, ?_⟩
  · intro hs
    generalize hbytes : f.bytes = b at hs
    cases hs with
    | nil => rw [hsplit] at hbytes; simp at hbytes
    | @cons c l hc hl =>
      rw [hsplit] at hbytes
      cases hc with
      | badVersion hv =>
        simp only [List.cons_append, List.cons.injEq] at hbytes
        obtain ⟨rfl, rfl, _⟩ := hbytes
        exact absurd version_ok hv
      | unknown hh _ =>
        simp only [List.cons_append, List.cons.injEq, true_and] at hbytes
        rwa [(List.append_inj hbytes (by rw [hlen, hh])).2]
      | negative hh _ =>
        simp only [List.cons_append, List.cons.injEq, true_and] at hbytes
        rwa [(List.append_inj hbytes (by rw [hlen, hh])).2]
      | undecodable hh hty _ _ =>
        simp only [List.cons_append, List.cons.injEq, true_and, List.append_assoc] at hbytes
        rw [← (List.append_inj hbytes (by rw [hlen, hh])).1, hof, h] at hty
        exact absurd hty (by simp)
  · intro hs
    rw [hsplit]
    exact .cons (.unknown hlen (by rw [hof]; exact h)) hs

/-- **One frame.**  The reader comes to its end, having passed on its message if
it has one, provided that an unknown one's body is skipped. -/
theorem listenRounds_frame {f : Frame} (hf : maps.typeOf? f.command = none → Skipped pack maps f.body)
    {s : ByteStream} {l : List UInt8} (hcut : Uncut s) (hr : s.rest = f.bytes ++ l) :
    ∃ n, listenRounds pack maps n s = (messagesOf pack maps [f], s.advance f.bytes.length) := by
  cases hty : maps.typeOf? f.command with
  | none =>
    have hm : messagesOf pack maps [f] = [] := by simp [messagesOf, decodeAs_unknown pack maps hty]
    rw [hm]
    exact listenRounds_of_skipped pack maps ((skipped_frame_iff pack maps hty).mpr (hf hty)) hcut hr
  | some ty =>
    have hframe := deserialize_frame pack maps hty f.body_lt hr (fun j _ _ => hcut _)
    refine ⟨1, ?_⟩
    rw [listenRounds, listenRound, hframe]
    simp only [listenRounds]
    cases hd : decodeAs pack maps f.command f.body with
    | error e => simp [messagesOf, hd, Except.toOption, Frame.bytes]
    | ok m => simp [messagesOf, hd, Except.toOption, Frame.bytes]

theorem listenRounds_frames : ∀ {frames : List Frame} {s : ByteStream} {l : List UInt8},
    (∀ f ∈ frames, maps.typeOf? f.command = none → Skipped pack maps f.body) → Uncut s →
    s.rest = framesOf frames ++ l →
    ∃ n, listenRounds pack maps n s = (messagesOf pack maps frames, s.advance (framesOf frames).length) := by
  intro frames
  induction frames with
  | nil => intro s l _ _ _; exact ⟨0, by simp [listenRounds, messagesOf, framesOf]⟩
  | cons f frames ih =>
    intro s l hf hcut hr
    have hr' : s.rest = f.bytes ++ (framesOf frames ++ l) := by
      rw [hr, framesOf, List.flatMap_cons, List.append_assoc]; rfl
    obtain ⟨a, ha⟩ := listenRounds_frame pack maps (hf f (by simp)) hcut hr'
    obtain ⟨b, hb⟩ := ih (s := s.advance f.bytes.length) (l := l)
      (fun g hg => hf g (List.mem_cons_of_mem f hg)) hcut
      (by rw [ByteStream.advance_rest, hr', List.drop_left])
    refine ⟨a + b, ?_⟩
    rw [listenRounds_add, ha, hb, ByteStream.advance_advance]
    refine Prod.ext ?_ ?_
    · show messagesOf pack maps [f] ++ messagesOf pack maps frames = _
      rw [← List.singleton_append (l := frames), messagesOf, messagesOf, ← List.filterMap_append]
      rfl
    · rw [framesOf, framesOf, List.flatMap_cons, List.length_append]

/-- The stream of some bytes that arrives in one piece. -/
def wholeStream (b : List UInt8) : ByteStream := ⟨b, 0, fun _ => false⟩

/-- After the frames the reader stands at the end of them, whatever follows, and
has passed on exactly their messages. -/
def Sync (frames : List Frame) (l : List UInt8) : Prop :=
  ∃ n, listenRounds pack maps n (wholeStream (framesOf frames ++ l)) =
    (messagesOf pack maps frames,
      (wholeStream (framesOf frames ++ l)).advance (framesOf frames).length)

/-- A reader that stays in step over some frames and over one unknown frame more
has skipped that frame's body. -/
theorem skipped_of_sync {frames : List Frame} {f : Frame} (hty : maps.typeOf? f.command = none)
    (h : ∀ l, Sync pack maps frames l) (hf : ∀ l, Sync pack maps (frames ++ [f]) l) :
    Skipped pack maps f.body := by
  have hpos : 0 < f.bytes.length := by
    rw [Frame.bytes, frameBytes_length, versionByteSize]; omega
  set tail : List UInt8 := List.replicate HeaderInfo.byteSize 0 with htail
  obtain ⟨n, hn⟩ := h (f.bytes ++ tail)
  obtain ⟨m, hm⟩ := hf tail
  have hstream : framesOf (frames ++ [f]) ++ tail = framesOf frames ++ (f.bytes ++ tail) := by
    simp [framesOf]
  have hmsgs : messagesOf pack maps (frames ++ [f]) = messagesOf pack maps frames := by
    simp [messagesOf, decodeAs_unknown pack maps hty]
  have hlen : (framesOf (frames ++ [f])).length = (framesOf frames).length + f.bytes.length := by
    simp [framesOf]
  rw [hstream, hmsgs, hlen] at hm
  -- the rounds over `f` come after the rounds over the frames before it
  rcases Nat.le_total n m with hle | hle
  · obtain ⟨d, rfl⟩ := Nat.exists_eq_add_of_le hle
    rw [listenRounds_add, hn] at hm
    simp only [Prod.mk.injEq, List.append_right_eq_self] at hm
    refine (skipped_frame_iff pack maps hty).mp
      (skipped_of_listenRounds pack maps (l := tail) (by simp [htail])
        (s := (wholeStream (framesOf frames ++ (f.bytes ++ tail))).advance (framesOf frames).length)
        (fun _ => rfl) ?_ (Prod.ext hm.1 ?_))
    · rw [ByteStream.advance_rest]
      exact List.drop_left
    · rw [hm.2, ByteStream.advance_advance]
  · obtain ⟨d, rfl⟩ := Nat.exists_eq_add_of_le hle
    rw [listenRounds_add, hm] at hn
    obtain ⟨j, _, hj⟩ := listenRounds_advance pack maps d
      ((wholeStream (framesOf frames ++ (f.bytes ++ tail))).advance
        ((framesOf frames).length + f.bytes.length))
    have hlast := (Prod.mk.inj hn).2
    have := advance_inj hlast (by rw [hj, ByteStream.advance_advance])
    omega

/-- **The reader stays in step exactly when it skips the unknown bodies**: it
stands at the end of every initial part of the frames, whatever follows, having
passed on exactly the messages of its frames with registered commands. -/
theorem sync_iff_skipped (frames : List Frame) :
    (∀ k l, Sync pack maps (frames.take k) l) ↔
      ∀ f ∈ frames, maps.typeOf? f.command = none → Skipped pack maps f.body := by
  refine ⟨?_, ?_⟩
  · induction frames using List.reverseRecOn with
    | nil => intro _ f hf; simp at hf
    | append_singleton frames f ih =>
      intro h g hg hty
      have hinit : ∀ k l, Sync pack maps (frames.take k) l := by
        intro k l
        have := h (min k frames.length) l
        rwa [List.take_append_of_le_length (Nat.min_le_right ..), ← List.take_take,
          List.take_length] at this
      rcases List.mem_append.mp hg with hg | hg
      · exact ih hinit g hg hty
      · rw [List.mem_singleton] at hg
        subst hg
        have hbefore : ∀ l, Sync pack maps frames l := fun l => by
          simpa using hinit frames.length l
        refine skipped_of_sync pack maps hty hbefore (fun l => ?_)
        have := h (frames ++ [g]).length l
        rwa [List.take_length] at this
  · intro h k l
    exact listenRounds_frames pack maps (s := wholeStream (framesOf (frames.take k) ++ l))
      (fun f hf => h f (List.mem_of_mem_take hf)) (fun _ => rfl) rfl

theorem listenTCP_of_skipped {frames : List Frame}
    (h : ∀ f ∈ frames, maps.typeOf? f.command = none → Skipped pack maps f.body) :
    listenTCP pack maps (wholeStream (framesOf frames)) = messagesOf pack maps frames := by
  obtain ⟨n, hn⟩ := listenRounds_frames pack maps (s := wholeStream (framesOf frames)) (l := []) h
    (fun _ => rfl) (by simp [wholeStream])
  exact listenTCP_eq_of_end pack maps hn (by simp [wholeStream])

/-- **Unknown commands at the hub.**  If the body of every frame of an unknown
command is skipped, the loop passes on exactly the messages of the frames with
registered commands, each once and in order; and the bodies are skipped exactly
when the reader is in step after every initial part of the frames. -/
theorem listenTCP_unknown_commands (frames : List Frame) :
    ((∀ f ∈ frames, maps.typeOf? f.command = none → Skipped pack maps f.body) →
      listenTCP pack maps (wholeStream (framesOf frames)) = messagesOf pack maps frames) ∧
    ((∀ k l, Sync pack maps (frames.take k) l) ↔
      ∀ f ∈ frames, maps.typeOf? f.command = none → Skipped pack maps f.body) :=
  ⟨listenTCP_of_skipped pack maps, sync_iff_skipped pack maps frames⟩

end

/-! ### A frame of an unknown command before a keep-alive -/

/-- Command `7`, whose body is the empty MessagePack array, and a keep-alive. -/
def unknownThenKeepAlive : List Frame :=
  [⟨7, [0x90], by decide⟩, ⟨3, keepAliveBytes, by decide⟩]

/-- The body of the unknown frame takes a byte of the next frame with it, and
the keep-alive is never passed on. -/
theorem keepAlive_not_passed_on :
    messagesOf keepAlivePack keepAliveMaps unknownThenKeepAlive = [some keepAlive] ∧
      listenTCP keepAlivePack keepAliveMaps (wholeStream (framesOf unknownThenKeepAlive)) = [] := by
  decide

end Blockcore.Hub
