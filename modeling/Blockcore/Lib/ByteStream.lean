import Mathlib.Data.List.Basic
import Mathlib.Data.List.TakeDrop
import Mathlib.Tactic

/-!
# Byte streams that deliver in pieces

A stream hands out its bytes in whatever pieces the network made of them.  Two
ways of reading it are in use, and they differ exactly in what a piece boundary
does to them: `ByteStream.read` asks once and takes what is there, `fill` asks
again until it has enough or the stream is at its end.

`fill_eq` says the second does not see the pieces at all.  `read_eq_take_iff`
says when the first does not: no piece ends strictly inside what was asked for.

The last part is the little-endian reading of a few bytes as a number, with the
one fact a short read needs: bytes that were not read count as zero, and that
never makes the number larger (`leValue_take_le`).
-/

namespace Blockcore.Lib

/-! ### The stream -/

/-- A stream: the bytes still to come, how many have been read, and where the
pieces end.  `cut p` says that a piece ends after the first `p` bytes. -/
structure ByteStream where
  rest : List UInt8
  pos : Nat
  cut : Nat → Bool

namespace ByteStream

/-- The stream after `k` more bytes were taken from it. -/
def advance (s : ByteStream) (k : Nat) : ByteStream :=
  { s with rest := s.rest.drop k, pos := s.pos + k }

@[simp] theorem advance_rest (s : ByteStream) (k : Nat) : (s.advance k).rest = s.rest.drop k := rfl
@[simp] theorem advance_pos (s : ByteStream) (k : Nat) : (s.advance k).pos = s.pos + k := rfl
@[simp] theorem advance_cut (s : ByteStream) (k : Nat) : (s.advance k).cut = s.cut := rfl

/-- The stream after more bytes were written to it. -/
def write (s : ByteStream) (b : List UInt8) : ByteStream := { s with rest := s.rest ++ b }

@[simp] theorem write_rest (s : ByteStream) (b : List UInt8) : (s.write b).rest = s.rest ++ b := rfl
@[simp] theorem write_cut (s : ByteStream) (b : List UInt8) : (s.write b).cut = s.cut := rfl

@[simp] theorem advance_zero (s : ByteStream) : s.advance 0 = s := by
  simp [advance]

@[simp] theorem advance_advance (s : ByteStream) (j k : Nat) :
    (s.advance j).advance k = s.advance (j + k) := by
  simp [advance, Nat.add_assoc]

/-- The bytes one call hands out when `n` are asked for at position `pos`: up
to `n`, up to the end of the stream, and never past the end of a piece. -/
def piece (cut : Nat → Bool) : Nat → Nat → List UInt8 → List UInt8
  | _, 0, _ => []
  | _, _ + 1, [] => []
  | pos, n + 1, b :: bs => b :: (if cut (pos + 1) then [] else piece cut (pos + 1) n bs)

theorem piece_prefix_take (cut : Nat → Bool) : ∀ (n pos : Nat) (l : List UInt8),
    piece cut pos n l <+: l.take n := by
  intro n
  induction n with
  | zero => intro pos l; simp [piece]
  | succ n ih =>
    intro pos l
    cases l with
    | nil => simp [piece]
    | cons b bs =>
      rw [piece, List.take_succ_cons]
      refine List.cons_prefix_cons.mpr ⟨rfl, ?_⟩
      split
      · exact List.nil_prefix
      · exact ih (pos + 1) bs

theorem piece_length_le (cut : Nat → Bool) (n pos : Nat) (l : List UInt8) :
    (piece cut pos n l).length ≤ min n l.length := by
  simpa using (piece_prefix_take cut n pos l).length_le

theorem piece_eq_take (cut : Nat → Bool) (n pos : Nat) (l : List UInt8) :
    piece cut pos n l = l.take (piece cut pos n l).length := by
  have h := List.prefix_iff_eq_take.mp (piece_prefix_take cut n pos l)
  rw [List.take_take, Nat.min_eq_left (by have := piece_length_le cut n pos l; omega)] at h
  exact h

theorem piece_ne_nil (cut : Nat → Bool) (pos : Nat) {n : Nat} {l : List UInt8}
    (hn : n ≠ 0) (hl : l ≠ []) : piece cut pos n l ≠ [] := by
  obtain ⟨n, rfl⟩ := Nat.exists_eq_succ_of_ne_zero hn
  obtain ⟨b, bs, rfl⟩ := List.exists_cons_of_ne_nil hl
  simp [piece]

/-- A call hands out everything that was asked for exactly when no piece ends
strictly inside it. -/
theorem piece_eq_take_iff (cut : Nat → Bool) : ∀ (n pos : Nat) (l : List UInt8), n ≤ l.length →
    (piece cut pos n l = l.take n ↔ ∀ j, 0 < j → j < n → cut (pos + j) = false) := by
  intro n
  induction n with
  | zero => intro pos l _; simp [piece]
  | succ n ih =>
    intro pos l hl
    cases l with
    | nil => simp at hl
    | cons b bs =>
      have hbs : n ≤ bs.length := by simpa using hl
      rw [piece, List.take_succ_cons, List.cons.injEq, eq_self_iff_true, true_and]
      cases n with
      | zero =>
        simp only [List.take_zero, piece, ite_self, true_iff]
        intro j h0 h1
        omega
      | succ n =>
        cases hc : cut (pos + 1) with
        | true =>
          have hne : bs.take (n + 1) ≠ [] := by
            rw [Ne, List.take_eq_nil_iff]
            rintro (h | h)
            · omega
            · rw [h] at hbs; simp at hbs
          simp only [if_true]
          refine ⟨fun h => absurd h.symm hne, fun h => ?_⟩
          have := h 1 (by omega) (by omega)
          rw [hc] at this
          exact absurd this (by simp)
        | false =>
          rw [if_neg (by simp), ih (pos + 1) bs hbs]
          refine ⟨?_, ?_⟩
          · intro h j h0 h1
            rcases Nat.lt_or_ge 1 j with hj | hj
            · have := h (j - 1) (by omega) (by omega)
              rwa [show pos + 1 + (j - 1) = pos + j by omega] at this
            · rw [show j = 1 by omega]; exact hc
          · intro h j h0 h1
            have := h (j + 1) (by omega) (by omega)
            rwa [show pos + (j + 1) = pos + 1 + j by omega] at this

/-- One call for `n` bytes. -/
def read (s : ByteStream) (n : Nat) : List UInt8 × ByteStream :=
  let b := piece s.cut s.pos n s.rest
  (b, s.advance b.length)

theorem read_snd (s : ByteStream) (n : Nat) : (s.read n).2 = s.advance (s.read n).1.length := rfl

theorem read_fst (s : ByteStream) (n : Nat) :
    (s.read n).1 = s.rest.take (s.read n).1.length := piece_eq_take ..

theorem read_length_le (s : ByteStream) (n : Nat) :
    (s.read n).1.length ≤ min n s.rest.length := piece_length_le ..

/-- **One call returns all it was asked for exactly when no piece ends inside.** -/
theorem read_eq_take_iff (s : ByteStream) {n : Nat} (hn : n ≤ s.rest.length) :
    (s.read n).1 = s.rest.take n ↔ ∀ j, 0 < j → j < n → s.cut (s.pos + j) = false :=
  piece_eq_take_iff s.cut n s.pos s.rest hn

theorem read_length_eq_iff (s : ByteStream) {n : Nat} (hn : n ≤ s.rest.length) :
    (s.read n).1.length = n ↔ ∀ j, 0 < j → j < n → s.cut (s.pos + j) = false := by
  rw [← read_eq_take_iff s hn]
  refine ⟨?_, ?_⟩
  · intro h
    rw [read_fst, h]
  · intro h
    rw [h, List.length_take, Nat.min_eq_left hn]

theorem read_uncut (s : ByteStream) (n : Nat) (h : ∀ p, s.cut p = false) :
    s.read n = (s.rest.take n, s.advance (min n s.rest.length)) := by
  have key : (s.read (min n s.rest.length)).1 = s.rest.take (min n s.rest.length) :=
    (read_eq_take_iff s (Nat.min_le_right ..)).mpr (fun j _ _ => h _)
  have hmin : ∀ (n pos : Nat) (l : List UInt8),
      piece s.cut pos n l = piece s.cut pos (min n l.length) l := by
    intro n
    induction n with
    | zero => intro pos l; simp [piece]
    | succ n ih =>
      intro pos l
      cases l with
      | nil => simp [piece]
      | cons b bs =>
        rw [List.length_cons, Nat.succ_min_succ, piece, piece, ih]
  have hfst : (s.read n).1 = s.rest.take n := by
    rw [show (s.read n).1 = (s.read (min n s.rest.length)).1 from hmin n s.pos s.rest, key]
    rcases Nat.le_total n s.rest.length with hle | hle
    · rw [Nat.min_eq_left hle]
    · rw [Nat.min_eq_right hle, List.take_of_length_le (Nat.le_refl _), List.take_of_length_le hle]
  refine Prod.ext hfst ?_
  rw [read_snd, hfst, List.length_take]

/-! ### Asking until there is enough -/

/-- Ask again and again until `n` bytes are there or a call returns nothing.
Every call that returns something returns a byte, so `n` calls are enough. -/
def fillLoop : Nat → Nat → ByteStream → List UInt8 × ByteStream
  | 0, _, s => ([], s)
  | fuel + 1, n, s =>
    if n = 0 then ([], s)
    else
      let (b, s) := s.read n
      if b = [] then ([], s)
      else
        let (bs, s) := fillLoop fuel (n - b.length) s
        (b ++ bs, s)

/-- Read until `n` bytes are there or the stream ends. -/
def fill (s : ByteStream) (n : Nat) : List UInt8 × ByteStream := fillLoop n n s

theorem fillLoop_eq : ∀ (fuel n : Nat) (s : ByteStream), n ≤ fuel →
    fillLoop fuel n s = (s.rest.take n, s.advance (min n s.rest.length)) := by
  intro fuel
  induction fuel with
  | zero =>
    intro n s h
    rw [Nat.le_zero.mp h]
    simp [fillLoop]
  | succ fuel ih =>
    intro n s h
    by_cases hn : n = 0
    · subst hn; simp [fillLoop]
    · have hle := read_length_le s n
      rw [fillLoop, if_neg hn]
      by_cases hb : (s.read n).1 = []
      · have hrest : s.rest = [] := by
          by_contra hne
          exact piece_ne_nil s.cut s.pos hn hne hb
        have hs : (s.read n).2 = s := by rw [read_snd, hb]; simp
        simp only [hb, if_true, hs, hrest, List.take_nil, List.length_nil, Nat.min_zero,
          advance_zero]
      · have hpos : 0 < (s.read n).1.length := List.length_pos_of_ne_nil hb
        have hrec := ih (n - (s.read n).1.length) (s.read n).2 (by omega)
        simp only [if_neg hb, hrec]
        rw [read_snd, advance_rest, advance_advance]
        refine Prod.ext ?_ ?_
        · have h1 : s.rest.take (s.read n).1.length ++
              (s.rest.drop (s.read n).1.length).take (n - (s.read n).1.length) = s.rest.take n := by
            rw [← List.take_add, show (s.read n).1.length + (n - (s.read n).1.length) = n by omega]
          exact (congrArg (· ++ _) (read_fst s n)).trans h1
        · refine congrArg s.advance ?_
          rw [List.length_drop]
          omega

theorem fill_eq (s : ByteStream) (n : Nat) :
    s.fill n = (s.rest.take n, s.advance (min n s.rest.length)) := fillLoop_eq n n s (Nat.le_refl n)

theorem fill_append {s : ByteStream} {a b : List UInt8} (h : s.rest = a ++ b) :
    s.fill a.length = (a, s.advance a.length) := by
  rw [fill_eq, h]
  simp

end ByteStream

/-! ### Little-endian numbers -/

/-- The `k` low bytes of `n`, lowest first. -/
def leBytes : Nat → Nat → List UInt8
  | 0, _ => []
  | k + 1, n => UInt8.ofNat (n % 256) :: leBytes k (n / 256)

/-- The number some bytes stand for, lowest first. -/
def leValue : List UInt8 → Nat
  | [] => 0
  | b :: bs => b.toNat + 256 * leValue bs

@[simp] theorem leBytes_length : ∀ k n : Nat, (leBytes k n).length = k := by
  intro k
  induction k with
  | zero => intro n; rfl
  | succ k ih => intro n; rw [leBytes, List.length_cons, ih]

theorem leValue_leBytes : ∀ k n : Nat, n < 256 ^ k → leValue (leBytes k n) = n := by
  intro k
  induction k with
  | zero =>
    intro n h
    rw [pow_zero] at h
    rw [leBytes, leValue]
    omega
  | succ k ih =>
    intro n h
    have hdiv : n / 256 < 256 ^ k := by
      rw [pow_succ] at h
      exact Nat.div_lt_of_lt_mul (by omega)
    have hbyte : (UInt8.ofNat (n % 256)).toNat = n % 256 := by
      simp [UInt8.toNat_ofNat']
    rw [leBytes, leValue, ih (n / 256) hdiv, hbyte]
    omega

theorem leValue_append_zeros : ∀ (l : List UInt8) (k : Nat),
    leValue (l ++ List.replicate k 0) = leValue l := by
  intro l
  induction l with
  | nil =>
    intro k
    rw [List.nil_append]
    induction k with
    | zero => rfl
    | succ k ih => simpa [List.replicate_succ, leValue] using ih
  | cons b bs ih => intro k; rw [List.cons_append, leValue, leValue, ih]

/-- **Bytes that were not read count as zero, which never makes it larger.** -/
theorem leValue_take_le : ∀ (l : List UInt8) (k : Nat), leValue (l.take k) ≤ leValue l := by
  intro l
  induction l with
  | nil => intro k; simp
  | cons b bs ih =>
    intro k
    cases k with
    | zero => simp [leValue]
    | succ k =>
      have := ih k
      rw [List.take_succ_cons, leValue, leValue]
      omega

end Blockcore.Lib
