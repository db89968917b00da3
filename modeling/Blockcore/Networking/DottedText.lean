import Blockcore.Networking.Messages

/-!
# Dotted text

A text format: the bytes of an address in decimal with dots between them, a
colon before a port.  For the four bytes of an IPv4 address it is the one .NET
writes.  `dottedText_lawful` says it has what `TextFormat.Lawful` asks for, so
that what is proved of every lawful format is proved of something.
-/

namespace Blockcore.Networking

/-- Numbers in decimal with a separator between them. -/
def decimals (sep : Char) (ns : List Nat) : List Char := [sep].intercalate (ns.map (Nat.toDigits 10))

def parseDecimals (sep : Char) (cs : List Char) : Option (List Nat) :=
  let pieces := cs.splitOn sep
  if pieces.all (fun piece => !piece.isEmpty && piece.all Char.isDigit) then
    some (pieces.map (fun piece => Nat.ofDigitChars 10 piece 0))
  else none

theorem toDigits_all_isDigit (n : Nat) : (Nat.toDigits 10 n).all Char.isDigit = true :=
  List.all_eq_true.mpr fun _ hc => Nat.isDigit_of_mem_toDigits (by omega) (by omega) hc

theorem not_mem_toDigits {sep : Char} (hsep : sep.isDigit = false) (n : Nat) :
    sep ∉ Nat.toDigits 10 n := by
  intro h
  have := List.all_eq_true.mp (toDigits_all_isDigit n) sep h
  rw [hsep] at this
  cases this

theorem parseDecimals_decimals (sep : Char) (hsep : sep.isDigit = false) {ns : List Nat}
    (hns : ns ≠ []) : parseDecimals sep (decimals sep ns) = some ns := by
  have hsplit : (decimals sep ns).splitOn sep = ns.map (Nat.toDigits 10) := by
    refine List.splitOn_intercalate sep ?_ (by simpa using hns)
    intro l hl
    obtain ⟨n, _, rfl⟩ := List.mem_map.mp hl
    exact not_mem_toDigits hsep n
  have hall : (ns.map (Nat.toDigits 10)).all
      (fun piece => !piece.isEmpty && piece.all Char.isDigit) = true := by
    rw [List.all_map, List.all_eq_true]
    intro n _
    have hne : Nat.toDigits 10 n ≠ [] := Nat.toDigits_ne_nil
    simp [toDigits_all_isDigit n, hne]
  rw [parseDecimals, hsplit]
  simp only [hall, if_true, List.map_map]
  refine congrArg some (List.map_id'' (fun n => ?_) ns)
  exact Nat.ofDigitChars_ten_toDigits

/-! ### Addresses and endpoints -/

/-- The address with these bytes, if there is one. -/
def IPAddress.ofNats (ns : List Nat) : Option IPAddress :=
  if h : ns.length = 4 ∨ ns.length = 16 then
    if ns.all (fun n => n < 256) then some ⟨ns.map UInt8.ofNat, by rwa [List.length_map]⟩ else none
  else none

def IPAddress.nats (a : IPAddress) : List Nat := a.bytes.map UInt8.toNat

theorem IPAddress.ofNats_nats (a : IPAddress) : IPAddress.ofNats a.nats = some a := by
  obtain ⟨bytes, valid⟩ := a
  have hlen : (bytes.map UInt8.toNat).length = 4 ∨ (bytes.map UInt8.toNat).length = 16 := by
    rwa [List.length_map]
  have hall : (bytes.map UInt8.toNat).all (fun n => n < 256) = true := by
    rw [List.all_map, List.all_eq_true]
    intro b _
    simpa using b.toNat_lt
  have hback : (bytes.map UInt8.toNat).map UInt8.ofNat = bytes := by
    rw [List.map_map]
    exact List.map_id'' (fun b => UInt8.ofNat_toNat) bytes
  rw [IPAddress.ofNats, IPAddress.nats, dif_pos hlen, if_pos hall]
  simp only [hback]

theorem IPAddress.nats_ne_nil (a : IPAddress) : a.nats ≠ [] := by
  intro h
  have := a.valid
  simp only [IPAddress.nats, List.map_eq_nil_iff] at h
  simp [h] at this

def endPointChars (e : IPEndPoint) : List Char :=
  decimals '.' e.address.nats ++ ':' :: Nat.toDigits 10 e.port.toNat

def parseEndPointChars (cs : List Char) : Option IPEndPoint :=
  match cs.splitOn ':' with
  | [a, p] =>
    match (parseDecimals '.' a).bind IPAddress.ofNats, parseDecimals ':' p with
    | some address, some [port] => if port < 65536 then some ⟨address, UInt16.ofNat port⟩ else none
    | _, _ => none
  | _ => none

theorem not_mem_decimals {sep c : Char} (hc : c.isDigit = false) (hne : c ≠ sep) (ns : List Nat) :
    c ∉ decimals sep ns := by
  rw [decimals]
  induction ns with
  | nil => simp
  | cons n ns ih =>
    cases ns with
    | nil => simpa using not_mem_toDigits hc n
    | cons m ns =>
      rw [List.map_cons, List.map_cons, List.intercalate_cons_cons, ← List.map_cons]
      simp only [List.mem_append, List.mem_singleton, not_or]
      exact ⟨⟨not_mem_toDigits hc n, hne⟩, ih⟩

theorem parseEndPointChars_endPointChars (e : IPEndPoint) :
    parseEndPointChars (endPointChars e) = some e := by
  have hsplit : (endPointChars e).splitOn ':' =
      [decimals '.' e.address.nats, Nat.toDigits 10 e.port.toNat] := by
    rw [endPointChars, List.splitOn_append_cons_self_of_not_mem
      (not_mem_decimals (by decide) (by decide) _),
      List.splitOn_eq_singleton (not_mem_toDigits (by decide) _)]
  have hport : parseDecimals ':' (Nat.toDigits 10 e.port.toNat) = some [e.port.toNat] := by
    have := parseDecimals_decimals ':' rfl (show [e.port.toNat] ≠ [] by simp)
    simpa [decimals] using this
  rw [parseEndPointChars, hsplit]
  simp only [parseDecimals_decimals '.' rfl e.address.nats_ne_nil,
    Option.bind_some, IPAddress.ofNats_nats, hport]
  rw [if_pos (by simpa using e.port.toNat_lt), UInt16.ofNat_toNat]

/-! ### The format -/

def dottedText : TextFormat where
  addressToString a := String.ofList (decimals '.' a.nats)
  addressParse s := (parseDecimals '.' s.toList).bind IPAddress.ofNats
  endPointToString e := String.ofList (endPointChars e)
  endPointParse s := parseEndPointChars s.toList
  connectionTypeParse s :=
    if s = "Unknown" then some .Unknown else if s = "LAN" then some .LAN
    else if s = "WAN" then some .WAN else none

theorem dottedText_lawful : dottedText.Lawful where
  addressParse_toString a := by
    simp only [dottedText, String.toList_ofList]
    rw [parseDecimals_decimals '.' rfl a.nats_ne_nil, Option.bind_some, IPAddress.ofNats_nats]
  endPointParse_toString e := by
    simp only [dottedText, String.toList_ofList]
    exact parseEndPointChars_endPointChars e
  endPoint_not_blank e := by
    simp only [dottedText, isNullOrWhiteSpace, String.toList_ofList, endPointChars]
    rw [List.all_eq_false]
    exact ⟨':', by simp, by decide⟩
  connectionTypeParse_toString t := by
    cases t <;> decide

end Blockcore.Networking
