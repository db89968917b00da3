import Blockcore.Lib.JsObject

/-!
# The web client's `Link` headers

A page of the API says in its `Link` header where other pages are, in sections
`<target>; rel="rel"` that a comma and a space separate.  `parseLinkHeader` makes an
object of it.

`parseLinkHeader_format` says what object, for all sections from which the delimiters can
be told: the assignments of the sections, in order.
-/

namespace Blockcore.ClientApp

open Lib JsString

namespace ApiService

/-- The four relations that are there in any case. -/
def relations : List JsString := [ofString "first", ofString "last", ofString "previous", ofString "next"]

/-- `', '`. -/
def separator : JsString := ofString ", "

/-- `'rel="'`. -/
def relText : JsString := ofString "rel=\""

/-- `'"'`. -/
def quote : JsString := ofString "\""

/-- `'<'`. -/
def less : JsString := ofString "<"

/-- `'>'`. -/
def greater : JsString := ofString ">"

def sectionKey (part : JsString) : JsString :=
  replace (substringFrom part (indexOf part relText + 5)) quote []

def sectionValue (part : JsString) : JsString :=
  substring part (indexOf part less + 1) (indexOf part greater)

/-- `ApiService.parseLinkHeader`. -/
def parseLinkHeader (linkHeader : JsString) : JsObject :=
  (split linkHeader separator).foldl
    (fun links part => links.assign (sectionKey part) (sectionValue part)) (.nulls relations)

/-! ### The format -/

/-- `<target>; rel="rel"`, of a relation and its target. -/
def formatSection (link : JsString × JsString) : JsString :=
  less ++ (link.2 ++ (greater ++ (ofString "; " ++ (relText ++ (link.1 ++ quote)))))

def formatLinkHeader (links : List (JsString × JsString)) : JsString :=
  join (links.map formatSection) separator

/-- The delimiters can be told from the relation and the target. -/
structure Delimited (link : JsString × JsString) : Prop where
  rel_quote : ¬ quote <:+: link.1
  rel_separator : ¬ separator <:+: link.1
  target_less : ¬ less <:+: link.2
  target_greater : ¬ greater <:+: link.2
  target_separator : ¬ separator <:+: link.2
  target_rel : ¬ relText <:+: link.2

theorem separator_eq : separator = [0x2c, 0x20] := by decide
theorem relText_eq : relText = [0x72, 0x65, 0x6c, 0x3d, 0x22] := by decide
theorem quote_eq : quote = [0x22] := by decide
theorem less_eq : less = [0x3c] := by decide
theorem greater_eq : greater = [0x3e] := by decide

variable {link : JsString × JsString}

theorem Delimited.avoids_separator (h : Delimited link) (rest : JsString) :
    Avoids separator (formatSection link) rest := by
  have htarget := h.target_separator
  have hrel := h.rel_separator
  rw [separator_eq] at htarget hrel ⊢
  simp only [formatSection, avoids_append, greater_eq, quote_eq]
  refine ⟨?_, ?_, ?_, ?_, ?_, ?_, ?_⟩
  · exact avoids_of_head (by decide)
  · exact avoids_of_boundary htarget (by decide)
  · exact avoids_of_head (by decide)
  · exact avoids_of_head (by decide)
  · exact avoids_of_head (by decide)
  · exact avoids_of_boundary hrel (by decide)
  · exact avoids_of_head (by decide)

theorem Delimited.avoids_rel (h : Delimited link) (rest : JsString) :
    Avoids relText (less ++ (link.2 ++ (greater ++ ofString "; "))) rest := by
  have htarget := h.target_rel
  rw [relText_eq] at htarget ⊢
  simp only [avoids_append, greater_eq]
  refine ⟨?_, ?_, ?_, ?_⟩
  · exact avoids_of_head (by decide)
  · exact avoids_of_boundary htarget (by decide)
  · exact avoids_of_head (by decide)
  · exact avoids_of_head (by decide)

theorem Delimited.sectionKey_format (h : Delimited link) : sectionKey (formatSection link) = link.1 := by
  have hsplit : formatSection link =
      (less ++ (link.2 ++ (greater ++ ofString "; "))) ++ (relText ++ (link.1 ++ quote)) := by
    simp only [formatSection, List.append_assoc]
  have hindex := indexOf_append (h.avoids_rel (relText ++ (link.1 ++ quote)))
  have hfrom : substringFrom (formatSection link) (indexOf (formatSection link) relText + 5) =
      link.1 ++ quote := by
    rw [hsplit, hindex, ← List.append_assoc]
    apply substringFrom_append
    simp only [List.length_append, List.length_cons, List.length_nil, relText_eq]
    omega
  have hquote : Avoids quote link.1 (quote ++ []) := by
    have hrel := h.rel_quote
    rw [quote_eq, List.singleton_infix_iff] at hrel
    rw [quote_eq]
    exact avoids_of_head hrel
  have hreplace := replace_append hquote []
  rw [List.append_nil, List.append_nil, List.append_nil] at hreplace
  rw [sectionKey, hfrom, hreplace]

theorem Delimited.sectionValue_format (h : Delimited link) :
    sectionValue (formatSection link) = link.2 := by
  have htarget := h.target_greater
  rw [greater_eq, List.singleton_infix_iff] at htarget
  have hless : indexOf (formatSection link) less = 0 := by
    have hfirst : Avoids less [] (less ++ (link.2 ++ (greater ++ (ofString "; " ++ (relText ++
      (link.1 ++ quote)))))) := avoids_nil
    exact indexOf_append hfirst
  have hgreater : indexOf (formatSection link) greater = 1 + link.2.length := by
    have havoids : Avoids greater (less ++ link.2)
        (greater ++ (ofString "; " ++ (relText ++ (link.1 ++ quote)))) := by
      rw [avoids_append, greater_eq]
      exact ⟨avoids_of_head (by decide), avoids_of_head htarget⟩
    have := indexOf_append havoids
    rw [List.append_assoc, List.length_append, less_eq] at this
    rw [formatSection, less_eq, this]
    exact Nat.cast_add ..
  have hsplit : formatSection link =
      less ++ link.2 ++ (greater ++ (ofString "; " ++ (relText ++ (link.1 ++ quote)))) := by
    rw [formatSection, List.append_assoc]
  rw [sectionValue, hless, hgreater, hsplit]
  exact substring_append (by rw [less_eq]; rfl) (by rw [less_eq]; rfl)

variable {links : List (JsString × JsString)}

/-- **What a header in the format becomes**: its relations are assigned their targets, in order. -/
theorem parseLinkHeader_format (hne : links ≠ []) (h : ∀ link ∈ links, Delimited link) :
    parseLinkHeader (formatLinkHeader links) = (JsObject.nulls relations).assignAll links := by
  have hsections : split (formatLinkHeader links) separator = links.map formatSection := by
    refine split_join (by decide) (by simpa using hne) fun part hpart => ?_
    obtain ⟨link, hlink, rfl⟩ := List.mem_map.mp hpart
    exact ⟨(h link hlink).avoids_separator [], fun rest => (h link hlink).avoids_separator _⟩
  rw [parseLinkHeader, hsections, List.foldl_map, JsObject.assignAll]
  refine List.foldl_ext _ _ _ fun o link hlink => ?_
  rw [(h link hlink).sectionKey_format, (h link hlink).sectionValue_format]

/-- Every relation reads as its target, and those of the four that are not listed as null. -/
def Inverts (links : List (JsString × JsString)) (o : JsObject) : Prop :=
  (∀ link ∈ links, o.get link.1 = .string link.2) ∧
    ∀ rel ∈ relations, rel ∉ links.map Prod.fst → o.get rel = .null

theorem proto_notMem_relations : JsObject.proto ∉ relations := by decide

/-- **`parseLinkHeader` inverts the format** exactly if no relation is `__proto__`. -/
theorem parseLinkHeader_inverts_iff (hne : links ≠ []) (hdistinct : (links.map Prod.fst).Nodup)
    (h : ∀ link ∈ links, Delimited link) :
    Inverts links (parseLinkHeader (formatLinkHeader links)) ↔ JsObject.proto ∉ links.map Prod.fst := by
  rw [parseLinkHeader_format hne h]
  refine ⟨?_, ?_⟩
  · rintro ⟨hget, _⟩ hmem
    obtain ⟨link, hlink, hproto⟩ := List.mem_map.mp hmem
    have hown := JsObject.own_assignAll_proto (JsObject.own_nulls proto_notMem_relations) links
    have hread := hget link hlink
    rw [hproto, JsObject.get_proto hown] at hread
    cases hread
  · intro hproto
    refine ⟨fun link hlink => ?_, fun rel hrel hnot => ?_⟩
    · exact JsObject.get_assignAll hdistinct hlink fun heq =>
        hproto (List.mem_map.mpr ⟨link, hlink, heq⟩)
    · rw [JsObject.get_assignAll_of_notMem hnot]
      exact JsObject.get_nulls hrel

/-- A header of two relations. -/
theorem parseLinkHeader_inverts_iff_two :
    Inverts [(ofString "next", ofString "/b?o=2,3"), (ofString "self", ofString "/b")]
        (parseLinkHeader (formatLinkHeader
          [(ofString "next", ofString "/b?o=2,3"), (ofString "self", ofString "/b")])) ↔
      JsObject.proto ∉ [(ofString "next", ofString "/b?o=2,3"), (ofString "self", ofString "/b")].map
        Prod.fst := by
  refine parseLinkHeader_inverts_iff (by decide) (by decide) ?_
  intro link hlink
  rcases List.mem_pair.mp hlink with rfl | rfl
  · exact ⟨by decide, by decide, by decide, by decide, by decide, by decide⟩
  · exact ⟨by decide, by decide, by decide, by decide, by decide, by decide⟩

/-- The relation `__proto__` is delimited like any other, and is not read back. -/
theorem proto_not_inverted : ¬ ∀ links : List (JsString × JsString), links ≠ [] →
    (links.map Prod.fst).Nodup → (∀ link ∈ links, link.1 ≠ []) → (∀ link ∈ links, Delimited link) →
    Inverts links (parseLinkHeader (formatLinkHeader links)) := by
  intro hall
  have hlink : Delimited (JsObject.proto, ofString "/b") :=
    ⟨by decide, by decide, by decide, by decide, by decide, by decide⟩
  obtain ⟨hget, _⟩ := hall [(JsObject.proto, ofString "/b")] (by decide) (by decide) (by decide)
    fun link h => List.mem_singleton.mp h ▸ hlink
  have hread := hget _ (List.mem_singleton_self _)
  revert hread
  decide

end ApiService

end Blockcore.ClientApp
