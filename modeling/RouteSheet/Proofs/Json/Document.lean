import RouteSheet.Proofs.Json.Word

/-!
# Documents that are part of a text

A comma stands inside an array or object or ends no document, so a text that is a
document has no shorter document before one of its commas.
-/

namespace RouteSheet.Json

open Text

variable {s t b : List Char} {tokens : List Token}

/-- A document is a text with words that put together a document. -/
theorem tokens?_of_isDocument (h : isDocument s = true) : ∃ tokens, tokens? s = some tokens ∧
    ∃ document, ofTokens? tokens = some document := by
  obtain ⟨document, hd⟩ := Option.isSome_iff_exists.mp h
  rw [parse?, Option.bind_eq_some_iff] at hd
  obtain ⟨tokens, htokens, hdocument⟩ := hd
  exact ⟨tokens, htokens, document, hdocument⟩

/-- A document without an escaped double quote is balanced. -/
theorem balanced_of_isDocument (h : isDocument s = true) (hs : escapesQuote s = false) :
    Balanced (· == ';') s := by
  obtain ⟨tokens, htokens, -⟩ := tokens?_of_isDocument h
  exact balanced_of_tokensOnto? htokens hs

/-- Behind a whole document a comma is refused. -/
theorem ofTokens?_comma (h : (ofTokens? tokens).isSome = true) (more : List Token) :
    ofTokens? (tokens ++ .comma :: more) = none := by
  obtain ⟨document, hd⟩ := Option.isSome_iff_exists.mp h
  rw [ofTokens?, Option.bind_eq_some_iff] at hd
  obtain ⟨⟨stack, expecting⟩, htake, hdocument⟩ := hd
  have hcomma : Builder.take ⟨stack, expecting⟩ .comma = none := by
    unfold Builder.document? at hdocument
    split at hdocument
    · next hstack hnext =>
      obtain rfl : stack = [] := hstack
      obtain rfl : expecting = _ := hnext
      rfl
    · exact absurd hdocument nofun
  rw [ofTokens?, List.foldlM_append, htake]
  simp only [Option.bind_eq_bind, Option.bind_some, List.foldlM_cons, hcomma, Option.bind_none]

/-- What stands before a comma of a document is none. -/
theorem isDocument_before_comma (h : isDocument (s ++ (b ++ ',' :: t)) = true)
    (hb : isBlankText b = true) : isDocument s = false := by
  by_cases hs : isDocument s = true
  · obtain ⟨tokens, htokens, document, hdocument⟩ := tokens?_of_isDocument hs
    obtain ⟨all, hall, whole, hwhole⟩ := tokens?_of_isDocument h
    have hapart : Apart (b ++ ',' :: t) := by
      intro c hc
      cases b with
      | nil =>
        rw [List.nil_append, List.head?_cons] at hc
        exact Option.some.inj hc ▸ by decide
      | cons d b =>
        rw [List.cons_append, List.head?_cons] at hc
        exact notWord_of_isBlank (Option.some.inj hc ▸ isBlank_of_mem hb (List.mem_cons_self ..))
    have hlength : (s ++ (b ++ ',' :: t)).length + 1 =
        s.length + 1 + (b ++ ',' :: t).length := by
      rw [List.length_append, Nat.add_right_comm]
    obtain ⟨k, hk⟩ := exists_tokensOnto?_append htokens hapart (b ++ ',' :: t).length
    rw [tokens?, hlength, hk] at hall
    obtain ⟨k, hbehind⟩ := exists_tokensOnto?_blanks hb hall
    cases k with
    | zero =>
      rw [tokensOnto?_zero] at hbehind
      cases hbehind
    | succ k =>
      have hcomma : nextWord? k ',' t = some ([.comma], t) := rfl
      rw [tokensOnto?_cons, hcomma, Option.bind_some] at hbehind
      obtain ⟨more, hmore⟩ := exists_tokensOnto? hbehind
      rw [List.singleton_append, List.reverse_cons, List.reverse_reverse, List.append_assoc,
        List.singleton_append] at hmore
      have hnone := ofTokens?_comma (Option.isSome_of_eq_some hdocument) more
      rw [← hmore, hwhole] at hnone
      exact absurd hnone nofun
  · exact Bool.eq_false_iff.mpr hs

end RouteSheet.Json
