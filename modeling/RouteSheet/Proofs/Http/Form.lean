import RouteSheet.Http.Message
import RouteSheet.Proofs.Fields
import RouteSheet.Proofs.Text.Percent
import RouteSheet.Proofs.Text.Split

/-!
# Forms as they were sent

A form is cut into pieces and a piece into name and value before any escape is undone, and no
separator stands in what was escaped, so the pairs come back however their characters were
written. Names are compared after that: all values of a name meet in one field, in order.
-/

namespace RouteSheet.Http

open Text

/-- A character that may stand for itself in a name. -/
def isNameLiteral (c : Char) : Bool := isUnescaped true c && c != '&' && c != '='

/-- A character that may stand for itself in a value. -/
def isValueLiteral (c : Char) : Bool := isUnescaped true c && c != '&'

/-- The pieces write the pairs one by one, with empty pieces anywhere between them. -/
inductive WritesPairs : List (List Char) → List (String × String) → Prop
  | nil : WritesPairs [] []
  | empty {pieces : List (List Char)} {pairs : List (String × String)}
      (rest : WritesPairs pieces pairs) : WritesPairs ([] :: pieces) pairs
  | pair {n v : List Char} {name value : String} {pieces : List (List Char)}
      {pairs : List (String × String)} (hname : Spells isNameLiteral true n name.toList)
      (hvalue : Spells isValueLiteral true v value.toList) (rest : WritesPairs pieces pairs) :
      WritesPairs ((n ++ '=' :: v) :: pieces) ((name, value) :: pairs)

/-- The values of a name, in order. -/
def valuesOf (name : String) (pairs : List (String × String)) : List String :=
  (pairs.filter fun pair => pair.1 = name).map Prod.snd

section Collected

variable {name key value : String} {pairs : List (String × String)} {fields : Fields String}

/-- The fields that collect the pairs. -/
def collected (pairs : List (String × String)) : Fields String :=
  pairs.foldl (fun fields (name, value) => addValue name value fields) []

/-- The last of several pairs is collected last. -/
theorem collected_concat (pairs : List (String × String)) (pair : String × String) :
    collected (pairs ++ [pair]) = addValue pair.1 pair.2 (collected pairs) := List.foldl_append

/-- One more value for a name is joined to those that the name has. -/
theorem get?_addValue (name key value : String) (fields : Fields String) :
    (addValue name value fields).get? key =
      if name = key then some (match fields.get? key with
        | some old => old ++ "," ++ value
        | none => value)
      else fields.get? key := by
  unfold addValue
  split
  · next old h =>
    rw [Fields.get?_insert]
    split
    · next hname => rw [← hname, h]
    · rfl
  · next h =>
    rw [Fields.get?_insert]
    split
    · next hname => rw [← hname, h]
    · rfl

/-- One more value leaves no name twice. -/
theorem nodup_names_addValue (h : (fields.map Prod.fst).Nodup) :
    ((addValue name value fields).map Prod.fst).Nodup := by
  unfold addValue
  split <;> exact Fields.nodup_names_insert h

/-- Collected fields have no name twice. -/
theorem nodup_names_collected (pairs : List (String × String)) :
    ((collected pairs).map Prod.fst).Nodup := by
  induction pairs using List.reverseRecOn with
  | nil => exact List.nodup_nil
  | append_singleton pairs pair ih =>
    rw [collected_concat]
    exact nodup_names_addValue ih

/-- A name that is there has a value. -/
theorem valuesOf_ne_nil (h : name ∈ pairs.map Prod.fst) : valuesOf name pairs ≠ [] := by
  obtain ⟨pair, hpair, hname⟩ := List.mem_map.mp h
  have hmem : pair.2 ∈ valuesOf name pairs :=
    List.mem_map_of_mem (List.mem_filter.mpr ⟨hpair, decide_eq_true hname⟩)
  exact List.ne_nil_of_mem hmem

/-- A name that is not there has no values. -/
theorem valuesOf_eq_nil (h : name ∉ pairs.map Prod.fst) : valuesOf name pairs = [] := by
  have hfilter : (pairs.filter fun pair => pair.1 = name) = [] := by
    rw [List.filter_eq_nil_iff]
    intro pair hpair hname
    exact h (List.mem_map.mpr ⟨pair, hpair, of_decide_eq_true hname⟩)
  rw [valuesOf, hfilter, List.map_nil]

/-- A pair more for the name adds its value at the end. -/
theorem valuesOf_concat_self (name value : String) (pairs : List (String × String)) :
    valuesOf name (pairs ++ [(name, value)]) = valuesOf name pairs ++ [value] := by
  simp [valuesOf]

/-- A pair more for another name adds nothing. -/
theorem valuesOf_concat_of_ne (h : key ≠ name) :
    valuesOf name (pairs ++ [(key, value)]) = valuesOf name pairs := by
  simp [valuesOf, h]

/-- The values of a name are joined in the order in which they came. -/
theorem get?_collected (name : String) (pairs : List (String × String)) :
    (collected pairs).get? name =
      if name ∈ pairs.map Prod.fst then some (",".intercalate (valuesOf name pairs)) else none := by
  induction pairs using List.reverseRecOn with
  | nil => rfl
  | append_singleton pairs pair ih =>
    obtain ⟨first, value⟩ := pair
    rw [collected_concat, get?_addValue, ih]
    by_cases hname : first = name
    · subst hname
      have hkey : first ∈ (pairs ++ [(first, value)]).map Prod.fst := by simp
      rw [if_pos rfl, if_pos hkey, valuesOf_concat_self]
      by_cases hmem : first ∈ pairs.map Prod.fst
      · rw [if_pos hmem, String.intercalate_append_of_ne_nil (valuesOf_ne_nil hmem)
          (List.cons_ne_nil value []), String.intercalate_singleton]
      · rw [if_neg hmem, valuesOf_eq_nil hmem, List.nil_append, String.intercalate_singleton]
    · have hkey : name ∈ (pairs ++ [(first, value)]).map Prod.fst ↔ name ∈ pairs.map Prod.fst := by
        rw [List.map_append, List.mem_append, List.map_singleton, List.mem_singleton]
        exact or_iff_left (Ne.symm hname)
      simp only [if_neg hname, valuesOf_concat_of_ne hname, hkey]

end Collected

section Written

variable {pieces : List (List Char)} {pairs : List (String × String)} {piece n v : List Char}
  {name value : String}

/-- A piece of a spelled name and a spelled value is read as the pair. -/
theorem formPair_written (hname : Spells isNameLiteral true n name.toList)
    (hvalue : Spells isValueLiteral true v value.toList) :
    formPair (n ++ '=' :: v) = (name, value) := by
  have hsep : '=' ∉ n := not_mem_of_spells rfl (by decide) (by decide) rfl hname
  have hn : ∀ c, isNameLiteral c = true → isUnescaped true c = true := by
    intro c hc
    simp only [isNameLiteral, Bool.and_eq_true] at hc
    exact hc.1.1
  have hv : ∀ c, isValueLiteral c = true → isUnescaped true c = true := by
    intro c hc
    simp only [isValueLiteral, Bool.and_eq_true] at hc
    exact hc.1
  simp [formPair, cutAtChar?_append hsep, percentDecode_of_spells hn hname,
    percentDecode_of_spells hv hvalue]

/-- No piece holds an ampersand. -/
theorem ampersand_not_mem (h : WritesPairs pieces pairs) : ∀ piece ∈ pieces, '&' ∉ piece := by
  induction h with
  | nil => exact nofun
  | empty _ ih => exact List.forall_mem_cons.mpr ⟨List.not_mem_nil, ih⟩
  | pair hname hvalue _ ih =>
    refine List.forall_mem_cons.mpr ⟨?_, ih⟩
    rw [List.mem_append, List.mem_cons]
    rintro (hn | heq | hv)
    · exact not_mem_of_spells rfl (by decide) (by decide) rfl hname hn
    · cases heq
    · exact not_mem_of_spells rfl (by decide) (by decide) rfl hvalue hv

/-- The pairs come back from their pieces, and an empty piece gives none. -/
theorem formPair_pieces (h : WritesPairs pieces pairs) :
    (pieces.filter fun piece => !piece.isEmpty).map formPair = pairs := by
  induction h with
  | nil => rfl
  | empty _ ih => exact ih
  | pair hname hvalue _ ih => simp [ih, formPair_written hname hvalue]

/-- Pieces joined by ampersands are read as the pairs that they write. -/
theorem formPairs_intercalate (h : WritesPairs pieces pairs) :
    formPairs (['&'].intercalate pieces) = pairs := by
  by_cases hne : pieces = []
  · subst hne
    cases h
    rfl
  · rw [formPairs, splitAtChar_intercalate (ampersand_not_mem h) hne, formPair_pieces h]

end Written

/-- The fields of a written form, and of a body that is one, hold every name that was written and
no other, each once, with its values joined in order. -/
theorem formFields_written {pieces : List (List Char)} {pairs : List (String × String)}
    (h : WritesPairs pieces pairs) :
    ((formFields (['&'].intercalate pieces)).map Prod.fst).Nodup ∧
    (∀ name, (formFields (['&'].intercalate pieces)).get? name =
      if name ∈ pairs.map Prod.fst then some (",".intercalate (valuesOf name pairs)) else none) ∧
    ∀ headers, isForm headers = true →
      bodyFields headers (bytesOf (['&'].intercalate pieces)) =
        (formFields (['&'].intercalate pieces)).mapValues .string := by
  have hfields : formFields (['&'].intercalate pieces) = collected pairs := by
    rw [formFields, formPairs_intercalate h, collected]
  refine ⟨?nodup, ?values, ?body⟩
  case nodup =>
    rw [hfields]
    exact nodup_names_collected pairs
  case values =>
    intro name
    rw [hfields]
    exact get?_collected name pairs
  case body =>
    intro headers hform
    rw [bodyFields, if_pos hform, ofBytesLossy_bytesOf]
    split
    · next hempty =>
      rw [bytesOf_eq_nil_iff.mp (List.isEmpty_iff.mp hempty)]
      rfl
    · rfl

/-- A name comes twice, once with an escaped letter, and the second value is of separators. -/
theorem formFields_written_repeated :
    (formFields "a=1&&%61=%26%3D".toList).get? "a" = some "1,&=" ∧
      bodyFields [("content-type", formContentType)] (bytesOf "a=1&&%61=%26%3D".toList) =
        (formFields "a=1&&%61=%26%3D".toList).mapValues .string := by
  have hwritten : WritesPairs ["a=1".toList, [], "%61=%26%3D".toList] [("a", "1"), ("a", "&=")] :=
    .pair (n := ['a']) (v := ['1']) (.itself rfl .nil) (.itself rfl .nil)
      (.empty (.pair (n := "%61".toList) (v := "%26%3D".toList)
        (.escaped (c := 'a') (.cons true true 0x61 .nil) .nil)
        (.escaped (c := '&') (.cons true true 0x26 .nil)
          (.escaped (c := '=') (.cons true true 0x3D .nil) .nil)) .nil))
  obtain ⟨-, hvalues, hbody⟩ := formFields_written hwritten
  have hform : isForm [("content-type", formContentType)] = true := by decide
  exact ⟨(hvalues "a").trans (by decide), hbody _ hform⟩

end RouteSheet.Http
