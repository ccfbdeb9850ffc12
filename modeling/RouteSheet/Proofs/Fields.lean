import Mathlib.Data.List.Induction
import Mathlib.Data.List.Nodup
import RouteSheet.Value.Basic

/-!
# Tables written in order

Of the fields that are written to a table the last one of a name is read. A table that was
written field by field has no name twice and no name but those that were written, so
writing it once more gives the same table.
-/

namespace RouteSheet.Fields

variable {α : Type} {name : String} {value : α} {table : Fields α}

/-- Reading a written table finds what was written to the name, else what was there before. -/
theorem get?_insert (name key : String) (value : α) (table : Fields α) :
    get? key (insert name value table) = if name = key then some value else get? key table := by
  induction table with
  | nil => rfl
  | cons field table ih =>
    obtain ⟨first, old⟩ := field
    by_cases hf : first = name
    · subst hf
      simp only [insert, if_pos, get?]
      split <;> rfl
    · by_cases hk : first = key
      · subst hk
        simp only [insert, if_neg hf, get?, if_pos, if_neg (Ne.symm hf)]
      · simp only [insert, if_neg hf, get?, if_neg hk, ih]

/-- What is found is in the table. -/
theorem mem_of_get? (h : get? name table = some value) : (name, value) ∈ table := by
  induction table with
  | nil => cases h
  | cons field table ih =>
    obtain ⟨key, old⟩ := field
    rw [get?] at h
    split at h
    · next hk =>
      obtain rfl : old = value := Option.some.inj h
      exact hk ▸ List.mem_cons_self
    · exact List.mem_cons_of_mem _ (ih h)

/-- The last of several pairs is written last. -/
theorem ofPairs_concat (pairs : List (String × α)) (pair : String × α) :
    ofPairs (pairs ++ [pair]) = (ofPairs pairs).insert pair.1 pair.2 := List.foldl_append

/-- In a table written in order the last pair of a name counts. -/
theorem get?_ofPairs (key : String) (pairs : List (String × α)) :
    get? key (.ofPairs pairs) = (pairs.reverse.find? fun pair => pair.1 = key).map Prod.snd := by
  induction pairs using List.reverseRecOn with
  | nil => rfl
  | append_singleton pairs pair ih =>
    rw [ofPairs_concat, get?_insert, ih, List.reverse_append, List.reverse_singleton,
      List.singleton_append, List.find?_cons]
    by_cases h : pair.1 = key
    · simp only [h, if_pos, decide_true, Option.map_some]
    · simp only [h, if_neg, decide_false, not_false_eq_true]

/-- A name that is not there goes to the end. -/
theorem insert_of_not_mem (h : name ∉ table.map Prod.fst) :
    insert name value table = table ++ [(name, value)] := by
  induction table with
  | nil => rfl
  | cons field table ih =>
    rw [List.map_cons, List.mem_cons, not_or] at h
    rw [insert, if_neg (Ne.symm h.1), ih h.2, List.cons_append]

/-- A name that is there keeps its place. -/
theorem names_insert_of_mem (h : name ∈ table.map Prod.fst) :
    (insert name value table).map Prod.fst = table.map Prod.fst := by
  induction table with
  | nil => exact absurd h List.not_mem_nil
  | cons field table ih =>
    rw [insert]
    split
    · rfl
    · next hne =>
      rw [List.map_cons, List.map_cons, ih ((List.mem_cons.mp h).resolve_left (Ne.symm hne))]

/-- Writing leaves no name twice. -/
theorem nodup_names_insert (h : (table.map Prod.fst).Nodup) :
    ((insert name value table).map Prod.fst).Nodup := by
  by_cases hmem : name ∈ table.map Prod.fst
  · rwa [names_insert_of_mem hmem]
  · rw [insert_of_not_mem hmem, List.map_append, List.nodup_append]
    refine ⟨h, List.nodup_singleton _, ?_⟩
    intro key hkey other hother he
    obtain rfl : other = name := List.mem_singleton.mp hother
    exact hmem (he ▸ hkey)

/-- A table that was written in order has no name twice. -/
theorem nodup_names_ofPairs (pairs : List (String × α)) :
    ((ofPairs pairs).map Prod.fst).Nodup := by
  induction pairs using List.reverseRecOn with
  | nil => exact List.nodup_nil
  | append_singleton pairs pair ih =>
    rw [ofPairs_concat]
    exact nodup_names_insert ih

/-- A table has no name that was not written. -/
theorem mem_names_of_mem_ofPairs {pairs : List (String × α)}
    (h : name ∈ (ofPairs pairs).map Prod.fst) : name ∈ pairs.map Prod.fst := by
  induction pairs using List.reverseRecOn with
  | nil => exact h
  | append_singleton pairs pair ih =>
    rw [ofPairs_concat] at h
    rw [List.map_append, List.mem_append]
    by_cases hmem : pair.1 ∈ (ofPairs pairs).map Prod.fst
    · rw [names_insert_of_mem hmem] at h
      exact .inl (ih h)
    · rw [insert_of_not_mem hmem, List.map_append, List.mem_append] at h
      exact h.imp_left ih

/-- Writing a table that has no name twice gives the table. -/
theorem ofPairs_of_nodup (h : (table.map Prod.fst).Nodup) : ofPairs table = table := by
  induction table using List.reverseRecOn with
  | nil => rfl
  | append_singleton table field ih =>
    rw [List.map_append, List.nodup_append] at h
    obtain ⟨hnodup, -, hnew⟩ := h
    have hmem : field.1 ∉ table.map Prod.fst := fun hmem =>
      hnew _ hmem _ (List.mem_singleton_self _) rfl
    rw [ofPairs_concat, ih hnodup, insert_of_not_mem hmem]

end RouteSheet.Fields
