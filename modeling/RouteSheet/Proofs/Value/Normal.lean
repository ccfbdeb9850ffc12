import RouteSheet.Proofs.Number.Integral
import RouteSheet.Route.Run
import RouteSheet.Value.Text

/-!
# Writing a value, and its normal form

A value is written to JSON in one pass over its parts, with a comma in front of every part
but the first. The text is that of its document: a field that is left out leaves no comma
behind, and a number is written the same from the value and from the document.

A value that goes out as a document and is read back comes back in a normal form: what is
missing is null or, as a field, gone; a number that is not finite is null and a zero has no
sign; and a report is an object of two numbers. Normalizing again changes nothing, and the
normal form is written like the value itself as long as the numbers of its reports are exact.
-/

namespace RouteSheet

/-- The parts with commas between them, given whether the next part is the first. -/
def commaJoined (first : Bool) : List String → String
  | [] => ""
  | part :: rest => Value.separator first ++ (part ++ commaJoined false rest)

/-- A comma in front of each part but the first is a comma between any two. -/
theorem commaJoined_eq_intercalate (parts : List String) :
    commaJoined true parts = ",".intercalate parts := by
  have hcons : ∀ part : String, part ++ commaJoined false parts.tail =
      ",".intercalate (part :: parts.tail) := by
    induction parts.tail with
    | nil =>
      intro part
      rw [commaJoined, String.append_empty, String.intercalate_singleton]
    | cons next rest ih =>
      intro part
      rw [commaJoined, ih, String.intercalate_cons_cons, String.append_assoc]
      rfl
  cases parts with
  | nil => rfl
  | cons part rest =>
    rw [commaJoined, Value.separator, if_pos rfl, String.empty_append]
    exact hcons part

/-- A number is written like its document. -/
theorem Number.emit_eq_render (x : Number) : x.emit = x.toJson.render := by
  unfold emit toJson
  cases x.toSafeInt? with
  | some i => rfl
  | none => cases x <;> rfl

/-- A report is written like its document. -/
theorem WriteReport.emit_eq_render (r : WriteReport) : r.emit = r.toJson.render := by
  have hfields : Json.renderFields
      [("lastInsertRowid", .integer r.rowId), ("changes", .integer r.changes)] =
        [Json.quoted "lastInsertRowid" ++ ":" ++ intText r.rowId,
          Json.quoted "changes" ++ ":" ++ intText r.changes] := rfl
  rw [emit, toJson, Json.render, hfields, String.intercalate_cons_cons,
    String.intercalate_singleton]
  simp only [String.append_assoc]

namespace Value

mutual

/-- A value is written like its document. -/
theorem emit_eq_jsonText (v : Value) : v.emit = v.jsonText := by
  rw [jsonText]
  cases v with
  | missing => rfl
  | null => rfl
  | bool b => cases b <;> rfl
  | number x => exact x.emit_eq_render
  | string s => rfl
  | array items =>
    rw [emit, toJson, Json.render, emitItems_eq, commaJoined_eq_intercalate, String.append_assoc]
  | object fields =>
    rw [emit, toJson, Json.render, emitFields_eq, commaJoined_eq_intercalate, String.append_assoc]
  | report r => exact r.emit_eq_render

/-- The items of an array are written like those of its document. -/
theorem emitItems_eq (first : Bool) (items : List Value) :
    emitItems first items = commaJoined first (Json.renderItems (toJsonItems items)) := by
  cases items with
  | nil => rfl
  | cons item rest =>
    rw [emitItems, toJsonItems, Json.renderItems, commaJoined, emit_eq_jsonText item,
      emitItems_eq false rest]
    rfl

/-- The fields of an object are written like those of its document, and a field that is missing
leaves the next one as it was, the first or not. -/
theorem emitFields_eq (first : Bool) (fields : List (String × Value)) :
    emitFields first fields = commaJoined first (Json.renderFields (toJsonFields fields)) := by
  cases fields with
  | nil => rfl
  | cons field rest =>
    obtain ⟨key, value⟩ := field
    rw [emitFields, toJsonFields]
    by_cases hmissing : value.isMissing = true
    · rw [if_pos hmissing, if_pos hmissing, emitFields_eq first rest]
    · rw [if_neg hmissing, if_neg hmissing, Json.renderFields, commaJoined,
        emit_eq_jsonText value, emitFields_eq false rest, jsonText]
      simp only [String.append_assoc]

end

end Value

namespace Number

/-- The normal form of a number: null if it is not finite, and a zero has no sign. -/
def normal : Number → Value
  | .finite x => .number (.finite x.canonical)
  | _ => .null

/-- A number that goes out and is read back is in normal form. -/
theorem ofJson_toJson (x : Number) : Value.ofJson x.toJson = x.normal := by
  cases x with
  | nan => rfl
  | infinite negative => rfl
  | finite x =>
    rw [normal]
    unfold toJson
    cases h : (Number.finite x).toSafeInt? with
    | none => rw [canonical_of_toSafeInt? h, Value.ofJson]
    | some i => rw [Value.ofJson, ofInt_of_scaled (toSafeInt?_eq_some_iff.mp h).1]

/-- The normal form of a number is written like the number. -/
theorem emit_normal (x : Number) : x.normal.emit = x.emit := by
  cases x with
  | nan => rfl
  | infinite negative => rfl
  | finite x =>
    rw [normal, Value.emit]
    unfold emit
    rw [toSafeInt?_canonical]
    cases h : (Number.finite x).toSafeInt? with
    | none => rw [canonical_of_toSafeInt? h]
    | some i => rfl

/-- An integer of at most 53 bits is written without loss as a number. -/
theorem emit_ofInt {i : Int} (h : i.natAbs < mantissaBound) :
    (Number.ofInt i).emit = intText i := by
  obtain ⟨x, hx⟩ := exists_scaled_eq h
  have hsafe : (Number.finite x.canonical).toSafeInt? = some i := by
    rw [toSafeInt?_canonical]
    exact toSafeInt?_eq_some_iff.mpr ⟨hx, h⟩
  rw [ofInt_of_scaled hx]
  unfold emit
  rw [hsafe]

/-- A number that stands for an integer of 64 bits is in normal form. -/
theorem normal_ofInt {i : Int} (h : i.natAbs < 2 * wordBound) :
    (Number.ofInt i).normal = .number (.ofInt i) := by
  obtain ⟨x, hx, hcanonical⟩ := exists_ofInt h
  rw [hx, normal, hcanonical]

end Number

namespace WriteReport

/-- The normal form of a report: an object of its two numbers. -/
def normal (r : WriteReport) : Value :=
  .object [("lastInsertRowid", .number (.ofInt r.rowId)), ("changes", .number (.ofInt r.changes))]

/-- The row id is a signed word of 64 bits and the count an unsigned one. -/
structure IsWord (r : WriteReport) : Prop where
  rowId_ge : -(wordBound : Int) ≤ r.rowId
  rowId_lt : r.rowId < wordBound
  changes_lt : r.changes < 2 * wordBound

/-- Both numbers have at most 53 bits. -/
structure IsSafe (r : WriteReport) : Prop where
  rowId_lt : r.rowId.natAbs < mantissaBound
  changes_lt : r.changes < mantissaBound

/-- The normal form of a report with safe numbers is written like the report. -/
theorem emit_normal {r : WriteReport} (h : r.IsSafe) : r.normal.emit = r.emit := by
  have hchanges : (r.changes : Int).natAbs < mantissaBound := h.changes_lt
  simp only [normal, emit, Value.emit, Value.emitFields, Value.isMissing, Value.separator,
    Number.emit_ofInt h.rowId_lt, Number.emit_ofInt hchanges, if_true, Bool.false_eq_true,
    if_false, String.empty_append, String.append_empty, String.append_assoc]

end WriteReport

namespace Value

mutual

/-- The normal form of a value, which is what a document keeps of it. -/
def normal : Value → Value
  | .missing | .null => .null
  | .bool b => .bool b
  | .number x => x.normal
  | .string s => .string s
  | .array items => .array (normalItems items)
  | .object fields => .object (normalFields fields)
  | .report r => r.normal

/-- The normal forms of the items of an array. -/
def normalItems : List Value → List Value
  | [] => []
  | item :: rest => normal item :: normalItems rest

/-- The normal forms of the fields of an object that are there. -/
def normalFields : List (String × Value) → List (String × Value)
  | [] => []
  | (key, value) :: rest =>
    if value.isMissing then normalFields rest else (key, normal value) :: normalFields rest

end

mutual

/-- The reports inside a value. -/
def reports : Value → List WriteReport
  | .missing | .null | .bool _ | .number _ | .string _ => []
  | .array items => reportsOfItems items
  | .object fields => reportsOfFields fields
  | .report r => [r]

/-- The reports inside the items of an array. -/
def reportsOfItems : List Value → List WriteReport
  | [] => []
  | item :: rest => reports item ++ reportsOfItems rest

/-- The reports inside the fields of an object. -/
def reportsOfFields : List (String × Value) → List WriteReport
  | [] => []
  | (_, value) :: rest => reports value ++ reportsOfFields rest

end

/-- A normal form is never missing. -/
theorem isMissing_normal (v : Value) : v.normal.isMissing = false := by
  cases v with
  | number x => cases x <;> rfl
  | _ => rfl

mutual

/-- A value that goes out and is read back is in normal form. -/
theorem ofJson_toJson (v : Value) : ofJson v.toJson = v.normal := by
  cases v with
  | missing => rfl
  | null => rfl
  | bool b => rfl
  | number x => exact x.ofJson_toJson
  | string s => rfl
  | array items => rw [toJson, ofJson, ofJsonItems_toJsonItems, normal]
  | object fields => rw [toJson, ofJson, ofJsonFields_toJsonFields, normal]
  | report r => rfl

/-- Items that go out as JSON come back in normal form. -/
theorem ofJsonItems_toJsonItems (items : List Value) :
    ofJsonItems (toJsonItems items) = normalItems items := by
  cases items with
  | nil => rfl
  | cons item rest =>
    rw [toJsonItems, ofJsonItems, ofJson_toJson item, ofJsonItems_toJsonItems rest, normalItems]

/-- Fields that go out as JSON come back in normal form. -/
theorem ofJsonFields_toJsonFields (fields : List (String × Value)) :
    ofJsonFields (toJsonFields fields) = normalFields fields := by
  cases fields with
  | nil => rfl
  | cons field rest =>
    obtain ⟨key, value⟩ := field
    rw [toJsonFields, normalFields]
    by_cases hmissing : value.isMissing = true
    · rw [if_pos hmissing, if_pos hmissing, ofJsonFields_toJsonFields rest]
    · rw [if_neg hmissing, if_neg hmissing, ofJsonFields, ofJson_toJson value,
        ofJsonFields_toJsonFields rest]

end

mutual

/-- A normal form is its own normal form. -/
theorem normal_normal (v : Value) (h : ∀ r ∈ v.reports, r.IsWord) : v.normal.normal = v.normal := by
  cases v with
  | missing => rfl
  | null => rfl
  | bool b => rfl
  | number x =>
    cases x with
    | finite x => rw [normal, Number.normal, normal, Number.normal, x.canonical_canonical]
    | _ => rfl
  | string s => rfl
  | array items => rw [normal, normal, normalItems_normalItems items h]
  | object fields => rw [normal, normal, normalFields_normalFields fields h]
  | report r =>
    have hr := h r (List.mem_singleton_self r)
    have hrowId := Number.normal_ofInt (i := r.rowId) (by have := hr.1; have := hr.2; omega)
    have hchanges := Number.normal_ofInt (i := r.changes) hr.3
    simp only [normal, WriteReport.normal, normalFields, isMissing, hrowId, hchanges,
      Bool.false_eq_true, if_false]

/-- Items in normal form are in normal form already. -/
theorem normalItems_normalItems (items : List Value) (h : ∀ r ∈ reportsOfItems items, r.IsWord) :
    normalItems (normalItems items) = normalItems items := by
  cases items with
  | nil => rfl
  | cons item rest =>
    obtain ⟨hitem, hrest⟩ := List.forall_mem_append.mp h
    rw [normalItems, normalItems, normal_normal item hitem, normalItems_normalItems rest hrest]

/-- Fields in normal form are in normal form already. -/
theorem normalFields_normalFields (fields : List (String × Value))
    (h : ∀ r ∈ reportsOfFields fields, r.IsWord) :
    normalFields (normalFields fields) = normalFields fields := by
  cases fields with
  | nil => rfl
  | cons field rest =>
    obtain ⟨key, value⟩ := field
    obtain ⟨hvalue, hrest⟩ := List.forall_mem_append.mp h
    rw [normalFields]
    by_cases hmissing : value.isMissing = true
    · rw [if_pos hmissing, normalFields_normalFields rest hrest]
    · rw [if_neg hmissing, normalFields, isMissing_normal, if_neg Bool.false_ne_true,
        normal_normal value hvalue, normalFields_normalFields rest hrest]

end

mutual

/-- The normal form of a value is written like the value. -/
theorem emit_normal (v : Value) (h : ∀ r ∈ v.reports, r.IsSafe) : v.normal.emit = v.emit := by
  cases v with
  | missing => rfl
  | null => rfl
  | bool b => rfl
  | number x => exact x.emit_normal
  | string s => rfl
  | array items => rw [normal, emit, emit, emitItems_normalItems true items h]
  | object fields => rw [normal, emit, emit, emitFields_normalFields true fields h]
  | report r => exact WriteReport.emit_normal (h r (List.mem_singleton_self r))

/-- Items go out in normal form as they do without it. -/
theorem emitItems_normalItems (first : Bool) (items : List Value)
    (h : ∀ r ∈ reportsOfItems items, r.IsSafe) :
    emitItems first (normalItems items) = emitItems first items := by
  cases items with
  | nil => rfl
  | cons item rest =>
    obtain ⟨hitem, hrest⟩ := List.forall_mem_append.mp h
    rw [normalItems, emitItems, emitItems, emit_normal item hitem,
      emitItems_normalItems false rest hrest]

/-- Fields go out in normal form as they do without it. -/
theorem emitFields_normalFields (first : Bool) (fields : List (String × Value))
    (h : ∀ r ∈ reportsOfFields fields, r.IsSafe) :
    emitFields first (normalFields fields) = emitFields first fields := by
  cases fields with
  | nil => rfl
  | cons field rest =>
    obtain ⟨key, value⟩ := field
    obtain ⟨hvalue, hrest⟩ := List.forall_mem_append.mp h
    rw [normalFields, emitFields]
    by_cases hmissing : value.isMissing = true
    · rw [if_pos hmissing, if_pos hmissing, emitFields_normalFields first rest hrest]
    · rw [if_neg hmissing, if_neg hmissing, emitFields, isMissing_normal,
        if_neg Bool.false_ne_true, emit_normal value hvalue,
        emitFields_normalFields false rest hrest]

end

/-- What goes out as JSON comes back as the normal form of the value. The normal form is its own,
and it goes out as the same text as the value as long as the reports inside are safe. A route that
answers with the value writes the text of its document. -/
theorem emission_faithful (v : Value) :
    ofJson v.toJson = v.normal ∧
      ((∀ r ∈ v.reports, r.IsWord) → v.normal.normal = v.normal) ∧
      ((∀ r ∈ v.reports, r.IsSafe) → v.normal.emit = v.emit) ∧
      BodyKind.json.render v = v.jsonText := by
  refine ⟨v.ofJson_toJson, ?_, ?_, ?_⟩
  · intro hword
    exact v.normal_normal hword
  · intro hsafe
    exact v.emit_normal hsafe
  · rw [BodyKind.render, v.emit_eq_jsonText]

/-- An array of what is missing, a zero with a sign and an object of a missing field and the report
with the largest safe row id. -/
def mixedArray : Value :=
  .array [.missing, .number (.finite (.zero true)),
    .object [("gone", .missing), ("saved", .report ⟨0x1FFFFFFFFFFFFF, 3⟩)]]

/-- An array with a missing item, a negative zero and a report goes out as the same text on every
path. -/
theorem emission_faithful_mixedArray :
    mixedArray.reports = [⟨0x1FFFFFFFFFFFFF, 3⟩] ∧
      mixedArray.normal = .array [.null, .number (.finite (.zero false)),
        .object [("saved", .object [("lastInsertRowid", .number (.ofInt 0x1FFFFFFFFFFFFF)),
          ("changes", .number (.ofInt 3))])]] ∧
      ofJson mixedArray.toJson = mixedArray.normal ∧
      mixedArray.normal.normal = mixedArray.normal ∧
      mixedArray.normal.emit = mixedArray.emit ∧
      BodyKind.json.render mixedArray = mixedArray.jsonText := by
  have hreports : mixedArray.reports = [⟨0x1FFFFFFFFFFFFF, 3⟩] := rfl
  obtain ⟨hreadBack, hidempotent, hemit, hrender⟩ := emission_faithful mixedArray
  refine ⟨hreports, rfl, hreadBack, hidempotent ?_, hemit ?_, hrender⟩
  · intro r hr
    rw [hreports, List.mem_singleton] at hr
    exact hr ▸ ⟨by decide, by decide, by decide⟩
  · intro r hr
    rw [hreports, List.mem_singleton] at hr
    exact hr ▸ ⟨by decide, by decide⟩

end Value

end RouteSheet
