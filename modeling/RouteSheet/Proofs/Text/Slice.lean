import RouteSheet.Text.Utf8

/-!
# Slices between byte offsets

An offset in bytes is a boundary of a text if it lies between two of its characters or at one of
its ends. A text can be cut at its boundaries and nowhere else.
-/

namespace RouteSheet.Text

section Size

@[simp] theorem byteSize_nil : byteSize [] = 0 := rfl

@[simp] theorem byteSize_cons (c : Char) (s : List Char) :
    byteSize (c :: s) = c.utf8Size + byteSize s := by
  have hfrom : ∀ (s : List Char) (n : Nat),
      s.foldl (fun n c => n + c.utf8Size) n = n + byteSize s := by
    intro s
    induction s with
    | nil => simp
    | cons d s ih =>
      intro n
      rw [byteSize, List.foldl_cons, List.foldl_cons, ih, ih, Nat.zero_add, Nat.add_assoc]
  rw [byteSize, List.foldl_cons, hfrom, Nat.zero_add]

@[simp] theorem byteSize_append (s t : List Char) :
    byteSize (s ++ t) = byteSize s + byteSize t := by
  induction s with
  | nil => simp
  | cons c s ih => simp [ih, Nat.add_assoc]

/-- A text that is not empty takes bytes. -/
theorem byteSize_pos {s : List Char} (h : s ≠ []) : 0 < byteSize s := by
  cases s with
  | nil => exact absurd rfl h
  | cons c s =>
    rw [byteSize_cons]
    exact Nat.add_pos_left c.utf8Size_pos _

/-- Only the empty text takes no bytes. -/
theorem byteSize_eq_zero {s : List Char} : byteSize s = 0 ↔ s = [] := by
  constructor
  · intro h
    exact Decidable.byContradiction fun hne => absurd (byteSize_pos hne) (by omega)
  · rintro rfl
    rfl

end Size

/-- The first bytes of a text, unless they end inside a character or there are fewer. -/
def takeBytes? : Nat → List Char → Option (List Char)
  | 0, _ => some []
  | _ + 1, [] => none
  | n + 1, c :: s =>
    if c.utf8Size ≤ n + 1 then (takeBytes? (n + 1 - c.utf8Size) s).map (c :: ·) else none

/-- The text between two offsets, if the first does not lie behind the second and both are
boundaries. -/
def slice? (start stop : Nat) (s : List Char) : Option (List Char) :=
  if start ≤ stop then (dropBytes? start s).bind (takeBytes? (stop - start)) else none

/-- The bytes in front of the offset are a beginning of the text. -/
def IsBoundary (s : List Char) (offset : Nat) : Prop :=
  ∃ before after, s = before ++ after ∧ byteSize before = offset

section Slice

variable {n start stop : Nat} {s t before after : List Char}

/-- Beyond the first character a beginning is taken from the others. -/
theorem takeBytes?_cons (c : Char) (n : Nat) (s : List Char) :
    takeBytes? (c.utf8Size + n) (c :: s) = (takeBytes? n s).map (c :: ·) := by
  obtain ⟨k, hk⟩ := Nat.exists_eq_add_one.mpr (Nat.add_pos_left c.utf8Size_pos n)
  have hle : c.utf8Size ≤ k + 1 := by omega
  have hrest : k + 1 - c.utf8Size = n := by omega
  rw [hk, takeBytes?, if_pos hle, hrest]

/-- Beyond the first character the rest is taken from the others. -/
theorem dropBytes?_cons (c : Char) (n : Nat) (s : List Char) :
    dropBytes? (c.utf8Size + n) (c :: s) = dropBytes? n s := by
  obtain ⟨k, hk⟩ := Nat.exists_eq_add_one.mpr (Nat.add_pos_left c.utf8Size_pos n)
  have hle : c.utf8Size ≤ k + 1 := by omega
  have hrest : k + 1 - c.utf8Size = n := by omega
  rw [hk, dropBytes?, if_pos hle, hrest]

/-- The bytes of a beginning are the beginning. -/
theorem takeBytes?_append (before after : List Char) :
    takeBytes? (byteSize before) (before ++ after) = some before := by
  induction before with
  | nil => rw [byteSize_nil, takeBytes?]
  | cons c before ih =>
    rw [byteSize_cons, List.cons_append, takeBytes?_cons, ih, Option.map_some]

/-- Behind the bytes of a beginning stands the rest. -/
theorem dropBytes?_append (before after : List Char) :
    dropBytes? (byteSize before) (before ++ after) = some after := by
  induction before with
  | nil => rw [byteSize_nil, dropBytes?, List.nil_append]
  | cons c before ih => rw [byteSize_cons, List.cons_append, dropBytes?_cons, ih]

/-- The first bytes are taken off exactly if they are a beginning of the text. -/
theorem dropBytes?_eq_some :
    dropBytes? n s = some after ↔ ∃ before, s = before ++ after ∧ byteSize before = n := by
  constructor
  · intro h
    fun_induction dropBytes? n s with
    | case1 s =>
      obtain rfl := Option.some.inj h
      exact ⟨[], rfl, rfl⟩
    | case2 => cases h
    | case3 n c s hle ih =>
      obtain ⟨before, rfl, hsize⟩ := ih h
      refine ⟨c :: before, rfl, ?_⟩
      rw [byteSize_cons]
      omega
    | case4 => cases h
  · rintro ⟨before, rfl, rfl⟩
    exact dropBytes?_append before after

/-- The first bytes are a text exactly if they are a beginning of the text. -/
theorem takeBytes?_eq_some :
    takeBytes? n s = some before ↔ ∃ after, s = before ++ after ∧ byteSize before = n := by
  constructor
  · intro h
    fun_induction takeBytes? n s generalizing before with
    | case1 s =>
      obtain rfl := Option.some.inj h
      exact ⟨s, rfl, rfl⟩
    | case2 => cases h
    | case3 n c s hle ih =>
      obtain ⟨rest, hrest, rfl⟩ := Option.map_eq_some_iff.mp h
      obtain ⟨after, rfl, hsize⟩ := ih hrest
      refine ⟨after, rfl, ?_⟩
      rw [byteSize_cons]
      omega
    | case4 => cases h
  · rintro ⟨after, rfl, rfl⟩
    exact takeBytes?_append before after

/-- A text is cut at its boundaries and nowhere else. -/
theorem dropBytes?_isSome_iff : (dropBytes? n s).isSome = true ↔ IsBoundary s n := by
  simp only [Option.isSome_iff_exists, dropBytes?_eq_some, IsBoundary]
  exact exists_comm

/-- A beginning is taken up to the boundaries and to no other place. -/
theorem takeBytes?_isSome_iff : (takeBytes? n s).isSome = true ↔ IsBoundary s n := by
  simp only [Option.isSome_iff_exists, takeBytes?_eq_some, IsBoundary]

/-- No boundary lies behind the end. -/
theorem IsBoundary.le_byteSize (h : IsBoundary s n) : n ≤ byteSize s := by
  obtain ⟨before, after, rfl, rfl⟩ := h
  rw [byteSize_append]
  exact Nat.le_add_right _ _

/-- A part of a text stands between its offsets. -/
theorem slice?_append (before t after : List Char) :
    slice? (byteSize before) (byteSize before + byteSize t) (before ++ (t ++ after)) = some t := by
  rw [slice?, if_pos (Nat.le_add_right _ _), dropBytes?_append, Option.bind_some,
    Nat.add_sub_cancel_left, takeBytes?_append]

/-- There is a text between two offsets exactly if they are boundaries in this order. -/
theorem slice?_isSome_iff : (slice? start stop s).isSome = true ↔
    start ≤ stop ∧ IsBoundary s start ∧ IsBoundary s stop := by
  constructor
  · intro h
    rw [slice?] at h
    split at h
    · next hle =>
      obtain ⟨t, hslice⟩ := Option.isSome_iff_exists.mp h
      obtain ⟨rest, hrest, ht⟩ := Option.bind_eq_some_iff.mp hslice
      obtain ⟨before, rfl, hbefore⟩ := dropBytes?_eq_some.mp hrest
      obtain ⟨after, rfl, hsize⟩ := takeBytes?_eq_some.mp ht
      refine ⟨hle, ⟨before, t ++ after, rfl, hbefore⟩, before ++ t, after, by simp, ?_⟩
      rw [byteSize_append]
      omega
    · cases h
  · rintro ⟨hle, ⟨before, rest, rfl, rfl⟩, before', after, hs, rfl⟩
    rcases List.append_eq_append_iff.mp hs with ⟨t, rfl, rfl⟩ | ⟨t, rfl, rfl⟩
    · rw [byteSize_append, slice?_append]
      rfl
    · obtain rfl : t = [] := by
        rw [byteSize_append] at hle
        exact byteSize_eq_zero.mp (by omega)
      simp [slice?, dropBytes?_append, takeBytes?]

end Slice

end RouteSheet.Text
