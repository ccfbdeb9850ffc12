import RouteSheet.Text.Utf8

/-!
# Reading back what was encoded

From between two characters the machine reads the bytes of a character as that character and
stands between two characters again, so the bytes of a text are read as the text, with nothing
replaced. A byte below 128 is a character wherever it stands and ends what was under way, so
what stands before and behind it is read apart.
-/

namespace RouteSheet.Text

section Lead

variable {n : Nat}

/-- A byte below 0x80 is a character. -/
theorem leadByte_one (h : n < 0x80) : leadByte n = (some (Char.ofNat n), none) := if_pos h

/-- A byte from 0xC2 to 0xDF begins a character of two bytes. -/
theorem leadByte_two (hlow : 2 ≤ n) (hhigh : n < 0x20) :
    leadByte (n + 0xC0) = (none, some ⟨n, 1, 0x80, 0xBF⟩) := by
  simp only [leadByte]
  rw [if_neg (by omega), if_neg (by omega), if_pos (by omega), Nat.add_sub_cancel]

/-- The second byte of a character of three keeps its bits in range, and out of the surrogates. -/
theorem leadByte_three (h : n < 0x10) : leadByte (n + 0xE0) =
    (none, some ⟨n, 2, if n = 0 then 0xA0 else 0x80, if n = 0xD then 0x9F else 0xBF⟩) := by
  simp only [leadByte]
  rw [if_neg (by omega), if_neg (by omega), if_neg (by omega), if_pos (by omega),
    Nat.add_sub_cancel]
  simp only [show n + 0xE0 = 0xE0 ↔ n = 0 by omega, show n + 0xE0 = 0xED ↔ n = 0xD by omega]

/-- The second byte of a character of four keeps its bits in range. -/
theorem leadByte_four (h : n < 5) : leadByte (n + 0xF0) =
    (none, some ⟨n, 3, if n = 0 then 0x90 else 0x80, if n = 4 then 0x8F else 0xBF⟩) := by
  simp only [leadByte]
  rw [if_neg (by omega), if_neg (by omega), if_neg (by omega), if_neg (by omega),
    if_pos (by omega), Nat.add_sub_cancel]
  simp only [show n + 0xF0 = 0xF0 ↔ n = 0 by omega, show n + 0xF0 = 0xF4 ↔ n = 4 by omega]

end Lead

namespace ByteReader

variable (units : List (Option Char)) {byte : UInt8} {u : Unfinished} {n : Nat}

/-- A first byte that begins a longer sequence leaves it under way. -/
theorem step_lead (hbyte : byte.toNat = n) (h : leadByte n = (none, some u)) :
    step ⟨units, none⟩ byte = ⟨units, some u⟩ := by
  simp only [step, start, hbyte, h]

/-- The last byte of a sequence ends the character. -/
theorem step_last (hbyte : byte.toNat = n + 0x80) (hmissing : u.missing = 1)
    (hlow : u.low ≤ n + 0x80) (hhigh : n + 0x80 ≤ u.high) :
    step ⟨units, some u⟩ byte = ⟨some (Char.ofNat (u.bits * 0x40 + n)) :: units, none⟩ := by
  simp only [step, hbyte, hlow, hhigh, hmissing, decide_true, Bool.and_self, if_true,
    Nat.add_sub_cancel, Nat.le_refl]

/-- Any other byte of a sequence adds its bits. -/
theorem step_inner (hbyte : byte.toNat = n + 0x80) (hmissing : 1 < u.missing)
    (hlow : u.low ≤ n + 0x80) (hhigh : n + 0x80 ≤ u.high) :
    step ⟨units, some u⟩ byte =
      ⟨units, some ⟨u.bits * 0x40 + n, u.missing - 1, 0x80, 0xBF⟩⟩ := by
  simp only [step, hbyte, hlow, hhigh, decide_true, Bool.and_self, if_true,
    Nat.add_sub_cancel, if_neg (Nat.not_le.mpr hmissing)]

/-- The bytes of a character are read as the character, whether it takes one byte, two, three or
four. Each byte behind the first one carries six of its bits. -/
theorem foldl_step_utf8EncodeChar (c : Char) :
    (String.utf8EncodeChar c).foldl step ⟨units, none⟩ = ⟨some c :: units, none⟩ := by
  have hvalid : c.val.toNat < 0xD800 ∨ 0xDFFF < c.val.toNat ∧ c.val.toNat < 0x110000 := c.valid
  have hchar : Char.ofNat c.val.toNat = c := c.ofNat_toNat
  have hbyte : ∀ n < 256, (UInt8.ofNat n).toNat = n := by
    intro n hn
    rw [UInt8.toNat_ofNat', Nat.mod_eq_of_lt hn]
  have htail : ∀ n, (UInt8.ofNat (n % 64 + 128)).toNat = n % 64 + 0x80 := by
    intro n
    exact hbyte _ (by omega)
  simp only [String.utf8EncodeChar]
  generalize c.val.toNat = v at hvalid hchar
  by_cases hone : v ≤ 0x7F
  · have hlead := leadByte_one (Nat.lt_succ_of_le hone)
    rw [if_pos hone, List.foldl_cons, List.foldl_nil]
    simp only [step, start, hbyte v (by omega), hlead, hchar]
  rw [if_neg hone]
  by_cases htwo : v ≤ 0x7FF
  · have hlead := leadByte_two (n := v / 64 % 32) (by omega) (by omega)
    rw [if_pos htwo, List.foldl_cons, List.foldl_cons, List.foldl_nil,
      step_lead units (hbyte _ (by omega)) hlead,
      step_last units (htail v) rfl (by simp only; omega) (by simp only; omega)]
    simp only
    rw [show v / 64 % 32 * 0x40 + v % 64 = v by omega, hchar]
  rw [if_neg htwo]
  by_cases hthree : v ≤ 0xFFFF
  · have hlead := leadByte_three (n := v / 4096 % 16) (by omega)
    rw [if_pos hthree, List.foldl_cons, List.foldl_cons, List.foldl_cons, List.foldl_nil,
      step_lead units (hbyte _ (by omega)) hlead,
      step_inner units (htail _) (Nat.lt_succ_self 1) (by simp only; split <;> omega)
        (by simp only; split <;> omega),
      step_last units (htail v) rfl (by simp only; omega) (by simp only; omega)]
    simp only
    rw [show (v / 4096 % 16 * 0x40 + v / 64 % 64) * 0x40 + v % 64 = v by omega, hchar]
  rw [if_neg hthree]
  have hlead := leadByte_four (n := v / 262144 % 8) (by omega)
  rw [List.foldl_cons, List.foldl_cons, List.foldl_cons, List.foldl_cons, List.foldl_nil,
    step_lead units (hbyte _ (by omega)) hlead,
    step_inner units (htail _) (show 1 < 3 by decide) (by simp only; split <;> omega)
      (by simp only; split <;> omega),
    step_inner units (htail _) (show 1 < 2 by decide) (by simp only; omega) (by simp only; omega),
    step_last units (htail v) rfl (by simp only; omega) (by simp only; omega)]
  simp only
  rw [show ((v / 262144 % 8 * 0x40 + v / 4096 % 64) * 0x40 + v / 64 % 64) * 0x40 + v % 64 = v
    by omega, hchar]

/-- The bytes of a text are read as its characters, one by one. -/
theorem foldl_step_bytesOf (s : List Char) :
    (bytesOf s).foldl step ⟨units, none⟩ = ⟨(s.map some).reverse ++ units, none⟩ := by
  induction s generalizing units with
  | nil => rfl
  | cons c s ih =>
    have hbytes : bytesOf (c :: s) = String.utf8EncodeChar c ++ bytesOf s := List.flatMap_cons
    rw [hbytes, List.foldl_append, foldl_step_utf8EncodeChar, ih, List.map_cons,
      List.reverse_cons, List.append_assoc, List.singleton_append]

/-- What has been read does not matter for what comes. -/
theorem foldl_step_units (bytes : List UInt8) (r : ByteReader) :
    bytes.foldl step ⟨r.units ++ units, r.pending⟩ =
      ⟨(bytes.foldl step r).units ++ units, (bytes.foldl step r).pending⟩ := by
  have hstart : ∀ (done : List (Option Char)) (b : Nat),
      start (done ++ units) b = ⟨(start done b).units ++ units, (start done b).pending⟩ := by
    intro done b
    unfold start
    split <;> rfl
  induction bytes generalizing r with
  | nil => rfl
  | cons byte bytes ih =>
    have hstep : step ⟨r.units ++ units, r.pending⟩ byte =
        ⟨(step r byte).units ++ units, (step r byte).pending⟩ := by
      unfold step
      simp only
      split
      · exact hstart _ _
      · split
        · split <;> rfl
        · exact hstart (none :: r.units) _
    rw [List.foldl_cons, hstep, ih, List.foldl_cons]

/-- The sequence under way goes on with bytes from 128 on only. -/
def AwaitsHigh (r : ByteReader) : Prop := ∀ u ∈ r.pending, 0x80 ≤ u.low

private theorem le_low_of_leadByte {b : Nat} {u : Unfinished} (h : (leadByte b).2 = some u) :
    0x80 ≤ u.low := by
  unfold leadByte at h
  split at h
  · cases h
  split at h
  · cases h
  split at h
  · obtain rfl := Option.some.inj h
    exact Nat.le_refl _
  split at h
  · obtain rfl := Option.some.inj h
    simp only
    split <;> omega
  split at h
  · obtain rfl := Option.some.inj h
    simp only
    split <;> omega
  · cases h

/-- A character that begins awaits a byte from 0x80 on. -/
theorem awaitsHigh_start (b : Nat) : AwaitsHigh (start units b) := by
  intro u hu
  unfold start at hu
  split at hu
  · next u' h =>
    obtain rfl : u' = u := Option.some.inj hu
    exact le_low_of_leadByte (congrArg Prod.snd h)
  · cases hu

/-- Behind a byte a reader awaits one from 0x80 on. -/
theorem awaitsHigh_step (r : ByteReader) (byte : UInt8) : AwaitsHigh (r.step byte) := by
  unfold step
  simp only
  split
  · exact awaitsHigh_start _ _
  · split
    · split
      · exact nofun
      · intro u hu
        obtain rfl := Option.some.inj hu
        exact Nat.le_refl _
    · exact awaitsHigh_start _ _

/-- Behind bytes a reader awaits one from 0x80 on. -/
theorem awaitsHigh_foldl_step (bytes : List UInt8) {r : ByteReader} (h : AwaitsHigh r) :
    AwaitsHigh (bytes.foldl step r) := by
  induction bytes generalizing r with
  | nil => exact h
  | cons byte bytes ih => exact ih (awaitsHigh_step r byte)

/-- A byte below 128 ends the sequence under way and is a character. -/
theorem step_ascii {r : ByteReader} (h : AwaitsHigh r) (hbyte : byte.toNat < 0x80) :
    r.step byte = ⟨some (Char.ofNat byte.toNat) :: r.finish, none⟩ := by
  obtain ⟨done, pending⟩ := r
  cases pending with
  | none => simp [step, start, leadByte_one hbyte, finish]
  | some u =>
    have hlow : ¬ u.low ≤ byte.toNat := by
      have := h u rfl
      omega
    simp [step, start, leadByte_one hbyte, finish, hlow]

end ByteReader

/-- A byte below 128 is read as a character, whatever stands before and behind it. -/
theorem ofBytesLossy_append_ascii {byte : UInt8} (hbyte : byte.toNat < 0x80)
    (before after : List UInt8) : ofBytesLossy (before ++ byte :: after) =
      ofBytesLossy before ++ Char.ofNat byte.toNat :: ofBytesLossy after := by
  have hawaits : ByteReader.AwaitsHigh (before.foldl ByteReader.step ⟨[], none⟩) :=
    ByteReader.awaitsHigh_foldl_step before nofun
  have hunits : unitsOfBytes (before ++ byte :: after) =
      unitsOfBytes after ++ some (Char.ofNat byte.toNat) :: unitsOfBytes before := by
    have hafter := ByteReader.foldl_step_units
      (some (Char.ofNat byte.toNat) :: unitsOfBytes before) after ⟨[], none⟩
    rw [unitsOfBytes, List.foldl_append, List.foldl_cons, ByteReader.step_ascii hawaits hbyte]
    rw [List.nil_append] at hafter
    rw [← unitsOfBytes, hafter]
    simp only [ByteReader.finish, unitsOfBytes]
    split <;> rfl
  simp [ofBytesLossy, hunits]

/-- Reading the bytes of a text replaces nothing. -/
theorem ofBytesLossy_bytesOf (s : List Char) : ofBytesLossy (bytesOf s) = s := by
  have hunits : unitsOfBytes (bytesOf s) = (s.map some).reverse := by
    rw [unitsOfBytes, ByteReader.foldl_step_bytesOf, List.append_nil]
    rfl
  rw [ofBytesLossy, hunits, List.map_reverse, List.reverse_reverse, List.map_map]
  exact List.map_id s

end RouteSheet.Text
