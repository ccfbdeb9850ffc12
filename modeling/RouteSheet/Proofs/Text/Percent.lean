import RouteSheet.Proofs.Text.Bytes
import RouteSheet.Proofs.Text.Utf8
import RouteSheet.Text.Percent

/-!
# Undoing percent escapes

An escape begins with a percent sign, which is no hexadecimal digit, so a text may be cut in front
of any percent sign and its parts read apart. Every escape therefore gives one byte and every other
byte stands for itself, and a text that was written with escapes, whichever characters were escaped
and in whichever case, is read as the text it was written from.
-/

namespace RouteSheet.Text

/-- The hexadecimal digit of a value below sixteen, as a capital letter or a small one. -/
def hexDigit (capital : Bool) (n : Nat) : Char :=
  if n < 10 then Char.ofNat (48 + n) else Char.ofNat ((if capital then 55 else 87) + n)

/-- The escape of a byte, with the case of each digit chosen. -/
def escapeText (highCapital lowCapital : Bool) (b : UInt8) : List Char :=
  ['%', hexDigit highCapital (b.toNat / 16), hexDigit lowCapital (b.toNat % 16)]

/-- A text of escapes that writes the bytes one by one. -/
inductive Escapes : List Char → List UInt8 → Prop
  | nil : Escapes [] []
  | cons (highCapital lowCapital : Bool) (b : UInt8) {t : List Char} {bytes : List UInt8}
      (rest : Escapes t bytes) : Escapes (escapeText highCapital lowCapital b ++ t) (b :: bytes)

/-- The first text writes the second one: each character stands for itself, where the class allows
it, or all its bytes are escaped, and a space may be a plus sign. -/
inductive Spells (literal : Char → Bool) (plusIsSpace : Bool) : List Char → List Char → Prop
  | nil : Spells literal plusIsSpace [] []
  | itself {c : Char} {t s : List Char} (hc : literal c = true)
      (rest : Spells literal plusIsSpace t s) : Spells literal plusIsSpace (c :: t) (c :: s)
  | escaped {c : Char} {e t s : List Char} (he : Escapes e (String.utf8EncodeChar c))
      (rest : Spells literal plusIsSpace t s) : Spells literal plusIsSpace (e ++ t) (c :: s)
  | space {t s : List Char} (hplus : plusIsSpace = true)
      (rest : Spells literal plusIsSpace t s) : Spells literal plusIsSpace ('+' :: t) (' ' :: s)

/-- A character that is read as it stands. -/
def isUnescaped (plusIsSpace : Bool) (c : Char) : Bool := c != '%' && !(plusIsSpace && c == '+')

/-- The text begins with two hexadecimal digits. -/
def beginsWithDigits : List Char → Bool
  | high :: low :: _ => (hexValue? high).isSome && (hexValue? low).isSome
  | _ => false

/-- The bytes with their escapes undone. -/
def unescape (plusIsSpace : Bool) (bytes : List UInt8) : List UInt8 :=
  unescapeOnto plusIsSpace [] bytes

/-- The byte that two digits in front write. -/
def leadingByte? : List UInt8 → Option UInt8
  | high :: low :: _ => escapedByte? high low
  | _ => none

section Unescape

variable {plusIsSpace : Bool} {b high low byte : UInt8}

/-- What has been read does not matter for what comes. -/
theorem unescapeOnto_append (done earlier bytes : List UInt8) :
    unescapeOnto plusIsSpace (done ++ earlier) bytes =
      earlier.reverse ++ unescapeOnto plusIsSpace done bytes := by
  fun_induction unescapeOnto plusIsSpace done bytes with
  | case1 done => simp [unescapeOnto]
  | case2 done b high low rest byte h ih => simp only [unescapeOnto, h, ← ih, List.cons_append]
  | case3 done b high low rest h ih => simp only [unescapeOnto, h, ← ih, List.cons_append]
  | case4 done b rest hshort ih =>
    rw [unescapeOnto, ← ih, List.cons_append]
    exact hshort

/-- What is read already stands in front of what is still read. -/
theorem unescapeOnto_eq (done bytes : List UInt8) :
    unescapeOnto plusIsSpace done bytes = done.reverse ++ unescape plusIsSpace bytes :=
  unescapeOnto_append [] done bytes

/-- A byte begins an escape or stands for itself. -/
theorem unescapeOnto_cons (done : List UInt8) (b : UInt8) (rest : List UInt8) :
    unescapeOnto plusIsSpace done (b :: rest) =
      match if b = 0x25 then leadingByte? rest else none with
      | some byte => unescapeOnto plusIsSpace (byte :: done) (rest.drop 2)
      | none => unescapeOnto plusIsSpace (plainByte plusIsSpace b :: done) rest := by
  match rest with
  | [] => simp [unescapeOnto, leadingByte?]
  | [next] => simp [unescapeOnto, leadingByte?]
  | high :: low :: rest =>
    by_cases hb : b = 0x25
    · cases hbyte : escapedByte? high low <;> simp [unescapeOnto, leadingByte?, hb, hbyte]
    · simp [unescapeOnto, hb]

/-- A byte that is no percent sign is read by itself. -/
theorem unescape_cons_of_ne (h : b ≠ 0x25) (rest : List UInt8) :
    unescape plusIsSpace (b :: rest) = plainByte plusIsSpace b :: unescape plusIsSpace rest := by
  rw [unescape, unescapeOnto_cons, if_neg h]
  exact unescapeOnto_eq _ rest

/-- An escape is read as its byte. -/
theorem unescape_escape (h : escapedByte? high low = some byte) (rest : List UInt8) :
    unescape plusIsSpace (0x25 :: high :: low :: rest) = byte :: unescape plusIsSpace rest := by
  rw [unescape, unescapeOnto_cons, if_pos rfl, leadingByte?, h]
  exact unescapeOnto_eq _ rest

/-- A percent sign without two digits behind it stands for itself. -/
theorem unescape_stray {rest : List UInt8} (h : leadingByte? rest = none) :
    unescape plusIsSpace (0x25 :: rest) = 0x25 :: unescape plusIsSpace rest := by
  have hplain : plainByte plusIsSpace 0x25 = 0x25 := by
    cases plusIsSpace <;> rfl
  rw [unescape, unescapeOnto_cons, if_pos rfl, h, hplain]
  exact unescapeOnto_eq _ rest

/-- Fewer than two bytes are no digits of an escape. -/
theorem leadingByte?_of_short {bytes : List UInt8} (h : bytes.length < 2) :
    leadingByte? bytes = none := by
  match bytes with
  | [] => rfl
  | [_] => rfl
  | _ :: _ :: _ => exact absurd (Nat.le_add_left 2 _) (Nat.not_le.mpr h)

/-- A percent sign is no digit of an escape. -/
theorem leadingByte?_append_percent (before after : List UInt8) :
    leadingByte? (before ++ 0x25 :: after) = leadingByte? before := by
  have hlow : ∀ high, escapedByte? high 0x25 = none := by
    intro high
    simp only [escapedByte?, Option.bind_eq_bind, Option.bind_eq_none_iff]
    intro _ _ _ h
    cases h
  match before with
  | [] => cases after <;> rfl
  | [high] => exact hlow high
  | high :: low :: before => rfl

/-- A text may be cut in front of any percent sign: an escape in front of it does not reach so
far. -/
theorem unescapeOnto_append_percent (done before after : List UInt8) :
    unescapeOnto plusIsSpace done (before ++ 0x25 :: after) =
      unescapeOnto plusIsSpace done before ++ unescape plusIsSpace (0x25 :: after) := by
  fun_induction unescapeOnto plusIsSpace done before with
  | case1 done => exact unescapeOnto_eq done (0x25 :: after)
  | case2 done b high low rest byte h ih =>
    simp only [List.cons_append, unescapeOnto, h]
    exact ih
  | case3 done b high low rest h ih =>
    simp only [List.cons_append, unescapeOnto, h]
    exact ih
  | case4 done b rest hshort ih =>
    have hleading : leadingByte? rest = none := by
      unfold leadingByte?
      split
      · next high low more => exact (hshort high low more rfl).elim
      · rfl
    rw [List.cons_append, unescapeOnto_cons, leadingByte?_append_percent, hleading, ite_self]
    exact ih

/-- An escape gives one byte, whatever stands before and behind it. -/
theorem unescape_append_escape (h : escapedByte? high low = some byte)
    (before after : List UInt8) :
    unescape plusIsSpace (before ++ 0x25 :: high :: low :: after) =
      unescape plusIsSpace before ++ byte :: unescape plusIsSpace after := by
  rw [unescape, unescapeOnto_append_percent, unescape_escape h]
  rfl

/-- Bytes that stand for themselves are kept. -/
theorem unescape_append_of_plain {plain : List UInt8}
    (h : ∀ b ∈ plain, b ≠ 0x25 ∧ plainByte plusIsSpace b = b) (rest : List UInt8) :
    unescape plusIsSpace (plain ++ rest) = plain ++ unescape plusIsSpace rest := by
  induction plain with
  | nil => rfl
  | cons b plain ih =>
    obtain ⟨⟨hne, hplain⟩, hrest⟩ := List.forall_mem_cons.mp h
    rw [List.cons_append, unescape_cons_of_ne hne, hplain, ih hrest, List.cons_append]

end Unescape

section Spelling

variable {plusIsSpace : Bool}

/-- Hexadecimal digits are ASCII. -/
theorem hexDigit_lt (capital : Bool) {n : Nat} (hn : n < 16) :
    (hexDigit capital n).toNat < 128 := by
  have hall : ∀ capital : Bool, ∀ n < 16, (hexDigit capital n).toNat < 128 := by decide
  exact hall capital n hn

/-- A digit has its value in either case. -/
theorem hexValue?_hexDigit (capital : Bool) {n : Nat} (hn : n < 16) :
    hexValue? (hexDigit capital n) = some n := by
  have hall : ∀ capital : Bool, ∀ n < 16, hexValue? (hexDigit capital n) = some n := by decide
  exact hall capital n hn

/-- The byte of an ASCII character gives the character back. -/
theorem ofNat_byte_of_ascii {c : Char} (hc : c.toNat < 128) :
    Char.ofNat (UInt8.ofNat c.toNat).toNat = c := by
  rw [UInt8.toNat_ofNat', Nat.mod_eq_of_lt (by omega), Char.ofNat_toNat]

/-- An escape is three bytes, and its digits write the byte that it stands for. -/
theorem bytesOf_escapeText (highCapital lowCapital : Bool) (b : UInt8) : ∃ high low,
    bytesOf (escapeText highCapital lowCapital b) = [0x25, high, low] ∧
      escapedByte? high low = some b := by
  have hb := b.toNat_lt
  have hhigh : b.toNat / 16 < 16 := by omega
  have hlow : b.toNat % 16 < 16 := by omega
  have hhigh' := hexDigit_lt highCapital hhigh
  have hlow' := hexDigit_lt lowCapital hlow
  refine ⟨.ofNat (hexDigit highCapital (b.toNat / 16)).toNat,
    .ofNat (hexDigit lowCapital (b.toNat % 16)).toNat, ?_, ?_⟩
  · simp [bytesOf, escapeText, utf8EncodeChar_ascii hhigh', utf8EncodeChar_ascii hlow']
    rfl
  · have hvalue : 16 * (b.toNat / 16) + b.toNat % 16 = b.toNat := by omega
    rw [escapedByte?, ofNat_byte_of_ascii hhigh', ofNat_byte_of_ascii hlow',
      hexValue?_hexDigit _ hhigh, hexValue?_hexDigit _ hlow]
    simp only [Option.bind_eq_bind, Option.bind_some, hvalue, UInt8.ofNat_toNat]

/-- Escapes are undone one by one. -/
theorem unescape_append_of_escapes {e : List Char} {bytes : List UInt8} (h : Escapes e bytes)
    (rest : List UInt8) :
    unescape plusIsSpace (bytesOf e ++ rest) = bytes ++ unescape plusIsSpace rest := by
  induction h with
  | nil => rfl
  | cons highCapital lowCapital b _ ih =>
    obtain ⟨high, low, htext, hbyte⟩ := bytesOf_escapeText highCapital lowCapital b
    rw [bytesOf_append, htext, List.append_assoc]
    simp only [List.cons_append, List.nil_append]
    rw [unescape_escape hbyte, ih]

/-- The bytes of the first character stand in front of the others. -/
theorem bytesOf_cons (c : Char) (s : List Char) :
    bytesOf (c :: s) = String.utf8EncodeChar c ++ bytesOf s := List.flatMap_cons

/-- The bytes of an unescaped character stand for themselves. -/
theorem plain_of_isUnescaped {c : Char} (hc : isUnescaped plusIsSpace c = true) :
    ∀ b ∈ String.utf8EncodeChar c, b ≠ 0x25 ∧ plainByte plusIsSpace b = b := by
  have hascii : ∀ d : Char, d.toNat < 128 → UInt8.ofNat d.toNat ∈ String.utf8EncodeChar c →
      d = c := by
    intro d hd hmem
    have hbytes : bytesOf [c] = String.utf8EncodeChar c := by simp [bytesOf]
    exact List.mem_singleton.mp ((mem_bytesOf_iff hd).mp (hbytes ▸ hmem))
  simp only [isUnescaped, Bool.and_eq_true, bne_iff_ne, ne_eq, Bool.not_eq_true',
    Bool.and_eq_false_iff, beq_eq_false_iff_ne] at hc
  intro b hb
  constructor
  · rintro rfl
    exact hc.1 (hascii '%' (by decide) hb).symm
  · rw [plainByte, if_neg]
    simp only [Bool.and_eq_true, beq_iff_eq]
    rintro ⟨hplus, rfl⟩
    rcases hc.2 with h | h
    · exact Bool.false_ne_true (h.symm.trans hplus)
    · exact h (hascii '+' (by decide) hb).symm

/-- The bytes of a text are those that its spelling stands for. -/
theorem unescape_of_spells {literal : Char → Bool}
    (hliteral : ∀ c, literal c = true → isUnescaped plusIsSpace c = true) {t s : List Char}
    (h : Spells literal plusIsSpace t s) : unescape plusIsSpace (bytesOf t) = bytesOf s := by
  induction h with
  | nil => rfl
  | itself hc _ ih =>
    rw [bytesOf_cons, unescape_append_of_plain (plain_of_isUnescaped (hliteral _ hc)), ih,
      bytesOf_cons]
  | escaped he _ ih => rw [bytesOf_append, unescape_append_of_escapes he, ih, bytesOf_cons]
  | @space t s hplus _ ih =>
    have ht : bytesOf ('+' :: t) = 0x2B :: bytesOf t := bytesOf_cons '+' t
    have hs : bytesOf (' ' :: s) = 0x20 :: bytesOf s := bytesOf_cons ' ' s
    rw [ht, hs, unescape_cons_of_ne (by decide), ih, hplus]
    rfl

/-- A text is read as the one that it spells. -/
theorem percentDecode_of_spells {literal : Char → Bool}
    (hliteral : ∀ c, literal c = true → isUnescaped plusIsSpace c = true) {t s : List Char}
    (h : Spells literal plusIsSpace t s) : percentDecode plusIsSpace t = s := by
  rw [percentDecode, ← unescape, unescape_of_spells hliteral h, ofBytesLossy_bytesOf]

/-- A character that is no percent sign and no digit of an escape does not stand in an escape. -/
theorem not_mem_escapeText {sep : Char} (hpercent : sep ≠ '%') (hhex : hexValue? sep = none)
    (highCapital lowCapital : Bool) (b : UInt8) : sep ∉ escapeText highCapital lowCapital b := by
  have hdigit : ∀ capital, ∀ n < 16, sep ≠ hexDigit capital n := by
    rintro capital n hn rfl
    rw [hexValue?_hexDigit capital hn] at hhex
    cases hhex
  have hb := b.toNat_lt
  simp [escapeText, hpercent, hdigit _ (b.toNat / 16) (by omega),
    hdigit _ (b.toNat % 16) (by omega)]

/-- A character that is no percent sign and no digit of an escape does not stand among escapes. -/
theorem not_mem_of_escapes {sep : Char} (hpercent : sep ≠ '%') (hhex : hexValue? sep = none)
    {e : List Char} {bytes : List UInt8} (h : Escapes e bytes) : sep ∉ e := by
  induction h with
  | nil => exact List.not_mem_nil
  | cons highCapital lowCapital b _ ih =>
    simp [not_mem_escapeText hpercent hhex highCapital lowCapital b, ih]

/-- A separator that does not stand for itself is in no spelling. -/
theorem not_mem_of_spells {literal : Char → Bool} {sep : Char} (hsep : literal sep = false)
    (hpercent : sep ≠ '%') (hplus : sep ≠ '+') (hhex : hexValue? sep = none) {t s : List Char}
    (h : Spells literal plusIsSpace t s) : sep ∉ t := by
  induction h with
  | nil => exact List.not_mem_nil
  | itself hc _ ih =>
    rw [List.mem_cons, not_or]
    refine ⟨?_, ih⟩
    rintro rfl
    exact Bool.false_ne_true (hsep.symm.trans hc)
  | escaped he _ ih => simp [not_mem_of_escapes hpercent hhex he, ih]
  | space _ _ ih => simp [hplus, ih]

end Spelling

section Stray

/-- No digit is beyond ASCII. -/
theorem hexValue?_eq_none {c : Char} (hc : 128 ≤ c.toNat) : hexValue? c = none := by
  have hnot : ∀ d : Char, d.toNat < 128 → ¬ c ≤ d := by
    intro d hd hle
    have : c.toNat ≤ d.toNat := hle
    omega
  simp [hexValue?, hnot '9' (by decide), hnot 'f' (by decide), hnot 'F' (by decide)]

/-- A byte that is a digit is the first character of its text. -/
theorem exists_of_hexValue? {v : List Char} {b : UInt8} {rest : List UInt8} {n : Nat}
    (hv : bytesOf v = b :: rest) (hb : hexValue? (Char.ofNat b.toNat) = some n) :
    ∃ c s, v = c :: s ∧ hexValue? c = some n ∧ bytesOf s = rest := by
  cases v with
  | nil => cases hv
  | cons c s =>
    rw [bytesOf_cons] at hv
    rcases Nat.lt_or_ge c.toNat 128 with hc | hc
    · rw [utf8EncodeChar_ascii hc, List.singleton_append, List.cons.injEq] at hv
      obtain ⟨rfl, rfl⟩ := hv
      rw [ofNat_byte_of_ascii hc] at hb
      exact ⟨c, s, rfl, hb, rfl⟩
    · have hmem : b ∈ String.utf8EncodeChar c := by
        have hne : String.utf8EncodeChar c ≠ [] := by
          intro h
          have hsize := congrArg List.length h
          rw [String.length_utf8EncodeChar] at hsize
          exact absurd hsize (Nat.ne_of_gt c.utf8Size_pos)
        obtain ⟨first, more, hencode⟩ := List.exists_cons_of_ne_nil hne
        rw [hencode, List.cons_append, List.cons.injEq] at hv
        rw [hencode, hv.1]
        exact List.mem_cons_self
      have hlarge : 128 ≤ (Char.ofNat b.toNat).toNat := by
        have hvalid : b.toNat.isValidChar := Or.inl (Nat.lt_trans b.toNat_lt (by decide))
        have hchar : Char.ofNat b.toNat = Char.ofNatAux b.toNat hvalid := dif_pos hvalid
        rw [hchar]
        exact le_of_mem_utf8EncodeChar hc hmem
      rw [hexValue?_eq_none hlarge] at hb
      cases hb

/-- Where no two digits begin a text, no byte is written by its beginning. -/
theorem leadingByte?_bytesOf {v : List Char} (h : beginsWithDigits v = false) :
    leadingByte? (bytesOf v) = none := by
  rw [Option.eq_none_iff_forall_ne_some]
  intro byte hbyte
  unfold leadingByte? at hbyte
  split at hbyte
  · next high low rest hbytes =>
    simp only [escapedByte?, Option.bind_eq_bind, Option.bind_eq_some_iff] at hbyte
    obtain ⟨m, hhigh, n, hlow, -⟩ := hbyte
    obtain ⟨c, s, rfl, hc, hs⟩ := exists_of_hexValue? hbytes hhigh
    obtain ⟨d, s, rfl, hd, -⟩ := exists_of_hexValue? hs hlow
    simp [beginsWithDigits, hc, hd] at h
  · cases hbyte

/-- A percent sign without two digits behind it is kept, wherever it stands. -/
theorem percentDecode_append_percent (plusIsSpace : Bool) (u : List Char) {v : List Char}
    (h : beginsWithDigits v = false) :
    percentDecode plusIsSpace (u ++ '%' :: v) =
      percentDecode plusIsSpace u ++ '%' :: percentDecode plusIsSpace v := by
  have hbytes : bytesOf (u ++ '%' :: v) = bytesOf u ++ 0x25 :: bytesOf v := bytesOf_append u _
  rw [percentDecode, hbytes, unescapeOnto_append_percent, unescape_stray (leadingByte?_bytesOf h),
    ofBytesLossy_append_ascii (by decide)]
  rfl

end Stray

/-- The same reading by places: every byte is looked up where it stands, and a place without a
byte would leave no result. -/
def unescapeAt? (plusIsSpace : Bool) (bytes done : List UInt8) (i : Nat) : Option (List UInt8) :=
  if _ : i < bytes.length then do
    let b ← bytes[i]?
    let plain := unescapeAt? plusIsSpace bytes (plainByte plusIsSpace b :: done) (i + 1)
    if b == 0x25 && i + 2 < bytes.length then
      let high ← bytes[i + 1]?
      let low ← bytes[i + 2]?
      match escapedByte? high low with
      | some byte => unescapeAt? plusIsSpace bytes (byte :: done) (i + 3)
      | none => plain
    else plain
  else some done.reverse
termination_by bytes.length - i

/-- The reading by places looks up no place outside the text, and gives the same. Fewer than two
bytes behind a percent sign are no digits of an escape. -/
theorem unescapeAt?_eq (plusIsSpace : Bool) (bytes done : List UInt8) (i : Nat) :
    unescapeAt? plusIsSpace bytes done i =
      some (unescapeOnto plusIsSpace done (bytes.drop i)) := by
  fun_induction unescapeAt? plusIsSpace bytes done i with
  | case1 done i hi ihplain ihescape =>
    have hlookup : bytes[i]? = some bytes[i] := List.getElem?_eq_getElem hi
    rw [List.drop_eq_getElem_cons hi, unescapeOnto_cons]
    simp only [hlookup, Option.bind_eq_bind, Option.bind_some, ihplain, ihescape]
    by_cases hescape : bytes[i] = 0x25 ∧ i + 2 < bytes.length
    · obtain ⟨hpercent, hlength⟩ := hescape
      have hdigits : bytes.drop (i + 1) = bytes[i + 1] :: bytes[i + 2] :: bytes.drop (i + 3) := by
        rw [List.drop_eq_getElem_cons (by omega), List.drop_eq_getElem_cons hlength]
      rw [List.getElem?_eq_getElem (by omega), List.getElem?_eq_getElem hlength]
      simp only [hpercent, hlength, hdigits, leadingByte?, beq_self_eq_true, decide_true,
        Bool.and_self, if_true, Option.bind_some, List.drop_succ_cons, List.drop_zero]
      cases escapedByte? bytes[i + 1] bytes[i + 2] <;> rfl
    · have hleading :
          (if bytes[i] = 0x25 then leadingByte? (bytes.drop (i + 1)) else none) = none := by
        split
        · next hpercent =>
          have hend : ¬ i + 2 < bytes.length := fun hlength => hescape ⟨hpercent, hlength⟩
          refine leadingByte?_of_short ?_
          rw [List.length_drop]
          omega
        · rfl
      rw [hleading, if_neg (by simpa using hescape)]
  | case2 done i hi =>
    rw [List.drop_eq_nil_of_le (Nat.le_of_not_lt hi)]
    rfl

/-- Decoding undoes every spelling of a text, keeps a percent sign without two digits behind it
wherever it stands, undoes an escape once, whatever its byte and the text around it, and looks up
no byte outside the text. -/
theorem percentDecode_spelling (plusIsSpace : Bool) :
    (∀ t s, Spells (isUnescaped plusIsSpace) plusIsSpace t s → percentDecode plusIsSpace t = s) ∧
    (∀ u v, beginsWithDigits v = false → percentDecode plusIsSpace (u ++ '%' :: v) =
      percentDecode plusIsSpace u ++ '%' :: percentDecode plusIsSpace v) ∧
    (∀ u highCapital lowCapital b v,
      unescape plusIsSpace (bytesOf (u ++ escapeText highCapital lowCapital b ++ v)) =
        unescape plusIsSpace (bytesOf u) ++ b :: unescape plusIsSpace (bytesOf v)) ∧
    ∀ t, (unescapeAt? plusIsSpace (bytesOf t) [] 0).map ofBytesLossy =
      some (percentDecode plusIsSpace t) := by
  refine ⟨?spelled, ?stray, ?escaped, ?places⟩
  case spelled =>
    intro t s h
    exact percentDecode_of_spells (fun _ hc => hc) h
  case stray =>
    intro u v h
    exact percentDecode_append_percent plusIsSpace u h
  case escaped =>
    intro u highCapital lowCapital b v
    obtain ⟨high, low, htext, hbyte⟩ := bytesOf_escapeText highCapital lowCapital b
    rw [bytesOf_append, bytesOf_append, htext, List.append_assoc]
    exact unescape_append_escape hbyte (bytesOf u) (bytesOf v)
  case places =>
    intro t
    rw [unescapeAt?_eq, List.drop_zero, Option.map_some, percentDecode]

/-- The text `é +%` is written with one small and one capital escape, two plain characters and
an escaped plus sign, and a stray percent sign stands between two escapes. -/
theorem percentDecode_spelling_mixed :
    percentDecode true "%c3%A9+%2b%25".toList = "é +%".toList ∧
      percentDecode true ("%41".toList ++ '%' :: "%41".toList) = "A%A".toList := by
  obtain ⟨hspelled, hstray, -, -⟩ := percentDecode_spelling true
  refine ⟨hspelled _ _ ?_, ?_⟩
  · exact .escaped (c := 'é') (.cons false false 0xC3 (.cons true true 0xA9 .nil)) (.space rfl
      (.escaped (c := '+') (.cons true false 0x2B .nil)
        (.escaped (c := '%') (.cons true true 0x25 .nil) .nil)))
  · have hA : percentDecode true "%41".toList = "A".toList :=
      hspelled _ _ (.escaped (c := 'A') (.cons true true 0x41 .nil) .nil)
    rw [hstray _ _ rfl, hA]
    rfl

end RouteSheet.Text
