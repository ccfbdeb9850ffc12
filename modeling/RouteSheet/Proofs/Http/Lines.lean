import RouteSheet.Http.Message

/-!
# Lines within a budget

The bytes of a connection are cut behind every line feed. Which of the lines can be read
depends on a budget of bytes and on how the connection ends: a line that is ended can be
read when it fits the budget, and a last line without a line feed when nothing can follow
it. Reading a line leaves the lines behind it with the rest of the budget.
-/

namespace RouteSheet.Http

/-- The bytes begin with these lines. Each ends in its only line feed, but where the client has
closed, all of what is left may be a line without one. -/
inductive BeginsWith (ending : Ending) : List (List UInt8) → List UInt8 → Prop where
  | nil (bytes : List UInt8) : BeginsWith ending [] bytes
  | ended {s rest : List UInt8} {lines : List (List UInt8)} (hs : lineFeed ∉ s)
      (h : BeginsWith ending lines rest) :
      BeginsWith ending ((s ++ [lineFeed]) :: lines) (s ++ lineFeed :: rest)
  | last {s : List UInt8} (hs : lineFeed ∉ s) (hne : s ≠ []) (hending : ending = .closed) :
      BeginsWith ending [s] s

section

variable {s rest bytes line : List UInt8} {lines : List (List UInt8)} {ending : Ending}
  {budget : Nat}

/-- Cutting goes on from the lines behind the first byte. -/
theorem cutLines_cons (b : UInt8) (bytes : List UInt8) :
    cutLines (b :: bytes) = extendLines b (cutLines bytes) := rfl

/-- A byte that is no line feed stands in front of the first line. -/
theorem extendLines_of_ne {b : UInt8} (hb : lineFeed ≠ b) (pieces : List (List UInt8)) :
    extendLines b pieces = (b :: pieces.headD []) :: pieces.tail := by
  unfold extendLines
  rw [if_neg fun he => hb (beq_iff_eq.mp he).symm]
  cases pieces <;> rfl

/-- The first line feed ends the first line. -/
theorem cutLines_ended (hs : lineFeed ∉ s) (rest : List UInt8) :
    cutLines (s ++ lineFeed :: rest) = (s ++ [lineFeed]) :: cutLines rest := by
  induction s with
  | nil => rfl
  | cons b s ih =>
    rw [List.mem_cons, not_or] at hs
    rw [List.cons_append, cutLines_cons, ih hs.2, extendLines_of_ne hs.1]
    rfl

/-- Bytes without a line feed are one line. -/
theorem cutLines_open (hs : lineFeed ∉ s) (hne : s ≠ []) : cutLines s = [s] := by
  induction s with
  | nil => exact absurd rfl hne
  | cons b s ih =>
    rw [List.mem_cons, not_or] at hs
    rw [cutLines_cons, extendLines_of_ne hs.1]
    cases s with
    | nil => rfl
    | cons c s => rw [ih hs.2 (List.cons_ne_nil c s)]; rfl

/-- A line with its line feed is ended. -/
theorem isEnded_ended (s : List UInt8) : isEnded (s ++ [lineFeed]) = true := by
  rw [isEnded, List.getLast?_concat, beq_self_eq_true]

/-- A line without a line feed is open. -/
theorem isEnded_open (hs : lineFeed ∉ s) : isEnded s = false := by
  refine beq_eq_false_iff_ne.mpr fun he => hs ?_
  exact List.mem_of_mem_getLast? he

/-- Of a text without line feed no ended line is cut. -/
theorem filter_cutLines_open (hs : lineFeed ∉ s) : (cutLines s).filter isEnded = [] := by
  by_cases hne : s = []
  · rw [hne]
    rfl
  · rw [cutLines_open hs hne, List.filter_cons_of_neg (by rw [isEnded_open hs]; exact
      Bool.false_ne_true), List.filter_nil]

/-- The lines that can be read within a budget. -/
def linesWithin (ending : Ending) (budget : Nat) (bytes : List UInt8) : List (List UInt8) :=
  if ending == .closed && !(budget < bytes.length) then cutLines (bytes.take budget)
  else (cutLines (bytes.take budget)).filter isEnded

/-- A line that is ended can be read when it fits the budget. -/
theorem linesWithin_ended (hs : lineFeed ∉ s) (rest : List UInt8) :
    linesWithin ending budget (s ++ lineFeed :: rest) =
      if s.length < budget then
        (s ++ [lineFeed]) :: linesWithin ending (budget - (s.length + 1)) rest
      else [] := by
  split
  · next hfit =>
    obtain ⟨k, rfl⟩ : ∃ k, budget = s.length + (k + 1) := ⟨budget - s.length - 1, by omega⟩
    have htake : (s ++ lineFeed :: rest).take (s.length + (k + 1)) =
        s ++ lineFeed :: rest.take k := by
      rw [List.take_length_add_append, List.take_succ_cons]
    have hleft : s.length + (k + 1) - (s.length + 1) = k := by omega
    have hlonger : s.length + (k + 1) < (s ++ lineFeed :: rest).length ↔ k < rest.length := by
      rw [List.length_append, List.length_cons]
      omega
    rw [linesWithin, htake, cutLines_ended hs, hleft, linesWithin,
      List.filter_cons_of_pos (isEnded_ended s)]
    simp only [hlonger]
    split <;> rfl
  · next hfit =>
    have htake : (s ++ lineFeed :: rest).take budget = s.take budget :=
      List.take_append_of_le_length (Nat.le_of_not_lt hfit)
    have hlonger : budget < (s ++ lineFeed :: rest).length := by
      rw [List.length_append, List.length_cons]
      omega
    have hopen : lineFeed ∉ s.take budget := fun h => hs (List.mem_of_mem_take h)
    rw [linesWithin, htake, filter_cutLines_open hopen]
    simp only [hlonger, decide_true, Bool.not_true, Bool.and_false, Bool.false_eq_true, ite_false]

/-- A line without a line feed can be read when it fits the budget and the client has closed. -/
theorem linesWithin_open (hs : lineFeed ∉ s) (hne : s ≠ []) :
    linesWithin ending budget s =
      if ending = .closed ∧ s.length ≤ budget then [s] else [] := by
  have hopen : lineFeed ∉ s.take budget := fun h => hs (List.mem_of_mem_take h)
  rw [linesWithin, filter_cutLines_open hopen]
  by_cases hfit : s.length ≤ budget
  · simp only [List.take_of_length_le hfit, cutLines_open hs hne, Nat.not_lt.mpr hfit, hfit,
      decide_false, Bool.not_false, Bool.and_true, and_true, beq_iff_eq]
  · simp only [Nat.lt_of_not_le hfit, hfit, decide_true, Bool.not_true, Bool.and_false,
      Bool.false_eq_true, and_false, ite_false]

/-- Of nothing no line lies within the budget. -/
theorem linesWithin_nil (ending : Ending) (budget : Nat) : linesWithin ending budget [] = [] := by
  rw [linesWithin, List.take_nil]
  split <;> rfl

/-- Bytes are none at all, or have no line feed, or have a first one. -/
theorem firstLine_cases (bytes : List UInt8) :
    bytes = [] ∨ (bytes ≠ [] ∧ lineFeed ∉ bytes) ∨
      ∃ s rest, lineFeed ∉ s ∧ bytes = s ++ lineFeed :: rest := by
  by_cases hmem : lineFeed ∈ bytes
  · obtain ⟨s, rest, hbytes, hs⟩ := List.eq_append_cons_of_mem hmem
    exact .inr (.inr ⟨s, rest, hs, hbytes⟩)
  · by_cases hnil : bytes = []
    · exact .inl hnil
    · exact .inr (.inl ⟨hnil, hmem⟩)

/-- The lines that can be read within a budget are those that the bytes begin with, as far as
they fit it. -/
theorem prefix_linesWithin_iff :
    lines <+: linesWithin ending budget bytes ↔
      BeginsWith ending lines bytes ∧ lines.flatten.length ≤ budget := by
  constructor
  · intro h
    induction lines generalizing bytes budget with
    | nil => exact ⟨.nil bytes, Nat.zero_le budget⟩
    | cons line lines ih =>
      rcases firstLine_cases bytes with rfl | ⟨hne, hs⟩ | ⟨s, rest, hs, rfl⟩
      · rw [linesWithin_nil, List.prefix_nil] at h
        exact absurd h (List.cons_ne_nil line lines)
      · rw [linesWithin_open hs hne] at h
        split at h
        · next hread =>
          obtain ⟨rfl, hnil⟩ := List.cons_prefix_cons.mp h
          rw [List.prefix_nil.mp hnil, List.flatten_singleton]
          exact ⟨.last hs hne hread.1, hread.2⟩
        · exact absurd (List.prefix_nil.mp h) (List.cons_ne_nil line lines)
      · rw [linesWithin_ended hs] at h
        split at h
        · next hfit =>
          obtain ⟨rfl, htail⟩ := List.cons_prefix_cons.mp h
          obtain ⟨hbegins, hlength⟩ := ih htail
          refine ⟨.ended hs hbegins, ?_⟩
          rw [List.flatten_cons, List.length_append, List.length_append, List.length_singleton]
          omega
        · exact absurd (List.prefix_nil.mp h) (List.cons_ne_nil line lines)
  · rintro ⟨hbegins, hlength⟩
    induction hbegins generalizing budget with
    | nil bytes => exact List.nil_prefix
    | @ended s rest lines hs _ ih =>
      rw [List.flatten_cons, List.length_append, List.length_append,
        List.length_singleton] at hlength
      rw [linesWithin_ended hs, if_pos (by omega)]
      exact List.cons_prefix_cons.mpr ⟨rfl, ih (by omega)⟩
    | @last s hs hne hending =>
      rw [List.flatten_singleton] at hlength
      have hall : linesWithin ending budget s = [s] :=
        (linesWithin_open hs hne).trans (if_pos ⟨hending, hlength⟩)
      exact hall ▸ List.prefix_rfl

/-- What a connection begins with, it begins with whatever stands behind the last line, and
however it ends, if that line is ended. -/
theorem BeginsWith.replace (h : BeginsWith ending lines bytes)
    (hended : ∀ line ∈ lines.getLast?, isEnded line) (ending' : Ending) (rest : List UInt8) :
    BeginsWith ending' lines (lines.flatten ++ rest) := by
  induction h with
  | nil bytes => exact .nil _
  | @ended s after lines hs h ih =>
    rw [List.flatten_cons, List.append_assoc, List.append_assoc, List.singleton_append]
    refine .ended hs (ih fun line hline => hended line ?_)
    rw [List.getLast?_cons, hline]
    rfl
  | @last s hs hne hending =>
    have hs' := hended s rfl
    rw [isEnded_open hs] at hs'
    exact absurd hs' Bool.false_ne_true

/-- The lines are the first of the bytes. -/
theorem BeginsWith.exists_rest (h : BeginsWith ending lines bytes) :
    ∃ rest, bytes = lines.flatten ++ rest := by
  induction h with
  | nil bytes => exact ⟨bytes, rfl⟩
  | @ended s rest lines hs _ ih =>
    obtain ⟨rest, rfl⟩ := ih
    refine ⟨rest, ?_⟩
    rw [List.flatten_cons, List.append_assoc, List.append_assoc, List.singleton_append]
  | last hs hne hending =>
    refine ⟨[], ?_⟩
    rw [List.flatten_singleton, List.append_nil]

end

end RouteSheet.Http
