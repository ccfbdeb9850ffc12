import RouteSheet.Proofs.Http.Budget
import RouteSheet.Proofs.Http.Framing

/-!
# Heads

The head of a connection is its first line and the lines behind it up to the first blank
one. It is accepted when its first line names a method and a target and when all of it is
within the limit. An accepted head that is ended, and the body of the length that it
declares, make the request: what stands behind them, and how the connection ends, has no
say in it.
-/

namespace RouteSheet.Http

/-- The lines of a head. -/
def Head.lines (head : Head) : List (List UInt8) := head.request :: (head.headers ++ [head.blank])

/-- The connection begins with the lines of the head, of which the last one is the first blank one
behind the first line. -/
structure Connection.HasHead (c : Connection) (head : Head) : Prop where
  begins : BeginsWith c.ending head.lines c.bytes
  headers : ∀ line ∈ head.headers, isBlankLine line = false
  blank : isBlankLine head.blank = true

section

variable {c c' : Connection} {head other : Head} {method target : String}

/-- The lines of a head are its bytes. -/
theorem Head.flatten_lines (head : Head) : head.lines.flatten = head.bytes := by
  rw [lines, bytes, List.flatten_cons, List.flatten_append, List.flatten_singleton,
    List.append_assoc]

/-- Lines that are not blank end at the first blank one. -/
theorem takeWhile_headers {headers : List (List UInt8)} {blank : List UInt8}
    (hheaders : ∀ line ∈ headers, isBlankLine line = false) (hblank : isBlankLine blank = true)
    (rest : List (List UInt8)) :
    (headers ++ blank :: rest).takeWhile (fun line => !isBlankLine line) = headers ∧
      (headers ++ blank :: rest).dropWhile (fun line => !isBlankLine line) = blank :: rest := by
  have hall : ∀ line ∈ headers, (!isBlankLine line) = true := by
    intro line hline
    rw [hheaders line hline]
    rfl
  rw [List.takeWhile_append_of_pos hall, List.dropWhile_append_of_pos hall, List.takeWhile_cons,
    List.dropWhile_cons, hblank]
  exact ⟨List.append_nil headers, rfl⟩

/-- The head that comes of a connection is made of the first of its lines. -/
theorem Connection.head_eq_ok_iff_headLines :
    c.head = .ok (head, method, target) ↔
      head.lines <+: c.headLines ∧ (∀ line ∈ head.headers, isBlankLine line = false) ∧
        isBlankLine head.blank = true ∧
        requestLine? (lineText head.request) = some (method, target) := by
  unfold Connection.head
  constructor
  · intro h
    split at h
    · exact nomatch h
    · next first lines hlines =>
      split at h
      · exact nomatch h
      · next hrequest =>
        rw [List.span_eq_takeWhile_dropWhile] at h
        split at h
        · exact nomatch h
        · next headers blank rest hspan =>
          obtain ⟨hheaders, hbehind⟩ := Prod.mk.inj hspan
          simp only [Except.ok.injEq, Prod.mk.injEq] at h
          obtain ⟨rfl, rfl, rfl⟩ := h
          have hbehind' : lines = headers ++ blank :: rest := by
            rw [← hheaders, ← hbehind, List.takeWhile_append_dropWhile]
          refine ⟨⟨rest, ?_⟩, ?_, ?_, hrequest⟩
          · rw [hlines, hbehind', Head.lines, List.cons_append, List.append_assoc,
              List.singleton_append]
          · intro line hline
            rw [← hheaders] at hline
            have hall := List.all_eq_true.mp List.all_takeWhile line hline
            rwa [Bool.not_eq_true'] at hall
          · have hhead := List.head?_dropWhile_not (fun line => !isBlankLine line) lines
            rw [hbehind] at hhead
            simpa only [List.head?_cons, Bool.not_eq_false'] using hhead
  · rintro ⟨⟨rest, hlines⟩, hheaders, hblank, hrequest⟩
    have hcons : c.headLines = head.request :: (head.headers ++ head.blank :: rest) := by
      rw [← hlines, Head.lines, List.cons_append, List.append_assoc, List.singleton_append]
    obtain ⟨htake, hdrop⟩ := takeWhile_headers hheaders hblank rest
    simp only [hcons, hrequest, List.span_eq_takeWhile_dropWhile, htake, hdrop]

/-- A head comes of a connection exactly when the connection has it, all of it is within the limit
and its first line names a method and a target. -/
theorem Connection.head_eq_ok_iff :
    c.head = .ok (head, method, target) ↔
      c.HasHead head ∧ head.bytes.length ≤ headLimit ∧
        requestLine? (lineText head.request) = some (method, target) := by
  have hlines : head.lines <+: c.headLines ↔
      BeginsWith c.ending head.lines c.bytes ∧ head.bytes.length ≤ headLimit := by
    rw [← head.flatten_lines]
    exact prefix_linesWithin_iff
  rw [head_eq_ok_iff_headLines, hlines]
  constructor
  · rintro ⟨⟨hbegins, hlength⟩, hheaders, hblank, hrequest⟩
    exact ⟨⟨hbegins, hheaders, hblank⟩, hlength, hrequest⟩
  · rintro ⟨⟨hbegins, hheaders, hblank⟩, hlength, hrequest⟩
    exact ⟨⟨hbegins, hlength⟩, hheaders, hblank, hrequest⟩

namespace Connection.HasHead

/-- Behind its head stands the rest of a connection. -/
theorem exists_rest (h : c.HasHead head) : ∃ rest, c.bytes = head.bytes ++ rest := by
  rw [← head.flatten_lines]
  exact h.begins.exists_rest

/-- A connection has one head at most. -/
theorem unique (h : c.HasHead head) (h' : c.HasHead other) : other = head := by
  have hprefix : ∀ {head : Head}, c.HasHead head →
      head.lines <+: linesWithin c.ending c.bytes.length c.bytes := by
    intro head h
    obtain ⟨rest, hrest⟩ := h.begins.exists_rest
    refine prefix_linesWithin_iff.mpr ⟨h.begins, ?_⟩
    rw [hrest, List.length_append]
    exact Nat.le_add_right _ _
  obtain ⟨rest, hlines⟩ := hprefix h
  obtain ⟨rest', hlines'⟩ := hprefix h'
  have heq := hlines'.trans hlines.symm
  simp only [Head.lines, List.cons_append, List.append_assoc, List.cons.injEq,
    List.nil_append] at heq
  obtain ⟨hrequest, hbehind⟩ := heq
  obtain ⟨htake, hdrop⟩ := takeWhile_headers h.headers h.blank rest
  obtain ⟨htake', hdrop'⟩ := takeWhile_headers h'.headers h'.blank rest'
  rw [hbehind] at htake' hdrop'
  have hheaders := htake'.symm.trans htake
  have hblank := (List.cons.inj (hdrop'.symm.trans hdrop)).1
  cases head
  cases other
  simp only [Head.mk.injEq]
  exact ⟨hrequest, hheaders, hblank⟩

/-- A head that is ended is that of every connection that begins with it. -/
theorem replace (h : c.HasHead head) (hended : isEnded head.blank = true) (rest : List UInt8)
    (hbytes : c'.bytes = head.bytes ++ rest) : c'.HasHead head := by
  refine ⟨?_, h.headers, h.blank⟩
  rw [hbytes, ← head.flatten_lines]
  refine h.begins.replace (fun line hline => ?_) c'.ending rest
  rw [Head.lines, ← List.cons_append, List.getLast?_concat] at hline
  rwa [← Option.some.inj hline]

end Connection.HasHead

/-- A request line names a method and a target when it has two words. -/
theorem exists_requestLine?_iff {line : List Char} :
    (∃ method target, requestLine? line = some (method, target)) ↔
      2 ≤ (Text.words Text.isBlank line).length := by
  rw [requestLine?]
  rcases Text.words Text.isBlank line with _ | ⟨method, _ | ⟨target, rest⟩⟩
  · exact iff_of_false nofun (by decide)
  · exact iff_of_false nofun (by decide : ¬ 2 ≤ 1)
  · exact iff_of_true ⟨_, _, rfl⟩ (Nat.le_add_left 2 rest.length)

/-- An accepted head that is ended and the bytes of its body make the request of every connection
that begins with them. -/
theorem Connection.message_of_take (hh : c.head = .ok (head, method, target))
    (hended : isEnded head.blank = true) {n : Nat}
    (hn : contentLength (headersOf head.headers) = n)
    (hlength : head.bytes.length + n ≤ c.bytes.length)
    (htake : c'.bytes.take (head.bytes.length + n) = c.bytes.take (head.bytes.length + n)) :
    c'.message = .ok ⟨method, target, headersOf head.headers,
      (c.bytes.drop head.bytes.length).take n⟩ := by
  obtain ⟨hhead, hlimit, hrequest⟩ := head_eq_ok_iff.mp hh
  obtain ⟨rest, hrest⟩ := hhead.exists_rest
  have hbody : ∀ bytes : List UInt8, (bytes.drop head.bytes.length).take n =
      (bytes.take (head.bytes.length + n)).drop head.bytes.length := by
    intro bytes
    rw [List.drop_take, Nat.add_sub_cancel_left]
  have hhead' : c'.HasHead head := by
    refine hhead.replace hended (rest.take n ++ c'.bytes.drop (head.bytes.length + n)) ?_
    rw [← List.append_assoc, ← List.take_length_add_append, ← hrest, ← htake,
      List.take_append_drop]
  have hlong : ¬ (c'.bytes.drop head.bytes.length).length < n := by
    have hsame := congrArg List.length htake
    rw [List.length_take, List.length_take, Nat.min_eq_left hlength] at hsame
    rw [List.length_drop]
    omega
  rw [message_of_head (head_eq_ok_iff.mpr ⟨hhead', hlimit, hrequest⟩), hn, body, hbody c.bytes,
    ← htake, ← hbody]
  simp only [hlong, decide_false, Bool.and_false, Bool.false_eq_true, ite_false]
  rfl

/-- Reading the head of a connection line by line never charges more than is left of the limit and
comes to the head that the connection has. The head of a client that closes is accepted exactly
when its first line has two words, a line behind it is blank, and the bytes up to the end of the
first such line are within the limit. If that line is ended and as many bytes follow as the head
declares, they make one and the same request of every connection that begins with them, whatever
it sends behind them and whether its client closes or stalls. -/
theorem head_accepted_iff (bytes : List UInt8) :
    (∀ ending, (⟨bytes, ending⟩ : Connection).readHead =
      some (⟨bytes, ending⟩ : Connection).head) ∧
    ((∃ accepted, (⟨bytes, .closed⟩ : Connection).head = .ok accepted) ↔
      ∃ head, (⟨bytes, .closed⟩ : Connection).HasHead head ∧
        2 ≤ (Text.words Text.isBlank (lineText head.request)).length ∧
        head.bytes.length ≤ headLimit) ∧
    ∀ head method target, (⟨bytes, .closed⟩ : Connection).head = .ok (head, method, target) →
      isEnded head.blank = true → ∀ n, contentLength (headersOf head.headers) = n →
      head.bytes.length + n ≤ bytes.length → ∀ c : Connection,
      c.bytes.take (head.bytes.length + n) = bytes.take (head.bytes.length + n) →
      c.message = .ok ⟨method, target, headersOf head.headers,
        (bytes.drop head.bytes.length).take n⟩ := by
  refine ⟨fun ending => Connection.readHead_eq _, ⟨?_, ?_⟩, ?_⟩
  · rintro ⟨⟨head, method, target⟩, h⟩
    obtain ⟨hhead, hlimit, hrequest⟩ := Connection.head_eq_ok_iff.mp h
    exact ⟨head, hhead, exists_requestLine?_iff.mp ⟨method, target, hrequest⟩, hlimit⟩
  · rintro ⟨head, hhead, hwords, hlimit⟩
    obtain ⟨method, target, hrequest⟩ := exists_requestLine?_iff.mpr hwords
    exact ⟨_, Connection.head_eq_ok_iff.mpr ⟨hhead, hlimit, hrequest⟩⟩
  · intro head method target h hended n hn hlength c htake
    exact Connection.message_of_take h hended hn hlength htake

end

/-- The form that was cut short with more behind it than its head declares. -/
def longForm : List UInt8 := cutShortHead.bytes ++ Text.bytesOf "v=true&w=0123456789&&&&".toList

/-- The form is the same request whatever its client sends behind it, and however it ends. -/
theorem head_accepted_iff_form :
    (⟨longForm, .closed⟩ : Connection).head = .ok (cutShortHead, "POST", "/n") ∧
    cutShortHead.bytes.length + 20 ≤ longForm.length ∧
    ∀ (more : List UInt8) (ending : Ending), (⟨longForm ++ more, ending⟩ : Connection).message =
      .ok ⟨"POST", "/n", headersOf cutShortHead.headers,
        Text.bytesOf "v=true&w=0123456789&".toList⟩ := by
  obtain ⟨hcut, hcutHead⟩ := Connection.head_eq_ok_iff.mp (head_cutShort .closed)
  have hhead : (⟨longForm, .closed⟩ : Connection).head = .ok (cutShortHead, "POST", "/n") :=
    Connection.head_eq_ok_iff.mpr ⟨hcut.replace rfl _ rfl, hcutHead⟩
  have hlength : cutShortHead.bytes.length + 20 ≤ longForm.length := by
    rw [longForm, List.length_append]
    exact Nat.add_le_add_left (by decide) _
  have hdeclared : contentLength (headersOf cutShortHead.headers) = 20 := by decide +kernel
  have hbody : (longForm.drop cutShortHead.bytes.length).take 20 =
      Text.bytesOf "v=true&w=0123456789&".toList := by
    rw [longForm, List.drop_left]
    rfl
  refine ⟨hhead, hlength, fun more ending => ?_⟩
  rw [← hbody]
  exact (head_accepted_iff longForm).2.2 _ _ _ hhead rfl 20 hdeclared hlength _
    (List.take_append_of_le_length hlength)

end RouteSheet.Http
