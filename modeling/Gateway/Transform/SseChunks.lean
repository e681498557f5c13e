import Gateway.Lib.Incremental
import Gateway.Transform.SseParser

/-!
The parser does not depend on how its input is cut.

A line that is terminated stays terminated whatever follows, and a CR at the end
of the buffer waits for what comes next. Within the limits no line is refused,
so the events are those of the lines of the whole text.
-/

namespace Gateway.Sse

open IncrementalReader

theorem nextLine_append {s line rest : Units} (t : Units) (h : nextLine s = some (line, rest)) :
    nextLine (s ++ t) = some (line, rest ++ t) := by
  induction s using nextLine.induct generalizing line with
  | case1 => exact nomatch h
  | case2 => cases t <;> grind [nextLine, isBreak, cr, lf]
  | case3 => grind [nextLine]
  | case4 => grind [nextLine]
  | case5 => grind [nextLine]
  | case6 u v after both other ih =>
      rw [nextLine, if_neg both, if_neg other] at h
      obtain ⟨⟨inner, tail⟩, found, same⟩ := Option.map_eq_some_iff.mp h
      cases same
      rw [List.cons_append, List.cons_append, nextLine, if_neg both, if_neg other,
        ← List.cons_append, ih found]
      rfl

/-- The lines of a stream as they are terminated. -/
def lineReader : IncrementalReader UInt16 Units := ⟨nextLine, nextLine_shortens, nextLine_append⟩

theorem readLines_of_handled {max : Nat} {buffer : Units} {s s' : Fields} {events : List Event}
    (h : handleAll (handleLine max) (lineReader.read buffer).1 s = (.ok events, s')) :
    readLines max buffer s = (.ok events, ⟨(lineReader.read buffer).2, s'⟩) := by
  induction buffer using lineReader.read_induction generalizing s events with
  | settled buffer none_left =>
      rw [lineReader.read_settled none_left] at h ⊢
      cases h
      rw [readLines]
      split
      · rfl
      · next found => exact absurd (none_left.symm.trans found) (by simp)
  | item buffer line rest found ih =>
      rw [lineReader.read_cons found] at h ⊢
      obtain ⟨out, s₁, later, first, run, rfl⟩ := of_handleAll_cons h
      rw [readLines]
      split
      · next none_left => exact absurd (found.symm.trans none_left) (by simp)
      · next line' rest' found' =>
          cases found.symm.trans found'
          simp only [first, ih run]
          rfl

section Lines

/-- The lines of a text are those its terminators end, and those of what is left. -/
theorem splitLines_eq (text : Units) :
    splitLines text =
      (lineReader.read text).1 ++ splitLines (lineReader.read text).2 := by
  have of_nextLine {s line rest : Units} (h : nextLine s = some (line, rest)) :
      splitLines s = line :: splitLines rest := by
    induction s using nextLine.induct generalizing line with
    | case1 => exact nomatch h
    | case2 => grind [nextLine, splitLines, isBreak, cr, lf]
    | case3 => grind [nextLine]
    | case4 => grind [nextLine, splitLines]
    | case5 => grind [nextLine, splitLines]
    | case6 u v after both other ih =>
        rw [nextLine, if_neg both, if_neg other] at h
        obtain ⟨⟨inner, tail⟩, found, same⟩ := Option.map_eq_some_iff.mp h
        cases same
        rw [splitLines, if_neg both, if_neg other, ih found]
        rfl
  induction text using lineReader.read_induction with
  | settled s h => rw [lineReader.read_settled h, List.nil_append]
  | item s line rest h ih => rw [lineReader.read_cons h, of_nextLine h, ih, List.cons_append]

/-- A text without a terminated line has one line, up to a CR at its end. -/
theorem noBreak_of_settled {s : Units} (h : lineReader.Settled s) :
    ∀ u ∈ dropCr s, isBreak u = false := by
  have settled : nextLine s = none := h
  induction s using nextLine.induct with
  | case1 => simp [dropCr]
  | case2 => grind [nextLine]
  | case3 u other => grind [dropCr, isBreak]
  | case4 => grind [nextLine]
  | case5 => grind [nextLine]
  | case6 u v after both other ih =>
      rw [nextLine, if_neg both, if_neg other, Option.map_eq_none_iff] at settled
      have inner := ih settled settled
      have plain : isBreak u = false := by simpa using other
      by_cases last : (v :: after).getLast? = some cr
      · simp only [dropCr, List.getLast?_cons_cons, List.dropLast_cons_cons, if_pos last] at inner ⊢
        exact List.forall_mem_cons.mpr ⟨plain, inner⟩
      · simp only [dropCr, List.getLast?_cons_cons, if_neg last] at inner ⊢
        exact List.forall_mem_cons.mpr ⟨plain, inner⟩

theorem splitLines_cons_plain {u : UInt16} (plain : isBreak u = false) (t : Units) :
    splitLines (u :: t) = (splitLines t).modifyHead (u :: ·) := by
  cases t with
  | nil => simp [splitLines, plain]
  | cons v t =>
      have other : ¬(u = cr ∧ v = lf) := by
        rintro ⟨rfl, -⟩
        exact absurd plain (by decide)
      rw [splitLines, if_neg other, if_neg (by simp [plain])]

theorem splitLines_ne_nil (t : Units) : splitLines t ≠ [] := by
  fun_induction splitLines t with
  | case1 | case2 | case3 | case4 | case5 => exact List.cons_ne_nil _ _
  | case6 u v rest both other ih =>
      cases lines : splitLines (v :: rest) with
      | nil => exact absurd lines ih
      | cons line lines => exact List.cons_ne_nil _ _

/-- Text without a terminator begins the line it stands in. -/
theorem splitLines_append {w : Units} (plain : ∀ u ∈ w, isBreak u = false) (t : Units) :
    splitLines (w ++ t) = (splitLines t).modifyHead (w ++ ·) := by
  induction w with
  | nil => cases lines : splitLines t <;> simp [lines]
  | cons u w ih =>
      obtain ⟨first, rest⟩ := List.forall_mem_cons.mp plain
      rw [List.cons_append, splitLines_cons_plain first, ih rest, List.modifyHead_modifyHead]
      rfl

theorem dropCr_append (s : Units) : ∃ tail, s = dropCr s ++ tail ∧ (tail = [] ∨ tail = [cr]) := by
  unfold dropCr
  split
  · next last => exact ⟨[cr], (List.dropLast_append_getLast? cr last).symm, .inr rfl⟩
  · exact ⟨[], (List.append_nil s).symm, .inl rfl⟩

/-- What is held of an unterminated line is part of a line of the text. -/
theorem exists_line_of_settled {s : Units} (h : lineReader.Settled s) (t : Units) :
    ∃ line ∈ splitLines (s ++ t), dropCr s <+: line := by
  obtain ⟨tail, split, -⟩ := dropCr_append s
  have lines := splitLines_append (noBreak_of_settled h) (tail ++ t)
  rw [← List.append_assoc, ← split] at lines
  cases rest : splitLines (tail ++ t) with
  | nil => exact absurd rest (splitLines_ne_nil _)
  | cons line rest' =>
      rw [lines, rest]
      exact ⟨_, List.mem_cons_self, List.prefix_append _ _⟩

/-- After what is held there is at most an empty line, which a CR at the end opens. -/
theorem splitLines_of_settled {s : Units} (h : lineReader.Settled s) :
    ∃ lines, splitLines s = dropCr s :: lines ∧ ∀ line ∈ lines, line = [] := by
  obtain ⟨tail, split, ending⟩ := dropCr_append s
  have lines := splitLines_append (noBreak_of_settled h) tail
  rw [← split] at lines
  cases ending with
  | inl none_left =>
      subst none_left
      exact ⟨[], by simpa [splitLines] using lines, by simp⟩
  | inr waiting =>
      subst waiting
      exact ⟨[[]], by simpa [splitLines, isBreak] using lines, by simp⟩

end Lines

section Limits

/-- The bytes a line adds to the data of its event. -/
def dataBytes (line : Units) : Nat :=
  if (fieldOf line).1 = Units.ofString "data" then Units.byteLength (fieldOf line).2 + 1 else 0

/-- The lines of each event: blank lines stand between events. -/
def eventLines (text : Units) : List (List Units) := (splitLines text).splitOnP (· = [])

structure WithinLimits (maxLineBytes : Nat) (text : Units) : Prop where
  line : ∀ line ∈ splitLines text, Units.byteLength line ≤ maxLineBytes
  event : ∀ lines ∈ eventLines text, (lines.map dataBytes).sum ≤ maxLineBytes

/-- The bytes counted so far leave room for the data of the event at hand, and the
events after it fit. -/
def HasRoom (maxLineBytes bytes : Nat) (lines : List Units) : Prop :=
  ∃ current events, lines.splitOnP (· = []) = current :: events ∧
    bytes + (current.map dataBytes).sum ≤ maxLineBytes ∧
    ∀ event ∈ events, (event.map dataBytes).sum ≤ maxLineBytes

theorem HasRoom.after_blank {max bytes : Nat} {lines : List Units}
    (h : HasRoom max bytes ([] :: lines)) : HasRoom max 0 lines := by
  obtain ⟨current, events, split, -, rest⟩ := h
  rw [List.splitOnP_cons_eq_if_modifyHead, if_pos (by simp)] at split
  obtain ⟨rfl, rfl⟩ := List.cons.inj split
  cases first : lines.splitOnP (· = []) with
  | nil => exact absurd first (List.splitOnP_ne_nil _ _)
  | cons current events =>
      rw [first] at rest
      obtain ⟨now, later⟩ := List.forall_mem_cons.mp rest
      exact ⟨current, events, first, by simpa using now, later⟩

theorem HasRoom.after_line {max bytes : Nat} {line : Units} {lines : List Units}
    (filled : line ≠ []) (h : HasRoom max bytes (line :: lines)) :
    HasRoom max (bytes + dataBytes line) lines ∧ bytes + dataBytes line ≤ max := by
  obtain ⟨current, events, split, fits, rest⟩ := h
  rw [List.splitOnP_cons_eq_if_modifyHead, if_neg (by simpa using filled)] at split
  cases first : lines.splitOnP (· = []) with
  | nil => exact absurd first (List.splitOnP_ne_nil _ _)
  | cons now later =>
      rw [first] at split
      obtain ⟨rfl, rfl⟩ := List.cons.inj split
      simp only [List.map_cons, List.sum_cons] at fits
      exact ⟨⟨now, later, first, by omega, rest⟩, by omega⟩

/-- The bytes are counted from the first data line of an event on. -/
def Fields.Counted (s : Fields) : Prop := s.pending = false → s.eventBytes = 0

theorem dataBytes_of_ne {line : Units} (other : (fieldOf line).1 ≠ Units.ofString "data") :
    dataBytes line = 0 := if_neg other

theorem fieldOf_comment {line : Units} (comment : line.head? = some colon) :
    (fieldOf line).1 = [] := by
  cases line with
  | nil => exact nomatch comment
  | cons u rest =>
      cases comment
      simp [fieldOf]

/-- One line that fits is handled, and counts its data. -/
theorem handleLine_ok {max : Nat} {line : Units} {s : Fields} (counted : s.Counted)
    (fits : Units.byteLength line ≤ max) (filled : line ≠ [])
    (room : s.eventBytes + dataBytes line ≤ max) :
    ∃ events s', handleLine max line s = (.ok events, s') ∧ s'.Counted ∧
      s'.eventBytes = s.eventBytes + dataBytes line := by
  simp only [handleLine, if_neg (Nat.not_lt.mpr fits), if_neg filled]
  by_cases comment : line.head? = some colon
  · rw [if_pos comment, dataBytes_of_ne (by rw [fieldOf_comment comment]; decide)]
    exact ⟨_, _, rfl, counted, rfl⟩
  rw [if_neg comment, setField]
  by_cases data : (fieldOf line).1 = Units.ofString "data"
  · rw [if_pos data]
    rw [dataBytes, if_pos data] at room ⊢
    simp only [setData, if_neg (Nat.not_lt.mpr room)]
    exact ⟨_, _, rfl, fun pending => (by simp at pending), rfl⟩
  rw [if_neg data, dataBytes_of_ne data]
  split
  · exact ⟨_, _, rfl, fun pending => (by simp at pending), rfl⟩
  · split
    · exact ⟨_, _, rfl, fun pending => (by simp [setId] at pending), rfl⟩
    · split
      · exact ⟨_, _, rfl, fun pending => (by simp [setRetry] at pending), rfl⟩
      · exact ⟨_, _, rfl, counted, rfl⟩

theorem handleLine_nil (max : Nat) (s : Fields) :
    handleLine max [] s = (.ok (dispatch s).1, (dispatch s).2) := rfl

theorem dispatch_counted {s : Fields} (counted : s.Counted) :
    (dispatch s).2.Counted ∧ (dispatch s).2.eventBytes = 0 := by
  unfold dispatch
  split
  · exact ⟨fun _ => rfl, rfl⟩
  · next quiet => exact ⟨counted, counted (by simpa using quiet)⟩

/-- Lines within the limits are handled to the end. -/
theorem handleAll_ok {max : Nat} {lines : List Units} {s : Fields} (counted : s.Counted)
    (fit : ∀ line ∈ lines, Units.byteLength line ≤ max) (room : HasRoom max s.eventBytes lines) :
    ∃ events s', handleAll (handleLine max) lines s = (.ok events, s') := by
  induction lines generalizing s with
  | nil => exact ⟨[], s, rfl⟩
  | cons line lines ih =>
      obtain ⟨fits, others⟩ := List.forall_mem_cons.mp fit
      by_cases blank : line = []
      · subst blank
        obtain ⟨counted, reset⟩ := dispatch_counted counted
        obtain ⟨later, s₁, rest⟩ := ih counted others (reset ▸ room.after_blank)
        exact ⟨_, _, handleAll_cons_ok (handleLine_nil max s) rest⟩
      · obtain ⟨room, now⟩ := room.after_line blank
        obtain ⟨out, s₁, first, counted, bytes⟩ := handleLine_ok counted fits blank now
        obtain ⟨later, s₂, rest⟩ := ih counted others (bytes ▸ room)
        exact ⟨_, _, handleAll_cons_ok first rest⟩

theorem WithinLimits.hasRoom {max : Nat} {text : Units} (h : WithinLimits max text) :
    HasRoom max 0 (splitLines text) := by
  cases events : eventLines text with
  | nil => exact absurd events (List.splitOnP_ne_nil _ _)
  | cons current later =>
      have all := h.event
      rw [events] at all
      obtain ⟨now, rest⟩ := List.forall_mem_cons.mp all
      exact ⟨current, later, events, by simpa using now, rest⟩

end Limits

section Chunks

/-- The lines of the whole text are handled before its end is flushed. -/
theorem parseChunks_eq {max : Nat} {chunks : List Units} {p : Parser} {s : Fields}
    {events : List Event} (settled : lineReader.Settled p.buffer)
    (fit : ∀ line ∈ splitLines (p.buffer ++ chunks.flatten), Units.byteLength line ≤ max)
    (handled : handleAll (handleLine max) (lineReader.read (p.buffer ++ chunks.flatten)).1
      p.fields = (.ok events, s)) :
    parseChunks max p chunks =
      (flush max ⟨(lineReader.read (p.buffer ++ chunks.flatten)).2, s⟩).1.map (events ++ ·) := by
  induction chunks generalizing p s events with
  | nil =>
      rw [List.flatten_nil, List.append_nil, lineReader.read_settled settled] at handled ⊢
      cases handled
      rw [parseChunks]
      cases (flush max p).1 <;> rfl
  | cons chunk chunks ih =>
      rw [List.flatten_cons, ← List.append_assoc] at fit handled ⊢
      rw [lineReader.read_append] at handled ⊢
      obtain ⟨out, s₁, later, first, rest, rfl⟩ := of_handleAll_append handled
      have unfinished := lineReader.settled_rest (p.buffer ++ chunk)
      have short : Units.byteLength (dropCr (lineReader.read (p.buffer ++ chunk)).2) ≤ max := by
        obtain ⟨line, mem, w, rfl⟩ := exists_line_of_settled unfinished chunks.flatten
        refine (Units.byteLength_le_append _ w).trans (fit _ ?_)
        rw [splitLines_eq, lineReader.read_append, List.append_assoc, ← splitLines_eq]
        exact List.mem_append_right _ mem
      have tail_fit : ∀ line ∈ splitLines ((lineReader.read (p.buffer ++ chunk)).2 ++
          chunks.flatten), Units.byteLength line ≤ max := by
        intro line mem
        refine fit line ?_
        rw [splitLines_eq, lineReader.read_append, List.append_assoc, ← splitLines_eq]
        exact List.mem_append_right _ mem
      have pushed : push max p chunk =
          (.ok out, ⟨(lineReader.read (p.buffer ++ chunk)).2, s₁⟩) := by
        simp only [push, readLines_of_handled first, if_neg (Nat.not_lt.mpr short)]
      rw [parseChunks, pushed]
      have tail := @ih ⟨(lineReader.read (p.buffer ++ chunk)).2, s₁⟩ s later unfinished tail_fit rest
      simp only [tail]
      cases (flush max ⟨_, s⟩).1 <;> simp [Except.map]

/-- The tail of a text within the limits is flushed without an error. -/
theorem flush_ok {max : Nat} {text : Units} (limits : WithinLimits max text) :
    ∃ events s later, handleAll (handleLine max) (lineReader.read text).1 .initial =
      (.ok events, s) ∧ (flush max ⟨(lineReader.read text).2, s⟩).1 = .ok later := by
  obtain ⟨all, last, handled⟩ :=
    handleAll_ok (s := .initial) (fun _ => rfl) limits.line limits.hasRoom
  obtain ⟨lines, tail, -⟩ := splitLines_of_settled (lineReader.settled_rest text)
  rw [splitLines_eq, tail] at handled
  obtain ⟨events, s, later, first, rest, -⟩ := of_handleAll_append handled
  obtain ⟨out, s', -, line, -⟩ := of_handleAll_cons rest
  refine ⟨events, s, ?_⟩
  by_cases none_left : (lineReader.read text).2 = []
  · exact ⟨_, first, by rw [flush, if_pos none_left]⟩
  · exact ⟨_, first, by simp only [flush, if_neg none_left, line]; rfl⟩

end Chunks

/-- However a text within the limits is cut into chunks, the parser emits the
events it emits for the whole text at once. -/
theorem chunking_irrelevant (maxLineBytes : Nat) (chunks : List Units)
    (limits : WithinLimits maxLineBytes chunks.flatten) :
    ∃ events, parseChunks maxLineBytes .initial chunks = .ok events ∧
      parseChunks maxLineBytes .initial [chunks.flatten] = .ok events := by
  obtain ⟨events, s, later, handled, flushed⟩ := flush_ok limits
  have parsed (cut : List Units) (same : cut.flatten = chunks.flatten) :
      parseChunks maxLineBytes .initial cut = .ok (events ++ later) := by
    have eq := @parseChunks_eq maxLineBytes cut .initial s events rfl
    simp only [Parser.initial, List.nil_append, same] at eq
    rw [show Parser.initial = ⟨[], .initial⟩ from rfl, eq limits.line handled, flushed]
    rfl
  exact ⟨events ++ later, parsed chunks rfl, parsed [chunks.flatten] (by simp)⟩

/-- Cut inside CRLF, inside a field name and before the end of the input. -/
def tornChunks : List Units :=
  ["data: a\r", "\nda", "ta:  b\r\n\r", "\nretry: 5\ndata: tail\r"].map Units.ofString

theorem chunking_irrelevant_torn :
    ∃ events, parseChunks 32 .initial tornChunks = .ok events ∧
      parseChunks 32 .initial [tornChunks.flatten] = .ok events :=
  chunking_irrelevant 32 tornChunks ⟨by decide +kernel, by decide +kernel⟩

end Gateway.Sse
