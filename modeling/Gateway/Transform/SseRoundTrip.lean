import Gateway.Transform.SseChunks
import Gateway.Util.NumberText

/-!
What is framed is read back: one event for each message, whatever its text holds.

Every line of a payload stands behind its own `data:`, so a frame is a list of
lines without terminators that ends with the only blank one.
-/

namespace Gateway.Sse

open IncrementalReader

/-- A message with data, to be framed without a comment or an id. The retry is a
number of the language. -/
structure Message where
  event : Option Units
  data : Units
  retry : Option { q : ℚ // 0 ≤ q ∧ q < overflowBound }

def Message.draft (m : Message) : Draft :=
  ⟨m.event, some m.data, none, m.retry.map fun q => .finite q, none⟩

/-- The wire text of a stream of messages. -/
def wire (messages : List Message) : Units := messages.flatMap fun m => formatSse m.draft

/-- CRLF and CR become LF. -/
def normalise : Units → Units
  | [] => []
  | [u] => [if u = cr then lf else u]
  | u :: v :: rest =>
      if u = cr ∧ v = lf then lf :: normalise rest
      else (if u = cr then lf else u) :: normalise (v :: rest)

/-- The event a message arrives as. -/
def Message.received (m : Message) : Event where
  event := (m.event.filter (· ≠ [])).map oneLine
  data := normalise m.data
  id := none
  retry := m.retry.map fun q => (⌊q.val⌋ : ℚ)
  comment := none

section Lines

/-- No terminator stands in the line. -/
def Plain (line : Units) : Prop := ∀ u ∈ line, isBreak u = false

instance (line : Units) : Decidable (Plain line) := List.decidableBAll _ _

theorem plain_oneLine (value : Units) : Plain (oneLine value) := by
  fun_induction oneLine value with
  | case1 => simp [Plain]
  | case2 => simp [Plain, isBreak, space, cr, lf]
  | case3 u plain => simpa [Plain] using plain
  | case4 u v rest _ _ ih => exact ih
  | case5 u v rest _ _ ih => exact List.forall_mem_cons.mpr ⟨by decide, ih⟩
  | case6 u v rest plain ih => exact List.forall_mem_cons.mpr ⟨by simpa using plain, ih⟩

theorem plain_of_mem_splitLines (text : Units) : ∀ line ∈ splitLines text, Plain line := by
  fun_induction splitLines text with
  | case1 => simp [Plain]
  | case2 => simp [Plain]
  | case3 u plain => simpa [Plain] using plain
  | case4 u v rest _ ih => exact List.forall_mem_cons.mpr ⟨by simp [Plain], ih⟩
  | case5 u v rest _ _ ih => exact List.forall_mem_cons.mpr ⟨by simp [Plain], ih⟩
  | case6 u v rest _ plain ih =>
      cases lines : splitLines (v :: rest) with
      | nil => simp
      | cons line lines' =>
          rw [lines] at ih
          obtain ⟨first, later⟩ := List.forall_mem_cons.mp ih
          exact List.forall_mem_cons.mpr
            ⟨List.forall_mem_cons.mpr ⟨by simpa using plain, first⟩, later⟩

theorem joinLines_cons (line : Units) {lines : List Units} (more : lines ≠ []) :
    joinLines (line :: lines) = line ++ lf :: joinLines lines := by
  cases lines with
  | nil => exact absurd rfl more
  | cons next lines => simp [joinLines, List.intercalate]

theorem lf_of_isBreak {u : UInt16} (terminator : isBreak u = true) :
    (if u = cr then lf else u) = lf := by
  simp only [isBreak, Bool.or_eq_true, beq_iff_eq] at terminator
  rcases terminator with rfl | rfl <;> rfl

theorem self_of_plain {u : UInt16} (plain : ¬isBreak u = true) :
    (if u = cr then lf else u) = u := by
  simp only [isBreak, Bool.or_eq_true, beq_iff_eq, not_or] at plain
  exact if_neg plain.1

/-- The lines of a payload, joined again, are the payload with one kind of
terminator. -/
theorem joinLines_splitLines (text : Units) : joinLines (splitLines text) = normalise text := by
  fun_induction splitLines text with
  | case1 => rfl
  | case2 u terminator => rw [normalise, lf_of_isBreak terminator]; rfl
  | case3 u plain => rw [normalise, self_of_plain plain]; rfl
  | case4 u v rest both ih =>
      rw [joinLines_cons _ (splitLines_ne_nil rest), ih, normalise, if_pos both]
      rfl
  | case5 u v rest both terminator ih =>
      rw [joinLines_cons _ (splitLines_ne_nil _), ih, normalise, if_neg both,
        lf_of_isBreak terminator]
      rfl
  | case6 u v rest both plain ih =>
      rw [normalise, if_neg both, self_of_plain plain, ← ih]
      cases lines : splitLines (v :: rest) with
      | nil => exact absurd lines (splitLines_ne_nil _)
      | cons line later => cases later <;> simp [joinLines, List.intercalate]

theorem nextLine_cons_plain {u : UInt16} (plain : isBreak u = false) (t : Units) :
    nextLine (u :: t) = (nextLine t).map fun (line, after) => (u :: line, after) := by
  have not_lf : u ≠ lf := by
    rintro rfl
    exact absurd plain (by decide)
  have not_cr : u ≠ cr := by
    rintro rfl
    exact absurd plain (by decide)
  cases t with
  | nil => simp [nextLine, not_lf]
  | cons v t => rw [nextLine, if_neg (fun both => not_cr both.1), if_neg (by simp [plain])]

theorem nextLine_plain {line : Units} (plain : Plain line) (rest : Units) :
    nextLine (line ++ lf :: rest) = some (line, rest) := by
  induction line with
  | nil => cases rest <;> simp [nextLine, isBreak, cr, lf]
  | cons u line ih =>
      obtain ⟨first, later⟩ := List.forall_mem_cons.mp plain
      rw [List.cons_append, nextLine_cons_plain first, ih later]
      rfl

/-- A list of plain lines, each with its terminator, is read as that list. -/
theorem read_lines {lines : List Units} (plain : ∀ line ∈ lines, Plain line) :
    lineReader.read (lines.flatMap (· ++ [lf])) = (lines, []) := by
  induction lines with
  | nil => exact lineReader.read_settled rfl
  | cons line lines ih =>
      obtain ⟨first, rest⟩ := List.forall_mem_cons.mp plain
      have next : lineReader.next ((line :: lines).flatMap (· ++ [lf])) =
          some (line, lines.flatMap (· ++ [lf])) := by
        rw [List.flatMap_cons, List.append_assoc, List.singleton_append]
        exact nextLine_plain first _
      rw [lineReader.read_cons next, ih rest]

end Lines

section Handle

variable {max : Nat} {value : Units} {s s' : Fields} {out : List Event}

theorem ofString_append (s t : String) :
    Units.ofString (s ++ t) = Units.ofString s ++ Units.ofString t := by
  rw [Units.ofString, String.toList_append, List.flatMap_append]
  rfl

/-- The field of a line that begins with a name and `: `. -/
theorem fieldOf_named {name : String} (bare : colon ∉ Units.ofString name) (value : Units) :
    fieldOf (Units.ofString (name ++ ": ") ++ value) = (Units.ofString name, value) := by
  have rest : Units.ofString ": " ++ value = colon :: space :: value := rfl
  have kept : ∀ u ∈ Units.ofString name, decide (u ≠ colon) = true := fun u mem =>
    decide_eq_true fun same => bare (same ▸ mem)
  rw [ofString_append, List.append_assoc, rest, fieldOf, List.takeWhile_append_of_pos kept,
    List.dropWhile_append_of_pos kept]
  simp [dropSpace]

/-- A line with a named field goes to its field when it is not refused. -/
theorem handleLine_named (name : String) (bare : colon ∉ Units.ofString name)
    (named : Units.ofString name ≠ [])
    (h : handleLine max (Units.ofString (name ++ ": ") ++ value) s = (.ok out, s')) :
    setField max (Units.ofString name) value s = (.ok out, s') := by
  have filled : Units.ofString (name ++ ": ") ++ value ≠ [] := by simp [ofString_append, named]
  have field : (Units.ofString (name ++ ": ") ++ value).head? ≠ some colon := by
    rw [ofString_append, List.append_assoc, List.head?_append_of_ne_nil _ named]
    exact fun first => bare (List.mem_of_head? first)
  rw [handleLine] at h
  split at h
  · cases h
  · rwa [fieldOf_named bare] at h

theorem handleLine_event (h : handleLine max (Units.ofString "event: " ++ value) s = (.ok out, s')) :
    out = [] ∧ s' = { s with eventName := some value, pending := true } := by
  have set := handleLine_named "event" (by decide) (by decide) h
  rw [setField, if_neg (by decide), if_pos rfl] at set
  cases set
  exact ⟨rfl, rfl⟩

theorem handleLine_retry (h : handleLine max (Units.ofString "retry: " ++ value) s = (.ok out, s')) :
    out = [] ∧ s' = setRetry value s := by
  have set := handleLine_named "retry" (by decide) (by decide) h
  rw [setField, if_neg (by decide), if_neg (by decide), if_neg (by decide), if_pos rfl] at set
  cases set
  exact ⟨rfl, rfl⟩

theorem handleLine_data (h : handleLine max (Units.ofString "data: " ++ value) s = (.ok out, s')) :
    out = [] ∧ ∃ bytes, s' = { s with
      eventBytes := bytes, dataLines := s.dataLines ++ [value], pending := true } := by
  have set := handleLine_named "data" (by decide) (by decide) h
  rw [setField, if_pos rfl, setData] at set
  split at set
  · cases set
  · cases set
    exact ⟨rfl, _, rfl⟩

/-- The data lines of a payload add up, and emit nothing. -/
theorem handleAll_data {lines : List Units}
    (h : handleAll (handleLine max) (lines.map (Units.ofString "data: " ++ ·)) s = (.ok out, s')) :
    out = [] ∧ ∃ bytes, s' = { s with
      eventBytes := bytes, dataLines := s.dataLines ++ lines,
      pending := s.pending || !lines.isEmpty } := by
  induction lines generalizing s out with
  | nil =>
      cases h
      exact ⟨rfl, s'.eventBytes, by simp⟩
  | cons line lines ih =>
      obtain ⟨first, s₁, later, handled, rest, rfl⟩ := of_handleAll_cons h
      obtain ⟨rfl, counted, rfl⟩ := handleLine_data handled
      obtain ⟨rfl, bytes, rfl⟩ := ih rest
      exact ⟨rfl, bytes, by simp⟩

end Handle

section Frames

theorem toText_ofString {text : String} (ascii : ∀ c ∈ text.toList, c.toNat < 0x80) :
    Units.toText (Units.ofString text) = text := by
  have chars {cs : List Char} (h : ∀ c ∈ cs, c.toNat < 0x80) :
      (cs.flatMap Units.ofChar).map (fun u => Char.ofNat u.toNat) = cs := by
    induction cs with
    | nil => rfl
    | cons c cs ih =>
        obtain ⟨first, rest⟩ := List.forall_mem_cons.mp h
        have one : Units.ofChar c = [UInt16.ofNat c.toNat] := if_pos (by omega)
        rw [List.flatMap_cons, one, List.map_append, ih rest, List.map_singleton,
          UInt16.toNat_ofNat', Nat.mod_eq_of_lt (by omega), Char.ofNat_toNat]
        rfl
  rw [Units.toText, Units.ofString, chars ascii, String.ofList_toList]

theorem retryText_eq (q : { q : ℚ // 0 ≤ q ∧ q < overflowBound }) :
    ∃ n : Nat, (max 0 ⌊q.val⌋ : Int) = n ∧ (⌊q.val⌋ : ℚ) = n ∧ (n : ℚ) < overflowBound := by
  obtain ⟨n, floor⟩ := Int.eq_ofNat_of_zero_le (Int.floor_nonneg.mpr q.property.1)
  have cast : (⌊q.val⌋ : ℚ) = n := by
    rw [floor]
    rfl
  exact ⟨n, by omega, cast, cast ▸ (Int.floor_le q.val).trans_lt q.property.2⟩

/-- The digits that stand for a retry are read back as its floor. -/
theorem readRetry_floor (q : { q : ℚ // 0 ≤ q ∧ q < overflowBound }) :
    readRetry (Units.ofString (String.ofList (numberText (max 0 ⌊q.val⌋ : Int)))) =
      some (⌊q.val⌋ : ℚ) := by
  obtain ⟨n, digits, floor, bounded⟩ := retryText_eq q
  have ascii : ∀ c ∈ (String.ofList (numberText n)).toList, c.toNat < 0x80 := fun c mem => by
    have := isNumberChar_range (isNumberChar_numberText n c (by simpa using mem))
    omega
  rw [digits, floor, Int.cast_natCast, readRetry, toText_ofString ascii,
    stringToNumber_numberText bounded]
  simp

/-- The lines of a frame, without their terminators. -/
def Message.lines (m : Message) : List Units :=
  ((m.event.filter (· ≠ [])).toList.map fun name => Units.ofString "event: " ++ oneLine name) ++
    (m.retry.toList.map fun q => Units.ofString "retry: " ++
      Units.ofString (String.ofList (numberText (max 0 ⌊q.val⌋ : Int)))) ++
    (splitLines m.data).map (Units.ofString "data: " ++ ·) ++ [[]]

theorem formatSse_eq (m : Message) : formatSse m.draft = m.lines.flatMap (· ++ [lf]) := by
  have data : (splitLines m.data).flatMap (fieldLine "data") =
      ((splitLines m.data).map (Units.ofString "data: " ++ ·)).flatMap (· ++ [lf]) := by
    rw [List.flatMap_map]
    rfl
  rw [formatSse, Message.lines, List.flatMap_append, List.flatMap_append, List.flatMap_append, ← data]
  have event : optionalField "event" m.event =
      ((m.event.filter (· ≠ [])).toList.map fun name =>
        Units.ofString "event: " ++ oneLine name).flatMap (· ++ [lf]) := by
    cases m.event with
    | none => rfl
    | some name =>
        by_cases empty : name = []
        · simp [optionalField, empty]
        · simp [optionalField, empty, fieldLine, Option.filter]
  have retry : retryField m.draft.retry =
      (m.retry.toList.map fun q => Units.ofString "retry: " ++
        Units.ofString (String.ofList (numberText (max 0 ⌊q.val⌋ : Int)))).flatMap (· ++ [lf]) := by
    rw [Message.draft]
    cases m.retry with
    | none => rfl
    | some q => simp [retryField, fieldLine]
  rw [← event, ← retry]
  simp [Message.draft, optionalField]

theorem plain_ofString {text : String} (number : ∀ c ∈ text.toList, isNumberChar c = true) :
    Plain (Units.ofString text) := by
  intro u mem
  obtain ⟨c, mem, unit⟩ := List.mem_flatMap.mp mem
  have range := isNumberChar_range (number c mem)
  rw [Units.ofChar, if_pos (by omega), List.mem_singleton] at unit
  subst unit
  have size : (UInt16.ofNat c.toNat).toNat = c.toNat := by
    rw [UInt16.toNat_ofNat', Nat.mod_eq_of_lt (by omega)]
  simp only [isBreak, Bool.or_eq_false_iff, beq_eq_false_iff_ne]
  constructor <;> intro same <;> rw [same] at size <;> simp [cr, lf] at size <;> omega

theorem plain_lines (m : Message) : ∀ line ∈ m.lines, Plain line := by
  have named {name : String} {value : Units} (bare : Plain (Units.ofString name))
      (plain : Plain value) : Plain (Units.ofString name ++ value) := fun u mem =>
    (List.mem_append.mp mem).elim (bare u) (plain u)
  intro line mem
  simp only [Message.lines, List.mem_append, List.mem_map, List.mem_singleton, or_assoc] at mem
  rcases mem with ⟨name, -, rfl⟩ | ⟨q, -, rfl⟩ | ⟨value, mem, rfl⟩ | rfl
  · exact named (by decide) (plain_oneLine name)
  · refine named (by decide) (plain_ofString fun c mem => ?_)
    obtain ⟨n, digits, -, -⟩ := retryText_eq q
    rw [digits] at mem
    exact isNumberChar_numberText n c (by simpa using mem)
  · exact named (by decide) (plain_of_mem_splitLines _ value mem)
  · exact fun u mem => absurd mem List.not_mem_nil

/-- A frame whose lines are all handled emits its message and nothing else. -/
theorem handleAll_lines {max : Nat} {m : Message} {s : Fields} {out : List Event}
    (h : handleAll (handleLine max) m.lines .initial = (.ok out, s)) :
    out = [m.received] ∧ s = .initial := by
  rw [Message.lines] at h
  obtain ⟨fields, s₃, last, through_data, blank, rfl⟩ := of_handleAll_append h
  obtain ⟨header, s₂, payload, through_retry, data, rfl⟩ := of_handleAll_append through_data
  obtain ⟨named, s₁, retried, event, retry, rfl⟩ := of_handleAll_append through_retry
  have named_eq : named = [] ∧ ∃ pending, s₁ = { Fields.initial with
      eventName := (m.event.filter (· ≠ [])).map oneLine, pending := pending } := by
    cases name : m.event.filter (· ≠ []) with
    | none =>
        rw [name] at event
        cases event
        exact ⟨rfl, false, rfl⟩
    | some name' =>
        rw [name] at event
        obtain ⟨out, s', later, handled, rest, rfl⟩ := of_handleAll_cons event
        obtain ⟨rfl, rfl⟩ := handleLine_event handled
        cases rest
        exact ⟨rfl, true, rfl⟩
  obtain ⟨rfl, pending, rfl⟩ := named_eq
  have retried_eq : retried = [] ∧ ∃ pending, s₂ = { Fields.initial with
      eventName := (m.event.filter (· ≠ [])).map oneLine, pending := pending,
      retry := m.retry.map fun q => (⌊q.val⌋ : ℚ) } := by
    cases number : m.retry with
    | none =>
        rw [number] at retry
        cases retry
        exact ⟨rfl, pending, rfl⟩
    | some q =>
        rw [number] at retry
        obtain ⟨out, s', later, handled, rest, rfl⟩ := of_handleAll_cons retry
        obtain ⟨rfl, rfl⟩ := handleLine_retry handled
        cases rest
        exact ⟨rfl, true, by rw [setRetry, readRetry_floor]; rfl⟩
  obtain ⟨rfl, pending, rfl⟩ := retried_eq
  obtain ⟨rfl, bytes, rfl⟩ := handleAll_data data
  have some_lines : (splitLines m.data).isEmpty = false := by
    simpa using splitLines_ne_nil m.data
  obtain ⟨out, s', later, handled, rest, rfl⟩ := of_handleAll_cons blank
  cases rest
  rw [handleLine_nil, dispatch, if_pos (by simp [some_lines])] at handled
  cases handled
  refine ⟨?_, rfl⟩
  simp [Message.received, Fields.initial, joinLines_splitLines]

theorem wire_eq (messages : List Message) :
    wire messages = (messages.flatMap Message.lines).flatMap (· ++ [lf]) := by
  simp only [wire, formatSse_eq, List.flatMap_assoc]

theorem handleAll_wire {max : Nat} {messages : List Message} {s : Fields} {out : List Event}
    (h : handleAll (handleLine max) (messages.flatMap Message.lines) .initial = (.ok out, s)) :
    out = messages.map Message.received ∧ s = .initial := by
  induction messages generalizing out with
  | nil =>
      cases h
      exact ⟨rfl, rfl⟩
  | cons m messages ih =>
      rw [List.flatMap_cons] at h
      obtain ⟨first, s₁, later, handled, rest, rfl⟩ := of_handleAll_append h
      obtain ⟨rfl, rfl⟩ := handleAll_lines handled
      obtain ⟨rfl, rfl⟩ := ih rest
      exact ⟨rfl, rfl⟩

end Frames

/-- The events of a stream of messages, cut anywhere within the limits, are the
messages: one event each, in order, with nothing injected. -/
theorem wire_roundTrip (maxLineBytes : Nat) (messages : List Message) (chunks : List Units)
    (cut : chunks.flatten = wire messages) (limits : WithinLimits maxLineBytes chunks.flatten) :
    parseChunks maxLineBytes .initial chunks = .ok (messages.map Message.received) := by
  obtain ⟨events, s, later, handled, -⟩ := flush_ok limits
  have parsed := @parseChunks_eq maxLineBytes chunks .initial s events rfl limits.line handled
  have lines : lineReader.read (Parser.initial.buffer ++ chunks.flatten) =
      (messages.flatMap Message.lines, []) := by
    rw [cut, wire_eq]
    refine read_lines fun line mem => ?_
    obtain ⟨m, -, mem⟩ := List.mem_flatMap.mp mem
    exact plain_lines m line mem
  rw [lines] at parsed
  rw [show lineReader.read chunks.flatten = (messages.flatMap Message.lines, []) from lines] at handled
  obtain ⟨rfl, rfl⟩ := handleAll_wire handled
  rw [parsed]
  exact congrArg Except.ok (List.append_nil _)

/-- A payload and a name that look like frames of their own. -/
def hostileMessage : Message where
  event := some (Units.ofString "delta\r\nevent: stop")
  data := Units.ofString "x\n\nevent: message_stop\rdata: y\r\n\r\n"
  retry := some ⟨5 / 2, by decide +kernel, by decide +kernel⟩

theorem wire_roundTrip_hostile :
    parseChunks 64 .initial [(wire [hostileMessage]).take 20, (wire [hostileMessage]).drop 20] =
      .ok [hostileMessage.received] := by
  refine wire_roundTrip 64 [hostileMessage] _ (by simp) ?_
  rw [List.flatten_cons, List.flatten_cons, List.flatten_nil, List.append_nil, List.take_append_drop]
  exact ⟨by decide +kernel, by decide +kernel⟩

end Gateway.Sse
