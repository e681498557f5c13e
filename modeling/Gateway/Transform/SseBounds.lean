import Gateway.Transform.SseChunks

/-!
What the parser can hold, and that nothing over the limit gets through.

Each line it takes fits, and the bytes it counts are those of the data lines it
holds; so a stream that is read to its end without an error is within the limits,
however it is cut.
-/

namespace Gateway.Sse

open IncrementalReader

/-- The bytes of the data lines, with one more for each. -/
def heldBytes (dataLines : List Units) : Nat :=
  (dataLines.map fun line => Units.byteLength line + 1).sum

/-- What is held of an event is within the limit, and its data is what was counted. -/
structure Fields.Held (maxLineBytes : Nat) (s : Fields) : Prop where
  eventName : ∀ name ∈ s.eventName, Units.byteLength name ≤ maxLineBytes
  lastId : ∀ id ∈ s.lastId, Units.byteLength id ≤ maxLineBytes
  data : heldBytes s.dataLines = s.eventBytes
  bytes : s.eventBytes ≤ maxLineBytes
  counted : s.Counted

/-- No event carries more than the limit. -/
def Fit (maxLineBytes : Nat) (events : List Event) : Prop :=
  ∀ event ∈ events, Units.byteLength event.data ≤ maxLineBytes

section Line

theorem Fields.initial_held (max : Nat) : Fields.initial.Held max where
  eventName := by simp [Fields.initial]
  lastId := by simp [Fields.initial]
  data := rfl
  bytes := Nat.zero_le max
  counted := fun _ => rfl

theorem joinLines_bytes_le (lines : List Units) :
    Units.byteLength (joinLines lines) ≤ heldBytes lines := by
  induction lines with
  | nil => exact Nat.le_refl 0
  | cons line rest ih =>
      rw [heldBytes, List.map_cons, List.sum_cons]
      rw [heldBytes, joinLines] at ih
      cases rest with
      | nil =>
          rw [joinLines, List.intercalate_singleton]
          omega
      | cons next more =>
          rw [joinLines, List.intercalate_cons_cons]
          have whole := Units.byteLength_append_le (line ++ [lf])
            (List.intercalate [lf] (next :: more))
          have opened := Units.byteLength_append_le line [lf]
          have one : Units.byteLength [lf] = 1 := rfl
          omega

theorem dropSpace_suffix (value : Units) : dropSpace value <:+ value := by
  cases value with
  | nil => exact List.suffix_refl []
  | cons u rest =>
      rw [dropSpace]
      split
      · exact List.suffix_cons u rest
      · exact List.suffix_refl _

theorem value_bytes_le (line : Units) :
    Units.byteLength (fieldOf line).2 ≤ Units.byteLength line := by
  refine Units.byteLength_suffix_le ((dropSpace_suffix _).trans ?_)
  exact (List.tail_suffix _).trans (List.dropWhile_suffix _)

variable {max : Nat} {line : Units} {s s' : Fields} {events : List Event}

theorem dispatch_held (held : s.Held max) :
    (dispatch s).2.Held max ∧ Fit max (dispatch s).1 ∧ (dispatch s).2.eventBytes = 0 := by
  rw [dispatch]
  split
  · refine ⟨⟨by simp [Fields.initial], held.lastId, rfl, Nat.zero_le max, fun _ => rfl⟩, ?_, rfl⟩
    refine List.forall_mem_singleton.mpr ((joinLines_bytes_le s.dataLines).trans ?_)
    rw [held.data]
    exact held.bytes
  · next quiet => exact ⟨held, by simp [Fit], held.counted (by simpa using quiet)⟩

theorem withRetry_held (held : s.Held max) (retry : Option ℚ) :
    Fields.Held max { s with retry := retry, pending := true } where
  eventName := held.eventName
  lastId := held.lastId
  data := held.data
  bytes := held.bytes
  counted := fun idle => by simp at idle

theorem setId_held (held : s.Held max) {value : Units} (short : Units.byteLength value ≤ max) :
    (setId value s).Held max := by
  refine ⟨held.eventName, ?_, held.data, held.bytes, fun h => by simp [setId] at h⟩
  intro id mem
  have kept : (setId value s).lastId = if 0 ∈ value then s.lastId else some value := rfl
  rw [kept] at mem
  split at mem
  · exact held.lastId id mem
  · cases mem
    exact short

/-- A field that is set without an error stays within the limit, by the name of the field. -/
theorem setField_held (held : s.Held max) {field value : Units}
    (short : Units.byteLength value ≤ max)
    (h : setField max field value s = (.ok events, s')) :
    s'.Held max ∧ events = [] ∧ s'.eventBytes = s.eventBytes +
      if field = Units.ofString "data" then Units.byteLength value + 1 else 0 := by
  rw [setField] at h
  by_cases data : field = Units.ofString "data"
  · rw [if_pos data, setData] at h
    rw [if_pos data]
    split at h
    · cases h
    · next room =>
        cases h
        refine
          ⟨⟨held.eventName, held.lastId, ?_, Nat.not_lt.mp room, fun h => by simp at h⟩, rfl, rfl⟩
        have counted := held.data
        simp only [heldBytes, List.map_append, List.sum_append, List.map_cons, List.map_nil,
          List.sum_cons, List.sum_nil] at counted ⊢
        omega
  rw [if_neg data] at h
  rw [if_neg data, Nat.add_zero]
  by_cases name : field = Units.ofString "event"
  · rw [if_pos name] at h
    cases h
    exact ⟨⟨by simpa using short, held.lastId, held.data, held.bytes, fun h => by simp at h⟩,
      rfl, rfl⟩
  rw [if_neg name] at h
  by_cases ident : field = Units.ofString "id"
  · rw [if_pos ident] at h
    cases h
    exact ⟨setId_held held short, rfl, rfl⟩
  rw [if_neg ident] at h
  by_cases retry : field = Units.ofString "retry"
  · rw [if_pos retry] at h
    cases h
    refine ⟨withRetry_held held _, rfl, ?_⟩
    dsimp only [setRetry]
  · rw [if_neg retry] at h
    cases h
    exact ⟨held, rfl, rfl⟩

/-- The step: a line that is taken fits, and so does what is held after it. -/
theorem handleLine_held (held : s.Held max) (h : handleLine max line s = (.ok events, s')) :
    s'.Held max ∧ Fit max events ∧ Units.byteLength line ≤ max ∧
      s'.eventBytes = if line = [] then 0 else s.eventBytes + dataBytes line := by
  rw [handleLine] at h
  split at h
  · cases h
  · next fits =>
      have short := Nat.not_lt.mp fits
      split at h
      · next blank =>
          cases h
          have emitted := dispatch_held held
          rw [if_pos blank]
          exact ⟨emitted.1, emitted.2.1, short, emitted.2.2⟩
      · next filled =>
          rw [if_neg filled]
          split at h
          · next comment =>
              cases h
              have none_counted : dataBytes line = 0 :=
                dataBytes_of_ne (by rw [fieldOf_comment comment]; decide)
              refine ⟨held, List.forall_mem_singleton.mpr (Nat.zero_le max), short, ?_⟩
              rw [none_counted, Nat.add_zero]
          · obtain ⟨held', rfl, bytes⟩ :=
              setField_held held ((value_bytes_le line).trans short) h
            exact ⟨held', by simp [Fit], short, bytes⟩

end Line

section Run

variable {max : Nat} {s s' : Fields} {events : List Event}

theorem Fit.append {first rest : List Event} (fit : Fit max first) (fit_rest : Fit max rest) :
    Fit max (first ++ rest) := List.forall_mem_append.mpr ⟨fit, fit_rest⟩

theorem HasRoom.nil {bytes : Nat} (fits : bytes ≤ max) : HasRoom max bytes [] :=
  ⟨[], [], rfl, by simpa using fits, by simp⟩

/-- A blank line ends an event that fits. -/
theorem HasRoom.blank {bytes : Nat} {lines : List Units} (fits : bytes ≤ max)
    (h : HasRoom max 0 lines) : HasRoom max bytes ([] :: lines) := by
  obtain ⟨current, events, split, first, rest⟩ := h
  refine ⟨[], current :: events, ?_, by simpa using fits, ?_⟩
  · rw [List.splitOnP_cons_eq_if_modifyHead, if_pos (by simp), split]
  · exact List.forall_mem_cons.mpr ⟨by omega, rest⟩

theorem HasRoom.filled {bytes : Nat} {line : Units} {lines : List Units} (filled : line ≠ [])
    (h : HasRoom max (bytes + dataBytes line) lines) : HasRoom max bytes (line :: lines) := by
  obtain ⟨current, events, split, first, rest⟩ := h
  refine ⟨line :: current, events, ?_, ?_, rest⟩
  · rw [List.splitOnP_cons_eq_if_modifyHead, if_neg (by simpa using filled), split]
    rfl
  · rw [List.map_cons, List.sum_cons]
    omega

/-- The run: lines that are all taken fit, and so do the events they make up. -/
theorem handleAll_held {lines : List Units} (held : s.Held max)
    (h : handleAll (handleLine max) lines s = (.ok events, s')) :
    s'.Held max ∧ Fit max events ∧ (∀ line ∈ lines, Units.byteLength line ≤ max) ∧
      HasRoom max s.eventBytes lines := by
  induction lines generalizing s events with
  | nil =>
      cases h
      exact ⟨held, by simp [Fit], by simp, .nil held.bytes⟩
  | cons line lines ih =>
      obtain ⟨out, s₁, later, first, run, rfl⟩ := of_handleAll_cons h
      obtain ⟨held₁, fit, short, bytes⟩ := handleLine_held held first
      obtain ⟨held', fit_later, others, room⟩ := ih held₁ run
      refine ⟨held', fit.append fit_later, List.forall_mem_cons.mpr ⟨short, others⟩, ?_⟩
      by_cases blank : line = []
      · rw [bytes, if_pos blank] at room
        rw [blank]
        exact room.blank held.bytes
      · rw [bytes, if_neg blank] at room
        exact room.filled blank

theorem handleAll_append_ok {first rest : List Units} {s₁ : Fields} {later : List Event}
    (before : handleAll (handleLine max) first s = (.ok events, s₁))
    (after : handleAll (handleLine max) rest s₁ = (.ok later, s')) :
    handleAll (handleLine max) (first ++ rest) s = (.ok (events ++ later), s') := by
  induction first generalizing s events with
  | nil =>
      cases before
      exact after
  | cons line lines ih =>
      obtain ⟨out, s₂, more, head, run, rfl⟩ := of_handleAll_cons before
      rw [List.append_assoc]
      exact handleAll_cons_ok head (ih run)

/-- Blank lines are never refused. -/
theorem handleAll_blank {lines : List Units} (blank : ∀ line ∈ lines, line = []) (s : Fields) :
    ∃ events s', handleAll (handleLine max) lines s = (.ok events, s') := by
  induction lines generalizing s with
  | nil => exact ⟨[], s, rfl⟩
  | cons line lines ih =>
      obtain ⟨rfl, others⟩ := List.forall_mem_cons.mp blank
      obtain ⟨later, s', run⟩ := ih others (dispatch s).2
      exact ⟨_, _, handleAll_cons_ok (handleLine_nil max s) run⟩

/-- What the loop took are the lines of its buffer, if it did not throw. -/
theorem of_readLines {buffer : Units} {p : Parser} (h : readLines max buffer s = (.ok events, p)) :
    handleAll (handleLine max) (lineReader.read buffer).1 s = (.ok events, p.fields) ∧
      p.buffer = (lineReader.read buffer).2 := by
  induction buffer using lineReader.read_induction generalizing s events with
  | settled buffer none_left =>
      rw [lineReader.read_settled none_left]
      rw [readLines] at h
      split at h
      · cases h
        exact ⟨rfl, rfl⟩
      · next found => exact absurd (none_left.symm.trans found) (by simp)
  | item buffer line rest found ih =>
      rw [lineReader.read_cons found]
      rw [readLines] at h
      split at h
      · next none_left => exact absurd (found.symm.trans none_left) (by simp)
      · next line' rest' found' =>
          cases found.symm.trans found'
          split at h
          · cases h
          · next out s₁ first =>
              cases run : readLines max rest s₁ with
              | mk outcome p₁ =>
                  rw [run] at h
                  cases outcome with
                  | error e => cases h
                  | ok later =>
                      cases h
                      obtain ⟨handled, left⟩ := ih run
                      exact ⟨handleAll_cons_ok first handled, left⟩

theorem of_push {p p' : Parser} {chunk : Units} (h : push max p chunk = (.ok events, p')) :
    handleAll (handleLine max) (lineReader.read (p.buffer ++ chunk)).1 p.fields =
        (.ok events, p'.fields) ∧
      p'.buffer = (lineReader.read (p.buffer ++ chunk)).2 ∧
      Units.byteLength (dropCr p'.buffer) ≤ max := by
  rw [push] at h
  split at h
  · cases h
  · next out p₁ read =>
      split at h
      · cases h
      · next short =>
          cases h
          obtain ⟨handled, left⟩ := of_readLines read
          exact ⟨handled, left, Nat.not_lt.mp short⟩

end Run

section Stream

variable {max : Nat}

/-- The invariant between two calls. -/
structure Parser.Held (maxLineBytes : Nat) (p : Parser) : Prop where
  buffer : Units.byteLength (dropCr p.buffer) ≤ maxLineBytes
  settled : lineReader.Settled p.buffer
  fields : p.fields.Held maxLineBytes

theorem Parser.initial_held (max : Nat) : Parser.initial.Held max :=
  ⟨Nat.zero_le max, rfl, Fields.initial_held max⟩

theorem push_held {p p' : Parser} {chunk : Units} {events : List Event} (held : p.Held max)
    (h : push max p chunk = (.ok events, p')) : p'.Held max ∧ Fit max events := by
  obtain ⟨handled, left, short⟩ := of_push h
  obtain ⟨fields, fit, -⟩ := handleAll_held held.fields handled
  refine ⟨⟨short, ?_, fields⟩, fit⟩
  rw [left]
  exact lineReader.settled_rest _

/-- The pushes of the chunks of a stream; the first one that throws ends it. -/
def pushAll (maxLineBytes : Nat) (p : Parser) : List Units →
    Except GatewayError (List Event × Parser)
  | [] => .ok ([], p)
  | chunk :: chunks =>
      match push maxLineBytes p chunk with
      | (.error e, _) => .error e
      | (.ok events, p) =>
          (pushAll maxLineBytes p chunks).map fun later => (events ++ later.1, later.2)

theorem of_pushAll_cons {p p' : Parser} {chunk : Units} {chunks : List Units} {all : List Event}
    (h : pushAll max p (chunk :: chunks) = .ok (all, p')) :
    ∃ events p₁ later, push max p chunk = (.ok events, p₁) ∧
      pushAll max p₁ chunks = .ok (later, p') ∧ all = events ++ later := by
  rw [pushAll] at h
  split at h
  · cases h
  · next events p₁ first =>
      cases run : pushAll max p₁ chunks with
      | error e =>
          rw [run] at h
          cases h
      | ok later =>
          rw [run] at h
          cases h
          exact ⟨events, p₁, later.1, first, run, rfl⟩

theorem pushAll_held {p p' : Parser} {chunks : List Units} {events : List Event}
    (held : p.Held max) (h : pushAll max p chunks = .ok (events, p')) :
    p'.Held max ∧ Fit max events := by
  induction chunks generalizing p events with
  | nil =>
      cases h
      exact ⟨held, by simp [Fit]⟩
  | cons chunk chunks ih =>
      obtain ⟨out, p₁, later, first, run, rfl⟩ := of_pushAll_cons h
      obtain ⟨held₁, fit⟩ := push_held held first
      obtain ⟨held', fit_later⟩ := ih held₁ run
      exact ⟨held', fit.append fit_later⟩

/-- A flush that does not throw has taken what was left as a line. -/
theorem of_flush {p : Parser} {out : List Event} (held : p.Held max)
    (h : (flush max p).1 = .ok out) :
    Fit max out ∧ ∃ events s, handleAll (handleLine max) (splitLines p.buffer) p.fields =
      (.ok events, s) := by
  obtain ⟨lines, tail, blank⟩ := splitLines_of_settled held.settled
  rw [tail]
  rw [flush] at h
  split at h
  · next empty =>
      cases h
      have none_left : dropCr p.buffer = [] := by rw [empty]; rfl
      rw [none_left]
      refine ⟨(dispatch_held held.fields).2.1, handleAll_blank ?_ p.fields⟩
      exact List.forall_mem_cons.mpr ⟨rfl, blank⟩
  · split at h
    · cases h
    · next taken s handled =>
        cases h
        obtain ⟨held', fit, -⟩ := handleLine_held held.fields handled
        obtain ⟨later, s', run⟩ := @handleAll_blank max _ blank s
        exact ⟨fit.append (dispatch_held held').2.1, _, _, handleAll_cons_ok handled run⟩

/-- A stream that is read to its end has had all of its lines taken. -/
theorem of_parseChunks {p : Parser} {chunks : List Units} {all : List Event} (held : p.Held max)
    (h : parseChunks max p chunks = .ok all) :
    ∃ events s, handleAll (handleLine max) (splitLines (p.buffer ++ chunks.flatten)) p.fields =
      (.ok events, s) := by
  induction chunks generalizing p all with
  | nil =>
      rw [List.flatten_nil, List.append_nil]
      exact (of_flush held h).2
  | cons chunk chunks ih =>
      rw [parseChunks] at h
      split at h
      · cases h
      · next events p₁ first =>
          cases run : parseChunks max p₁ chunks with
          | error e =>
              rw [run] at h
              cases h
          | ok later =>
              obtain ⟨handled, left, -⟩ := of_push first
              obtain ⟨more, s, after⟩ := ih (push_held held first).1 run
              refine ⟨events ++ more, s, ?_⟩
              rw [List.flatten_cons, ← List.append_assoc, splitLines_eq, lineReader.read_append,
                List.append_assoc, ← splitLines_eq, ← left]
              exact handleAll_append_ok handled after

theorem withinLimits_of_parseChunks {chunks : List Units} {all : List Event}
    (h : parseChunks max .initial chunks = .ok all) : WithinLimits max chunks.flatten := by
  obtain ⟨events, s, handled⟩ := of_parseChunks (Parser.initial_held max) h
  obtain ⟨-, -, fit, current, later, split, first, rest⟩ :=
    handleAll_held (Fields.initial_held max) handled
  refine ⟨fit, ?_⟩
  intro lines mem
  have groups : eventLines chunks.flatten = current :: later := split
  rw [groups] at mem
  cases List.mem_cons.mp mem with
  | inl here =>
      rw [here]
      omega
  | inr there => exact rest lines there

end Stream

/-- After pushes that did not throw what the parser holds is within the limit, as is the
data of what it emitted and may still emit; a stream with a line or an event over the
limit is not read to its end without an error, however it is cut. -/
theorem parser_memory_bounded (maxLineBytes : Nat) :
    (∀ chunks events p, pushAll maxLineBytes .initial chunks = .ok (events, p) →
      Units.byteLength (dropCr p.buffer) ≤ maxLineBytes ∧
        (∀ name ∈ p.fields.eventName, Units.byteLength name ≤ maxLineBytes) ∧
        (∀ id ∈ p.fields.lastId, Units.byteLength id ≤ maxLineBytes) ∧
        heldBytes p.fields.dataLines ≤ maxLineBytes ∧
        (∀ event ∈ events, Units.byteLength event.data ≤ maxLineBytes) ∧
        ∀ out, (flush maxLineBytes p).1 = .ok out →
          ∀ event ∈ out, Units.byteLength event.data ≤ maxLineBytes) ∧
    ∀ chunks : List Units,
      ((∃ line ∈ splitLines chunks.flatten, maxLineBytes < Units.byteLength line) ∨
        ∃ lines ∈ eventLines chunks.flatten, maxLineBytes < (lines.map dataBytes).sum) →
      ∃ e, parseChunks maxLineBytes .initial chunks = .error e := by
  constructor
  · intro chunks events p pushed
    obtain ⟨held, fit⟩ := pushAll_held (Parser.initial_held maxLineBytes) pushed
    refine ⟨held.buffer, held.fields.eventName, held.fields.lastId, ?_, fit, ?_⟩
    · rw [held.fields.data]
      exact held.fields.bytes
    · intro out flushed
      exact (of_flush held flushed).1
  · intro chunks exceeded
    cases outcome : parseChunks maxLineBytes .initial chunks with
    | error e => exact ⟨e, rfl⟩
    | ok all =>
        have within := withinLimits_of_parseChunks outcome
        cases exceeded with
        | inl long =>
            obtain ⟨line, mem, exceeds⟩ := long
            exact absurd (within.line line mem) (Nat.not_le.mpr exceeds)
        | inr large =>
            obtain ⟨lines, mem, exceeds⟩ := large
            exact absurd (within.event lines mem) (Nat.not_le.mpr exceeds)

end Gateway.Sse
