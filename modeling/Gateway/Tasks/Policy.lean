import Gateway.Http.Redact
import Gateway.Lib.Fallible
import Gateway.Lib.Succession
import Gateway.Tasks.Task

/-!
References to jobs in the body of a new one.

A reference names a job by the gateway's id, and the provider's id is put in its
place. Each job is compared with the one before it, so that the new job can go to
the account that the others are on. An account that is not recorded compares with
nothing, and what is found then depends on the order.
-/

namespace Gateway

def REFERENCES : List String :=
  ["taskid", "jobid", "origintaskid", "sourcetaskid", "referencetaskid", "conversationid",
    "sessionid", "audioid", "clipid"]

def invalidBody (message : String) : Thrown := .gateway (invalidRequest message)

def forbiddenReference (message : String) : Thrown := .gateway (forbidden message)

/-- `REFERENCES.has(key.replace(/_/g, "").toLowerCase())` -/
def isReferenceKey (key : String) : Bool :=
  REFERENCES.contains (jsToLower (String.ofList (key.toList.filter (· != '_'))))

/-- A field that refers to a job: it is under a known key, and not left empty. -/
def isReference (key : String) : Json → Bool
  | .null => false
  | .str text => isReferenceKey key && text != ""
  | _ => isReferenceKey key

mutual

/-- The ids of the references, behind those that were found before. -/
def walkReferences (found : List String) : Json → Except Thrown (List String)
  | .arr items => walkItems found items
  | .obj fields => walkFields found fields
  | _ => .ok found

def walkItems (found : List String) : List Json → Except Thrown (List String)
  | [] => .ok found
  | item :: rest =>
      match walkReferences found item with
      | .error e => .error e
      | .ok found => walkItems found rest

def walkFields (found : List String) : List (String × Json) → Except Thrown (List String)
  | [] => .ok found
  | (key, child) :: rest =>
      if isReference key child then
        match child with
        | .str id =>
            if 32 < found.length + 1 then .error (invalidBody "too many task references")
            else walkFields (found ++ [id]) rest
        | _ => .error (invalidBody "task references must be gateway task ids")
      else
        match walkReferences found child with
        | .error e => .error e
        | .ok found => walkFields found rest

end

mutual

/-- The value with its references replaced in turn, and the texts that are left over. -/
def place (texts : List String) : Json → Json × List String
  | .arr items => (.arr (placeItems texts items).1, (placeItems texts items).2)
  | .obj fields => (.obj (placeFields texts fields).1, (placeFields texts fields).2)
  | value => (value, texts)

def placeItems (texts : List String) : List Json → List Json × List String
  | [] => ([], texts)
  | item :: rest =>
      ((place texts item).1 :: (placeItems (place texts item).2 rest).1,
        (placeItems (place texts item).2 rest).2)

def placeFields (texts : List String) : List (String × Json) → List (String × Json) × List String
  | [] => ([], texts)
  | (key, child) :: rest =>
      if isReference key child then
        ((key, .str (texts.headD "")) :: (placeFields texts.tail rest).1,
          (placeFields texts.tail rest).2)
      else
        ((key, (place texts child).1) :: (placeFields (place texts child).2 rest).1,
          (placeFields (place texts child).2 rest).2)

end

/-- Where the loop is: the channel and the account of the last job. -/
structure TaskAccount where
  channelId : Option String
  channelKeyId : Option String

/-- A text that is there and not empty. -/
def given (text : Option String) : Bool := text != none && text != some ""

/-- A text that is there, and is another one. -/
def Differs (text other : Option String) : Prop := given text = true ∧ text ≠ other

instance (text other : Option String) : Decidable (Differs text other) :=
  inferInstanceAs (Decidable (_ ∧ _))

/-- A job that the actor may refer to on the platform. -/
def referredTask (tasks : List TaskDoc) (actor : TaskActor) (platform : String) (id : String) :
    Except Thrown TaskDoc :=
  match requireTask tasks id actor with
  | .error e => .error e
  | .ok task =>
      if task.platform ≠ platform ∨ given task.upstreamTaskId = false then
        .error (forbiddenReference "task is not a valid reference for this platform")
      else .ok task

/-- One reference of the loop, with what takes its place. -/
def resolveReference (tasks : List TaskDoc) (actor : TaskActor) (platform : String)
    (draft : List String × TaskAccount) (id : String) : Except Thrown (List String × TaskAccount) :=
  match referredTask tasks actor platform id with
  | .error e => .error e
  | .ok task =>
      if Differs draft.2.channelId (some task.channelId) then
        .error (forbiddenReference "task references must belong to the same channel")
      else if Differs draft.2.channelKeyId task.channelKeyId then
        .error (forbiddenReference "task references must use the same provider account")
      else .ok (draft.1 ++ [task.upstreamTaskId.getD ""], ⟨some task.channelId, task.channelKeyId⟩)

structure PreparedBody where
  bytes : String
  channelId : Option String
  channelKeyId : Option String

/-- The references of a body, replaced by the ids of the provider. -/
def prepareReferences (tasks : List TaskDoc) (actor : TaskActor) (platform : String)
    (body : Record) : Except Thrown PreparedBody := do
  let ids ← walkReferences [] (.obj body)
  let (upstream, account) ← ids.foldlM (resolveReference tasks actor platform) ([], ⟨none, none⟩)
  return ⟨jsonStringify (place upstream (.obj body)).1, account.channelId, account.channelKeyId⟩

/-- `parsed` is what `safeJsonParse` makes of the bytes. -/
def prepareTaskBody (tasks : List TaskDoc) (parsed : Except Thrown Json) (contentType : String)
    (actor : TaskActor) (platform : String) : Except Thrown PreparedBody :=
  if ¬ Includes (jsToLower contentType) "application/json" then
    .error (invalidBody "task submissions currently require application/json")
  else
    match parsed with
    | .error e => .error e
    | .ok (.obj body) => prepareReferences tasks actor platform body
    | .ok _ => .error (invalidBody "task body must be an object")

section References

mutual

/-- The values of the fields that refer to jobs, at any depth and in turn. -/
def references : Json → List Json
  | .arr items => itemReferences items
  | .obj fields => fieldReferences fields
  | _ => []

def itemReferences : List Json → List Json
  | [] => []
  | item :: rest => references item ++ itemReferences rest

def fieldReferences : List (String × Json) → List Json
  | [] => []
  | (key, child) :: rest =>
      (if isReference key child then [child] else references child) ++ fieldReferences rest

end

def renameText (rename : String → String) : Json → Json
  | .str text => .str (rename text)
  | value => value

mutual

/-- The value with the text of each reference rewritten, and nothing else. -/
def renameReferences (rename : String → String) : Json → Json
  | .arr items => .arr (renameItems rename items)
  | .obj fields => .obj (renameFields rename fields)
  | value => value

def renameItems (rename : String → String) : List Json → List Json
  | [] => []
  | item :: rest => renameReferences rename item :: renameItems rename rest

def renameFields (rename : String → String) : List (String × Json) → List (String × Json)
  | [] => []
  | (key, child) :: rest =>
      (key, if isReference key child then renameText rename child
        else renameReferences rename child) :: renameFields rename rest

end

/-- One reference found behind others. -/
def noteReference (found : List String) : Json → Except Thrown (List String)
  | .str id =>
      if 32 < found.length + 1 then .error (invalidBody "too many task references")
      else .ok (found ++ [id])
  | _ => .error (invalidBody "task references must be gateway task ids")

mutual

/-- The walk is the loop over the references. -/
theorem walkReferences_eq : (value : Json) → ∀ found : List String,
    walkReferences found value = (references value).foldlM noteReference found
  | .arr items => walkItems_eq items
  | .obj fields => walkFields_eq fields
  | .null | .bool _ | .num _ | .str _ => fun _ => rfl

theorem walkItems_eq : (items : List Json) → ∀ found : List String,
    walkItems found items = (itemReferences items).foldlM noteReference found
  | [] => fun _ => rfl
  | item :: rest => by
      intro found
      rw [walkItems, itemReferences, List.foldlM_append, walkReferences_eq item]
      cases (references item).foldlM noteReference found with
      | error e => rfl
      | ok found => exact walkItems_eq rest found

theorem walkFields_eq : (fields : List (String × Json)) → ∀ found : List String,
    walkFields found fields = (fieldReferences fields).foldlM noteReference found
  | [] => fun _ => rfl
  | (key, child) :: rest => by
      intro found
      unfold walkFields
      rw [fieldReferences, List.foldlM_append]
      by_cases refers : isReference key child = true
      · rw [if_pos refers, if_pos refers, List.foldlM_cons]
        cases child with
        | str id =>
            by_cases many : 32 < found.length + 1
            · simp only [noteReference, if_pos many]
              rfl
            · simp only [noteReference, if_neg many]
              exact walkFields_eq rest (found ++ [id])
        | null | bool _ | num _ | arr _ | obj _ => rfl
      · rw [if_neg refers, if_neg refers, walkReferences_eq child]
        cases (references child).foldlM noteReference found with
        | error e => rfl
        | ok found => exact walkFields_eq rest found

end

theorem noteReference_ok {found ids : List String} {value : Json} :
    noteReference found value = .ok ids ↔
      ∃ id, value = .str id ∧ found.length + 1 ≤ 32 ∧ ids = found ++ [id] := by
  cases value with
  | str id =>
      rw [noteReference]
      split
      · next many =>
          exact iff_of_false (fun h => by cases h) fun ⟨_, _, few, _⟩ => absurd many (by omega)
      · next few => simp [eq_comm, Nat.not_lt.mp few]
  | null | bool _ | num _ | arr _ | obj _ => simp [noteReference]

theorem noteReferences_ok {values : List Json} {found ids : List String}
    (few : found.length ≤ 32) :
    values.foldlM noteReference found = .ok ids ↔
      ids.length ≤ 32 ∧ ∃ new : List String, values = new.map .str ∧ ids = found ++ new := by
  induction values generalizing found with
  | nil =>
      constructor
      · intro h
        cases h
        exact ⟨few, [], rfl, (List.append_nil _).symm⟩
      · rintro ⟨-, new, none, rfl⟩
        rw [List.map_eq_nil_iff.mp none.symm, List.append_nil]
        rfl
  | cons value rest ih =>
      rw [List.foldlM_cons]
      constructor
      · intro h
        obtain ⟨mid, first, h⟩ := Fallible.bind_ok h
        obtain ⟨id, rfl, fits, rfl⟩ := noteReference_ok.mp first
        obtain ⟨all_fit, new, rfl, rfl⟩ := (ih (by simpa using fits)).mp h
        exact ⟨all_fit, id :: new, rfl, by simp⟩
      · rintro ⟨fits, new, split_new, rfl⟩
        cases new with
        | nil => cases split_new
        | cons id new =>
            obtain ⟨rfl, rfl⟩ := List.cons_eq_cons.mp split_new
            rw [List.length_append, List.length_cons] at fits
            have first : noteReference found (.str id) = .ok (found ++ [id]) :=
              noteReference_ok.mpr ⟨id, rfl, by omega, rfl⟩
            rw [first]
            refine (ih (by rw [List.length_append, List.length_singleton]; omega)).mpr ?_
            exact ⟨by simp; omega, new, rfl, by simp⟩

/-- A walk ends when there are at most 32 references, all of them texts. -/
theorem walkReferences_ok {value : Json} {ids : List String} :
    walkReferences [] value = .ok ids ↔ ids.length ≤ 32 ∧ references value = ids.map .str := by
  rw [walkReferences_eq, noteReferences_ok (by simp)]
  simp

mutual

/-- What is put in place of the references one after the other is the renaming. -/
theorem place_renames (rename : String → String) : (value : Json) → ∀ ids rest : List String,
    references value = ids.map .str →
      place (ids.map rename ++ rest) value = (renameReferences rename value, rest)
  | .arr items => by
      intro ids rest h
      rw [place, placeItems_renames rename items ids rest h]
      rfl
  | .obj fields => by
      intro ids rest h
      rw [place, placeFields_renames rename fields ids rest h]
      rfl
  | .null | .bool _ | .num _ | .str _ => by
      intro ids rest h
      rw [List.map_eq_nil_iff.mp h.symm]
      rfl

theorem placeItems_renames (rename : String → String) : (items : List Json) →
    ∀ ids rest : List String, itemReferences items = ids.map .str →
      placeItems (ids.map rename ++ rest) items = (renameItems rename items, rest)
  | [] => by
      intro ids rest h
      rw [List.map_eq_nil_iff.mp h.symm]
      rfl
  | item :: items => by
      intro ids rest h
      obtain ⟨here, behind, rfl, first, h⟩ := List.map_eq_append_iff.mp h.symm
      have placed := place_renames rename item here (behind.map rename ++ rest) first.symm
      rw [placeItems, List.map_append, List.append_assoc, placed]
      rw [placeItems_renames rename items behind rest h.symm]
      rfl

theorem placeFields_renames (rename : String → String) : (fields : List (String × Json)) →
    ∀ ids rest : List String, fieldReferences fields = ids.map .str →
      placeFields (ids.map rename ++ rest) fields = (renameFields rename fields, rest)
  | [] => by
      intro ids rest h
      rw [List.map_eq_nil_iff.mp h.symm]
      rfl
  | (key, child) :: fields => by
      intro ids rest h
      obtain ⟨here, behind, rfl, first, h⟩ := List.map_eq_append_iff.mp h.symm
      have last := placeFields_renames rename fields behind rest h.symm
      rw [placeFields, renameFields, List.map_append, List.append_assoc]
      by_cases refers : isReference key child = true
      · rw [if_pos refers] at first
        obtain ⟨id, rfl, rfl⟩ := List.map_eq_singleton_iff.mp first
        rw [if_pos refers, if_pos refers, List.map_singleton, List.singleton_append, List.tail_cons,
          last]
        rfl
      · rw [if_neg refers] at first
        have placed := place_renames rename child here (behind.map rename ++ rest) first.symm
        rw [if_neg refers, if_neg refers, placed, last]

end

/-- A field that does not refer to a job still does not when what it holds is replaced. -/
theorem isReference_place {key : String} {child : Json} (texts : List String)
    (plain : isReference key child = false) : isReference key (place texts child).1 = false := by
  cases child with
  | null | bool _ | num _ | str _ => simpa only [place] using plain
  | arr _ | obj _ => simpa only [place, isReference] using plain

theorem isReference_str {key : String} {child : Json} {text : String}
    (refers : isReference key child = true) (some_text : text ≠ "") :
    isReference key (.str text) = true := by
  have known : isReferenceKey key = true := by
    cases child with
    | null => simp only [isReference, Bool.false_eq_true] at refers
    | str _ =>
        rw [isReference, Bool.and_eq_true] at refers
        exact refers.1
    | bool _ | num _ | arr _ | obj _ => simpa only [isReference] using refers
  simp [isReference, known, some_text]

mutual

/-- The references of what was put together are the texts that were put in place. -/
theorem references_place : (value : Json) → ∀ texts rest : List String,
    texts.length = (references value).length → (∀ text ∈ texts, text ≠ "") →
      references (place (texts ++ rest) value).1 = texts.map .str ∧
        (place (texts ++ rest) value).2 = rest
  | .arr items => references_placeItems items
  | .obj fields => references_placeFields fields
  | .null | .bool _ | .num _ | .str _ => by
      intro texts rest size _
      rw [List.length_eq_zero_iff.mp size]
      exact ⟨rfl, rfl⟩

theorem references_placeItems : (items : List Json) → ∀ texts rest : List String,
    texts.length = (itemReferences items).length → (∀ text ∈ texts, text ≠ "") →
      itemReferences (placeItems (texts ++ rest) items).1 = texts.map .str ∧
        (placeItems (texts ++ rest) items).2 = rest
  | [] => by
      intro texts rest size _
      rw [List.length_eq_zero_iff.mp size]
      exact ⟨rfl, rfl⟩
  | item :: items => by
      intro texts rest size filled
      rw [itemReferences, List.length_append] at size
      obtain ⟨here, behind, rfl, here_size⟩ :
          ∃ here behind, texts = here ++ behind ∧ here.length = (references item).length :=
        ⟨_, _, (List.take_append_drop (references item).length texts).symm,
          List.length_take_of_le (by omega)⟩
      rw [List.length_append] at size
      obtain ⟨filled_here, filled_behind⟩ := List.forall_mem_append.mp filled
      obtain ⟨first, left⟩ := references_place item here (behind ++ rest) here_size filled_here
      obtain ⟨last, done⟩ :=
        references_placeItems items behind rest (by omega) filled_behind
      rw [List.append_assoc, placeItems, itemReferences, left, first, last, List.map_append]
      exact ⟨rfl, done⟩

theorem references_placeFields : (fields : List (String × Json)) → ∀ texts rest : List String,
    texts.length = (fieldReferences fields).length → (∀ text ∈ texts, text ≠ "") →
      fieldReferences (placeFields (texts ++ rest) fields).1 = texts.map .str ∧
        (placeFields (texts ++ rest) fields).2 = rest
  | [] => by
      intro texts rest size _
      rw [List.length_eq_zero_iff.mp size]
      exact ⟨rfl, rfl⟩
  | (key, child) :: fields => by
      intro texts rest size filled
      rw [fieldReferences, List.length_append] at size
      rw [placeFields]
      by_cases refers : isReference key child = true
      · rw [if_pos refers, List.length_singleton] at size
        cases texts with
        | nil =>
            rw [List.length_nil] at size
            omega
        | cons text texts =>
            obtain ⟨some_text, filled⟩ := List.forall_mem_cons.mp filled
            rw [List.length_cons] at size
            obtain ⟨last, done⟩ := references_placeFields fields texts rest (by omega) filled
            rw [if_pos refers, List.cons_append, List.tail_cons, List.headD_cons, fieldReferences,
              if_pos (isReference_str refers some_text), last]
            exact ⟨rfl, done⟩
      · rw [if_neg refers] at size
        obtain ⟨here, behind, rfl, here_size⟩ :
            ∃ here behind, texts = here ++ behind ∧ here.length = (references child).length :=
          ⟨_, _, (List.take_append_drop (references child).length texts).symm,
            List.length_take_of_le (by omega)⟩
        rw [List.length_append] at size
        obtain ⟨filled_here, filled_behind⟩ := List.forall_mem_append.mp filled
        obtain ⟨first, left⟩ := references_place child here (behind ++ rest) here_size filled_here
        obtain ⟨last, done⟩ := references_placeFields fields behind rest (by omega) filled_behind
        have plain := isReference_place (here ++ (behind ++ rest)) (Bool.not_eq_true _ ▸ refers)
        rw [if_neg refers, List.append_assoc, fieldReferences, if_neg (by rw [plain]; simp), left,
          first, last, List.map_append]
        exact ⟨rfl, done⟩

end

end References

end Gateway
