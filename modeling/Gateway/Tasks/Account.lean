import Gateway.Tasks.Policy

/-!
The account that the references of a body lead to.

Whether a body passes is a chain condition on its jobs: each may follow the one
before it. An account that is not recorded may be followed by any, but follows no
recorded one.
-/

namespace Gateway

/-- A job that a reference may name. -/
structure Referable (tasks : List TaskDoc) (actor : TaskActor) (platform id : String)
    (task : TaskDoc) : Prop where
  found : requireTask tasks id actor = .ok task
  visible : visibleTo actor task = true
  platform : task.platform = platform
  upstream : given task.upstreamTaskId = true

/-- The job behind a reference does not stop the loop after this one. -/
def MayFollow (task next : TaskDoc) : Prop :=
  ¬ Differs (some task.channelId) (some next.channelId) ∧
    ¬ Differs task.channelKeyId next.channelKeyId

def SameAccount (task other : TaskDoc) : Prop :=
  task.channelId = other.channelId ∧ task.channelKeyId = other.channelKeyId

/-- A body that is sent on with the provider's ids of jobs on one account, and nothing else new. -/
def OnOneAccount (tasks : List TaskDoc) (actor : TaskActor) (platform : String) (body : Json)
    (bytes : String) : Prop :=
  ∃ (upstream : String → String) (channelId : String) (channelKeyId : Option String),
    bytes = jsonStringify (renameReferences upstream body) ∧
      ∀ value ∈ references body, ∃ id task, value = .str id ∧
        Referable tasks actor platform id task ∧ task.upstreamTaskId = some (upstream id) ∧
          task.channelId = channelId ∧ task.channelKeyId = channelKeyId

def Accepts (tasks : List TaskDoc) (contentType : String) (actor : TaskActor) (platform : String)
    (body : Json) : Prop :=
  ∃ prepared, prepareTaskBody tasks (.ok body) contentType actor platform = .ok prepared

def isObject : Json → Bool
  | .obj _ => true
  | _ => false

/-- The same references in some order, with anything else around them. -/
def SameReferences (other body : Json) : Prop :=
  isObject other = isObject body ∧ (references other).Perm (references body)

/-- A body that the loop over its references is reached with, and each of them names a job. -/
structure Resolvable (tasks : List TaskDoc) (contentType : String) (actor : TaskActor)
    (platform : String) (body : Json) : Prop where
  json : Includes (jsToLower contentType) "application/json"
  object : isObject body = true
  few : (references body).length ≤ 32
  referable : ∀ value ∈ references body, ∃ id task, value = .str id ∧
    Referable tasks actor platform id task

/-- What is sent on stays on one account, and the order of the references does not matter. -/
def StaysOnAccount (tasks : List TaskDoc) (contentType : String) (actor : TaskActor)
    (platform : String) (body : Json) : Prop :=
  (∀ prepared, prepareTaskBody tasks (.ok body) contentType actor platform = .ok prepared →
      OnOneAccount tasks actor platform body prepared.bytes) ∧
    ∀ other, SameReferences other body →
      (Accepts tasks contentType actor platform other ↔
        Accepts tasks contentType actor platform body)

/-- The job is named by a reference of the body. -/
def Referred (tasks : List TaskDoc) (actor : TaskActor) (platform : String) (body : Json)
    (task : TaskDoc) : Prop :=
  ∃ id, .str id ∈ references body ∧ Referable tasks actor platform id task

section Loop

variable {tasks : List TaskDoc} {contentType : String} {actor : TaskActor} {platform : String}

theorem Differs.refl (text : Option String) : ¬ Differs text text := fun h => h.2 rfl

theorem Differs.comp {text mid last : Option String} (first : ¬ Differs text mid)
    (second : ¬ Differs mid last) : ¬ Differs text last := by
  rintro ⟨known, other⟩
  have same : text = mid := by_contra fun h => first ⟨known, h⟩
  subst same
  exact second ⟨known, other⟩

theorem follows_refl (task : TaskDoc) : MayFollow task task :=
  ⟨Differs.refl _, Differs.refl _⟩

theorem follows_trans (task mid last : TaskDoc) (first : MayFollow task mid)
    (second : MayFollow mid last) : MayFollow task last :=
  ⟨Differs.comp first.1 second.1, Differs.comp first.2 second.2⟩

theorem follows_of_sameAccount {task next : TaskDoc} (same : SameAccount task next) :
    MayFollow task next := by
  rw [MayFollow, same.1, same.2]
  exact ⟨Differs.refl _, Differs.refl _⟩

theorem referredTask_ok {id : String} {task : TaskDoc} :
    referredTask tasks actor platform id = .ok task ↔ Referable tasks actor platform id task := by
  constructor
  · intro h
    rw [referredTask] at h
    cases found : requireTask tasks id actor with
    | error e =>
        rw [found] at h
        cases h
    | ok doc =>
        rw [found] at h
        simp only at h
        split at h
        · cases h
        · next valid =>
            cases h
            rw [not_or, not_not, Bool.not_eq_false] at valid
            exact ⟨found, (requireTask_ok found).2.2.2, valid.1, valid.2⟩
  · intro named
    rw [referredTask, named.found]
    exact if_neg fun h => h.elim (absurd named.platform) fun none => by
      rw [named.upstream] at none
      cases none

theorem Referable.unique {id : String} {task other : TaskDoc}
    (named : Referable tasks actor platform id task)
    (again : Referable tasks actor platform id other) : task = other :=
  Except.ok.inj (named.found.symm.trans again.found)

/-- The id of a job is not empty. -/
theorem Referable.id_ne {id : String} {task : TaskDoc}
    (named : Referable tasks actor platform id task) : id ≠ "" := by
  rintro rfl
  have known := (requireTask_ok named.found).1
  revert known
  decide

def accountOf (task : TaskDoc) : TaskAccount := ⟨some task.channelId, task.channelKeyId⟩

theorem resolveReference_ok {texts : List String} {account : TaskAccount} {id : String}
    {draft : List String × TaskAccount} :
    resolveReference tasks actor platform (texts, account) id = .ok draft ↔
      ∃ task, Referable tasks actor platform id task ∧
        (¬ Differs account.channelId (some task.channelId) ∧
          ¬ Differs account.channelKeyId task.channelKeyId) ∧
        draft = (texts ++ [task.upstreamTaskId.getD ""], accountOf task) := by
  constructor
  · intro h
    rw [resolveReference] at h
    cases found : referredTask tasks actor platform id with
    | error e =>
        rw [found] at h
        cases h
    | ok task =>
        rw [found] at h
        simp only at h
        split at h
        · cases h
        · next same_channel =>
            by_cases same_key : Differs account.channelKeyId task.channelKeyId
            · rw [if_pos same_key] at h
              cases h
            · rw [if_neg same_key] at h
              cases h
              exact ⟨task, referredTask_ok.mp found, ⟨same_channel, same_key⟩, rfl⟩
  · rintro ⟨task, named, ⟨same_channel, same_key⟩, rfl⟩
    rw [resolveReference, referredTask_ok.mpr named]
    simp only [if_neg same_channel, if_neg same_key]
    rfl

/-- The loop ends when its references name jobs, and each may follow the one before it. -/
theorem resolveReferences_ok {named : String → TaskDoc} {ids : List String}
    (referable : ∀ id ∈ ids, Referable tasks actor platform id (named id)) (texts : List String)
    (account : TaskAccount) :
    ((∀ first ∈ ids.head?, ¬ Differs account.channelId (some (named first).channelId) ∧
          ¬ Differs account.channelKeyId (named first).channelKeyId) ∧
        ids.IsChain (fun id next => MayFollow (named id) (named next))) ↔
      ∃ draft, ids.foldlM (resolveReference tasks actor platform) (texts, account) = .ok draft := by
  induction ids generalizing texts account with
  | nil => simp [pure, Except.pure]
  | cons id rest ih =>
      obtain ⟨here, behind⟩ := List.forall_mem_cons.mp referable
      rw [List.isChain_cons]
      constructor
      · rintro ⟨may_follow, follows, chain⟩
        have step : resolveReference tasks actor platform (texts, account) id =
            .ok (texts ++ [(named id).upstreamTaskId.getD ""], accountOf (named id)) :=
          resolveReference_ok.mpr ⟨named id, here, may_follow id rfl, rfl⟩
        obtain ⟨draft, ran⟩ := (ih behind _ (accountOf (named id))).mp ⟨follows, chain⟩
        refine ⟨draft, ?_⟩
        rw [List.foldlM_cons, step]
        exact ran
      · rintro ⟨draft, ran⟩
        obtain ⟨mid, step, ran⟩ := Fallible.foldlM_cons_ok ran
        obtain ⟨task, known, may_follow, rfl⟩ := resolveReference_ok.mp step
        rw [known.unique here] at may_follow ran
        obtain ⟨follows, chain⟩ := (ih behind _ _).mpr ⟨draft, ran⟩
        refine ⟨fun first first_eq => ?_, follows, chain⟩
        rw [← Option.some.inj first_eq]
        exact may_follow

/-- What the loop puts in place of the references are the provider's ids of the jobs. -/
theorem resolveReferences_texts {named : String → TaskDoc} {ids : List String}
    (referable : ∀ id ∈ ids, Referable tasks actor platform id (named id))
    {start draft : List String × TaskAccount}
    (ran : ids.foldlM (resolveReference tasks actor platform) start = .ok draft) :
    draft.1 = start.1 ++ ids.map fun id => (named id).upstreamTaskId.getD "" := by
  induction ids generalizing start with
  | nil =>
      cases ran
      simp
  | cons id rest ih =>
      obtain ⟨here, behind⟩ := List.forall_mem_cons.mp referable
      obtain ⟨mid, step, ran⟩ := Fallible.foldlM_cons_ok ran
      obtain ⟨task, known, -, rfl⟩ := resolveReference_ok.mp step
      rw [ih behind ran, known.unique here]
      simp

/-- Where the loop ends, every reference named a job. -/
theorem resolveReferences_named {ids : List String} {start draft : List String × TaskAccount}
    (ran : ids.foldlM (resolveReference tasks actor platform) start = .ok draft) :
    ∀ id ∈ ids, ∃ task, Referable tasks actor platform id task :=
  Fallible.foldlM_requires (fun _ _ _ step => by
    obtain ⟨task, known, -⟩ := resolveReference_ok.mp step
    exact ⟨task, known⟩) ran

theorem prepareTaskBody_ok {body : Json} {prepared : PreparedBody} :
    prepareTaskBody tasks (.ok body) contentType actor platform = .ok prepared ↔
      Includes (jsToLower contentType) "application/json" ∧ isObject body = true ∧
        ∃ (ids : List String) (draft : List String × TaskAccount), ids.length ≤ 32 ∧
          references body = ids.map .str ∧
          ids.foldlM (resolveReference tasks actor platform) ([], ⟨none, none⟩) = .ok draft ∧
            prepared = ⟨jsonStringify (place draft.1 body).1, draft.2.channelId,
              draft.2.channelKeyId⟩ := by
  unfold prepareTaskBody
  by_cases json : Includes (jsToLower contentType) "application/json"
  · rw [if_neg (not_not.mpr json)]
    cases body with
    | null | bool _ | num _ | str _ | arr _ => exact iff_of_false (by simp) (by simp [isObject])
    | obj fields =>
        constructor
        · intro h
          obtain ⟨ids, walked, h⟩ := Fallible.bind_ok h
          obtain ⟨draft, ran, h⟩ := Fallible.bind_ok h
          obtain ⟨few, texts⟩ := walkReferences_ok.mp walked
          cases h
          exact ⟨json, rfl, ids, draft, few, texts, ran, rfl⟩
        · rintro ⟨-, -, ids, draft, few, texts, ran, rfl⟩
          simp only [prepareReferences, walkReferences_ok.mpr ⟨few, texts⟩]
          change (ids.foldlM (resolveReference tasks actor platform) ([], ⟨none, none⟩) >>= _) = _
          rw [ran]
          rfl
  · rw [if_pos json]
    exact iff_of_false (by simp) fun h => json h.1

theorem references_texts {body : Json}
    (ready : Resolvable tasks contentType actor platform body) :
    ∃ (ids : List String) (named : String → TaskDoc), references body = ids.map .str ∧
      ∀ id ∈ ids, Referable tasks actor platform id (named id) := by
  classical
  have texts : ∃ ids : List String, references body = ids.map .str := by
    have all_texts := ready.referable
    generalize references body = values at all_texts ⊢
    induction values with
    | nil => exact ⟨[], rfl⟩
    | cons value rest ih =>
        obtain ⟨⟨id, task, rfl, -⟩, behind⟩ := List.forall_mem_cons.mp all_texts
        obtain ⟨ids, rfl⟩ := ih behind
        exact ⟨id :: ids, rfl⟩
  obtain ⟨ids, texts⟩ := texts
  refine ⟨ids, fun id => if h : ∃ task, Referable tasks actor platform id task then h.choose
    else default, texts, fun id mem => ?_⟩
  have known : ∃ task, Referable tasks actor platform id task := by
    obtain ⟨_, task, same, known⟩ :=
      ready.referable (.str id) (texts ▸ List.mem_map_of_mem mem)
    cases same
    exact ⟨task, known⟩
  simpa only [dif_pos known] using known.choose_spec

theorem resolvable_of_ok {body : Json} {prepared : PreparedBody}
    (h : prepareTaskBody tasks (.ok body) contentType actor platform = .ok prepared) :
    Resolvable tasks contentType actor platform body := by
  obtain ⟨json, object, ids, draft, few, texts, ran, -⟩ := prepareTaskBody_ok.mp h
  refine ⟨json, object, by rwa [texts, List.length_map], fun value mem => ?_⟩
  rw [texts] at mem
  obtain ⟨id, id_mem, rfl⟩ := List.mem_map.mp mem
  obtain ⟨task, known⟩ := resolveReferences_named ran id id_mem
  exact ⟨id, task, rfl, known⟩

/-- A body whose references name jobs is accepted when each may follow the one before it. -/
theorem accepts_iff_isChain {body : Json} {ids : List String} {named : String → TaskDoc}
    (ready : Resolvable tasks contentType actor platform body)
    (texts : references body = ids.map .str)
    (referable : ∀ id ∈ ids, Referable tasks actor platform id (named id)) :
    Accepts tasks contentType actor platform body ↔
      ids.IsChain fun id next => MayFollow (named id) (named next) := by
  have free : ∀ first ∈ ids.head?, ¬ Differs none (some (named first).channelId) ∧
      ¬ Differs none (named first).channelKeyId := by simp [Differs, given]
  constructor
  · rintro ⟨prepared, h⟩
    obtain ⟨-, -, others, draft, -, same_texts, ran, -⟩ := prepareTaskBody_ok.mp h
    have same : others = ids :=
      List.map_injective_iff.mpr (fun _ _ => Json.str.inj) (same_texts.symm.trans texts)
    subst same
    exact ((resolveReferences_ok referable [] ⟨none, none⟩).mpr ⟨draft, ran⟩).2
  · intro chain
    obtain ⟨draft, ran⟩ := (resolveReferences_ok referable [] ⟨none, none⟩).mp ⟨free, chain⟩
    have few := ready.few
    rw [texts, List.length_map] at few
    exact ⟨_, prepareTaskBody_ok.mpr
      ⟨ready.json, ready.object, ids, draft, few, texts, ran, rfl⟩⟩

theorem Resolvable.of_sameReferences {body other : Json}
    (ready : Resolvable tasks contentType actor platform body)
    (same : SameReferences other body) :
    Resolvable tasks contentType actor platform other :=
  ⟨ready.json, same.1.trans ready.object, same.2.length_eq ▸ ready.few,
    fun value mem => ready.referable value (same.2.mem_iff.mp mem)⟩

/-- What is sent on is the body with each reference renamed to the provider's id of its job. -/
theorem prepared_bytes {body : Json} {ids : List String} {named : String → TaskDoc}
    {prepared : PreparedBody} (texts : references body = ids.map .str)
    (referable : ∀ id ∈ ids, Referable tasks actor platform id (named id))
    (h : prepareTaskBody tasks (.ok body) contentType actor platform = .ok prepared) :
    prepared.bytes =
      jsonStringify (renameReferences (fun id => (named id).upstreamTaskId.getD "") body) := by
  obtain ⟨-, -, others, draft, -, same_texts, ran, rfl⟩ := prepareTaskBody_ok.mp h
  have same : others = ids :=
    List.map_injective_iff.mpr (fun _ _ => Json.str.inj) (same_texts.symm.trans texts)
  subst same
  have put := resolveReferences_texts referable ran
  rw [List.nil_append] at put
  have placed :=
    place_renames (fun id => (named id).upstreamTaskId.getD "") body others [] texts
  rw [List.append_nil, ← put] at placed
  rw [placed]

/-- A body that is sent on stays on one account when the jobs that it names are on one. -/
theorem onOneAccount_iff {body : Json} {ids : List String} {named : String → TaskDoc}
    (ready : Resolvable tasks contentType actor platform body)
    (texts : references body = ids.map .str)
    (referable : ∀ id ∈ ids, Referable tasks actor platform id (named id)) :
    (∀ prepared, prepareTaskBody tasks (.ok body) contentType actor platform = .ok prepared →
        OnOneAccount tasks actor platform body prepared.bytes) ↔
      (ids.IsChain (fun id next => MayFollow (named id) (named next)) →
        ∀ id ∈ ids, ∀ other ∈ ids, SameAccount (named id) (named other)) := by
  have mem_references : ∀ id ∈ ids, .str id ∈ references body := fun id mem =>
    texts ▸ List.mem_map_of_mem mem
  constructor
  · intro stays chain
    obtain ⟨prepared, h⟩ := (accepts_iff_isChain ready texts referable).mpr chain
    obtain ⟨upstream, channelId, channelKeyId, -, each⟩ := stays prepared h
    have on_account : ∀ id ∈ ids, (named id).channelId = channelId ∧
        (named id).channelKeyId = channelKeyId := by
      intro id mem
      obtain ⟨_, task, same, known, -, on_channel, on_key⟩ := each _ (mem_references id mem)
      cases same
      rw [(referable id mem).unique known]
      exact ⟨on_channel, on_key⟩
    intro id mem other other_mem
    obtain ⟨channel, key⟩ := on_account id mem
    obtain ⟨other_channel, other_key⟩ := on_account other other_mem
    exact ⟨channel.trans other_channel.symm, key.trans other_key.symm⟩
  · intro agree prepared h
    have same := agree ((accepts_iff_isChain ready texts referable).mp ⟨prepared, h⟩)
    refine ⟨fun id => (named id).upstreamTaskId.getD "", (ids.head?.elim default named).channelId,
      (ids.head?.elim default named).channelKeyId, prepared_bytes texts referable h,
      fun value mem => ?_⟩
    rw [texts] at mem
    obtain ⟨id, id_mem, rfl⟩ := List.mem_map.mp mem
    have known := referable id id_mem
    have upstream : (named id).upstreamTaskId = some ((named id).upstreamTaskId.getD "") := by
      have some_text := known.upstream
      cases there : (named id).upstreamTaskId with
      | none =>
          rw [there] at some_text
          cases some_text
      | some text => rfl
    refine ⟨id, named id, rfl, known, upstream, ?_⟩
    cases ids with
    | nil => cases id_mem
    | cons first rest => exact same id id_mem first List.mem_cons_self

/-- Any order in which the ids may be put is that of a body with the same references. -/
theorem unordered_iff {body : Json} {ids : List String} {named : String → TaskDoc}
    (ready : Resolvable tasks contentType actor platform body)
    (texts : references body = ids.map .str)
    (referable : ∀ id ∈ ids, Referable tasks actor platform id (named id)) :
    (∀ other, SameReferences other body →
        (Accepts tasks contentType actor platform other ↔
          Accepts tasks contentType actor platform body)) ↔
      ∀ others : List String, others.Perm ids →
        (others.IsChain (fun id next => MayFollow (named id) (named next)) ↔
          ids.IsChain fun id next => MayFollow (named id) (named next)) := by
  rw [accepts_iff_isChain ready texts referable]
  constructor
  · intro unordered others perm
    have filled : ∀ id ∈ others, id ≠ "" := fun id mem =>
      (referable id (perm.mem_iff.mp mem)).id_ne
    have size : others.length = (references body).length := by
      rw [texts, List.length_map, perm.length_eq]
    have put := (references_place body others [] size filled).1
    rw [List.append_nil] at put
    have object : isObject (place others body).1 = isObject body := by
      have is_object := ready.object
      cases body with
      | obj fields => rfl
      | null | bool _ | num _ | str _ | arr _ => cases is_object
    have same : SameReferences (place others body).1 body := by
      refine ⟨object, ?_⟩
      rw [put, texts]
      exact perm.map _
    rw [← unordered _ same]
    exact (accepts_iff_isChain (ready.of_sameReferences same) put fun id mem =>
      referable id (perm.mem_iff.mp mem)).symm
  · intro unordered other same
    have other_ready := ready.of_sameReferences same
    obtain ⟨others, _, other_texts, -⟩ := references_texts other_ready
    have perm : others.Perm ids := by
      have perm := same.2
      rw [other_texts, texts] at perm
      exact (List.map_perm_map_iff fun _ _ => Json.str.inj).mp perm
    rw [accepts_iff_isChain other_ready other_texts fun id mem =>
      referable id (perm.mem_iff.mp mem)]
    exact unordered others perm

end Loop

/-- References stay on one account, whatever their order, exactly where the jobs that they name
are on one account or two of them may not follow each other in either order. -/
theorem references_stay_on_account_iff (tasks : List TaskDoc) (contentType : String)
    (actor : TaskActor) (platform : String) (body : Json) :
    StaysOnAccount tasks contentType actor platform body ↔
      (Resolvable tasks contentType actor platform body →
        (∀ task other, Referred tasks actor platform body task →
            Referred tasks actor platform body other → SameAccount task other) ∨
          ∃ task other, Referred tasks actor platform body task ∧
            Referred tasks actor platform body other ∧
              ¬ MayFollow task other ∧ ¬ MayFollow other task) := by
  by_cases ready : Resolvable tasks contentType actor platform body
  · obtain ⟨ids, named, texts, referable⟩ := references_texts ready
    have referred : ∀ task, Referred tasks actor platform body task ↔
        ∃ id ∈ ids, named id = task := by
      intro task
      constructor
      · rintro ⟨id, mem, known⟩
        rw [texts] at mem
        obtain ⟨_, id_mem, same⟩ := List.mem_map.mp mem
        cases same
        exact ⟨id, id_mem, (referable id id_mem).unique known⟩
      · rintro ⟨id, mem, rfl⟩
        exact ⟨id, texts ▸ List.mem_map_of_mem mem, referable id mem⟩
    have alike : ∀ id next, SameAccount (named id) (named next) →
        MayFollow (named id) (named next) := fun _ _ => follows_of_sameAccount
    have settled := Succession.sound_and_unordered_iff alike (fun _ => follows_refl _)
      (fun _ _ _ => follows_trans _ _ _) ids
    rw [StaysOnAccount, onOneAccount_iff ready texts referable,
      unordered_iff ready texts referable, settled, forall_prop_of_true ready]
    simp only [referred]
    constructor
    · rintro (agree | ⟨id, mem, other, other_mem, fails⟩)
      · left
        rintro _ _ ⟨id, mem, rfl⟩ ⟨other, other_mem, rfl⟩
        exact agree id mem other other_mem
      · exact .inr ⟨_, _, ⟨id, mem, rfl⟩, ⟨other, other_mem, rfl⟩, fails⟩
    · rintro (agree | ⟨_, _, ⟨id, mem, rfl⟩, ⟨other, other_mem, rfl⟩, fails⟩)
      · exact .inl fun id mem other other_mem => agree _ _ ⟨id, mem, rfl⟩ ⟨other, other_mem, rfl⟩
      · exact .inr ⟨id, mem, other, other_mem, fails⟩
  · have refused : ∀ other, SameReferences other body →
        ¬ Accepts tasks contentType actor platform other := by
      rintro other same ⟨prepared, h⟩
      exact ready ((resolvable_of_ok h).of_sameReferences ⟨same.1.symm, same.2.symm⟩)
    have itself : ¬ Accepts tasks contentType actor platform body :=
      refused body ⟨rfl, List.Perm.refl _⟩
    refine iff_of_true ⟨fun prepared h => absurd ⟨prepared, h⟩ itself, fun other same => ?_⟩
      fun h => absurd h ready
    exact iff_of_false (refused other same) itself

section Unrecorded

/-- A job of the owner on the only channel, with an account or with none recorded. -/
def songTask (taskId upstreamTaskId : String) (channelKeyId : Option String) : TaskDoc :=
  { (default : TaskDoc) with
    taskId := taskId, upstreamTaskId := some upstreamTaskId, platform := "suno", userId := "owner"
    channelId := "channel", channelKeyId := channelKeyId }

def songTasks : List TaskDoc :=
  [songTask "task-aaaaaaaaaaaaaaaaaaaaaaaaaaaa" "clip-1" none,
    songTask "task-bbbbbbbbbbbbbbbbbbbbbbbbbbbb" "clip-2" (some "key-2")]

def songBody (taskId clipId : String) : Json :=
  .obj [("task_id", .str taskId), ("clip_id", .str clipId)]

theorem accepts_iff_toBool {tasks : List TaskDoc} {contentType : String} {actor : TaskActor}
    {platform : String} {body : Json} :
    Accepts tasks contentType actor platform body ↔
      (prepareTaskBody tasks (.ok body) contentType actor platform).toBool = true := by
  rw [Accepts]
  cases prepareTaskBody tasks (.ok body) contentType actor platform with
  | error e => simp [Except.toBool]
  | ok prepared => simp [Except.toBool]

/-- A job without an account passes in front of one with an account, and not behind it. -/
theorem unrecorded_account_passes_first :
    ¬ StaysOnAccount songTasks "application/json" ⟨"owner", "user"⟩ "suno"
      (songBody "task-aaaaaaaaaaaaaaaaaaaaaaaaaaaa" "task-bbbbbbbbbbbbbbbbbbbbbbbbbbbb") := by
  rintro ⟨-, unordered⟩
  have same := unordered
    (songBody "task-bbbbbbbbbbbbbbbbbbbbbbbbbbbb" "task-aaaaaaaaaaaaaaaaaaaaaaaaaaaa")
    ⟨rfl, List.Perm.swap _ _ []⟩
  rw [accepts_iff_toBool, accepts_iff_toBool] at same
  have accepted : (prepareTaskBody songTasks (.ok (songBody "task-aaaaaaaaaaaaaaaaaaaaaaaaaaaa"
      "task-bbbbbbbbbbbbbbbbbbbbbbbbbbbb")) "application/json" ⟨"owner", "user"⟩ "suno").toBool =
        true := by decide +kernel
  have refused : (prepareTaskBody songTasks (.ok (songBody "task-bbbbbbbbbbbbbbbbbbbbbbbbbbbb"
      "task-aaaaaaaaaaaaaaaaaaaaaaaaaaaa")) "application/json" ⟨"owner", "user"⟩ "suno").toBool =
        false := by decide +kernel
  exact Bool.false_ne_true (refused.symm.trans (same.mpr accepted))

end Unrecorded

end Gateway
