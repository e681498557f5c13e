import Gateway.Lib.Simulation
import Gateway.Redis.Admission
import Gateway.Redis.Lua

/-!
The Lua programs and their twins, over whole histories.

The two stores agree key by key: a key that is dead or empty in one may be
missing in the other, and otherwise they hold the same value with the same
expiry. A list is never looked into, so only its type counts.
-/

namespace Gateway.Redis

/-- What a key is used for. -/
inductive KeyUse where
  | bucket
  | window
  | sliding
  | leases
  | rotation
  | health
  | lock
  | usage
deriving DecidableEq

/-- A call of a script; the owner of a lock sets it, and usage is appended, by one command. -/
inductive ScriptCall where
  | tokenBucket (key : String) (capacity refill now cost ttl : Int)
  | fixedWindow (key : String) (limit window cost : Int)
  | slidingSuccess (key : String) (limit window now : Int) (member : String)
  | concurrency (key : String) (limit now ttl : Int) (member : String)
  | nextKey (key : String) (size : Int)
  | health (key : String) (ok threshold cooldown now : Int)
  | releaseLock (key owner : String)
  | ackUsage (listKey lockKey owner : String) (start : Int)
  | acquireLock (key owner : String) (seconds : Int)
  | append (listKey item : String)

/-- A script is atomic, so a call happens at one instant of the common clock. -/
structure TimedCall where
  clock : Int
  call : ScriptCall

namespace ScriptCall

/-- The call uses every key for what the key is used for. -/
def Fits (uses : String → KeyUse) : ScriptCall → Prop
  | .tokenBucket key _ _ _ _ _ => uses key = .bucket
  | .fixedWindow key _ _ _ => uses key = .window
  | .slidingSuccess key _ _ now _ => uses key = .sliding ∧ 0 ≤ now
  | .concurrency key _ _ _ _ => uses key = .leases
  | .nextKey key _ => uses key = .rotation
  | .health key _ _ _ _ => uses key = .health
  | .releaseLock key _ => uses key = .lock
  | .ackUsage listKey lockKey _ _ => uses listKey = .usage ∧ uses lockKey = .lock
  | .acquireLock key _ seconds => uses key = .lock ∧ 0 < seconds
  | .append listKey _ => uses listKey = .usage

/-- The Lua program, or the one command. -/
def lua (run : Command → Lua.Program Reply) : ScriptCall → Lua.Program Lua.Returned
  | .tokenBucket key capacity refill now cost ttl =>
      Lua.tokenBucket run key capacity refill now cost ttl
  | .fixedWindow key limit window cost => Lua.fixedWindow run key limit window cost
  | .slidingSuccess key limit window now member =>
      Lua.slidingSuccess run key limit window now member
  | .concurrency key limit now ttl member => Lua.concurrency run key limit now ttl member
  | .nextKey key size => Lua.nextKey run key size
  | .health key ok threshold cooldown now => Lua.health run key ok threshold cooldown now
  | .releaseLock key owner => Lua.releaseLock run key owner
  | .ackUsage listKey lockKey owner start => Lua.ackUsage run listKey lockKey owner start
  | .acquireLock key owner seconds => do
      let set ← run (.on key (.set (.text owner) ⟨true, false, some seconds, none⟩))
      return .number (if set = .ok then 1 else 0)
  | .append listKey item => do
      let _ ← run (.on listKey (.rpush [.text item]))
      return .table []

variable {σ : Type}

/-- The twin of the program, or the one command. -/
def twin (run : Interpreter σ) (c : ScriptCall) (s : σ) : List ℚ × σ :=
  match c with
  | .tokenBucket key capacity refill now cost ttl =>
      Redis.tokenBucket run key capacity refill now cost ttl s
  | .fixedWindow key limit window cost => Redis.fixedWindow run key limit window cost s
  | .slidingSuccess key limit window now member =>
      Redis.slidingSuccess run key limit window now member s
  | .concurrency key limit now ttl member => Redis.concurrency run key limit now ttl member s
  | .nextKey key size => Redis.nextKey run key size s
  | .health key ok threshold cooldown now => Redis.health run key ok threshold cooldown now s
  | .releaseLock key owner => Redis.releaseLock run key owner s
  | .ackUsage listKey lockKey owner start => Redis.ackUsage run listKey lockKey owner start s
  | .acquireLock key owner seconds =>
      let (set, s) := run (.on key (.set (.text owner) ⟨true, false, some seconds, none⟩)) s
      ([if set = .ok then 1 else 0], s)
  | .append listKey item =>
      let (_, s) := run (.on listKey (.rpush [.text item])) s
      ([], s)

/-- Equal tuples, but for the seconds to expiry of the fixed window. -/
def SameTuple : ScriptCall → List ℚ → List ℚ → Prop
  | .fixedWindow .., r, r' => r.length = r'.length ∧ r.take 2 = r'.take 2
  | _, r, r' => r = r'

end ScriptCall

section Agreement

/-- The values under a key that both programs write alike. -/
def Plain : KeyUse → Value → Prop
  | .bucket, v => ∃ tokens ts : ℚ,
      v = .hash [("tokens", .number (.finite tokens)), ("ts", .number (.finite ts))]
  | .window, v => ∃ n : Int, v = .scalar (.number (.ofInt n))
  | .rotation, v => ∃ n : Int, 1 ≤ n ∧ v = .scalar (.number (.ofInt n))
  | .health, v => ∃ (fails : Int) (rest : List (String × Datum)),
      v = .hash (("fails", .number (.ofInt fails)) :: rest)
  | .lock, v => ∃ owner, v = .scalar (.text owner)
  | _, _ => False

/-- The same sorted set but for the order of equal scores, with entries that all satisfy `P`. -/
def SetsAgree (P : Scored → Prop) (now : Int) (a b : Option Entry) : Prop :=
  ∃ xs ys, zsetOf (live now a) = some xs ∧ zsetOf (live now b) = some ys ∧ xs.Perm ys ∧
    (xs ≠ [] → (live now a).bind Entry.expiresAt = (live now b).bind Entry.expiresAt) ∧
    ∀ x ∈ xs, P x

def IsList (entry : Option Entry) : Prop := ∀ e ∈ entry, ∃ items, e.value = .list items

def Agrees (use : KeyUse) (now : Int) (a b : Option Entry) : Prop :=
  match use with
  | .sliding => SetsAgree (fun x => 0 ≤ x.score) now a b
  | .leases => SetsAgree (fun _ => True) now a b
  | .usage => IsList a ∧ IsList b
  | use => live now a = live now b ∧ ∀ e ∈ live now a, Plain use e.value

end Agreement

section Running

variable {round : Int → Int} {now : Int} {s : Store} {key : String} {op : Op} {reply : Reply}
  {entry next : Option Entry} {α : Type} {rest : Reply → Lua.Program α}

/-- A command in a program that does not raise. -/
theorem call_ok (served : Server.serve round now (live now (s key)) op = .ok (reply, next)) :
    ((Server.command round now (.on key op) : Lua.Program Reply) >>= rest) s =
      rest reply (Function.update s key next) := by
  have ran : Server.command round now (.on key op) s = .ok (reply, Function.update s key next) := by
    rw [Server.command, served]
    rfl
  exact congrArg (fun r => Except.bind r fun x => rest x.1 x.2) ran

theorem call_at (served : Server.serve round now (live now entry) op = .ok (reply, next)) :
    ((Server.command round now (.on key op) : Lua.Program Reply) >>= rest)
      (Function.update s key entry) = rest reply (Function.update s key next) := by
  have ran := @call_ok round now (Function.update s key entry) key op reply next α rest
    (by rw [Function.update_self, served])
  rw [ran, Function.update_idem]

theorem call_next (alive : live now entry = entry)
    (served : Server.serve round now entry op = .ok (reply, next)) :
    ((Server.command round now (.on key op) : Lua.Program Reply) >>= rest)
      (Function.update s key entry) = rest reply (Function.update s key next) :=
  call_at (by rw [alive, served])

end Running

section Admission

def luaAdmit (run : Command → Lua.Program Reply) (key : String) (min max : Option ℚ)
    (limit : Int) (score : ℚ) (member : String) (ms : Int) : Lua.Program Lua.Returned := do
  let _ ← run (.on key (.zremrangebyscore min max))
  let count ← run (.on key .zcard)
  if (limit : ℚ) ≤ count.toRat then return .table [0, count.toRat]
  else
    let _ ← run (.on key (.zadd [(score, member)]))
    let _ ← run (.on key (.pexpire ms))
    return .table [1, count.toRat + 1]

variable {now : Int} {entry : Option Entry} {xs : List Scored} {key : String} {s : Store}

theorem live_zsetEntry (alive : live now entry = entry) (xs : List Scored) :
    live now (Server.zsetEntry xs (entry.bind Entry.expiresAt)) =
      Server.zsetEntry xs (entry.bind Entry.expiresAt) := by
  rw [Server.zsetEntry]
  split
  · rfl
  · cases entry with
    | none => rfl
    | some e => exact @live_of_found now (some e) e.value _ e.expiresAt alive

theorem typed_zset (shape : zsetOf entry = some xs) :
    (Server.typed Server.asZset entry) =
      .ok (entry.map fun e => (xs, e.expiresAt)) := by
  cases entry with
  | none => rfl
  | some e =>
      cases e with
      | mk value expiresAt =>
          cases value with
          | zset entries =>
              obtain rfl := Option.some.inj shape
              rfl
          | scalar d => cases shape
          | hash fields => cases shape
          | list items => cases shape

theorem serve_zremrangebyscore (round : Int → Int) (shape : zsetOf entry = some xs)
    (min max : Option ℚ) :
    ∃ removed, Server.serve round now entry (.zremrangebyscore min max) =
      .ok (.int removed, Server.zsetEntry (xs.filter fun x => !inScores min max x)
        (entry.bind Entry.expiresAt)) := by
  rw [Server.serve, typed_zset shape]
  cases entry with
  | none =>
      obtain rfl := Option.some.inj shape
      exact ⟨_, rfl⟩
  | some e => exact ⟨_, rfl⟩

theorem serve_zcard (round : Int → Int) (xs : List Scored) (expiresAt : Option Int) :
    Server.serve round now (Server.zsetEntry xs expiresAt) .zcard =
      .ok (.int xs.length, Server.zsetEntry xs expiresAt) := by
  cases xs with
  | nil => rfl
  | cons x xs => rfl

theorem serve_zadd (round : Int → Int) (xs : List Scored) (expiresAt : Option Int) (score : ℚ)
    (member : String) :
    ∃ added e, Server.serve round now (Server.zsetEntry xs expiresAt) (.zadd [(score, member)]) =
        .ok (.int added, some e) ∧
      e.value = .zset (Server.sortScores (setScore xs score member)) ∧
      (live now (Server.zsetEntry xs expiresAt) = Server.zsetEntry xs expiresAt →
        live now (some e) = some e) := by
  have full : Server.sortScores (setScore xs score member) ≠ [] := by
    intro empty
    have perm := List.perm_insertionSort (fun x y : Scored =>
      x.score < y.score ∨ (x.score = y.score ∧ x.member ≤ y.member)) (setScore xs score member)
    rw [Server.sortScores] at empty
    rw [empty] at perm
    exact setScore_ne_nil xs score member (List.nil_perm.mp perm)
  cases xs with
  | nil =>
      refine ⟨(setScore [] score member).length - ([] : List Scored).length,
        ⟨.zset (Server.sortScores (setScore [] score member)), none⟩, ?_, rfl, fun _ => rfl⟩
      have kept : Server.zsetEntry (Server.sortScores (setScore [] score member)) none =
          some ⟨.zset (Server.sortScores (setScore [] score member)), none⟩ := if_neg full
      exact congrArg (fun entry => Except.ok (_, entry)) kept
  | cons x xs =>
      refine ⟨(setScore (x :: xs) score member).length - (x :: xs).length,
        ⟨.zset (Server.sortScores (setScore (x :: xs) score member)), expiresAt⟩, ?_, rfl,
        fun alive => live_of_found alive⟩
      have kept : Server.zsetEntry (Server.sortScores (setScore (x :: xs) score member)) expiresAt =
          some ⟨.zset (Server.sortScores (setScore (x :: xs) score member)), expiresAt⟩ :=
        if_neg full
      exact congrArg (fun entry => Except.ok (_, entry)) kept

/-- The program on a server. -/
theorem luaAdmit_spec (round : Int → Int) (shape : zsetOf (live now (s key)) = some xs)
    (min max : Option ℚ) (limit : Int) (score : ℚ) (member : String) (ms : Int) :
    luaAdmit (Server.command round now) key min max limit score member ms s =
      let kept := xs.filter fun x => !inScores min max x
      if limit ≤ kept.length then
        .ok (.table [0, ((kept.length : Int) : ℚ)], Function.update s key
          (Server.zsetEntry kept ((live now (s key)).bind Entry.expiresAt)))
      else
        .ok (.table [1, ((kept.length : Int) : ℚ) + 1], Function.update s key
          (if now + ms ≤ now then none
            else some ⟨.zset (Server.sortScores (setScore kept score member)), some (now + ms)⟩)) := by
  obtain ⟨removed, purge⟩ := @serve_zremrangebyscore now _ xs round shape min max
  have alive := live_zsetEntry (live_live now (s key)) (xs.filter fun x => !inScores min max x)
  obtain ⟨added, e, add, value, fresh⟩ := @serve_zadd now round
    (xs.filter fun x => !inScores min max x) ((live now (s key)).bind Entry.expiresAt) score member
  have expire : Server.serve round now (some e) (.pexpire ms) =
      .ok (.int 1, if now + ms ≤ now then none
        else some ⟨.zset (Server.sortScores (setScore (xs.filter fun x => !inScores min max x)
          score member)), some (now + ms)⟩) := by
    rw [← value]
    rfl
  rw [luaAdmit, call_ok purge, call_next alive (serve_zcard round _ _)]
  by_cases full : limit ≤ (xs.filter fun x => !inScores min max x).length
  · have refused : (limit : ℚ) ≤
        (Reply.int (xs.filter fun x => !inScores min max x).length).toRat := Int.cast_le.mpr full
    rw [if_pos refused]
    exact (if_pos full).symm
  · have room : ¬ (limit : ℚ) ≤
        (Reply.int (xs.filter fun x => !inScores min max x).length).toRat :=
      fun le => full (Int.cast_le.mp le)
    rw [if_neg room, call_next alive add, call_next (fresh alive) expire]
    exact (if_neg full).symm

theorem zsetOf_zsetEntry (xs : List Scored) (expiresAt : Option Int) :
    zsetOf (Server.zsetEntry xs expiresAt) = some xs := by
  cases xs with
  | nil => rfl
  | cons x xs => rfl

theorem expiresAt_zsetEntry (nonempty : xs ≠ []) (expiresAt : Option Int) :
    (Server.zsetEntry xs expiresAt).bind Entry.expiresAt = expiresAt := by
  rw [Server.zsetEntry, if_neg nonempty]
  rfl

theorem expiresAt_withMembers (entry : Option Entry) (xs : List Scored) :
    (withMembers entry xs).bind Entry.expiresAt = entry.bind Entry.expiresAt := by
  cases entry with
  | none => rfl
  | some e => rfl

theorem mem_setScore {x : Scored} {score : ℚ} {member : String}
    (mem : x ∈ setScore xs score member) : x ∈ xs ∨ x = ⟨score, member⟩ := by
  rw [setScore] at mem
  split at mem
  · obtain ⟨y, old, rfl⟩ := List.mem_map.mp mem
    split
    · exact .inr rfl
    · exact .inl old
  · simpa using mem

theorem truncated_int (n : Int) : Lua.truncated n = n := by
  rw [Lua.truncated]
  split
  · rw [Int.floor_intCast]
  · rw [Int.ceil_intCast]

/-- Both sides admit or refuse alike, and leave sets that agree. -/
theorem admit_agrees {P : Scored → Prop} {a b : Store} (round : Int → Int)
    (h : SetsAgree P now (a key) (b key)) {min max : Option ℚ}
    (cut : ∀ x, P x → inScores min max x = inScores none max x) (limit : Int) (score : ℚ)
    (member : String) (new : P ⟨score, member⟩) (ms : Int) :
    ∃ r e e', luaAdmit (Server.command round now) key min max limit score member ms a =
        .ok (.table r, Function.update a key e) ∧
      tryAdmit (command now) key max limit score member ms b = (r, Function.update b key e') ∧
      r.map Lua.truncated = r ∧ SetsAgree P now e e' := by
  obtain ⟨xs, ys, left, right, perm, expiry, all⟩ := h
  have kept : (xs.filter fun x => !inScores min max x).Perm
      (ys.filter fun x => !inScores none max x) := by
    have same : (xs.filter fun x => !inScores min max x) =
        xs.filter fun x => !inScores none max x :=
      List.filter_congr fun x mem => by rw [cut x (all x mem)]
    rw [same]
    exact perm.filter _
  rw [luaAdmit_spec round left, admit_spec right]
  simp only [kept.length_eq]
  by_cases full : limit ≤ (ys.filter fun x => !inScores none max x).length
  · simp only [if_pos full]
    refine ⟨_, _, _, rfl, rfl, ?_, ?_⟩
    · simp only [List.map_cons, List.map_nil, truncated_int]
      rw [show Lua.truncated 0 = 0 from by exact_mod_cast truncated_int 0]
    · refine ⟨_, _, ?_, ?_, kept, ?_, fun x mem => all x (List.mem_of_mem_filter mem)⟩
      · rw [live_zsetEntry (live_live now _), zsetOf_zsetEntry]
      · rw [live_withMembers (live_live now _), zsetOf_withMembers right]
      · intro nonempty
        have had : xs ≠ [] := fun empty => nonempty (by rw [empty]; rfl)
        rw [live_zsetEntry (live_live now _), live_withMembers (live_live now _),
          expiresAt_zsetEntry nonempty, expiresAt_withMembers, expiry had]
  · simp only [if_neg full]
    have scored : (Server.sortScores
        (setScore (xs.filter fun x => !inScores min max x) score member)).Perm
          (sortScores (setScore (ys.filter fun x => !inScores none max x) score member)) :=
      ((List.perm_insertionSort _ _).trans (setScore_perm kept score member)).trans
        (List.perm_insertionSort _ _).symm
    refine ⟨_, _, _, rfl, rfl, ?_, ?_⟩
    · have one : Lua.truncated 1 = 1 := by exact_mod_cast truncated_int 1
      have next := truncated_int ((ys.filter fun x => !inScores none max x).length + 1)
      push_cast at next
      simp only [List.map_cons, List.map_nil, one, Int.cast_natCast, next]
    · by_cases dead : now + ms ≤ now
      · rw [if_pos dead]
        refine ⟨[], [], rfl, ?_, .nil, fun nonempty => absurd rfl nonempty, by simp⟩
        rw [live_of_le dead]
        rfl
      · rw [if_neg dead]
        refine ⟨_, _, ?_, ?_, scored, ?_, fun x mem => ?_⟩
        · rw [live_of_lt (not_le.mp dead)]
          rfl
        · rw [live_of_lt (not_le.mp dead)]
          rfl
        · intro _
          rw [live_of_lt (not_le.mp dead), live_of_lt (not_le.mp dead)]
          rfl
        · rcases mem_setScore ((List.perm_insertionSort _ _).mem_iff.mp mem) with old | rfl
          · exact all x (List.mem_of_mem_filter old)
          · exact new

end Admission

section Plain

variable {round : Int → Int} {now : Int} {a b : Store} {key : String}

/-- Deleting at once and expiring in the past are the same to every reader. -/
theorem live_expireAt (now t : Int) (e : Entry) :
    live now (Server.expireAt now t e) = live now (some { e with expiresAt := some t }) := by
  rw [Server.expireAt]
  split
  · next passed => rw [live_of_le passed, live_none]
  · rfl

theorem value_expireAt {now t : Int} {e x : Entry}
    (mem : x ∈ live now (Server.expireAt now t e)) : x.value = e.value := by
  rw [live_expireAt] at mem
  obtain rfl := Option.some.inj (Option.filter_eq_some_iff.mp mem).1
  rfl

/-- A last expiry, on either side. -/
theorem expire_agrees (use : KeyUse) {e : Entry} (plain : Plain use e.value) (seconds : Int)
    (other : use ≠ .sliding ∧ use ≠ .leases ∧ use ≠ .usage) :
    Agrees use now (Server.expireAt now (now + seconds * 1000) e)
      (some { e with expiresAt := some (now + seconds * 1000) }) := by
  have kept : ∀ x ∈ live now (Server.expireAt now (now + seconds * 1000) e), Plain use x.value :=
    fun x mem => value_expireAt mem ▸ plain
  cases use with
  | sliding => exact absurd rfl other.1
  | leases => exact absurd rfl other.2.1
  | usage => exact absurd rfl other.2.2
  | bucket => exact ⟨live_expireAt now _ e, kept⟩
  | window => exact ⟨live_expireAt now _ e, kept⟩
  | rotation => exact ⟨live_expireAt now _ e, kept⟩
  | health => exact ⟨live_expireAt now _ e, kept⟩
  | lock => exact ⟨live_expireAt now _ e, kept⟩

theorem lua_write_expire {c : Option Entry} {op : Op} {reply : Reply} {e : Entry}
    (alive : live now c = c) (served : Server.serve round now c op = .ok (reply, some e))
    (fresh : live now (some e) = some e) (seconds : Int) {α : Type} (answer : α) :
    ((Server.command round now (.on key op) : Lua.Program Reply) >>= fun _ =>
      (Server.command round now (.on key (.expire seconds)) : Lua.Program Reply) >>= fun _ =>
        (pure answer : Lua.Program α)) (Function.update a key c) =
      .ok (answer, Function.update a key (Server.expireAt now (now + seconds * 1000) e)) := by
  have expired : Server.serve round now (some e) (.expire seconds) =
      .ok (.int 1, Server.expireAt now (now + seconds * 1000) e) := rfl
  rw [call_next alive served, call_next fresh expired]
  rfl

theorem twin_write_expire {c : Option Entry} {op : Op} {reply : Reply} {e : Entry}
    (written : Op.run now c op = (reply, some e)) (fresh : live now (some e) = some e)
    (seconds : Int) :
    (Op.run now (live now (Op.run now c op).2) (.expire seconds)).2 =
      some { e with expiresAt := some (now + seconds * 1000) } := by
  rw [written, fresh]
  rfl

def bucketPairs (tokens ts : ℚ) : List (String × Datum) :=
  [("tokens", .number (.finite tokens)), ("ts", .number (.finite ts))]

variable (round) in
/-- What both sides read from a bucket, and write to it. -/
theorem bucket_access (h : Agrees .bucket now (a key) (b key)) :
    ∃ tokens ts : Option ℚ, ∃ c, live now (a key) = c ∧ live now (b key) = c ∧
      Server.serve round now c (.hmget ["tokens", "ts"]) =
        .ok (.values [tokens.map (.number ∘ .finite), ts.map (.number ∘ .finite)], c) ∧
      Op.run now c (.hmget ["tokens", "ts"]) =
        (.values [tokens.map (.number ∘ .finite), ts.map (.number ∘ .finite)], c) ∧
      ∀ tokens ts : ℚ, ∃ reply reply' e,
        Server.serve round now c (.hset (bucketPairs tokens ts)) = .ok (reply, some e) ∧
        Op.run now c (.hset (bucketPairs tokens ts)) = (reply', some e) ∧
        e.value = .hash (bucketPairs tokens ts) ∧ live now (some e) = some e := by
  obtain ⟨same, plain⟩ := h
  cases found : live now (b key) with
  | none =>
      exact ⟨none, none, none, same.trans found, rfl, rfl, rfl, fun tokens ts =>
        ⟨_, _, ⟨.hash (bucketPairs tokens ts), none⟩, rfl, rfl, rfl, rfl⟩⟩
  | some e =>
      obtain ⟨tokens, ts, shape⟩ := plain e (same.trans found)
      cases e with
      | mk value expiresAt =>
          obtain rfl : value = _ := shape
          exact ⟨some tokens, some ts, _, same.trans found, rfl, rfl, rfl, fun tokens ts =>
            ⟨_, _, ⟨.hash (bucketPairs tokens ts), expiresAt⟩, rfl, rfl, rfl,
              live_of_found found⟩⟩

variable (round) in
theorem tokenBucket_agrees (h : Agrees .bucket now (a key) (b key))
    (capacity refill clock cost ttl : Int) :
    ∃ r e e', Lua.tokenBucket (Server.command round now) key capacity refill clock cost ttl a =
        .ok (.table r, Function.update a key e) ∧
      tokenBucket (command now) key capacity refill clock cost ttl b =
        (r, Function.update b key e') ∧
      r.map Lua.truncated = r ∧ Agrees .bucket now e e' := by
  have one : Lua.truncated 1 = 1 := by exact_mod_cast truncated_int 1
  have zero : Lua.truncated 0 = 0 := by exact_mod_cast truncated_int 0
  by_cases off : (capacity : ℚ) ≤ 0
  · refine ⟨[1, -1, 0], a key, b key, ?_, ?_, ?_, h⟩
    · rw [Lua.tokenBucket, if_pos off, Function.update_eq_self]
      rfl
    · rw [tokenBucket, if_pos off, Function.update_eq_self]
    · have minus : Lua.truncated (-1) = -1 := by exact_mod_cast truncated_int (-1)
      simp only [List.map_cons, List.map_nil, one, minus, zero]
  obtain ⟨tokens, ts, c, left, right, readLua, readTwin, write⟩ := bucket_access round h
  have luaTokens : (Lua.tonumber (tokens.map (.number ∘ .finite))).getD capacity =
      tokens.getD capacity := by cases tokens <;> rfl
  have luaTs : (Lua.tonumber (ts.map (.number ∘ .finite))).getD clock = ts.getD clock := by
    cases ts <;> rfl
  have twinTokens : ((tokens.map (.number ∘ .finite)).elim (capacity : ℚ)
      fun d : Datum => d.toNumber.toRat) = tokens.getD capacity := by cases tokens <;> rfl
  have twinTs : ((ts.map (.number ∘ .finite)).elim (clock : ℚ)
      fun d : Datum => d.toNumber.toRat) = ts.getD clock := by cases ts <;> rfl
  have item₀ (x y : Option Datum) : Reply.item 0 (.values [x, y]) = x := rfl
  have item₁ (x y : Option Datum) : Reply.item 1 (.values [x, y]) = y := rfl
  have alive : live now c = c := left ▸ live_live now (a key)
  rw [Lua.tokenBucket, if_neg off, call_ok (by rw [left]; exact readLua)]
  simp only [tokenBucket, if_neg off, command_on, right, readTwin, item₀, item₁, luaTokens, luaTs,
    twinTokens, twinTs, Function.update_self, Function.update_idem, alive]
  by_cases covered : (cost : ℚ) ≤ min (capacity : ℚ)
      (tokens.getD capacity + max 0 (clock - ts.getD clock) / 1000 * refill)
  · simp only [if_pos covered]
    obtain ⟨reply, reply', e, served, written, value, fresh⟩ := write
      (min (capacity : ℚ) (tokens.getD capacity + max 0 (clock - ts.getD clock) / 1000 * refill) -
        cost) clock
    refine ⟨_, _, some { e with expiresAt := some (now + ttl * 1000) },
      lua_write_expire alive served fresh ttl _,
      Prod.ext rfl (congrArg (Function.update b key) (twin_write_expire written fresh ttl)), ?_,
      expire_agrees .bucket ⟨_, _, value⟩ ttl (by decide)⟩
    simp only [List.map_cons, List.map_nil, one, zero, truncated_int]
  · simp only [if_neg covered]
    obtain ⟨reply, reply', e, served, written, value, fresh⟩ := write
      (min (capacity : ℚ) (tokens.getD capacity + max 0 (clock - ts.getD clock) / 1000 * refill))
      clock
    refine ⟨_, _, some { e with expiresAt := some (now + ttl * 1000) },
      lua_write_expire alive served fresh ttl _,
      Prod.ext rfl (congrArg (Function.update b key) (twin_write_expire written fresh ttl)), ?_,
      expire_agrees .bucket ⟨_, _, value⟩ ttl (by decide)⟩
    have wait : Lua.truncated ((ttl : ℚ) * 1000) = ttl * 1000 := by
      exact_mod_cast truncated_int (ttl * 1000)
    by_cases refills : (0 : ℚ) < refill
    · simp only [List.map_cons, List.map_nil, zero, truncated_int, if_pos refills]
    · simp only [List.map_cons, List.map_nil, zero, truncated_int, if_neg refills, wait]

variable (round) in
/-- What both sides read from a counter, and add to it. -/
theorem counter_access (same : live now (a key) = live now (b key))
    (plain : ∀ e ∈ live now (a key), ∃ n : Int, e.value = .scalar (.number (.ofInt n))) :
    ∃ (n : Int) (c : Option Entry) (reply : Reply),
      live now (a key) = c ∧ live now (b key) = c ∧
      Server.serve round now c .get = .ok (reply, c) ∧ Op.run now c .get = (reply, c) ∧
      Lua.tonumber ((Lua.bulk reply).or (some (.text "0"))) = some (n : ℚ) ∧ reply.toRat = n ∧
      (c = none ∧ n = 0 ∨ ∃ e, c = some e ∧ e.value = .scalar (.number (.ofInt n))) ∧
      ∀ delta : Int, ∃ e,
        Server.serve round now c (.incrBy delta) = .ok (.int (n + delta), some e) ∧
        Op.run now c (.incrBy delta) = (.number (.ofInt (n + delta)), some e) ∧
        e.value = .scalar (.number (.ofInt (n + delta))) ∧ live now (some e) = some e := by
  cases found : live now (b key) with
  | none =>
      have sum (delta : Int) :
          (JsNumber.finite 0).add (.ofInt delta) = .ofInt (0 + delta) := by
        simp only [JsNumber.add, JsNumber.ofInt, zero_add]
      have zero : stringToNumber "0" = .finite 0 := by decide +kernel
      have missing : Lua.tonumber ((Lua.bulk .null).or (some (.text "0"))) = some ((0 : Int) : ℚ) := by
        simp only [Lua.bulk, Option.none_or, Lua.tonumber, Datum.toNumber, zero, Int.cast_zero]
      refine ⟨0, none, .null, same.trans found, rfl, rfl, rfl, missing, rfl, .inl ⟨rfl, rfl⟩,
        fun delta => ⟨⟨.scalar (.number (.ofInt (0 + delta))), none⟩, ?_, ?_, rfl, rfl⟩⟩
      · rw [zero_add]
        rfl
      · simp only [Op.run, str, Option.elim_none, sum]
        rfl
  | some e =>
      obtain ⟨n, shape⟩ := plain e (same.trans found)
      cases e with
      | mk value expiresAt =>
          obtain rfl : value = _ := shape
          have sum (delta : Int) :
              (JsNumber.ofInt n).add (.ofInt delta) = .ofInt (n + delta) := by
            simp only [JsNumber.add, JsNumber.ofInt, Int.cast_add]
          have spelled : Server.integer (.number (.ofInt n)) = some n := by
            simp [Server.integer, JsNumber.ofInt]
          refine ⟨n, _, .value (.number (.ofInt n)), same.trans found, rfl, rfl, rfl, rfl, rfl,
            .inr ⟨_, rfl, rfl⟩, fun delta =>
              ⟨⟨.scalar (.number (.ofInt (n + delta))), expiresAt⟩, ?_, ?_, rfl,
                live_of_found found⟩⟩
          · simp only [Server.serve, Server.typed, Server.asScalar, bind, Except.bind, spelled]
            rfl
          · simp only [Op.run, str, Option.elim_some, Datum.toNumber, sum]
            rfl

theorem serve_ttl (round : Int → Int) (now : Int) (entry : Option Entry) :
    ∃ reply, Server.serve round now entry .ttl = .ok (reply, entry) := by
  cases entry with
  | none => exact ⟨_, rfl⟩
  | some e => exact ⟨_, rfl⟩

theorem run_ttl (now : Int) (entry : Option Entry) : ∃ reply, Op.run now entry .ttl = (reply, entry) := by
  cases entry with
  | none => exact ⟨_, rfl⟩
  | some e => exact ⟨_, rfl⟩

theorem agrees_live {use : KeyUse} {e e' : Option Entry} (h : Agrees use now e e')
    (other : use ≠ .sliding ∧ use ≠ .leases ∧ use ≠ .usage) :
    Agrees use now (live now e) (live now e') := by
  cases use with
  | sliding => exact absurd rfl other.1
  | leases => exact absurd rfl other.2.1
  | usage => exact absurd rfl other.2.2
  | bucket => exact ⟨by rw [live_live, live_live, h.1], fun x mem => h.2 x (live_live now e ▸ mem)⟩
  | window => exact ⟨by rw [live_live, live_live, h.1], fun x mem => h.2 x (live_live now e ▸ mem)⟩
  | rotation =>
      exact ⟨by rw [live_live, live_live, h.1], fun x mem => h.2 x (live_live now e ▸ mem)⟩
  | health => exact ⟨by rw [live_live, live_live, h.1], fun x mem => h.2 x (live_live now e ▸ mem)⟩
  | lock => exact ⟨by rw [live_live, live_live, h.1], fun x mem => h.2 x (live_live now e ▸ mem)⟩

variable (round) in
theorem fixedWindow_agrees (h : Agrees .window now (a key) (b key)) (limit window cost : Int) :
    ∃ r r' e e', Lua.fixedWindow (Server.command round now) key limit window cost a =
        .ok (.table r, Function.update a key e) ∧
      fixedWindow (command now) key limit window cost b = (r', Function.update b key e') ∧
      (r.map Lua.truncated).length = r'.length ∧ (r.map Lua.truncated).take 2 = r'.take 2 ∧
      Agrees .window now e e' := by
  have one : Lua.truncated 1 = 1 := by exact_mod_cast truncated_int 1
  have zero : Lua.truncated 0 = 0 := by exact_mod_cast truncated_int 0
  by_cases off : limit ≤ 0
  · refine ⟨[1, 0, window], [1, 0, window], a key, b key, ?_, ?_, rfl, ?_, h⟩
    · rw [Lua.fixedWindow, if_pos off, Function.update_eq_self]
      rfl
    · rw [fixedWindow, if_pos off, Function.update_eq_self]
    · simp only [List.map_cons, List.map_nil, one, zero, List.take_succ_cons, List.take_zero]
  obtain ⟨n, c, reply, left, right, readLua, readTwin, number, value, shape, add⟩ :=
    counter_access round h.1 h.2
  have alive : live now c = c := left ▸ live_live now (a key)
  obtain ⟨seconds, luaTtl⟩ := serve_ttl round now c
  obtain ⟨seconds', twinTtl⟩ := run_ttl now c
  rw [Lua.fixedWindow, if_neg off, call_ok (by rw [left]; exact readLua)]
  simp only [number, fixedWindow, if_neg off, command_on, right, readTwin, value,
    Function.update_self, Function.update_idem, alive]
  by_cases beyond : (limit : ℚ) < n + cost
  · simp only [if_pos beyond, twinTtl]
    rw [call_next alive luaTtl]
    refine ⟨_, _, c, c, rfl, rfl, rfl, ?_, rfl, fun e mem => ?_⟩
    · simp only [List.map_cons, List.map_nil, zero, truncated_int, List.take_succ_cons,
        List.take_zero]
    · rw [alive] at mem
      rcases shape with ⟨rfl, -⟩ | ⟨e', rfl, counted⟩
      · cases mem
      · obtain rfl := Option.some.inj mem
        exact ⟨n, counted⟩
  · simp only [if_neg beyond]
    obtain ⟨e, added, added', counted, fresh⟩ := add cost
    have count : (Reply.number (.ofInt (n + cost))).toRat = (Reply.int (n + cost)).toRat := rfl
    have expired : Server.serve round now (some e) (.expire window) =
        .ok (.int 1, Server.expireAt now (now + window * 1000) e) := rfl
    have expired' : Op.run now (some e) (.expire window) =
        (.int 1, some { e with expiresAt := some (now + window * 1000) }) := rfl
    rw [call_next alive added]
    simp only [added', fresh, count]
    by_cases whole : (Reply.int (n + cost)).toRat = cost
    · obtain ⟨left', luaLeft⟩ := serve_ttl round now
        (live now (Server.expireAt now (now + window * 1000) e))
      obtain ⟨left'', twinLeft⟩ := run_ttl now
        (live now (some { e with expiresAt := some (now + window * 1000) }))
      simp only [if_pos whole, expired', Function.update_self, Function.update_idem, twinLeft]
      rw [call_next fresh expired, call_at luaLeft]
      refine ⟨_, _, _, _, rfl, rfl, rfl, ?_,
        agrees_live (expire_agrees .window ⟨_, counted⟩ window (by decide)) (by decide)⟩
      simp only [Reply.toRat, List.map_cons, List.map_nil, one, truncated_int, List.take_succ_cons,
        List.take_zero]
    · obtain ⟨left', luaLeft⟩ := serve_ttl round now (some e)
      obtain ⟨left'', twinLeft⟩ := run_ttl now (some e)
      simp only [if_neg whole, Function.update_self, Function.update_idem, fresh, twinLeft,
        pure_bind]
      rw [call_next fresh luaLeft]
      refine ⟨_, _, some e, some e, rfl, rfl, rfl, ?_, rfl, fun x mem => ?_⟩
      · simp only [Reply.toRat, List.map_cons, List.map_nil, one, truncated_int,
          List.take_succ_cons, List.take_zero]
      · rw [fresh] at mem
        obtain rfl := Option.some.inj mem
        exact ⟨_, counted⟩

theorem rotation_counts {c : Option Entry} {n : Int}
    (plain : ∀ e ∈ c, Plain .rotation e.value)
    (shape : c = none ∧ n = 0 ∨ ∃ e, c = some e ∧ e.value = .scalar (.number (.ofInt n))) :
    0 ≤ n := by
  rcases shape with ⟨-, rfl⟩ | ⟨e, rfl, value⟩
  · exact le_refl 0
  · obtain ⟨m, positive, other⟩ := plain e rfl
    rw [value] at other
    simp only [Value.scalar.injEq, Datum.number.injEq, JsNumber.ofInt, JsNumber.finite.injEq,
      Int.cast_inj] at other
    omega

variable (round) in
theorem nextKey_agrees (h : Agrees .rotation now (a key) (b key)) (size : Int) :
    ∃ ret e e', Lua.nextKey (Server.command round now) key size a =
        .ok (ret, Function.update a key e) ∧
      nextKey (command now) key size b = (Lua.normalizeScriptResult ret, Function.update b key e') ∧
      Agrees .rotation now e e' := by
  by_cases off : size ≤ 0
  · refine ⟨.number (-1), a key, b key, ?_, ?_, h⟩
    · rw [Lua.nextKey, if_pos off, Function.update_eq_self]
      rfl
    · have minus : Lua.truncated (-1) = -1 := by exact_mod_cast truncated_int (-1)
      rw [nextKey, if_pos off, Function.update_eq_self, Lua.normalizeScriptResult, minus]
  obtain ⟨n, c, reply, left, right, -, -, -, -, shape, add⟩ := counter_access round h.1
    fun e mem => (h.2 e mem).imp fun _ found => found.2
  have counts : 0 ≤ n := rotation_counts (left ▸ h.2) shape
  obtain ⟨e, added, added', counted, fresh⟩ := add 1
  have alive : live now c = c := left ▸ live_live now (a key)
  have plain : Plain .rotation e.value := ⟨n + 1, by omega, counted⟩
  have expired : Server.serve round now (some e) (.expire 86400) =
      .ok (.int 1, Server.expireAt now (now + 86400 * 1000) e) := rfl
  have expired' : Op.run now (some e) (.expire 86400) =
      (.int 1, some { e with expiresAt := some (now + 86400 * 1000) }) := rfl
  have next : ⌊(Reply.int (n + 1)).toRat⌋ - 1 = n := by
    rw [Reply.toRat, Int.floor_intCast]
    omega
  have next' : ⌊(Reply.number (.ofInt (n + 1))).toRat⌋ - 1 = n := next
  have turn : Lua.luaMod n size = jsMod n size :=
    Int.fmod_eq_tmod_of_nonneg counts (by omega)
  rw [Lua.nextKey, if_neg off, call_ok (by rw [left]; exact added), call_next fresh expired, next,
    turn]
  refine ⟨.number (jsMod n size), _, _, rfl, ?_, expire_agrees .rotation plain 86400 (by decide)⟩
  simp only [nextKey, if_neg off, command_on, right, added', Function.update_self,
    Function.update_idem, fresh, expired', next', Lua.normalizeScriptResult, truncated_int]

def failsField (n : Int) : String × Datum := ("fails", .number (.ofInt n))

/-- A health hash that is there, with its failures counted first. -/
def Failed (now : Int) (n : Int) (e : Entry) : Prop :=
  (∃ rest, e.value = .hash (failsField n :: rest)) ∧ live now (some e) = some e

theorem setField_fails (m n : Int) (rest : List (String × Datum)) :
    ∃ rest', setField (failsField m :: rest) "fails" (.number (.ofInt n)) =
      failsField n :: rest' := by
  rw [setField, if_pos (by simp [failsField])]
  exact ⟨_, rfl⟩

theorem setField_other (n : Int) (rest : List (String × Datum)) {name : String}
    (other : "fails" ≠ name) (value : Datum) :
    ∃ rest', setField (failsField n :: rest) name value = failsField n :: rest' := by
  have first : (failsField n).1 ≠ name := other
  rw [setField]
  split
  · exact ⟨_, by rw [List.map_cons, if_neg first]⟩
  · exact ⟨_, rfl⟩

variable (round now) in
/-- A write that both sides turn into the same hash. -/
theorem hset_same {fields next pairs : List (String × Datum)} (expiresAt : Option Int)
    (given : pairs ≠ [])
    (set : pairs.foldl (fun fields pair => setField fields pair.1 pair.2) fields = next)
    (nonempty : next ≠ []) :
    ∃ reply, Server.serve round now (some ⟨.hash fields, expiresAt⟩) (.hset pairs) =
        .ok (reply, some ⟨.hash next, expiresAt⟩) ∧
      Op.run now (some ⟨.hash fields, expiresAt⟩) (.hset pairs) =
        (reply, some ⟨.hash next, expiresAt⟩) := by
  subst set
  refine ⟨_, ?_, rfl⟩
  have kept : Server.hashEntry (pairs.foldl (fun fields pair => setField fields pair.1 pair.2)
      fields) expiresAt = some ⟨.hash (pairs.foldl (fun fields pair =>
        setField fields pair.1 pair.2) fields), expiresAt⟩ := if_neg nonempty
  have served : Server.serve round now (some ⟨.hash fields, expiresAt⟩) (.hset pairs) =
      .ok (.int ((pairs.foldl (fun fields pair => setField fields pair.1 pair.2) fields).length -
        fields.length), Server.hashEntry (pairs.foldl (fun fields pair =>
          setField fields pair.1 pair.2) fields) expiresAt) := by
    simp only [Server.serve, if_neg given]
    rfl
  exact served.trans (congrArg (fun entry => Except.ok (_, entry)) kept)

variable (round) in
/-- Setting the moment at which the breaker closes again keeps the failures. -/
theorem health_open {n : Int} {e : Entry} (h : Failed now n e) (value : Datum) :
    ∃ reply e', Server.serve round now (some e) (.hset [("openUntil", value)]) =
        .ok (reply, some e') ∧
      Op.run now (some e) (.hset [("openUntil", value)]) = (reply, some e') ∧ Failed now n e' := by
  obtain ⟨⟨rest, shape⟩, fresh⟩ := h
  cases e with
  | mk v expiresAt =>
      obtain rfl : v = _ := shape
      obtain ⟨rest', set⟩ := setField_other n rest (by decide : "fails" ≠ "openUntil") value
      obtain ⟨reply, served, written⟩ :=
        @hset_same round now _ _ [("openUntil", value)] expiresAt (List.cons_ne_nil _ _) set
          (List.cons_ne_nil _ _)
      exact ⟨reply, _, served, written, ⟨rest', rfl⟩, live_of_found fresh⟩

variable (round) in
/-- What both sides write to a health hash. -/
theorem health_access (h : Agrees .health now (a key) (b key)) :
    ∃ c, live now (a key) = c ∧ live now (b key) = c ∧
      (∃ reply reply' e, Server.serve round now c
          (.hset [("fails", .number (.ofInt 0)), ("openUntil", .number (.ofInt 0))]) =
            .ok (reply, some e) ∧
        Op.run now c (.hset [("fails", .number (.ofInt 0)), ("openUntil", .number (.ofInt 0))]) =
          (reply', some e) ∧ Failed now 0 e) ∧
      ∃ (n : Int) (e : Entry), Server.serve round now c (.hincrby "fails" 1) =
          .ok (.int n, some e) ∧
        Op.run now c (.hincrby "fails" 1) = (.number (.ofInt n), some e) ∧ Failed now n e := by
  obtain ⟨same, plain⟩ := h
  cases found : live now (b key) with
  | none =>
      have sum : (JsNumber.finite 0).add (.ofInt 1) = .ofInt 1 := by
        simp only [JsNumber.add, JsNumber.ofInt, Int.cast_one, zero_add]
      refine ⟨none, same.trans found, rfl, ⟨_, _,
        ⟨.hash [failsField 0, ("openUntil", .number (.ofInt 0))], none⟩, rfl, rfl, ⟨_, rfl⟩, rfl⟩,
        1, ⟨.hash [failsField 1], none⟩, rfl, ?_, ⟨_, rfl⟩, rfl⟩
      have run : Op.run now none (.hincrby "fails" 1) =
          (.number ((JsNumber.finite 0).add (.ofInt 1)),
            some ⟨.hash [("fails", .number ((JsNumber.finite 0).add (.ofInt 1)))], none⟩) := rfl
      rw [run, sum]
      rfl
  | some e =>
      obtain ⟨n, rest, shape⟩ := plain e (same.trans found)
      cases e with
      | mk v expiresAt =>
          obtain rfl : v = .hash (failsField n :: rest) := shape
          obtain ⟨rest₁, reset⟩ := setField_fails n 0 rest
          obtain ⟨rest₂, closed⟩ := setField_other 0 rest₁ (by decide : "fails" ≠ "openUntil")
            (.number (.ofInt 0))
          obtain ⟨rest₃, counted⟩ := setField_fails n (n + 1) rest
          have both : [("fails", Datum.number (.ofInt 0)), ("openUntil", .number (.ofInt 0))].foldl
              (fun fields pair => setField fields pair.1 pair.2) (failsField n :: rest) =
                failsField 0 :: rest₂ := by
            rw [List.foldl_cons, reset, List.foldl_cons, closed, List.foldl_nil]
          obtain ⟨reply, served, written⟩ := hset_same round now expiresAt (List.cons_ne_nil _ _)
            both (List.cons_ne_nil _ _)
          have spelled : Server.integer (.number (.ofInt n)) = some n := by
            simp [Server.integer, JsNumber.ofInt]
          have sum : (JsNumber.ofInt n).add (.ofInt 1) = .ofInt (n + 1) := by
            simp only [JsNumber.add, JsNumber.ofInt, Int.cast_add]
          have first : (failsField n :: rest).lookup "fails" = some (.number (.ofInt n)) := rfl
          refine ⟨_, same.trans found, rfl, ⟨reply, reply, _, served, written, ⟨rest₂, rfl⟩,
            live_of_found found⟩, n + 1, ⟨.hash (failsField (n + 1) :: rest₃), expiresAt⟩, ?_, ?_,
            ⟨rest₃, rfl⟩, live_of_found found⟩
          · simp only [Server.serve, Server.typed, Value.asHash, bind, Except.bind,
              Option.getD_some, first, spelled, counted]
            rfl
          · simp only [Op.run, collection, Value.asHash, Option.map_some, first, Option.elim_some,
              Datum.toNumber, sum, counted]

variable (round) in
theorem health_agrees (h : Agrees .health now (a key) (b key))
    (ok threshold cooldown clock : Int) :
    ∃ r e e', Lua.health (Server.command round now) key ok threshold cooldown clock a =
        .ok (.table r, Function.update a key e) ∧
      health (command now) key ok threshold cooldown clock b = (r, Function.update b key e') ∧
      r.map Lua.truncated = r ∧ Agrees .health now e e' := by
  have one : Lua.truncated 1 = 1 := by exact_mod_cast truncated_int 1
  have zero : Lua.truncated 0 = 0 := by exact_mod_cast truncated_int 0
  obtain ⟨c, left, right, ⟨reply, reply', e₀, reset, reset', ⟨rest₀, closed⟩, fresh₀⟩, n, e, counted,
    counted', failed⟩ := health_access round h
  have alive : live now c = c := left ▸ live_live now (a key)
  by_cases succeeded : ok = 1
  · rw [Lua.health, if_pos succeeded, call_ok (by rw [left]; exact reset)]
    simp only [health, if_pos succeeded, command_on, right, Function.update_self,
      Function.update_idem, reset', fresh₀]
    have expired : Server.serve round now (some e₀) (.expire (cooldown * 10)) =
        .ok (.int 1, Server.expireAt now (now + cooldown * 10 * 1000) e₀) := rfl
    rw [call_next fresh₀ expired]
    refine ⟨[0, 0], _, _, rfl, rfl, ?_,
      expire_agrees .health ⟨_, _, closed⟩ (cooldown * 10) (by decide)⟩
    simp only [List.map_cons, List.map_nil, zero]
  have fails : (Reply.number (.ofInt n)).toRat = (Reply.int n).toRat := rfl
  rw [Lua.health, if_neg succeeded, call_ok (by rw [left]; exact counted)]
  simp only [health, if_neg succeeded, command_on, right, counted', Function.update_self,
    Function.update_idem, fails]
  by_cases tripped : (threshold : ℚ) ≤ (Reply.int n).toRat
  · obtain ⟨reply₁, e₁, opened, opened', ⟨rest₁, shape₁⟩, fresh₁⟩ :=
      health_open round failed (.number (.ofInt (clock + cooldown * 1000)))
    have expired : Server.serve round now (some e₁) (.expire (cooldown * 10)) =
        .ok (.int 1, Server.expireAt now (now + cooldown * 10 * 1000) e₁) := rfl
    simp only [if_pos tripped, failed.2, opened', Function.update_self, Function.update_idem,
      fresh₁, pure_bind]
    rw [call_next failed.2 opened, call_next fresh₁ expired]
    refine ⟨_, _, _, rfl, rfl, ?_,
      expire_agrees .health ⟨_, _, shape₁⟩ (cooldown * 10) (by decide)⟩
    simp only [Reply.toRat, List.map_cons, List.map_nil, one, truncated_int]
  · obtain ⟨⟨rest, shape⟩, fresh⟩ := failed
    have expired : Server.serve round now (some e) (.expire (cooldown * 10)) =
        .ok (.int 1, Server.expireAt now (now + cooldown * 10 * 1000) e) := rfl
    simp only [if_neg tripped, fresh, Function.update_self, Function.update_idem, pure_bind]
    rw [call_next fresh expired]
    refine ⟨_, _, _, rfl, rfl, ?_,
      expire_agrees .health ⟨_, _, shape⟩ (cooldown * 10) (by decide)⟩
    simp only [Reply.toRat, List.map_cons, List.map_nil, zero, truncated_int]

end Plain

section Locks

variable {round : Int → Int} {now : Int} {a b : Store} {key : String} {entry : Option Entry}

variable (round) in
theorem lock_get (h : Agrees .lock now (a key) (b key)) :
    ∃ reply, Server.serve round now (live now (a key)) .get = .ok (reply, live now (a key)) ∧
      Op.run now (live now (b key)) .get = (reply, live now (b key)) := by
  obtain ⟨same, plain⟩ := h
  cases found : live now (b key) with
  | none =>
      rw [same.trans found]
      exact ⟨.null, rfl, rfl⟩
  | some e =>
      obtain ⟨owner, shape⟩ := plain e (same.trans found)
      cases e with
      | mk value expiresAt =>
          obtain rfl : value = _ := shape
          rw [same.trans found]
          exact ⟨.value (.text owner), rfl, rfl⟩

theorem isText_bulk (reply : Reply) (owner : String) :
    reply.isText owner = (Lua.bulk reply).any fun d => d.string == owner := by
  cases reply <;> rfl

theorem call_del {α : Type} {rest : Reply → Lua.Program α} (s : Store) :
    ((Server.command round now (.del [key]) : Lua.Program Reply) >>= rest) s =
      rest (.int (if (live now (s key)).isSome then 1 else 0)) (Function.update s key none) := by
  have ran : Server.command round now (.del [key]) s =
      .ok (.int (if (live now (s key)).isSome then 1 else 0), Function.update s key none) := by
    simp only [Server.command, countKeys, evict, Function.update_idem, Nat.add_zero]
    split <;> rfl
  exact congrArg (fun r => Except.bind r fun x => rest x.1 x.2) ran

theorem command_del (s : Store) : command now (.del [key]) s =
    (.int (if (live now (s key)).isSome then 1 else 0), Function.update s key none) := by
  simp only [command, countKeys, evict, Function.update_idem, Nat.add_zero]
  split <;> rfl

theorem isList_none : IsList none := fun _ mem => by cases mem

theorem isList_live (now : Int) (h : IsList entry) : IsList (live now entry) :=
  fun e mem => h e (Option.filter_eq_some_iff.mp mem).1

theorem serve_ltrim (round : Int → Int) (now : Int) (h : IsList entry) (start stop : Int) :
    ∃ next, Server.serve round now entry (.ltrim start stop) = .ok (.ok, next) ∧ IsList next := by
  have list (items : List Datum) (expiresAt : Option Int) :
      IsList (Server.listEntry items expiresAt) := by
    intro e mem
    rw [Server.listEntry] at mem
    split at mem
    · cases mem
    · obtain rfl := Option.some.inj mem
      exact ⟨items, rfl⟩
  cases entry with
  | none => exact ⟨_, rfl, list _ _⟩
  | some e =>
      obtain ⟨items, shape⟩ := h e rfl
      cases e with
      | mk value expiresAt =>
          obtain rfl : value = _ := shape
          exact ⟨_, rfl, list _ _⟩

theorem run_ltrim (now : Int) (h : IsList entry) (start stop : Int) :
    IsList (Op.run now entry (.ltrim start stop)).2 := by
  cases entry with
  | none => exact fun e mem => by cases mem
  | some e =>
      obtain ⟨items, shape⟩ := h e rfl
      cases e with
      | mk value expiresAt =>
          obtain rfl : value = _ := shape
          intro e mem
          obtain rfl := Option.some.inj mem
          exact ⟨_, rfl⟩

theorem serve_rpush (round : Int → Int) (now : Int) (h : IsList entry) (d : Datum) :
    ∃ reply next, Server.serve round now entry (.rpush [d]) = .ok (reply, next) ∧
      IsList next := by
  have list (items : List Datum) (expiresAt : Option Int) :
      IsList (Server.listEntry (items ++ [d]) expiresAt) := by
    intro e mem
    rw [Server.listEntry, if_neg (by simp)] at mem
    obtain rfl := Option.some.inj mem
    exact ⟨items ++ [d], rfl⟩
  cases entry with
  | none => exact ⟨_, _, rfl, list [] none⟩
  | some e =>
      obtain ⟨items, shape⟩ := h e rfl
      cases e with
      | mk value expiresAt =>
          obtain rfl : value = _ := shape
          exact ⟨_, _, rfl, list items expiresAt⟩

theorem run_rpush (now : Int) (h : IsList entry) (d : Datum) :
    IsList (Op.run now entry (.rpush [d])).2 := by
  cases entry with
  | none =>
      intro e mem
      obtain rfl := Option.some.inj mem
      exact ⟨_, rfl⟩
  | some e =>
      obtain ⟨items, shape⟩ := h e rfl
      cases e with
      | mk value expiresAt =>
          obtain rfl : value = _ := shape
          intro e mem
          obtain rfl := Option.some.inj mem
          exact ⟨_, rfl⟩

end Locks

section Calls

variable {round : Int → Int} {uses : String → KeyUse} {now : Int} {a b : Store}

def StoresAgree (uses : String → KeyUse) (now : Int) (a b : Store) : Prop :=
  ∀ key, Agrees (uses key) now (a key) (b key)

theorem StoresAgree.update (h : StoresAgree uses now a b) {key : String}
    {entry entry' : Option Entry} (same : Agrees (uses key) now entry entry') :
    StoresAgree uses now (Function.update a key entry) (Function.update b key entry') := by
  intro other
  by_cases eq : other = key
  · subst eq
    rwa [Function.update_self, Function.update_self]
  · rw [Function.update_of_ne eq, Function.update_of_ne eq]
    exact h other

/-- How one call leaves both sides. -/
def CallAgrees (round : Int → Int) (uses : String → KeyUse) (now : Int) (a b : Store)
    (c : ScriptCall) : Prop :=
  ∃ ret a', c.lua (Server.command round now) a = .ok (ret, a') ∧
    c.SameTuple (Lua.normalizeScriptResult ret) (c.twin (command now) b).1 ∧
    StoresAgree uses now a' (c.twin (command now) b).2

variable {key : String}

theorem missing_agrees (use : KeyUse) : Agrees use now none none := by
  cases use with
  | sliding => exact ⟨[], [], rfl, rfl, .nil, fun _ => rfl, by simp⟩
  | leases => exact ⟨[], [], rfl, rfl, .nil, fun _ => rfl, by simp⟩
  | usage => exact ⟨isList_none, isList_none⟩
  | bucket => exact ⟨rfl, fun _ mem => by cases mem⟩
  | window => exact ⟨rfl, fun _ mem => by cases mem⟩
  | rotation => exact ⟨rfl, fun _ mem => by cases mem⟩
  | health => exact ⟨rfl, fun _ mem => by cases mem⟩
  | lock => exact ⟨rfl, fun _ mem => by cases mem⟩

theorem lock_agrees (h : StoresAgree uses now a b) (fits : uses key = .lock) :
    Agrees .lock now (a key) (b key) := fits ▸ h key

theorem releaseLock_agrees (h : StoresAgree uses now a b) (fits : uses key = .lock)
    (owner : String) : CallAgrees round uses now a b (.releaseLock key owner) := by
  have one : Lua.truncated 1 = 1 := by exact_mod_cast truncated_int 1
  have zero : Lua.truncated 0 = 0 := by exact_mod_cast truncated_int 0
  have held := lock_agrees h fits
  obtain ⟨reply, served, read⟩ := lock_get round held
  have kept : StoresAgree uses now (Function.update a key (live now (a key)))
      (Function.update b key (live now (b key))) :=
    h.update (fits.symm ▸ agrees_live held (by decide))
  have lua : (ScriptCall.releaseLock key owner).lua (Server.command round now) a =
      (if (Lua.bulk reply).any (fun d => d.string == owner) then do
        let removed ← (Server.command round now (.del [key]) : Lua.Program Reply)
        return .table [removed.toRat]
      else return .table [0] : Lua.Program Lua.Returned)
        (Function.update a key (live now (a key))) := call_ok served
  have twin : (ScriptCall.releaseLock key owner).twin (command now) b =
      if reply.isText owner = false then ([0], Function.update b key (live now (b key)))
      else ([(command now (.del [key]) (Function.update b key (live now (b key)))).1.toRat],
        (command now (.del [key]) (Function.update b key (live now (b key)))).2) := by
    simp only [ScriptCall.twin, releaseLock, command_on, read]
  rw [CallAgrees, lua, twin, isText_bulk]
  cases owned : (Lua.bulk reply).any fun d => d.string == owner with
  | false =>
      refine ⟨.table [0], _, rfl, ?_, kept⟩
      simp only [ScriptCall.SameTuple, Lua.normalizeScriptResult, List.map_cons, List.map_nil, zero,
        if_true]
  | true =>
      rw [if_pos rfl, call_del, command_del]
      refine ⟨_, _, rfl, ?_, kept.update (fits.symm ▸ missing_agrees .lock)⟩
      simp only [ScriptCall.SameTuple, Lua.normalizeScriptResult, List.map_cons, List.map_nil,
        Reply.toRat, truncated_int, Function.update_self, live_live, held.1, Bool.true_eq_false,
        if_false]

theorem ackUsage_agrees (h : StoresAgree uses now a b) {listKey lockKey : String}
    (list : uses listKey = .usage) (lock : uses lockKey = .lock) (owner : String) (start : Int) :
    CallAgrees round uses now a b (.ackUsage listKey lockKey owner start) := by
  have one : Lua.truncated 1 = 1 := by exact_mod_cast truncated_int 1
  have zero : Lua.truncated 0 = 0 := by exact_mod_cast truncated_int 0
  have held := lock_agrees h lock
  obtain ⟨reply, served, read⟩ := lock_get round held
  have kept : StoresAgree uses now (Function.update a lockKey (live now (a lockKey)))
      (Function.update b lockKey (live now (b lockKey))) :=
    h.update (lock.symm ▸ agrees_live held (by decide))
  have lists : IsList (Function.update a lockKey (live now (a lockKey)) listKey) ∧
      IsList (Function.update b lockKey (live now (b lockKey)) listKey) := by
    have found := kept listKey
    rwa [list] at found
  obtain ⟨next, trimmed, nextList⟩ := serve_ltrim round now (isList_live now lists.1) start (-1)
  have lua : (ScriptCall.ackUsage listKey lockKey owner start).lua (Server.command round now) a =
      (if (Lua.bulk reply).any (fun d => d.string == owner) = false then return .table [0]
      else do
        let _ ← (Server.command round now (.on listKey (.ltrim start (-1))) : Lua.Program Reply)
        let _ ← (Server.command round now (.del [lockKey]) : Lua.Program Reply)
        return .table [1] : Lua.Program Lua.Returned)
        (Function.update a lockKey (live now (a lockKey))) := call_ok served
  have twin : (ScriptCall.ackUsage listKey lockKey owner start).twin (command now) b =
      if reply.isText owner = false then ([0], Function.update b lockKey (live now (b lockKey)))
      else ([1], (command now (.del [lockKey]) (command now (.on listKey (.ltrim start (-1)))
        (Function.update b lockKey (live now (b lockKey)))).2).2) := by
    simp only [ScriptCall.twin, ackUsage, command_on, read]
  rw [CallAgrees, lua, twin, isText_bulk]
  cases owned : (Lua.bulk reply).any fun d => d.string == owner with
  | false =>
      refine ⟨.table [0], _, rfl, ?_, kept⟩
      simp only [ScriptCall.SameTuple, Lua.normalizeScriptResult, List.map_cons, List.map_nil, zero,
        if_true]
  | true =>
      have cut : Agrees .usage now next (Op.run now (live now
          (Function.update b lockKey (live now (b lockKey)) listKey)) (.ltrim start (-1))).2 :=
        ⟨nextList, run_ltrim now (isList_live now lists.2) start (-1)⟩
      have trim : StoresAgree uses now
          (Function.update (Function.update a lockKey (live now (a lockKey))) listKey next)
          (command now (.on listKey (.ltrim start (-1)))
            (Function.update b lockKey (live now (b lockKey)))).2 :=
        kept.update (list.symm ▸ cut)
      rw [if_neg (by decide), if_neg (by decide), call_ok trimmed, call_del, command_del]
      refine ⟨.table [1], _, rfl, ?_, trim.update (lock.symm ▸ missing_agrees .lock)⟩
      simp only [ScriptCall.SameTuple, Lua.normalizeScriptResult, List.map_cons, List.map_nil, one]

theorem acquireLock_agrees (h : StoresAgree uses now a b) (fits : uses key = .lock)
    (owner : String) {seconds : Int} (positive : 0 < seconds) :
    CallAgrees round uses now a b (.acquireLock key owner seconds) := by
  have one : Lua.truncated 1 = 1 := by exact_mod_cast truncated_int 1
  have zero : Lua.truncated 0 = 0 := by exact_mod_cast truncated_int 0
  obtain ⟨same, plain⟩ := lock_agrees h fits
  have lasting : ¬ seconds * 1000 ≤ 0 := by omega
  cases found : live now (b key) with
  | none =>
      let e : Entry := ⟨.scalar (.text owner), some (now + seconds * 1000)⟩
      have served : Server.serve round now (live now (a key))
          (.set (.text owner) ⟨true, false, some seconds, none⟩) = .ok (.ok, some e) := by
        rw [same.trans found]
        exact if_neg lasting
      refine ⟨.number 1, _, call_ok served, ?_, ?_⟩
      · simp only [ScriptCall.SameTuple, Lua.normalizeScriptResult, one, ScriptCall.twin, command_on,
          found]
        rfl
      · simp only [ScriptCall.twin, command_on, found]
        exact h.update (fits.symm ▸ ⟨rfl, fun x mem =>
          ⟨owner, Option.some.inj (Option.filter_eq_some_iff.mp mem).1 ▸ rfl⟩⟩)
  | some e =>
      have served : Server.serve round now (live now (a key))
          (.set (.text owner) ⟨true, false, some seconds, none⟩) = .ok (.null, some e) := by
        rw [same.trans found]
        rfl
      refine ⟨.number 0, _, call_ok served, ?_, ?_⟩
      · simp only [ScriptCall.SameTuple, Lua.normalizeScriptResult, zero, ScriptCall.twin, command_on,
          found]
        rfl
      · simp only [ScriptCall.twin, command_on, found]
        have kept := h.update (fits.symm ▸ agrees_live (lock_agrees h fits) (by decide))
        rwa [same.trans found, found] at kept

theorem append_agrees (h : StoresAgree uses now a b) (fits : uses key = .usage) (item : String) :
    CallAgrees round uses now a b (.append key item) := by
  have lists : IsList (a key) ∧ IsList (b key) := by
    have found := h key
    rwa [fits] at found
  obtain ⟨reply, next, served, list⟩ := serve_rpush round now (isList_live now lists.1) (.text item)
  have pushed : Agrees .usage now next (Op.run now (live now (b key)) (.rpush [.text item])).2 :=
    ⟨list, run_rpush now (isList_live now lists.2) (.text item)⟩
  exact ⟨.table [], _, call_ok served, rfl, h.update (fits.symm ▸ pushed)⟩

theorem slidingSuccess_agrees (h : StoresAgree uses now a b) (fits : uses key = .sliding)
    (limit window : Int) {clock : Int} (nonneg : 0 ≤ clock) (member : String) :
    CallAgrees round uses now a b (.slidingSuccess key limit window clock member) := by
  have one : Lua.truncated 1 = 1 := by exact_mod_cast truncated_int 1
  have zero : Lua.truncated 0 = 0 := by exact_mod_cast truncated_int 0
  by_cases off : limit ≤ 0
  · have lua : (ScriptCall.slidingSuccess key limit window clock member).lua
        (Server.command round now) a = .ok (.table [1, 0], a) := by
      rw [ScriptCall.lua, Lua.slidingSuccess, if_pos off]
      rfl
    have twin : (ScriptCall.slidingSuccess key limit window clock member).twin (command now) b =
        ([1, 0], b) := if_pos off
    rw [CallAgrees, lua, twin]
    refine ⟨_, _, rfl, ?_, h⟩
    simp only [ScriptCall.SameTuple, Lua.normalizeScriptResult, List.map_cons, List.map_nil, one,
      zero]
  have sets : SetsAgree (fun x => 0 ≤ x.score) now (a key) (b key) := by
    have found := h key
    rwa [fits] at found
  have cut : ∀ x : Scored, 0 ≤ x.score →
      inScores (some 0) (some ((clock - window : Int) : ℚ)) x =
        inScores none (some ((clock - window : Int) : ℚ)) x := by
    intro x above
    simp only [inScores, Option.all_none, Option.all_some, decide_eq_true above]
  obtain ⟨r, e, e', luaRun, twinRun, whole, agree⟩ := admit_agrees round sets cut limit
    clock member (Int.cast_nonneg nonneg) window
  have lua : (ScriptCall.slidingSuccess key limit window clock member).lua
      (Server.command round now) a = .ok (.table r, Function.update a key e) := by
    rw [← luaRun, ScriptCall.lua, Lua.slidingSuccess, if_neg off]
    rfl
  have twin : (ScriptCall.slidingSuccess key limit window clock member).twin (command now) b =
      (r, Function.update b key e') := by
    rw [← twinRun, ScriptCall.twin, slidingSuccess_eq _ _ off]
  rw [CallAgrees, lua, twin]
  exact ⟨_, _, rfl, whole, h.update (fits.symm ▸ agree)⟩

theorem concurrency_agrees (h : StoresAgree uses now a b) (fits : uses key = .leases)
    (limit clock ttl : Int) (member : String) :
    CallAgrees round uses now a b (.concurrency key limit clock ttl member) := by
  have sets : SetsAgree (fun _ => True) now (a key) (b key) := by
    have found := h key
    rwa [fits] at found
  obtain ⟨r, e, e', luaRun, twinRun, whole, agree⟩ := admit_agrees round sets
    (fun _ _ => rfl : ∀ x : Scored, True → inScores none (some (clock : ℚ)) x =
      inScores none (some (clock : ℚ)) x) limit (clock + ttl) member trivial (ttl + 1000)
  have lua : (ScriptCall.concurrency key limit clock ttl member).lua (Server.command round now) a =
      .ok (.table r, Function.update a key e) := luaRun
  have twin : (ScriptCall.concurrency key limit clock ttl member).twin (command now) b =
      (r, Function.update b key e') := twinRun
  rw [CallAgrees, lua, twin]
  exact ⟨_, _, rfl, whole, h.update (fits.symm ▸ agree)⟩

variable (round) in
/-- One call, whatever script it runs. -/
theorem call_agrees (h : StoresAgree uses now a b) {c : ScriptCall} (fits : c.Fits uses) :
    CallAgrees round uses now a b c := by
  cases c with
  | tokenBucket key capacity refill clock cost ttl =>
      have found := h key
      rw [show uses key = .bucket from fits] at found
      obtain ⟨r, e, e', lua, twin, whole, agree⟩ :=
        tokenBucket_agrees round found capacity refill clock cost ttl
      rw [CallAgrees, ScriptCall.lua, ScriptCall.twin, lua, twin]
      exact ⟨_, _, rfl, whole, h.update (fits.symm ▸ agree)⟩
  | fixedWindow key limit window cost =>
      have found := h key
      rw [show uses key = .window from fits] at found
      obtain ⟨r, r', e, e', lua, twin, length, same, agree⟩ :=
        fixedWindow_agrees round found limit window cost
      rw [CallAgrees, ScriptCall.lua, ScriptCall.twin, lua, twin]
      exact ⟨_, _, rfl, ⟨length, same⟩, h.update (fits.symm ▸ agree)⟩
  | slidingSuccess key limit window clock member =>
      exact slidingSuccess_agrees h fits.1 limit window fits.2 member
  | concurrency key limit clock ttl member =>
      exact concurrency_agrees h fits limit clock ttl member
  | nextKey key size =>
      have found := h key
      rw [show uses key = .rotation from fits] at found
      obtain ⟨ret, e, e', lua, twin, agree⟩ := nextKey_agrees round found size
      rw [CallAgrees, ScriptCall.lua, ScriptCall.twin, lua, twin]
      exact ⟨_, _, rfl, rfl, h.update (fits.symm ▸ agree)⟩
  | health key ok threshold cooldown clock =>
      have found := h key
      rw [show uses key = .health from fits] at found
      obtain ⟨r, e, e', lua, twin, whole, agree⟩ :=
        health_agrees round found ok threshold cooldown clock
      rw [CallAgrees, ScriptCall.lua, ScriptCall.twin, lua, twin]
      exact ⟨_, _, rfl, whole, h.update (fits.symm ▸ agree)⟩
  | releaseLock key owner => exact releaseLock_agrees h fits owner
  | ackUsage listKey lockKey owner start => exact ackUsage_agrees h fits.1 fits.2 owner start
  | acquireLock key owner seconds => exact acquireLock_agrees h fits.1 owner fits.2
  | append listKey item => exact append_agrees h fits item

/-- Time passes: what has died in one store is dead or empty in the other. -/
theorem SetsAgree.later {P : Scored → Prop} {now later : Int} (le : now ≤ later)
    {e e' : Option Entry} (h : SetsAgree P now e e') : SetsAgree P later e e' := by
  obtain ⟨xs, ys, left, right, perm, expiry, all⟩ := h
  have empty (entry : Option Entry) (shape : zsetOf (live now entry) = some []) :
      zsetOf (live later entry) = some [] := by
    rw [← live_later le]
    cases found : live later (live now entry) with
    | none => rfl
    | some e =>
        rw [(Option.filter_eq_some_iff.mp found).1] at shape
        exact shape
  by_cases none' : xs = []
  · subst none'
    obtain rfl := perm.nil_eq
    exact ⟨[], [], empty e left, empty e' right, .nil, fun nonempty => absurd rfl nonempty, all⟩
  · have same := expiry none'
    have nonempty : ys ≠ [] := fun eq => none' (List.perm_nil.mp (eq ▸ perm))
    cases found : live now e with
    | none =>
        rw [found] at left
        exact absurd (Option.some.inj left).symm none'
    | some x =>
        cases found' : live now e' with
        | none =>
            rw [found'] at right
            exact absurd (Option.some.inj right).symm nonempty
        | some x' =>
            rw [found] at left
            rw [found'] at right
            rw [found, found'] at same
            have expires : x.expiresAt = x'.expiresAt := same
            have alike : x.isLive later = x'.isLive later := by
              rw [Entry.isLive, Entry.isLive, expires]
            rw [SetsAgree, ← live_later le e, ← live_later le e', found, found']
            cases alive : x.isLive later with
            | false =>
                have dead : live later (some x) = none := by simp [live, Option.filter, alive]
                have dead' : live later (some x') = none := by
                  simp [live, Option.filter, ← alike, alive]
                rw [dead, dead']
                exact ⟨[], [], rfl, rfl, .nil, fun nonempty => absurd rfl nonempty, by simp⟩
            | true =>
                have kept : live later (some x) = some x := by simp [live, Option.filter, alive]
                have kept' : live later (some x') = some x' := by
                  simp [live, Option.filter, ← alike, alive]
                rw [kept, kept']
                exact ⟨xs, ys, left, right, perm, fun _ => expires, all⟩

theorem StoresAgree.later {now later : Int} (le : now ≤ later) (h : StoresAgree uses now a b) :
    StoresAgree uses later a b := by
  have plain {e e' : Option Entry} {use : KeyUse}
      (h : live now e = live now e' ∧ ∀ x ∈ live now e, Plain use x.value) :
      live later e = live later e' ∧ ∀ x ∈ live later e, Plain use x.value := by
    refine ⟨by rw [← live_later le, h.1, live_later le], fun x mem => h.2 x ?_⟩
    rw [← live_later le] at mem
    exact (Option.filter_eq_some_iff.mp mem).1
  intro key
  have found := h key
  cases use : uses key with
  | sliding => exact SetsAgree.later le (use ▸ found : Agrees .sliding now (a key) (b key))
  | leases => exact SetsAgree.later le (use ▸ found : Agrees .leases now (a key) (b key))
  | usage => exact (use ▸ found : Agrees .usage now (a key) (b key))
  | bucket => exact plain (use ▸ found : Agrees .bucket now (a key) (b key))
  | window => exact plain (use ▸ found : Agrees .window now (a key) (b key))
  | rotation => exact plain (use ▸ found : Agrees .rotation now (a key) (b key))
  | health => exact plain (use ▸ found : Agrees .health now (a key) (b key))
  | lock => exact plain (use ▸ found : Agrees .lock now (a key) (b key))

end Calls

section Histories

/-- A program on the server: its normalised answer, unless it raises. -/
def luaStep (round : Int → Int) (s : Store) (c : TimedCall) :
    Store × Except ServerError (List ℚ) :=
  match c.call.lua (Server.command round c.clock) s with
  | .ok (ret, s) => (s, .ok (Lua.normalizeScriptResult ret))
  | .error e => (s, .error e)

def twinStep (s : Store) (c : TimedCall) : Store × List ℚ :=
  let (r, s) := c.call.twin (command c.clock) s
  (s, r)

/-- The same tuple at every step. -/
def SameAnswer (c : TimedCall) (r : Except ServerError (List ℚ)) (r' : List ℚ) : Prop :=
  ∃ tuple, r = .ok tuple ∧ c.call.SameTuple tuple r'

theorem step_agrees (round : Int → Int) {uses : String → KeyUse} {a b : Store} {c : TimedCall}
    (fits : c.call.Fits uses) (h : StoresAgree uses c.clock a b) :
    SameAnswer c (luaStep round a c).2 (twinStep b c).2 ∧
      StoresAgree uses c.clock (luaStep round a c).1 (twinStep b c).1 := by
  obtain ⟨ret, a', lua, same, agree⟩ := call_agrees round h fits
  rw [luaStep, lua]
  exact ⟨⟨_, rfl, same⟩, agree⟩

/-- Every Lua program and its twin answer alike, over every history of calls that use
each key for one purpose, on a clock that does not go back. -/
theorem twins_agree (round : Int → Int) (uses : String → KeyUse) {calls : List TimedCall}
    (fits : ∀ c ∈ calls, c.call.Fits uses)
    (forward : (calls.map TimedCall.clock).IsChain (· ≤ ·)) :
    List.Forall₂ (Machine.Event.Matches SameAnswer)
      (Machine.trace (luaStep round) Store.empty calls)
      (Machine.trace twinStep Store.empty calls) := by
  have start (t : Int) : StoresAgree uses t Store.empty Store.empty :=
    fun key => missing_agrees (uses key)
  cases calls with
  | nil => exact .nil
  | cons c calls =>
      exact Machine.trace_matches (StoresAgree uses) TimedCall.clock
        (fun c => c.call.Fits uses) (fun le h => h.later le)
        (fun fits h => step_agrees round fits h) (start c.clock)
        (List.isChain_cons_cons.mpr ⟨le_refl _, forward⟩) fits

def twinUses (key : String) : KeyUse := if key = "rpm" then .bucket else .leases

/-- A bucket that runs dry, and a ceiling that is reached. -/
def twinCalls : List TimedCall :=
  [⟨0, .tokenBucket "rpm" 1 1 0 1 60⟩, ⟨1, .tokenBucket "rpm" 1 1 1 1 60⟩,
    ⟨2, .concurrency "conc" 1 2 900000 "a"⟩, ⟨3, .concurrency "conc" 1 3 900000 "b"⟩]

theorem twins_agree_dry :
    List.Forall₂ (Machine.Event.Matches SameAnswer)
      (Machine.trace (luaStep fun ms => (ms + 500) / 1000) Store.empty twinCalls)
      (Machine.trace twinStep Store.empty twinCalls) :=
  twins_agree _ twinUses (by simp [twinCalls, ScriptCall.Fits, twinUses]) (by decide)

end Histories

end Gateway.Redis
