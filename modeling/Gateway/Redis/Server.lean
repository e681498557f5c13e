import Gateway.Redis.Memory

/-!
The commands as Redis documents them.

A collection that becomes empty is removed with its key, an expiry that is not
in the future deletes the key at once, and a key of another type is an error.
How `TTL` rounds is left to Redis.
-/

namespace Gateway.Redis

inductive ServerError where
  | wrongType
  | notInteger
  | invalidExpire
  | outOfRange
  /-- a command without the arguments it needs -/
  | arity
  /-- a Lua program computes with `nil` -/
  | arithmeticOnNil
deriving DecidableEq

namespace Server

/-- A value of the expected type, with its expiry; `none` for a missing key. -/
def typed {α : Type} (as : Value → Option α) (entry : Option Entry) :
    Except ServerError (Option (α × Option Int)) :=
  match entry with
  | none => .ok none
  | some e =>
      match as e.value with
      | none => .error .wrongType
      | some c => .ok (some (c, e.expiresAt))

def asScalar : Value → Option Datum
  | .scalar d => some d
  | _ => none

def asList : Value → Option (List Datum)
  | .list items => some items
  | _ => none

def asZset : Value → Option (List Scored)
  | .zset entries => some entries
  | _ => none

/-- The integer a stored string spells. -/
def integer : Datum → Option Int
  | .number (.finite q) => if q.den = 1 then some q.num else none
  | .number _ => none
  | .text s => s.toInt?.filter fun n => toString n == s

def hashEntry (fields : List (String × Datum)) (expiresAt : Option Int) : Option Entry :=
  if fields = [] then none else some ⟨.hash fields, expiresAt⟩

def listEntry (items : List Datum) (expiresAt : Option Int) : Option Entry :=
  if items = [] then none else some ⟨.list items, expiresAt⟩

def zsetEntry (entries : List Scored) (expiresAt : Option Int) : Option Entry :=
  if entries = [] then none else some ⟨.zset entries, expiresAt⟩

def expireAt (now t : Int) (e : Entry) : Option Entry :=
  if t ≤ now then none else some { e with expiresAt := some t }

/-- The elements from `start` to `stop`, both inclusive, counted from the end when negative. -/
def range {α : Type} (xs : List α) (start stop : Int) : List α :=
  let first := (if start < 0 then xs.length + start else start).toNat
  let last := if stop < 0 then xs.length + stop else stop
  (xs.take (last + 1).toNat).drop first

/-- By score, and by member within one score. -/
def sortScores (entries : List Scored) : List Scored :=
  entries.insertionSort fun x y => x.score < y.score ∨ (x.score = y.score ∧ x.member ≤ y.member)

def serve (round : Int → Int) (now : Int) (entry : Option Entry) :
    Op → Except ServerError (Reply × Option Entry)
  | .get => do
      let found ← typed asScalar entry
      return (found.elim .null fun c => .value c.1, entry)
  | .set value options =>
      if options.nx && entry.isSome then .ok (.null, entry)
      else if options.xx && entry.isNone then .ok (.null, entry)
      else
        match options.px.or (options.ex.map (· * 1000)) with
        | none => .ok (.ok, some ⟨.scalar value, none⟩)
        | some ms =>
            if ms ≤ 0 then .error .invalidExpire
            else .ok (.ok, some ⟨.scalar value, some (now + ms)⟩)
  | .setex seconds value =>
      if seconds ≤ 0 then .error .invalidExpire
      else .ok (.ok, some ⟨.scalar value, some (now + seconds * 1000)⟩)
  | .expire seconds =>
      match entry with
      | none => .ok (.int 0, none)
      | some e => .ok (.int 1, expireAt now (now + seconds * 1000) e)
  | .pexpire ms =>
      match entry with
      | none => .ok (.int 0, none)
      | some e => .ok (.int 1, expireAt now (now + ms) e)
  | .ttl =>
      match entry with
      | none => .ok (.int (-2), none)
      | some e => .ok (.int (e.expiresAt.elim (-1) fun t => round (t - now)), some e)
  | .incrBy delta => do
      let found ← typed asScalar entry
      match found with
      | none => return (.int delta, some ⟨.scalar (.number (.ofInt delta)), none⟩)
      | some (d, expiresAt) =>
          match integer d with
          | none => throw .notInteger
          | some n =>
              return (.int (n + delta), some ⟨.scalar (.number (.ofInt (n + delta))), expiresAt⟩)
  | .hset pairs => do
      if pairs = [] then throw .arity
      let (fields, expiresAt) := (← typed Value.asHash entry).getD ([], none)
      let next := pairs.foldl (fun fields pair => setField fields pair.1 pair.2) fields
      return (.int (next.length - fields.length), hashEntry next expiresAt)
  | .hget field => do
      let found ← typed Value.asHash entry
      return ((found.bind fun c => c.1.lookup field).elim .null .value, entry)
  | .hmget names => do
      if names = [] then throw .arity
      let found ← typed Value.asHash entry
      return (.values (names.map fun name => found.bind fun c => c.1.lookup name), entry)
  | .hgetall => do
      let found ← typed Value.asHash entry
      return (.record (found.elim [] Prod.fst), entry)
  | .hincrby field delta => do
      let (fields, expiresAt) := (← typed Value.asHash entry).getD ([], none)
      match fields.lookup field with
      | none =>
          return (.int delta, hashEntry (setField fields field (.number (.ofInt delta))) expiresAt)
      | some d =>
          match integer d with
          | none => throw .notInteger
          | some n =>
              return (.int (n + delta),
                hashEntry (setField fields field (.number (.ofInt (n + delta)))) expiresAt)
  | .hdel names => do
      if names = [] then throw .arity
      let (fields, expiresAt) := (← typed Value.asHash entry).getD ([], none)
      let kept := fields.filter fun field => !names.contains field.1
      return (.int (fields.length - kept.length), hashEntry kept expiresAt)
  | .rpush values => do
      if values = [] then throw .arity
      let (items, expiresAt) := (← typed asList entry).getD ([], none)
      return (.int (items ++ values).length, listEntry (items ++ values) expiresAt)
  | .lpush values => do
      if values = [] then throw .arity
      let (items, expiresAt) := (← typed asList entry).getD ([], none)
      return (.int (values.reverse ++ items).length, listEntry (values.reverse ++ items) expiresAt)
  | .lrange start stop => do
      let found ← typed asList entry
      return (.values ((range (found.elim [] Prod.fst) start stop).map some), entry)
  | .llen => do
      let found ← typed asList entry
      return (.int (found.elim [] Prod.fst).length, entry)
  | .ltrim start stop => do
      let (items, expiresAt) := (← typed asList entry).getD ([], none)
      return (.ok, listEntry (range items start stop) expiresAt)
  | .lpop count => do
      if count.any (· < 0) then throw .outOfRange
      match ← typed asList entry with
      | none => return (.null, none)
      | some (items, expiresAt) =>
          let taken := items.take (count.getD 1).toNat
          return (if count.isNone then taken.head?.elim .null .value else .values (taken.map some),
            listEntry (items.drop (count.getD 1).toNat) expiresAt)
  | .zadd pairs => do
      if pairs = [] then throw .arity
      let (entries, expiresAt) := (← typed asZset entry).getD ([], none)
      let next := pairs.foldl (fun entries pair => setScore entries pair.1 pair.2) entries
      return (.int (next.length - entries.length), zsetEntry (sortScores next) expiresAt)
  | .zcard => do
      let found ← typed asZset entry
      return (.int (found.elim [] Prod.fst).length, entry)
  | .zrem names => do
      if names = [] then throw .arity
      let (entries, expiresAt) := (← typed asZset entry).getD ([], none)
      let kept := entries.filter fun e => !names.contains e.member
      return (.int (entries.length - kept.length), zsetEntry kept expiresAt)
  | .zremrangebyscore min max => do
      let (entries, expiresAt) := (← typed asZset entry).getD ([], none)
      let kept := entries.filter fun e => !inScores min max e
      return (.int (entries.length - kept.length), zsetEntry kept expiresAt)
  | .zrange start stop => do
      let found ← typed asZset entry
      return (.members ((range (found.elim [] Prod.fst) start stop).map Scored.member), entry)

/-- A command on the keyspace. -/
def command (round : Int → Int) (now : Int) (c : Command) (s : Store) :
    Except ServerError (Reply × Store) :=
  match c with
  | .on key op =>
      (serve round now (live now (s key)) op).map fun (reply, entry) =>
        (reply, Function.update s key entry)
  | .del keys =>
      let (found, s) := countKeys now (fun s key => Function.update s key none) keys s
      .ok (.int found, s)
  | .existsKeys keys =>
      let (found, s) := countKeys now (fun s _ => s) keys s
      .ok (.int found, s)

end Server

end Gateway.Redis
