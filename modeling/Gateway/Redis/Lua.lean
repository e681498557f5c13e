import Gateway.Redis.Server
import Gateway.Redis.Scripts

/-!
The Lua programs that Redis runs, over its own commands.

A program that raises leaves what it has written, but a program that follows the
types of its keys never raises. A missing value is `false` to Lua, and `tonumber`
of it is `nil`.
-/

namespace Gateway.Redis.Lua

abbrev Program := StateT Store (Except ServerError)

/-- What a program returns: one number or a table of numbers. -/
inductive Returned where
  | number (n : ℚ)
  | table (ns : List ℚ)

/-- Redis drops the fraction of a number that a program returns. -/
def truncated (q : ℚ) : ℚ := if 0 ≤ q then ⌊q⌋ else ⌈q⌉

def normalizeScriptResult : Returned → List ℚ
  | .number n => [truncated n]
  | .table ns => ns.map truncated

def tonumber : Option Datum → Option ℚ
  | some d =>
      match d.toNumber with
      | .finite q => some q
      | _ => none
  | none => none

def bulk : Reply → Option Datum
  | .value d => some d
  | _ => none

section Programs

variable (call : Command → Program Reply)

def tokenBucket (key : String) (capacity refill now cost : ℚ) (ttl : Int) :
    Program Returned := do
  if capacity ≤ 0 then return .table [1, -1, 0]
  else
    let data ← call (.on key (.hmget ["tokens", "ts"]))
    let tokens := (tonumber (data.item 0)).getD capacity
    let ts := (tonumber (data.item 1)).getD now
    let elapsed := max 0 (now - ts) / 1000
    let tokens := min capacity (tokens + elapsed * refill)
    let (allowed, retry, tokens) : ℚ × ℚ × ℚ :=
      if cost ≤ tokens then (1, 0, tokens - cost)
      else
        (0, if 0 < refill then ⌈(cost - tokens) / refill * 1000⌉ else ttl * 1000, tokens)
    let _ ← call (.on key (.hset
      [("tokens", .number (.finite tokens)), ("ts", .number (.finite now))]))
    let _ ← call (.on key (.expire ttl))
    return .table [allowed, ⌊tokens⌋, retry]

def fixedWindow (key : String) (limit window cost : Int) : Program Returned := do
  if limit ≤ 0 then return .table [1, 0, window]
  else
    let found ← call (.on key .get)
    match tonumber ((bulk found).or (some (.text "0"))) with
    | none => throw .arithmeticOnNil
    | some current =>
        if (limit : ℚ) < current + cost then
          let ttl ← call (.on key .ttl)
          return .table [0, current, ttlOr window ttl]
        else
          let updated ← call (.on key (.incrBy cost))
          let _ ← if updated.toRat = cost then call (.on key (.expire window)) else pure .null
          let ttl ← call (.on key .ttl)
          return .table [1, updated.toRat, ttlOr window ttl]

def slidingSuccess (key : String) (limit window now : Int) (member : String) :
    Program Returned := do
  if limit ≤ 0 then return .table [1, 0]
  else
    let _ ← call (.on key (.zremrangebyscore (some 0) (some (now - window : Int))))
    let count ← call (.on key .zcard)
    if (limit : ℚ) ≤ count.toRat then return .table [0, count.toRat]
    else
      let _ ← call (.on key (.zadd [(now, member)]))
      let _ ← call (.on key (.pexpire window))
      return .table [1, count.toRat + 1]

/-- `a % b` of Lua, with the sign of the divisor. -/
def luaMod (a b : Int) : Int := a.fmod b

def nextKey (key : String) (size : Int) : Program Returned := do
  if size ≤ 0 then return .number (-1)
  else
    let n ← call (.on key (.incrBy 1))
    let _ ← call (.on key (.expire 86400))
    return .number (luaMod (⌊n.toRat⌋ - 1) size)

def health (key : String) (ok threshold cooldown now : Int) : Program Returned := do
  if ok = 1 then
    let _ ← call (.on key (.hset
      [("fails", .number (.ofInt 0)), ("openUntil", .number (.ofInt 0))]))
    let _ ← call (.on key (.expire (cooldown * 10)))
    return .table [0, 0]
  else
    let fails ← call (.on key (.hincrby "fails" 1))
    let state ←
      if (threshold : ℚ) ≤ fails.toRat then do
        let _ ← call (.on key (.hset [("openUntil", .number (.ofInt (now + cooldown * 1000)))]))
        pure 1
      else pure 0
    let _ ← call (.on key (.expire (cooldown * 10)))
    return .table [state, fails.toRat]

def concurrency (key : String) (limit now ttl : Int) (member : String) : Program Returned := do
  let _ ← call (.on key (.zremrangebyscore none (some now)))
  let count ← call (.on key .zcard)
  if (limit : ℚ) ≤ count.toRat then return .table [0, count.toRat]
  else
    let _ ← call (.on key (.zadd [(now + ttl, member)]))
    let _ ← call (.on key (.pexpire (ttl + 1000)))
    return .table [1, count.toRat + 1]

def releaseLock (key owner : String) : Program Returned := do
  let held ← call (.on key .get)
  if (bulk held).any (fun d => d.string == owner) then
    let removed ← call (.del [key])
    return .table [removed.toRat]
  else return .table [0]

def ackUsage (listKey lockKey owner : String) (start : Int) : Program Returned := do
  let held ← call (.on lockKey .get)
  if (bulk held).any (fun d => d.string == owner) = false then return .table [0]
  else
    let _ ← call (.on listKey (.ltrim start (-1)))
    let _ ← call (.del [lockKey])
    return .table [1]

end Programs

end Gateway.Redis.Lua
