import Gateway.Redis.Memory
import Mathlib.Algebra.Order.Floor.Ring
import Mathlib.Data.Rat.Floor

/-!
The JavaScript twins of the Lua scripts: `executeScriptProgram` over any
interpreter of commands, for the scripts the gateway runs.

Arithmetic is exact. A field of a bucket that is stored is a finite number.
-/

namespace Gateway.Redis

/-- What the twins are written against: one command at a time. -/
abbrev Interpreter (σ : Type) := Command → σ → Reply × σ

namespace Reply

/-- `Number(reply)` of a reply that is a finite number, with `null` as 0. -/
def toRat : Reply → ℚ
  | .int n => n
  | .number n => n.toRat
  | .value d => d.toNumber.toRat
  | _ => 0

def item (i : Nat) : Reply → Option Datum
  | .values ds => (ds[i]?).join
  | _ => none

/-- `reply === text` -/
def isText (text : String) : Reply → Bool
  | .value d => d.string == text
  | _ => false

end Reply

section Scripts

variable {σ : Type} (r : Interpreter σ)

def ackUsage (listKey lockKey owner : String) (start : Int) (s : σ) : List ℚ × σ :=
  let (held, s) := r (.on lockKey .get) s
  if held.isText owner = false then ([0], s)
  else
    let (_, s) := r (.on listKey (.ltrim start (-1))) s
    let (_, s) := r (.del [lockKey]) s
    ([1], s)

def concurrency (key : String) (limit now ttl : Int) (member : String) (s : σ) : List ℚ × σ :=
  let (_, s) := r (.on key (.zremrangebyscore none (some now))) s
  let (card, s) := r (.on key .zcard) s
  if (limit : ℚ) ≤ card.toRat then ([0, card.toRat], s)
  else
    let (_, s) := r (.on key (.zadd [(now + ttl, member)])) s
    let (_, s) := r (.on key (.pexpire (ttl + 1000))) s
    ([1, card.toRat + 1], s)

def releaseLock (key owner : String) (s : σ) : List ℚ × σ :=
  let (held, s) := r (.on key .get) s
  if held.isText owner = false then ([0], s)
  else
    let (removed, s) := r (.del [key]) s
    ([removed.toRat], s)

def tokenBucket (key : String) (capacity refill now cost : ℚ) (ttl : Int) (s : σ) :
    List ℚ × σ :=
  if capacity ≤ 0 then ([1, -1, 0], s)
  else
    let (data, s) := r (.on key (.hmget ["tokens", "ts"])) s
    let tokens := (data.item 0).elim capacity fun d => d.toNumber.toRat
    let ts := (data.item 1).elim now fun d => d.toNumber.toRat
    let elapsed := max 0 (now - ts) / 1000
    let tokens := min capacity (tokens + elapsed * refill)
    let (allowed, retry, tokens) : ℚ × ℚ × ℚ :=
      if cost ≤ tokens then (1, 0, tokens - cost)
      else
        (0, if 0 < refill then ⌈(cost - tokens) / refill * 1000⌉ else ttl * 1000, tokens)
    let (_, s) := r (.on key (.hset
      [("tokens", .number (.finite tokens)), ("ts", .number (.finite now))])) s
    let (_, s) := r (.on key (.expire ttl)) s
    ([allowed, ⌊tokens⌋, retry], s)

/-- A key without an expiry is reported with the whole window. -/
def ttlOr (window : Int) (ttl : Reply) : ℚ := if ttl.toRat < 0 then window else ttl.toRat

def fixedWindow (key : String) (limit window cost : Int) (s : σ) : List ℚ × σ :=
  if limit ≤ 0 then ([1, 0, window], s)
  else
    let (current, s) := r (.on key .get) s
    if (limit : ℚ) < current.toRat + cost then
      let (ttl, s) := r (.on key .ttl) s
      ([0, current.toRat, ttlOr window ttl], s)
    else
      let (updated, s) := r (.on key (.incrBy cost)) s
      let (_, s) := if updated.toRat = cost then r (.on key (.expire window)) s else (.null, s)
      let (ttl, s) := r (.on key .ttl) s
      ([1, updated.toRat, ttlOr window ttl], s)

def slidingSuccess (key : String) (limit window now : Int) (member : String) (s : σ) :
    List ℚ × σ :=
  if limit ≤ 0 then ([1, 0], s)
  else
    let (_, s) := r (.on key (.zremrangebyscore none (some (now - window : Int)))) s
    let (card, s) := r (.on key .zcard) s
    if (limit : ℚ) ≤ card.toRat then ([0, card.toRat], s)
    else
      let (_, s) := r (.on key (.zadd [(now, member)])) s
      let (_, s) := r (.on key (.pexpire window)) s
      ([1, card.toRat + 1], s)

/-- `(n - 1) % size`, with the sign of the dividend. -/
def jsMod (n size : Int) : Int := n.tmod size

def nextKey (key : String) (size : Int) (s : σ) : List ℚ × σ :=
  if size ≤ 0 then ([-1], s)
  else
    let (n, s) := r (.on key (.incrBy 1)) s
    let (_, s) := r (.on key (.expire 86400)) s
    ([jsMod (⌊n.toRat⌋ - 1) size], s)

def health (key : String) (ok threshold cooldown now : Int) (s : σ) : List ℚ × σ :=
  if ok = 1 then
    let (_, s) := r (.on key (.hset
      [("fails", .number (.ofInt 0)), ("openUntil", .number (.ofInt 0))])) s
    let (_, s) := r (.on key (.expire (cooldown * 10))) s
    ([0, 0], s)
  else
    let (fails, s) := r (.on key (.hincrby "fails" 1)) s
    let open' := (threshold : ℚ) ≤ fails.toRat
    let (_, s) :=
      if open' then
        r (.on key (.hset [("openUntil", .number (.ofInt (now + cooldown * 1000)))])) s
      else (.null, s)
    let (_, s) := r (.on key (.expire (cooldown * 10))) s
    ([if open' then 1 else 0, fails.toRat], s)

end Scripts

end Gateway.Redis
