import Mathlib.Algebra.Ring.Int.Defs

/-! # The controller queue

One buffer for each priority class. `Time` counts nanoseconds from Go's zero time and
`Duration` counts nanoseconds. -/

namespace TcpAdapter.Queue

abbrev Time := Int

abbrev Duration := Int

def second : Duration := 1000000000

def minute : Duration := 60 * second

def Time.isZero (t : Time) : Bool :=
  t == 0

/-- The source's priorities are strings; every string it does not name is `other`. -/
inductive Priority where
  | high
  | fw
  | sync
  | query
  | other (name : String)
  deriving DecidableEq, Repr

/-- `ticket` is ghost: it numbers the `Enqueue` that this copy of the command stems from.
No function of the source reads it. -/
structure Command where
  messageID : String := ""
  traceID : String := ""
  dedupKey : String := ""
  commandID : UInt8
  ttl : Duration := 0
  createdAt : Time := 0
  payload : List UInt8 := []
  priority : Priority := .query
  attempts : Int := 0
  retrySeq : UInt8 := 0
  ticket : ℕ := 0
  deriving DecidableEq, Repr

/-- marker(4) + len(2) + ttl(1) + seq(1) + cmd_id(1) + payload + crc(2) -/
def estimatedCommandBytes (cmd : Command) : Int :=
  11 + cmd.payload.length

def Command.expired (c : Command) (now : Time) : Bool :=
  if c.ttl ≤ 0 then false else decide (c.createdAt + c.ttl < now)

structure ControllerQueue where
  high : List Command := []
  fw : List Command := []
  sync : List Command := []
  query : List Command := []
  deriving DecidableEq, Repr

namespace ControllerQueue

def push (q : ControllerQueue) (cmd : Command) : ControllerQueue :=
  match cmd.priority with
  | .high => { q with high := q.high ++ [cmd] }
  | .fw => { q with fw := q.fw ++ [cmd] }
  | .sync => { q with sync := q.sync ++ [cmd] }
  | _ => { q with query := q.query ++ [cmd] }

/-- The source also passes the current time, which its body never reads. -/
def popNext (q : ControllerQueue) (fwMode syncMode : Bool) :
    Option Command × ControllerQueue :=
  match q.high with
  | cmd :: rest => (some cmd, { q with high := rest })
  | [] =>
      if fwMode then
        match q.fw with
        | cmd :: rest => (some cmd, { q with fw := rest })
        | [] => (none, q)
      else if syncMode then
        match q.sync with
        | cmd :: rest => (some cmd, { q with sync := rest })
        | [] => (none, q)
      else
        match q.fw with
        | cmd :: rest => (some cmd, { q with fw := rest })
        | [] =>
            match q.sync with
            | cmd :: rest => (some cmd, { q with sync := rest })
            | [] =>
                match q.query with
                | cmd :: rest => (some cmd, { q with query := rest })
                | [] => (none, q)

/-- What stays in a buffer, and what leaves it. -/
def drain (now : Time) (buf : List Command) : List Command × List Command :=
  (buf.filter fun c => !c.expired now, buf.filter fun c => c.expired now)

def drainExpired (q : ControllerQueue) (now : Time) : List Command × ControllerQueue :=
  let (high, e₁) := drain now q.high
  let (fw, e₂) := drain now q.fw
  let (sync, e₃) := drain now q.sync
  let (query, e₄) := drain now q.query
  (e₁ ++ e₂ ++ e₃ ++ e₄, ⟨high, fw, sync, query⟩)

def len (q : ControllerQueue) : ℕ :=
  q.high.length + q.fw.length + q.sync.length + q.query.length

def snapshot (q : ControllerQueue) : List Command :=
  q.high ++ q.fw ++ q.sync ++ q.query

/-- The buffers are emptied first, so the receiver does not matter. -/
def restore (cmds : List Command) : ControllerQueue :=
  cmds.foldl push {}

def hasFW (q : ControllerQueue) : Bool :=
  !q.fw.isEmpty

def hasSync (q : ControllerQueue) : Bool :=
  !q.sync.isEmpty

/-! ## Eviction -/

inductive Buffer where
  | high
  | fw
  | sync
  | query
  deriving DecidableEq, Repr

structure Candidate where
  buf : Buffer
  idx : ℕ
  cmd : Command
  deriving DecidableEq

/-- Only a strictly older command replaces the pick, so ties keep the first one seen. -/
def consider (buf : Buffer) : List Command → ℕ → Option Candidate → Option Candidate
  | [], _, pick => pick
  | c :: rest, i, pick =>
      match pick with
      | none => consider buf rest (i + 1) (some ⟨buf, i, c⟩)
      | some p =>
          if c.createdAt < p.cmd.createdAt then consider buf rest (i + 1) (some ⟨buf, i, c⟩)
          else consider buf rest (i + 1) (some p)

def removeAt (buf : List Command) (idx : ℕ) : List Command :=
  buf.eraseIdx idx

def dropOldest (q : ControllerQueue) : Option Command × ControllerQueue :=
  let pick := consider .high q.high 0 none
  let pick := consider .fw q.fw 0 pick
  let pick := consider .sync q.sync 0 pick
  let pick := consider .query q.query 0 pick
  match pick with
  | none => (none, q)
  | some p =>
      match p.buf with
      | .high => (some p.cmd, { q with high := removeAt q.high p.idx })
      | .fw => (some p.cmd, { q with fw := removeAt q.fw p.idx })
      | .sync => (some p.cmd, { q with sync := removeAt q.sync p.idx })
      | .query => (some p.cmd, { q with query := removeAt q.query p.idx })

def totalEstimatedBytes (q : ControllerQueue) : Int :=
  (q.high.map estimatedCommandBytes).sum + (q.fw.map estimatedCommandBytes).sum +
    (q.sync.map estimatedCommandBytes).sum + (q.query.map estimatedCommandBytes).sum

end ControllerQueue

end TcpAdapter.Queue
