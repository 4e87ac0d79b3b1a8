import TcpAdapter.Model.Session

/-! # Command policy

The class of each command, what the firmware and sync modes let through, and the retry
policy of each class. -/

namespace TcpAdapter.Policy

open TcpAdapter.Queue TcpAdapter.Manager

/-- What to do with a command that does not fit its queue. -/
inductive OverflowPolicy where
  | reject
  | dropOldest
  | other (name : String)
  deriving DecidableEq, Repr

/-- The configuration the delivery path reads, with the defaults of `config.Load`. -/
structure Config where
  maxConnections : Int := 10000
  maxQueueDepth : Int := 1000
  maxQueueBytes : Int := 1048576
  queueOverflow : OverflowPolicy := .dropOldest
  ackTimeout : Duration := 10 * second
  retryBackoff : Duration := 3 * second
  maxRetries : Int := 3
  ackTimeoutQuery : Duration := 2 * second
  retryBackoffQuery : Duration := 1 * second
  maxRetriesQuery : Int := 2
  ackTimeoutSync : Duration := 15 * second
  retryBackoffSync : Duration := 5 * second
  maxRetriesSync : Int := 1
  ackTimeoutFW : Duration := 20 * second
  retryBackoffFW : Duration := 3 * second
  maxRetriesFW : Int := 3

def canonicalPriorityForCommand (commandID : UInt8) : Option Priority :=
  match commandID with
  | 1 | 2 | 3 | 5 | 8 | 17 | 18 | 19 | 23 | 24 => some .high
  | 20 => some .fw
  | 12 | 13 | 14 | 15 | 16 => some .sync
  | 6 | 7 | 9 | 10 | 11 | 21 | 22 | 25 | 27 => some .query
  | _ => none

def normalizeCommandPriority (cmd : Command) : Except Error Command :=
  match canonicalPriorityForCommand cmd.commandID with
  | none => .error (.text s!"unsupported command id: {cmd.commandID}")
  | some p => .ok { cmd with priority := p }

/-- Firmware mode lets high-priority commands and firmware blocks through. Sync mode lets
sync commands and those high-priority commands through that it does not block. -/
def commandAllowedInModes (commandID : UInt8) (fwMode syncMode : Bool) : Bool :=
  if fwMode then
    if commandID = 20 then true
    else canonicalPriorityForCommand commandID = some .high
  else if syncMode then
    if 12 ≤ commandID ∧ commandID ≤ 16 then true
    else if commandID ∈ [2, 3, 17, 18, 19, 20, 23] then false
    else canonicalPriorityForCommand commandID = some .high
  else true

/-- An all-zero profile counts as unset. -/
def mergeDeliveryPolicy (base specific : DeliveryPolicy) : DeliveryPolicy :=
  if specific.ackTimeout = 0 ∧ specific.retryBackoff = 0 ∧ specific.maxRetries = 0 then base
  else
    { ackTimeout := if specific.ackTimeout > 0 then specific.ackTimeout else base.ackTimeout
      retryBackoff :=
        if specific.retryBackoff ≥ 0 then specific.retryBackoff else base.retryBackoff
      maxRetries := if specific.maxRetries ≥ 0 then specific.maxRetries else base.maxRetries }

def deliveryPolicyForCommand (cfg : Config) (cmd : Command) : DeliveryPolicy :=
  let base : DeliveryPolicy :=
    { ackTimeout := if cfg.ackTimeout ≤ 0 then 10 * second else cfg.ackTimeout
      retryBackoff := cfg.retryBackoff
      maxRetries := if cfg.maxRetries < 0 then 0 else cfg.maxRetries }
  if cmd.priority = .query then
    mergeDeliveryPolicy base ⟨cfg.ackTimeoutQuery, cfg.retryBackoffQuery, cfg.maxRetriesQuery⟩
  else if cmd.priority = .sync then
    mergeDeliveryPolicy base ⟨cfg.ackTimeoutSync, cfg.retryBackoffSync, cfg.maxRetriesSync⟩
  else if cmd.commandID = 19 ∨ cmd.commandID = 20 ∨ cmd.priority = .fw then
    mergeDeliveryPolicy base ⟨cfg.ackTimeoutFW, cfg.retryBackoffFW, cfg.maxRetriesFW⟩
  else base

end TcpAdapter.Policy
