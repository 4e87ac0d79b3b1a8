import TcpAdapter.Verification.Delivery.Courier
import TcpAdapter.Verification.Protocol.Reader

/-! # The number on the wire and the number in flight

A flush that reads a session in sequenced mode writes frames that a controller decodes to the
number under which the command is then registered. In compact mode the number is not on the
wire, and the controller decodes 0. -/

namespace TcpAdapter.Delivery

open TcpAdapter.Concurrent TcpAdapter.Queue TcpAdapter.Protocol TcpAdapter.Manager
open TcpAdapter.Policy TcpAdapter.Codec

/-! ## What a controller decodes -/

/-- A controller that reads in the layout `mode` decodes the frame to the number and the
command. -/
def Sent.Decodes (sent : Sent) (mode : FrameMode) (seq : UInt8) : Prop :=
  ∀ ended, ∃ frame, Reads (readFrameWithMode ended mode) sent.bytes frame ∧ frame.seq = seq ∧
    frame.payload = sent.cmd.commandID :: sent.cmd.payload

theorem Sent.decodes_sequenced {sent : Sent}
    (h : encodeFrame (commandFrame sent.cmd sent.seq .sequenced) = .ok sent.bytes) :
    sent.Decodes .sequenced sent.seq := by
  intro ended
  have hmode : (commandFrame sent.cmd sent.seq .sequenced).mode ≠ .auto := by simp [commandFrame]
  have hreads := @reads_encodeFrame ended _ _ hmode h
  exact ⟨_, hreads, rfl, rfl⟩

/-- The compact layout has no room for the number. -/
theorem Sent.decodes_compact {sent : Sent}
    (h : encodeFrame (commandFrame sent.cmd sent.seq .compact) = .ok sent.bytes) :
    sent.Decodes .compact 0 := by
  intro ended
  have hmode : (commandFrame sent.cmd sent.seq .compact).mode ≠ .auto := by simp [commandFrame]
  have hreads := @reads_encodeFrame ended _ _ hmode h
  exact ⟨_, hreads, rfl, rfl⟩

/-! ## What a flush knows about its frame -/

/-- The flush writes in the sequenced layout. A frame that it has written and not registered
is its last one and carries the command at hand. -/
structure KnowsSent (tid : ℕ) (trace : List (Entry sig)) (v : Courier) : Prop where
  layout : ∀ conn mode, v.line = some (conn, mode) → mode = .sequenced
  wrote : ∀ bytes, v.wrote = some bytes → ∃ conn cmd seq,
    lastSent tid trace = some ⟨conn, bytes, cmd, seq⟩ ∧ v.Sends cmd seq ∧
      encodeFrame (commandFrame cmd seq .sequenced) = .ok bytes

/-- The session that a flush reads is in sequenced mode. -/
def readsSequenced (w : World) : Act → Bool
  | .deliveryContext => w.session.all fun s => s.frameMode = .sequenced
  | _ => true

section exec

variable {cfg : Config} {id : String} {tid : ℕ} {w w' : World} {inp : Input} {a : Act}
  {r : a.Res} {v : Courier} {trace : List (Entry sig)}

/-- Nothing has been written since the frame, if there is one, was registered. -/
theorem KnowsSent.of_none (hlayout : ∀ conn mode, v.line = some (conn, mode) → mode = .sequenced)
    (hwrote : v.wrote = none) : KnowsSent tid trace v :=
  ⟨hlayout, fun bytes h => by rw [hwrote] at h; cases h⟩

theorem KnowsSent.own (hk : KnowsSent tid trace v) (hmay : v.May a)
    (hrule : readsSequenced w a = true) (h : exec cfg id tid w a inp = some (w', r)) :
    KnowsSent tid (.did tid a r :: trace) (v.after a r) := by
  cases a with
  | lockFlush | unlockFlush => exact .of_none (by simp [Courier.after]) rfl
  | deliveryContext =>
      obtain ⟨rfl, rfl⟩ := Prod.mk.inj (guarded_eq_some h)
      cases hs : w.session with
      | none => exact ⟨hk.layout, hk.wrote⟩
      | some s =>
          have hmode : s.frameMode = .sequenced := by
            simpa only [readsSequenced, hs, Option.all_some, decide_eq_true_eq] using hrule
          refine .of_none (fun conn mode hline => ?_) rfl
          simp only [Courier.after, Option.map_some, Option.map_eq_some_iff,
            Prod.mk.injEq] at hline
          obtain ⟨_, -, -, rfl⟩ := hline
          exact hmode
  | popNext | nextCommandSeq =>
      cases r
      all_goals first | exact .of_none hk.layout rfl | exact ⟨hk.layout, hk.wrote⟩
  | registerInFlight | publishAckWithCommand | push => exact .of_none hk.layout rfl
  | transmit conn bytes cmd seq =>
      cases r with
      | some err => exact ⟨hk.layout, hk.wrote⟩
      | none =>
          obtain ⟨hsends, -, mode, hline, hbytes⟩ := hmay
          refine ⟨hk.layout, fun bytes' hwrote => ?_⟩
          cases hwrote
          refine ⟨conn, cmd, seq, ?_, hsends, ?_⟩
          · simp [lastSent, sentBy]
          · rwa [hk.layout conn mode hline] at hbytes
  | _ => exact ⟨hk.layout, hk.wrote⟩

theorem KnowsSent.other {other : ℕ} (hk : KnowsSent other trace v) (hne : other ≠ tid) :
    KnowsSent other (.did tid a r :: trace) v :=
  ⟨hk.layout, by rw [lastSent_other hne.symm]; exact hk.wrote⟩

end exec

/-! ## Runs -/

section rules

variable (cfg : Config) (id : String)

/-- Every flush reads a session in sequenced mode. -/
abbrev sequencedRules : Rules (machine cfg id).traced where
  act w _ a _ := readsSequenced w.1 a = true

def correlations : Discipline (machine cfg id).traced (sequencedRules cfg id) ({}, []) Courier :=
  ((couriers cfg id (.any _)).traced (sequencedRules cfg id) (fun _ _ _ _ => trivial)
    (fun _ _ _ _ _ => trivial) fun _ _ => trivial).strengthen
    (fun _ => True) (fun tid w v => KnowsSent tid w.2 v) trivial
    (fun _ _ _ hidle => by
      subst hidle
      exact .of_none (by simp) rfl)
    (fun m _ hk hnext _ => by
      subst hnext
      obtain ⟨hexec, htrace⟩ := exec_of_traced m.exec
      rw [htrace]
      exact ⟨trivial, hk.own m.may m.rule hexec⟩)
    (fun m _ hne _ hk => by
      rw [(exec_of_traced m.exec).2]
      exact hk.other hne)
    fun _ _ => trivial

end rules

section runs

variable {cfg : Config} {id : String}

/-- An acknowledgement under the number of a command in flight finds the command. -/
theorem ackInFlight_of_inFlight {m : Slot} {seq : UInt8} {entry : InFlightEntry}
    (h : m.inFlight seq = some entry) :
    (m.ackInFlight seq none).2 = some (entry.command, entry.attempts) := by
  cases hs : m.session with
  | none => simp [Slot.inFlight, hs] at h
  | some s =>
      have hseq : s.inFlight seq = some entry := by simpa [Slot.inFlight, hs] using h
      simp only [Slot.ackInFlight, hs, hseq, Slot.persistLocked]

/-- What a flush is about to write decodes to the number of the command and the command. What
it is about to register it wrote last, under the same number, and an acknowledgement that
echoes the decoded number then finds that command. -/
theorem decoded_number_registered {c : Concurrent.Config (machine cfg id).traced}
    (h : Reachable (sequencedRules cfg id) ({}, []) c) (tid : ℕ) :
    (∀ conn bytes cmd seq k, c.threads tid = .act (.transmit conn bytes cmd seq) k →
      (⟨conn, bytes, cmd, seq⟩ : Sent).Decodes .sequenced seq) ∧
    ∀ seq cmd sentAt k, c.threads tid = .act (.registerInFlight seq cmd sentAt) k →
      ∃ sent, lastSent tid c.world.2 = some sent ∧ sent.cmd = cmd ∧
        sent.Decodes .sequenced seq ∧
        ∀ inp c', c.next (.run tid inp) = some c' → c.world.1.session.isSome →
          (c'.world.1.slot.ackInFlight seq none).2 = some (cmd, cmd.attempts + 1) := by
  refine ⟨fun conn bytes cmd seq k ht => ?_, fun seq cmd sentAt k ht => ?_⟩
  · obtain ⟨v, ⟨-, hk⟩, -, -, mode, hline, hbytes⟩ := (correlations cfg id).may h ht
    rw [hk.layout conn mode hline] at hbytes
    exact Sent.decodes_sequenced hbytes
  · obtain ⟨v, ⟨-, hk⟩, ⟨⟨orig, horig, hcmd⟩, hnumber⟩, hwrote⟩ := (correlations cfg id).may h ht
    obtain ⟨bytes, hbytes⟩ := Option.isSome_iff_exists.mp hwrote
    obtain ⟨conn, cmd', seq', hlast, ⟨⟨orig', horig', hcmd'⟩, hnumber'⟩, hencode⟩ :=
      hk.wrote bytes hbytes
    cases horig.symm.trans horig'
    cases hnumber.symm.trans hnumber'
    subst hcmd hcmd'
    have hdecodes : (⟨conn, bytes, orig.unnumbered, seq⟩ : Sent).Decodes .sequenced seq :=
      Sent.decodes_sequenced hencode
    refine ⟨_, hlast, rfl, hdecodes, ?_⟩
    intro inp c' hnext hsession
    obtain ⟨w, r, hexec, rfl⟩ := Config.next_run ht hnext
    have hexec : exec cfg id tid c.world.1 (.registerInFlight seq orig.unnumbered sentAt) inp =
        some (w.1, r) := (exec_of_traced hexec).1
    have hentry := congrFun (exec_registerInFlight hsession hexec).2.1 seq
    rw [Function.update_self] at hentry
    exact ackInFlight_of_inFlight hentry

end runs

/-- A controller that registered in the given layout has one command queued, and a flush has
written it. -/
def writtenLabels (mode : FrameMode) : List (Label (machine {} "c")) :=
  call 0 (.register 7 ⟨255, 1, [1], mode⟩) 30 ++ call 0 (.enqueue { commandID := 9 } 0) 20 ++
    call 0 .flush 12

theorem sequenced_number_registered :
    ∃ c sent, Reachable (sequencedRules {} "c") ({}, []) c ∧ registering (c.threads 0) = some 1 ∧
      lastSent 0 c.world.2 = some sent ∧ sent.Decodes .sequenced 1 := by
  have hwritten : ∃ c, Reachable (sequencedRules {} "c") ({}, []) c ∧
      registering (c.threads 0) = some 1 :=
    ⟨_, Reachable.initial.run ((writtenLabels .sequenced).map Label.traced), by decide +kernel⟩
  obtain ⟨c, hc, hregistering⟩ := hwritten
  obtain ⟨cmd, sentAt, k, ht⟩ := exists_of_registering hregistering
  obtain ⟨sent, hlast, -, hdecodes, -⟩ := (decoded_number_registered hc 0).2 1 cmd sentAt k ht
  exact ⟨c, sent, hc, hregistering, hlast, hdecodes⟩

/-- In compact mode the controller decodes number 0. The command is in flight under number 1,
and an acknowledgement of number 0 finds nothing. -/
theorem compact_number_lost :
    ∃ c sent, Reachable (.any (machine {} "c").traced) ({}, []) c ∧
      c.world.1.session.map Session.frameMode = some .compact ∧
      lastSent 0 c.world.2 = some sent ∧ sent.Decodes .compact 0 ∧
      c.world.1.slot.peekInFlight 1 = some (sent.cmd, 1) ∧
      (c.world.1.slot.ackInFlight 0 none).2 = none := by
  have hwritten : ∃ c sent, Reachable (.any (machine {} "c").traced) ({}, []) c ∧
      c.world.1.session.map Session.frameMode = some .compact ∧
      lastSent 0 c.world.2 = some sent ∧
      encodeFrame (commandFrame sent.cmd sent.seq .compact) = .ok sent.bytes ∧
      c.world.1.slot.peekInFlight 1 = some (sent.cmd, 1) ∧
      (c.world.1.slot.ackInFlight 0 none).2 = none :=
    ⟨_, ⟨7, [83, 76, 68, 78, 2, 0, 255, 9, 128, 106], { commandID := 9 }, 1⟩,
      Reachable.initial.run ((writtenLabels .compact ++ go 0 1).map Label.traced),
      by decide +kernel⟩
  obtain ⟨c, sent, hc, hmode, hlast, hencode, hpeek, hack⟩ := hwritten
  exact ⟨c, sent, hc, hmode, hlast, Sent.decodes_compact hencode, hpeek, hack⟩

end TcpAdapter.Delivery
