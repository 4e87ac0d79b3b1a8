import TcpAdapter.Verification.Delivery.Courier
import TcpAdapter.Verification.Server.Calls
import TcpAdapter.Verification.Server.Outcomes
import TcpAdapter.Verification.Server.Tasks

/-! # Commands reach their own controller only

A flush reads the connection of a session first and writes to it later. In between the session
may have got another connection, and the old one may be closed; but no other controller has
registered on it, since a connection registers once. So a command never goes to another
controller than its own. -/

namespace TcpAdapter.Server

open TcpAdapter.Concurrent TcpAdapter.Queue TcpAdapter.Protocol TcpAdapter.Manager
open TcpAdapter.Delivery (Courier Deliver)

/-- Whoever owns a session has registered. -/
theorem registered_of_owns {tid : ℕ} {id : String} {conn : ConnID} {trace : List (Entry sig)}
    (h : owns tid id conn trace = true) : Registered id conn trace := by
  induction trace with
  | nil => cases h
  | cons e older ih =>
      cases e with
      | crashed => cases h
      | did other a r =>
          cases a with
          | create id' conn' =>
              cases r with
              | some err => exact (ih h).cons _
              | none =>
                  simp only [owns, Bool.or_eq_true, Bool.and_eq_true, beq_iff_eq] at h
                  rcases h with ⟨⟨-, rfl⟩, rfl⟩ | h
                  · exact registered_cons.mpr (.inl rfl)
                  · exact (ih h).cons _
          | markOffline id' conn' =>
              simp only [owns, Bool.and_eq_true] at h
              exact (ih h.2).cons _
          | _ => exact (ih h).cons _

variable (cfg : Config) (remoteHost : ConnID → String)

/-! ## The connection of a flush -/

/-- The controller that the goroutine flushes for, and the connection that it has read. -/
abbrev Line := Option (String × ConnID)

namespace Line

def after (v : Line) : (a : Act) → a.Res → Line
  | .deliver id .deliveryContext, some dctx => dctx.conn.map fun conn => (id, conn)
  | .deliver _ .lockFlush, _ | .deliver _ .unlockFlush, _ => none
  | _, _ => v

theorem after_eq_some {v : Line} {a : Act} {r : a.Res} {id : String} {conn : ConnID}
    (h : v.after a r = some (id, conn)) :
    v = some (id, conn) ∨ ∃ (ha : a = .deliver id .deliveryContext) (dctx : DeliveryContext),
      r = ha ▸ some dctx ∧ dctx.conn = some conn := by
  cases a with
  | deliver id' b =>
      cases b with
      | deliveryContext =>
          cases r with
          | none => exact .inl h
          | some dctx =>
              obtain ⟨conn', hconn, heq⟩ := Option.map_eq_some_iff.mp h
              obtain ⟨rfl, rfl⟩ := Prod.mk.inj heq
              exact .inr ⟨rfl, dctx, rfl, hconn⟩
      | lockFlush | unlockFlush => cases h
      | _ => exact .inl h
  | _ => exact .inl h

/-- A command frame goes to the connection that the flush has read. -/
def May (v : Line) : Act → Prop
  | .deliver id (.transmit conn _ _ _) => v = some (id, conn)
  | _ => True

def protocol : Protocol sig Line :=
  .ofAfter May after

/-- The flush as a courier has the same connection. -/
def Of (id : String) (courier : Courier) (v : Line) : Prop :=
  v = courier.line.map fun line => (id, line.1)

theorem Of.step {id : String} {a : Delivery.Act} {courier : Courier} {v : Line} (ha : a.InFlush)
    (h : Of id courier v) (hmay : Courier.protocol.may courier a) :
    (onBehalf protocol id).may v a ∧ ∀ r v', (onBehalf protocol id).next v a r v' →
      ∃ courier', Courier.protocol.next courier a r courier' ∧ Of id courier' v' := by
  cases a with
  | transmit conn bytes cmd seq =>
      obtain ⟨-, -, mode, hline, -⟩ := hmay
      refine ⟨?_, ?_⟩
      · rw [Of, hline] at h
        exact h
      · rintro r _ rfl
        refine ⟨_, rfl, ?_⟩
        cases r <;> exact h
  | deliveryContext =>
      refine ⟨trivial, ?_⟩
      rintro r _ rfl
      refine ⟨_, rfl, ?_⟩
      cases r with
      | none => exact h
      | some dctx => cases hconn : dctx.conn <;> simp [Of, after, Courier.after, hconn]
  | popNext | nextCommandSeq =>
      refine ⟨trivial, ?_⟩
      rintro r _ rfl
      refine ⟨_, rfl, ?_⟩
      cases r <;> exact h
  | lockFlush | unlockFlush =>
      refine ⟨trivial, ?_⟩
      rintro r _ rfl
      exact ⟨_, rfl, rfl⟩
  | now | publishAck | publishAckWithCommand | queueLen | hasFW | hasSync
  | drainExpired | push | setFWMode | setSyncMode | inFlightCount | ackSent | registerInFlight =>
      refine ⟨trivial, ?_⟩
      rintro r _ rfl
      exact ⟨_, rfl, h⟩
  | _ => exact ha.elim

theorem flush_respects (id : String) :
    (Delivery.withFlushLock (Delivery.flushQueue id)).Respects (onBehalf protocol id)
      (fun _ v => v = none) none := by
  have hnone : Of id {} none := rfl
  refine ((Courier.flush_respects id rfl).transfer Of.step (Delivery.flush_only id) hnone).mono ?_
  rintro x v ⟨courier, rfl, h⟩
  exact h

theorem offFlush_idle {id : String} (a : Delivery.Act) (v : Line) (ha : a.OffFlush)
    (hidle : v = none) :
    (onBehalf protocol id).may v a ∧ ∀ r v', (onBehalf protocol id).next v a r v' → v' = none := by
  subst hidle
  cases a with
  | transmit | deliveryContext => exact ha.elim
  | _ => exact ⟨trivial, fun _ _ hn => hn⟩

theorem taskSpec : TaskSpec cfg protocol fun v => v = none where
  own a v ha hidle := by
    subst hidle
    cases a with
    | deliver => exact ha.elim
    | _ => exact ⟨trivial, fun _ _ hn => hn⟩
  delivery id := .of_offFlush offFlush_idle (by rintro v rfl; exact flush_respects id)

/-- The line of a goroutine, as the trace shows it. -/
abbrev ofTrace (tid : ℕ) (trace : List (Entry sig)) : Line :=
  stateOf after none tid trace

end Line

/-- The goroutines know their lines. -/
def lines : Discipline (machine cfg remoteHost).traced (serverRules cfg remoteHost).traced ({}, [])
    Line :=
  .ofTrace Line.protocol Line.after none (fun v => v = none) rfl (fun _ _ _ => rfl)
    fun _ _ task _ _ hidle => (Line.taskSpec cfg).prog remoteHost task hidle

/-! ## Whole runs -/

section runs

variable {cfg remoteHost} {c : Concurrent.Config (machine cfg remoteHost).traced}

/-- Who has the session of a controller now has registered before. -/
theorem registered_of_connOf (h : Reachable (serverRules cfg remoteHost).traced ({}, []) c)
    {id : String} {conn : ConnID} (hconn : c.world.1.connOf id = some conn) :
    Registered id conn c.world.2 := by
  have hb : Books cfg remoteHost c.world.1 := ((tracedBookkeeping cfg remoteHost).sound h).1
  obtain ⟨tid, hstage⟩ := Stage.owner_eq_some.mp ((hb.owned id conn).mp hconn)
  exact registered_of_owns ((owns_iff_stage h tid id conn).mpr hstage)

/-- A flush reads the connection that its controller has. -/
theorem connOf_of_deliveryContext {tid : ℕ} {w w' : World} {inp : Input} {id : String}
    {conn : ConnID} {dctx : DeliveryContext}
    (h : exec cfg remoteHost tid w (.deliver id .deliveryContext) inp = some (w', some dctx))
    (hconn : dctx.conn = some conn) : w.connOf id = some conn := by
  obtain ⟨-, v, -, hexec⟩ := exec_deliver h
  have hctx : (w.deliveries id).session.map Session.deliveryContext = some dctx := by
    simp only [Delivery.exec, Delivery.guarded] at hexec
    split at hexec
    · exact (Prod.mk.inj (Option.some.inj hexec)).2
    · cases hexec
  obtain ⟨s, hs, rfl⟩ := Option.map_eq_some_iff.mp hctx
  rw [World.connOf, hs]
  exact hconn

/-- A flush writes to a connection on which its controller has registered. -/
theorem line_registered (h : Reachable (serverRules cfg remoteHost).traced ({}, []) c) :
    ∀ tid id conn, Line.ofTrace tid c.world.2 = some (id, conn) →
      Registered id conn c.world.2 := by
  refine (lines cfg remoteHost).invariant
    (J := fun w => ∀ tid id conn, Line.ofTrace tid w.2 = some (id, conn) →
      Registered id conn w.2) ?_ ?_ ?_ h
  · intro tid id conn hline
    cases hline
  · intro c c' actor a inp r v m hold tid id conn hline
    obtain ⟨hexec, htrace⟩ := exec_of_traced m.exec
    rw [htrace] at hline ⊢
    by_cases htid : actor = tid
    · subst htid
      have hafter : (Line.ofTrace actor c.world.2).after a r = some (id, conn) :=
        stateOf_own.symm.trans hline
      rcases Line.after_eq_some hafter with hsame | ⟨ha, dctx, hr, hconn⟩
      · exact (hold actor id conn hsame).cons _
      · subst ha hr
        exact (registered_of_connOf m.before (connOf_of_deliveryContext hexec hconn)).cons _
    · exact (hold tid id conn ((stateOf_other htid).symm.trans hline)).cons _
  · intro c _ _ _ tid id conn hline
    cases hline

/-- The controller that a command frame is for, and the connection it is written to. -/
def commandTo : Entry sig → Option (String × ConnID)
  | .did _ (.deliver id (.transmit conn _ _ _)) _ => some (id, conn)
  | _ => none

theorem may_of_commandTo {tid : ℕ} {a : Act} {r : a.Res} {v : Line} {id : String} {conn : ConnID}
    (h : commandTo (.did tid a r) = some (id, conn)) (hmay : v.May a) : v = some (id, conn) := by
  unfold commandTo at h
  split at h
  · rename_i heq
    cases heq
    cases h
    exact hmay
  · cases h

/-- A command is written to a connection only after its controller has registered on it, and no
other controller registers on that connection, whatever the goroutines of the server do. -/
theorem command_reaches_own_controller
    (h : Reachable (serverRules cfg remoteHost).traced ({}, []) c) {e : Entry sig} {id : String}
    {conn : ConnID} {newer older : List (Entry sig)} (htrace : c.world.2 = newer ++ e :: older)
    (he : commandTo e = some (id, conn)) :
    Registered id conn older ∧ ∀ id', Registered id' conn c.world.2 → id' = id := by
  have heach : Each (fun e older => ∀ id conn, commandTo e = some (id, conn) →
      Registered id conn older) c.world.2 := by
    refine (lines cfg remoteHost).invariant
      (J := fun w => Each (fun e older => ∀ id conn, commandTo e = some (id, conn) →
        Registered id conn older) w.2) trivial ?_ ?_ h
    · intro c c' actor a inp r v m hold
      rw [(exec_of_traced m.exec).2]
      refine ⟨fun id conn hcommand => ?_, hold⟩
      have hline : v = some (id, conn) := may_of_commandTo hcommand m.may
      have hknows : v = Line.ofTrace actor c.world.2 := m.knows
      exact line_registered m.before actor id conn (hknows ▸ hline)
    · intro c _ _ hold
      refine ⟨fun _ _ hcommand => ?_, hold⟩
      cases hcommand
  rw [htrace] at heach
  have hown : Registered id conn older := heach.at_entry id conn he
  have hmem : Registered id conn c.world.2 := by
    unfold Registered at hown ⊢
    rw [htrace, List.filterMap_append, List.filterMap_cons]
    split <;> simp [hown]
  exact ⟨hown, fun id' hid' => registered_unique (spent_of_reachable h).nodup hid' hmem⟩

end runs

/-- A controller registers, and the sweeper sends it a command that has come in since. -/
theorem swept_command_reaches_controller :
    ∃ c, Reachable (serverRules Env.unset.config fun _ => "10.0.0.1").traced ({}, []) c ∧
      c.world.2.filterMap commandTo = [("123456789012345", 0)] ∧
      ∀ id, Registered id 0 c.world.2 → id = "123456789012345" := by
  have hrun : ∃ c, Reachable (serverRules Env.unset.config fun _ => "10.0.0.1").traced ({}, []) c ∧
      c.world.2.filterMap commandTo = [("123456789012345", 0)] :=
    ⟨_, Reachable.initial.run ((arrive 1 0 40 ++
      call 2 (.enqueue "123456789012345" { commandID := 9 } 1) 20 ++
      call 3 (.sweep "123456789012345") 40).map Label.traced), by decide +kernel⟩
  obtain ⟨c, hc, hcommands⟩ := hrun
  have hmem : ("123456789012345", 0) ∈ c.world.2.filterMap commandTo := by
    rw [hcommands]
    exact List.mem_singleton_self _
  obtain ⟨e, he, hcommand⟩ := List.mem_filterMap.mp hmem
  obtain ⟨newer, older, htrace⟩ := List.append_of_mem he
  exact ⟨c, hc, hcommands, (command_reaches_own_controller hc htrace hcommand).2⟩

end TcpAdapter.Server
