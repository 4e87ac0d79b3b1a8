import TcpAdapter.Model.Session

/-! # Sessions of all controllers, saved and restored

`session.Manager` keeps its sessions in a map by controller id, and so does the store. A map
iteration has no fixed order: neither the in-flight entries of a snapshot nor the rows that
`ListSessions` returns come in an order of their own. -/

namespace TcpAdapter.Manager

/-- `Manager.sessions` -/
abbrev Sessions := String → Option Session

/-- The rows of a store that returns what was saved. -/
abbrev Store := String → Option SessionSnapshot

def Store.saveSession (st : Store) (snap : SessionSnapshot) : Store :=
  Function.update st snap.controllerID (some snap)

def Store.deleteSession (st : Store) (controllerID : String) : Store :=
  Function.update st controllerID none

/-- What `ListSessions` may return: every row once, in any order. -/
structure Store.Lists (st : Store) (rows : List SessionSnapshot) : Prop where
  once : (rows.map SessionSnapshot.controllerID).Nodup
  all : ∀ id snap, st id = some snap ↔ snap ∈ rows ∧ snap.controllerID = id

/-- A snapshot that `persistLocked` may hand to the store: the loop over `InFlight` visits the
entries in any order. -/
def Session.Flattens (s : Session) (snap : SessionSnapshot) : Prop :=
  ∃ entries : List InFlightEntry, entries.Perm s.inFlight.entries ∧
    snap = { s.snapshot with
      inFlight := entries.map fun v => ⟨v.seq, v.command, v.sentAt, v.attempts⟩ }

/-- The store after `persistLocked` of these sessions, the last one first. -/
inductive Store.Saved : List Session → Store → Prop where
  | nil : Saved [] fun _ => none
  | cons {s : Session} {ss : List Session} {st : Store} {snap : SessionSnapshot}
      (hflat : s.Flattens snap) (hrest : Saved ss st) : Saved (s :: ss) (st.saveSession snap)

/-- One round of the loop in `Restore`. -/
def Sessions.load (m : Sessions × ℕ) (snap : SessionSnapshot) : Sessions × ℕ :=
  if snap.controllerID = "" then m
  else (Function.update m.1 snap.controllerID (some snap.restore), m.2 + 1)

/-- `listed` is the answer of `ListSessions`. -/
def Sessions.restore (m : Sessions) (listed : Except Error (List SessionSnapshot)) :
    Sessions × Except Error ℕ :=
  match listed with
  | .error err => (m, .error err)
  | .ok rows =>
      let res := rows.foldl Sessions.load (m, 0)
      (res.1, .ok res.2)

end TcpAdapter.Manager
