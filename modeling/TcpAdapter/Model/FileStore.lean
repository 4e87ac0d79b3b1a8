import Mathlib.Data.Finmap
import TcpAdapter.Files.Directory
import TcpAdapter.Model.Restore

/-! # The file store

`store.FileStore` keeps the snapshots of all sessions in one JSON file. A write goes to a temporary
file, which then replaces the state file. A state file that cannot be parsed is set aside.

The mutex of the store makes its calls follow one another, so each call is a program that runs
alone. The files are named within the directory of the state file, and `base` is the name of the
state file there. -/

namespace TcpAdapter.FileStore

open TcpAdapter.Concurrent TcpAdapter.Files TcpAdapter.Manager

/-- `map[string]SessionSnapshot` -/
abbrev Data := Finmap fun _ : String => SessionSnapshot

/-- The codec of `encoding/json`. It may refuse to encode a map; what it encodes it also decodes.
The result `none` of `unmarshal` is the `nil` map that `null` stands for. -/
structure Json where
  marshalIndent : Data → Except String (List UInt8)
  unmarshal : List UInt8 → Except String (Option Data)
  roundTrip : ∀ data raw, marshalIndent data = .ok raw → unmarshal raw = .ok (some data)
  unmarshal_nil : ∃ err, unmarshal [] = .error err

abbrev Filing := Prog sig

/-- Perform an action on the directory. -/
abbrev perform (a : Act) : Filing a.Res :=
  Prog.call (S := sig) a

/-! ## Backups of state files that cannot be parsed -/

def maxCorruptBackups : Int := 5

structure FileEntry where
  name : String
  mod : Int

/-- The order of `sort.Slice`. -/
def FileEntry.before (f g : FileEntry) : Bool :=
  if f.mod = g.mod then f.name > g.name else f.mod > g.mod

/-- The backups among the entries; an entry without information is skipped. -/
def backups (base : String) : List DirEntry → Filing (List FileEntry)
  | [] => return []
  | e :: entries => do
      if e.isDir then backups base entries
      else if ¬base.toList <+: e.name.toList then backups base entries
      else
        match ← perform (.info e.name) with
        | .error _ => backups base entries
        | .ok mod =>
            let files ← backups base entries
            return ⟨e.name, mod⟩ :: files

def removeAll : List FileEntry → Filing Unit
  | [] => return
  | f :: files => do
      let _ ← perform (.remove f.name)
      removeAll files

def cleanupCorruptBackups (base : String) (maxKeep : Int) : Filing (Option String) := do
  if maxKeep ≤ 0 then return none
  else
    match ← perform .readDir with
    | .error err => return some err.msg
    | .ok entries =>
        let files ← backups (base ++ ".corrupt-") entries
        if files.length ≤ maxKeep then return none
        else
          removeAll ((files.mergeSort FileEntry.before).drop maxKeep.toNat)
          return none

/-! ## Reading and writing the state file -/

variable (json : Json) (base : String)

def readAllLocked : Filing (Except String Data) := do
  match ← perform (.readFile base) with
  | .error err => if err.isNotExist then return .ok ∅ else return .error err.msg
  | .ok raw =>
      if raw.length = 0 then return .ok ∅
      else
        match json.unmarshal raw with
        | .error _ =>
            let nano ← perform .unixNano
            let _ ← perform (.rename base (base ++ ".corrupt-" ++ toString nano))
            let _ ← cleanupCorruptBackups base maxCorruptBackups
            return .ok ∅
        | .ok none => return .ok ∅
        | .ok (some data) => return .ok data

/-- Best effort: its error is ignored. -/
def syncDir : Filing (Option FileError) := do
  match ← perform .openDir with
  | some err => return some err
  | none => perform .syncDir

/-- The part of `writeAllLocked` that the deferred clean-up guards. -/
def replaceBy (tmpPath : String) (raw : List UInt8) : Filing (Option String) := do
  match ← perform (.write tmpPath raw) with
  | some err =>
      let _ ← perform (.close tmpPath)
      return some err.msg
  | none =>
      match ← perform (.sync tmpPath) with
      | some err =>
          let _ ← perform (.close tmpPath)
          return some err.msg
      | none =>
          match ← perform (.close tmpPath) with
          | some err => return some err.msg
          | none =>
              match ← perform (.chmod tmpPath 0o644) with
              | some err => return some err.msg
              | none =>
                  match ← perform (.rename tmpPath base) with
                  | some err => return some ("rename temp store file: " ++ err.msg)
                  | none => return none

def writeAllLocked (data : Data) : Filing (Option String) := do
  match ← perform .mkdirAll with
  | some err => return some err.msg
  | none =>
      match json.marshalIndent data with
      | .error err => return some err
      | .ok raw =>
          match ← perform (.createTemp ".sessions-" ".tmp") with
          | .error err => return some err.msg
          | .ok tmpPath =>
              match ← replaceBy base tmpPath raw with
              | some err =>
                  let _ ← perform (.remove tmpPath)
                  return some err
              | none =>
                  let _ ← syncDir
                  return none

/-! ## The calls of the store -/

def saveSession (snapshot : SessionSnapshot) : Filing (Option String) := do
  match ← readAllLocked json base with
  | .error err => return some err
  | .ok data => writeAllLocked json base (data.insert snapshot.controllerID snapshot)

def deleteSession (controllerID : String) : Filing (Option String) := do
  match ← readAllLocked json base with
  | .error err => return some err
  | .ok data => writeAllLocked json base (data.erase controllerID)

/-- The rows come in any order. -/
def listSessions : Filing (Except String (Multiset SessionSnapshot)) := do
  match ← readAllLocked json base with
  | .error err => return .error err
  | .ok data => return .ok (data.entries.map Sigma.snd)

end TcpAdapter.FileStore
