import Mathlib.Data.List.AList
import TcpAdapter.Concurrent.Call

/-! # A directory whose operations may fail

The files of one directory and the calls of the `os` package on them. The environment decides
about every call whether it fails, and with what message. A failed write may have written a part
of its data; a rename is atomic. -/

namespace TcpAdapter.Files

open TcpAdapter.Concurrent

structure File where
  data : List UInt8 := []
  /-- In nanoseconds. -/
  modTime : Int := 0
  isDir : Bool := false
  deriving DecidableEq

abbrev Directory := AList fun _ : String => File

structure FileError where
  msg : String
  isNotExist : Bool := false
  deriving DecidableEq

structure DirEntry where
  name : String
  isDir : Bool

/-- The file that an action is about is given by its name in the directory. -/
inductive Act where
  | unixNano
  | readFile (name : String)
  | rename (old new : String)
  | remove (name : String)
  | readDir
  /-- The modification time of an entry. -/
  | info (name : String)
  | mkdirAll
  /-- The parts of the pattern before and after the star. -/
  | createTemp (before after : String)
  | write (name : String) (raw : List UInt8)
  | sync (name : String)
  | close (name : String)
  | chmod (name : String) (mode : ℕ)
  | openDir
  | syncDir

@[reducible] def Act.Res : Act → Type
  | unixNano => Int
  | readFile _ => Except FileError (List UInt8)
  | readDir => Except FileError (List DirEntry)
  | info _ => Except FileError Int
  | createTemp .. => Except FileError String
  | rename .. | remove _ | mkdirAll | write .. | sync _ | close _ | chmod .. => Option FileError
  | openDir | syncDir => Option FileError

abbrev sig : Signature := ⟨Act, Act.Res⟩

/-- What the environment decides about an action: whether it fails, what the clock shows, what
stands for the star of a pattern and how much a failing write has written. -/
structure Input where
  failure : Option String := none
  clock : Int := 0
  random : String := ""
  written : ℕ := 0

namespace Directory

variable (d : Directory)

def missing (name : String) : FileError :=
  ⟨name ++ ": no such file or directory", true⟩

def append (name : String) (raw : List UInt8) (clock : Int) : Directory :=
  match d.lookup name with
  | none => d
  | some f => d.insert name { f with data := f.data ++ raw, modTime := clock }

def exec (inp : Input) : (a : Act) → Directory × a.Res
  | .unixNano => (d, inp.clock)
  | .readFile name =>
      match inp.failure, d.lookup name with
      | some msg, _ => (d, .error ⟨msg, false⟩)
      | none, none => (d, .error (missing name))
      | none, some f => (d, .ok f.data)
  | .rename old new =>
      match inp.failure, d.lookup old with
      | some msg, _ => (d, some ⟨msg, false⟩)
      | none, none => (d, some (missing old))
      | none, some f => ((d.erase old).insert new f, none)
  | .remove name =>
      match inp.failure, d.lookup name with
      | some msg, _ => (d, some ⟨msg, false⟩)
      | none, none => (d, some (missing name))
      | none, some _ => (d.erase name, none)
  | .readDir =>
      match inp.failure with
      | some msg => (d, .error ⟨msg, false⟩)
      | none => (d, .ok (d.entries.map fun e => ⟨e.1, e.2.isDir⟩))
  | .info name =>
      match inp.failure, d.lookup name with
      | some msg, _ => (d, .error ⟨msg, false⟩)
      | none, none => (d, .error (missing name))
      | none, some f => (d, .ok f.modTime)
  | .createTemp before after =>
      let name := before ++ inp.random ++ after
      match inp.failure, d.lookup name with
      | some msg, _ => (d, .error ⟨msg, false⟩)
      | none, some _ => (d, .error ⟨name ++ ": file exists", false⟩)
      | none, none => (d.insert name { modTime := inp.clock }, .ok name)
  | .write name raw =>
      match inp.failure with
      | some msg => (append d name (raw.take inp.written) inp.clock, some ⟨msg, false⟩)
      | none => (append d name raw inp.clock, none)
  | .mkdirAll | .sync _ | .close _ | .chmod .. | .openDir | .syncDir =>
      (d, inp.failure.map fun msg => ⟨msg, false⟩)

end Directory

abbrev machine : Machine sig where
  World := Directory
  Input := Input
  Task := Empty
  exec _ d a inp := some (d.exec inp a)
  prog := Empty.elim
  crash := id

/-! ## What an action leaves alone -/

/-- The names of the files that an action may change. -/
def Act.targets (inp : Input) : Act → List String
  | rename old new => [old, new]
  | remove name | write name _ => [name]
  | createTemp before after => [before ++ inp.random ++ after]
  | _ => []

variable {d : Directory} {inp : Input} {name : String}

theorem Directory.lookup_append_of_ne {other : String} {raw : List UInt8} {clock : Int}
    (h : name ≠ other) : (append d other raw clock).lookup name = d.lookup name := by
  unfold append
  split
  · rfl
  · exact AList.lookup_insert_ne h

theorem Directory.lookup_append {raw : List UInt8} {clock : Int} {f : File}
    (h : d.lookup name = some f) :
    (append d name raw clock).lookup name =
      some { f with data := f.data ++ raw, modTime := clock } := by
  rw [append, h]
  exact AList.lookup_insert d

theorem Directory.exec_lookup {a : Act} (h : name ∉ a.targets inp) :
    (d.exec inp a).1.lookup name = d.lookup name := by
  cases a with
  | rename old new =>
      have hold : name ≠ old := List.ne_of_not_mem_cons h
      have hnew : name ≠ new := List.ne_of_not_mem_cons (List.not_mem_of_not_mem_cons h)
      rw [exec]
      split
      · rfl
      · rfl
      · rw [AList.lookup_insert_ne hnew, AList.lookup_erase_ne hold]
  | remove other =>
      rw [exec]
      split
      · rfl
      · rfl
      · exact AList.lookup_erase_ne (List.ne_of_not_mem_cons h)
  | createTemp before after =>
      rw [exec]
      split
      · rfl
      · rfl
      · exact AList.lookup_insert_ne (List.ne_of_not_mem_cons h)
  | write other raw =>
      rw [exec]
      split <;> exact lookup_append_of_ne (List.ne_of_not_mem_cons h)
  | readFile | info =>
      rw [exec]
      split <;> rfl
  | readDir =>
      rw [exec]
      split <;> rfl
  | unixNano | mkdirAll | sync | close | chmod | openDir | syncDir => rfl

/-! ## Programs -/

variable {R : Rules machine} {tid : ℕ} {α : Type} {post : α → Directory → Prop}

/-- No action waits. -/
theorem ends_call {a : Act} {k : a.Res → Prog sig α}
    (h : ∀ inp, R.act d tid a inp →
      (k (d.exec inp a).2).Ends (M := machine) R tid post (d.exec inp a).1) :
    (Prog.call (S := sig) a >>= k).Ends (M := machine) R tid post d :=
  fun inp hrule => ⟨_, _, rfl, h inp hrule⟩

end TcpAdapter.Files
