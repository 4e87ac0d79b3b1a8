import TcpAdapter.Codec.Strings
import TcpAdapter.Model.FileStore

/-! # The file store is an atomic map

The state file stands for a map, and a call that reports success changes that map as it says. A
call that fails, at whatever step, leaves the state file alone. -/

namespace TcpAdapter.FileStore

open TcpAdapter.Concurrent TcpAdapter.Files TcpAdapter.Manager

/-- `CreateTemp` does not make up the name of the state file. -/
def rules (base : String) : Rules machine where
  act _ _ a inp :=
    match a with
    | .createTemp before after => before ++ inp.random ++ after ≠ base
    | _ => True

/-! ## The map of a state file -/

/-- The map that a state file stands for: the empty one if it cannot be parsed. -/
def Json.parse (json : Json) : Option File → Data
  | none => ∅
  | some f =>
      match json.unmarshal f.data with
      | .ok (some data) => data
      | _ => ∅

/-- The state file is missing, empty or a JSON text. -/
def Json.Parses (json : Json) (file : Option File) : Prop :=
  ∀ f, file = some f → f.data = [] ∨ ∃ data, json.unmarshal f.data = .ok data

section

variable {json : Json} {base : String} {tid : ℕ} {d : Directory}

theorem Json.parse_of_nil {f : File} (h : f.data = []) : json.parse (some f) = ∅ := by
  obtain ⟨err, herr⟩ := json.unmarshal_nil
  rw [Json.parse, h, herr]

/-! ## Reading -/

/-- The name of a backup is longer than that of the state file. -/
theorem ne_backup {name : String} (h : (base ++ ".corrupt-").toList <+: name.toList) :
    base ≠ name := by
  rintro rfl
  have hle := h.length_le
  rw [String.toList_append, List.length_append] at hle
  have hlen : (".corrupt-").toList.length = 9 := rfl
  omega

theorem backups_ends {entries : List DirEntry} :
    (backups (base ++ ".corrupt-") entries).Ends (M := machine) (rules base) tid
      (fun files d' => d' = d ∧ ∀ f ∈ files, base ≠ f.name) d := by
  induction entries with
  | nil => exact ⟨rfl, fun f hf => by cases hf⟩
  | cons e entries ih =>
      rw [backups]
      split
      · exact ih
      · split
        · exact ih
        · rename_i hprefix
          refine ends_call fun inp _ => ?_
          have hkeep : (d.exec inp (.info e.name)).1 = d := by
            rw [Directory.exec]
            split <;> rfl
          rw [hkeep]
          split
          · exact ih
          · refine ih.bind fun files d' hfiles => ⟨hfiles.1, fun f hf => ?_⟩
            cases hf with
            | head => exact ne_backup (not_not.mp hprefix)
            | tail _ hf => exact hfiles.2 f hf

theorem removeAll_ends {files : List FileEntry} (h : ∀ f ∈ files, base ≠ f.name) :
    (removeAll files).Ends (M := machine) (rules base) tid
      (fun _ d' => d'.lookup base = d.lookup base) d := by
  induction files generalizing d with
  | nil => rfl
  | cons f files ih =>
      refine ends_call fun inp _ => ?_
      have hne : base ∉ (Act.remove f.name).targets inp := by
        simpa [Act.targets] using h f List.mem_cons_self
      refine (ih fun g hg => h g (List.mem_cons_of_mem f hg)).mono fun _ d' hd' => ?_
      exact hd'.trans (Directory.exec_lookup hne)

theorem cleanupCorruptBackups_ends {maxKeep : Int} :
    (cleanupCorruptBackups base maxKeep).Ends (M := machine) (rules base) tid
      (fun _ d' => d'.lookup base = d.lookup base) d := by
  rw [cleanupCorruptBackups]
  split
  · rfl
  · refine ends_call fun inp _ => ?_
    have hkeep : (d.exec inp .readDir).1 = d := by
      rw [Directory.exec]
      split <;> rfl
    rw [hkeep]
    split
    · rfl
    · refine backups_ends.bind fun files d' hfiles => ?_
      obtain ⟨rfl, hfiles⟩ := hfiles
      split
      · rfl
      · refine (removeAll_ends fun f hf => hfiles f ?_).bind fun _ d'' hd'' => hd''
        exact List.mem_mergeSort.mp (List.mem_of_mem_drop hf)

/-- A file that is set aside is gone or still there. -/
theorem setAside_ends {f : File} (hfile : d.lookup base = some f) {err : String}
    (herr : json.unmarshal f.data = .error err) :
    (do
      let nano ← perform .unixNano
      let _ ← perform (.rename base (base ++ ".corrupt-" ++ toString nano))
      let _ ← cleanupCorruptBackups base maxCorruptBackups
      return .ok ∅ : Filing (Except String Data)).Ends (M := machine) (rules base) tid
      (fun r d' => json.parse (d'.lookup base) = ∅ ∧ r = .ok ∅) d := by
  refine ends_call fun inp _ => ends_call fun inp' _ => ?_
  refine cleanupCorruptBackups_ends.bind fun _ d' hd' => ⟨?_, rfl⟩
  have hne : base ≠ base ++ ".corrupt-" ++ toString inp.clock := by
    refine ne_backup ?_
    simp only [String.toList_append]
    exact List.prefix_append _ _
  rw [hd']
  simp only [Directory.exec]
  cases inp'.failure with
  | some msg => simp only [hfile, Json.parse, herr]
  | none =>
      simp only [hfile]
      rw [AList.lookup_insert_ne hne, AList.lookup_erase]
      rfl

/-- What is read is the map of the state file. A file that cannot be parsed may be gone
afterwards. -/
structure ReadAll (json : Json) (base : String) (d : Directory) (r : Except String Data)
    (d' : Directory) : Prop where
  kept : json.Parses (d.lookup base) → d' = d
  same : json.parse (d'.lookup base) = json.parse (d.lookup base)
  read : ∀ data, r = .ok data → data = json.parse (d.lookup base)

theorem ReadAll.of_eq {data : Data} (h : data = json.parse (d.lookup base)) :
    ReadAll json base d (.ok data) d where
  kept _ := rfl
  same := rfl
  read _ hr := (Except.ok.inj hr).symm.trans h

theorem readAllLocked_ends :
    (readAllLocked json base).Ends (M := machine) (rules base) tid (ReadAll json base d) d := by
  refine ends_call fun inp _ => ?_
  simp only [Directory.exec]
  cases inp.failure with
  | some msg => exact ⟨fun _ => rfl, rfl, fun data hr => by cases hr⟩
  | none =>
      cases hfile : d.lookup base with
      | none => exact .of_eq (by rw [hfile, Json.parse])
      | some f =>
          by_cases hnil : f.data.length = 0
          · simp only [hnil, if_true]
            exact .of_eq (by rw [hfile, Json.parse_of_nil (List.length_eq_zero_iff.mp hnil)])
          · simp only [hnil, if_false]
            cases hdata : json.unmarshal f.data with
            | error err =>
                have hparse : json.parse (d.lookup base) = ∅ := by rw [hfile, Json.parse, hdata]
                refine (setAside_ends hfile hdata).mono fun r d' h => ⟨fun hparses => ?_, ?_, ?_⟩
                · obtain heq | ⟨data, heq⟩ := hparses f hfile
                  · exact absurd (List.length_eq_zero_iff.mpr heq) hnil
                  · rw [hdata] at heq
                    cases heq
                · rw [h.1, hparse]
                · rintro data rfl
                  exact (Except.ok.inj h.2).trans hparse.symm
            | ok data =>
                cases data with
                | none => exact .of_eq (by rw [hfile, Json.parse, hdata])
                | some data => exact .of_eq (by rw [hfile, Json.parse, hdata])

/-! ## Writing -/

/-- The new state file is as `p` says, or the old one if there was an error. -/
def Replaced (base : String) (p : Option File → Prop) (d : Directory) (r : Option String)
    (d' : Directory) : Prop :=
  match r with
  | none => p (d'.lookup base)
  | some _ => d'.lookup base = d.lookup base

/-- The file stands for the map. -/
structure Json.Encodes (json : Json) (data : Data) (file : Option File) : Prop where
  parses : json.Parses file
  parse : json.parse file = data

theorem Json.encodes_of_marshalIndent (json : Json) {data : Data} {f : File}
    (h : json.marshalIndent data = .ok f.data) : json.Encodes data (some f) where
  parses f' hf := by
    obtain rfl := Option.some.inj hf
    exact .inr ⟨_, json.roundTrip data f.data h⟩
  parse := by rw [Json.parse, json.roundTrip data f.data h]

theorem replaceBy_ends {tmpPath : String} {raw : List UInt8} {f : File}
    (htmp : d.lookup tmpPath = some f) (hnil : f.data = []) (hne : base ≠ tmpPath) :
    (replaceBy base tmpPath raw).Ends (M := machine) (rules base) tid
      (Replaced base (fun file => ∃ f, file = some f ∧ f.data = raw) d) d := by
  refine ends_call fun inp _ => ?_
  simp only [Directory.exec]
  cases inp.failure with
  | some msg => exact ends_call fun _ _ => Directory.lookup_append_of_ne hne
  | none =>
      have hbase : (Directory.append d tmpPath raw inp.clock).lookup base = d.lookup base :=
        Directory.lookup_append_of_ne hne
      have hraw : (Directory.append d tmpPath raw inp.clock).lookup tmpPath =
          some { f with data := raw, modTime := inp.clock } := by
        rw [Directory.lookup_append htmp, hnil, List.nil_append]
      generalize Directory.append d tmpPath raw inp.clock = d' at hbase hraw
      refine ends_call fun inp _ => ?_
      simp only [Directory.exec]
      cases inp.failure with
      | some msg => exact ends_call fun _ _ => hbase
      | none =>
          refine ends_call fun inp _ => ?_
          simp only [Directory.exec]
          cases inp.failure with
          | some msg => exact hbase
          | none =>
              refine ends_call fun inp _ => ?_
              simp only [Directory.exec]
              cases inp.failure with
              | some msg => exact hbase
              | none =>
                  refine ends_call fun inp _ => ?_
                  simp only [Directory.exec]
                  cases inp.failure with
                  | some msg => exact hbase
                  | none =>
                      simp only [hraw]
                      exact ⟨_, AList.lookup_insert _, rfl⟩

theorem syncDir_ends :
    syncDir.Ends (M := machine) (rules base) tid (fun _ d' => d' = d) d := by
  refine ends_call fun inp _ => ?_
  simp only [Directory.exec]
  cases inp.failure with
  | some msg => rfl
  | none => exact fun inp _ => ⟨_, _, rfl, rfl⟩

theorem writeAllLocked_ends {data : Data} :
    (writeAllLocked json base data).Ends (M := machine) (rules base) tid
      (Replaced base (json.Encodes data) d) d := by
  refine ends_call fun inp _ => ?_
  simp only [Directory.exec]
  cases inp.failure with
  | some msg => rfl
  | none =>
      cases hraw : json.marshalIndent data with
      | error err => rfl
      | ok raw =>
          refine ends_call fun inp hname => ?_
          simp only [Directory.exec]
          cases inp.failure with
          | some msg => rfl
          | none =>
              generalize htmp : ".sessions-" ++ inp.random ++ ".tmp" = tmpPath
              have hne : base ≠ tmpPath := htmp ▸ Ne.symm hname
              cases d.lookup tmpPath with
              | some f => rfl
              | none =>
                  refine (replaceBy_ends (AList.lookup_insert d) rfl hne).bind fun r d' h => ?_
                  cases r with
                  | some err =>
                      refine ends_call fun inp _ => ?_
                      have hremove : base ∉ (Act.remove tmpPath).targets inp := by
                        simpa [Act.targets] using hne
                      have hkept : d'.lookup base = d.lookup base :=
                        h.trans (AList.lookup_insert_ne hne)
                      exact (Directory.exec_lookup hremove).trans hkept
                  | none =>
                      refine syncDir_ends.bind fun _ d'' hd'' => ?_
                      obtain ⟨f, hf, rfl⟩ := h
                      obtain rfl : d'' = d' := hd''
                      have hencodes := json.encodes_of_marshalIndent hraw
                      rwa [← hf] at hencodes

/-! ## The calls -/

/-- Both kinds of change read the map, change it and write it. -/
theorem modify_ends (change : Data → Data) (h : json.Parses (d.lookup base)) :
    (do match ← readAllLocked json base with
        | .error err => return some err
        | .ok data => writeAllLocked json base (change data)).Ends (M := machine) (rules base) tid
      (Replaced base (json.Encodes (change (json.parse (d.lookup base)))) d) d := by
  refine readAllLocked_ends.bind fun r d' hread => ?_
  obtain rfl := hread.kept h
  cases r with
  | error err => rfl
  | ok data =>
      rw [← hread.read data rfl]
      exact writeAllLocked_ends

theorem saveSession_ends {snapshot : SessionSnapshot} (h : json.Parses (d.lookup base)) :
    (saveSession json base snapshot).Ends (M := machine) (rules base) tid
      (Replaced base (json.Encodes
        ((json.parse (d.lookup base)).insert snapshot.controllerID snapshot)) d) d :=
  modify_ends (·.insert snapshot.controllerID snapshot) h

theorem deleteSession_ends {controllerID : String} (h : json.Parses (d.lookup base)) :
    (deleteSession json base controllerID).Ends (M := machine) (rules base) tid
      (Replaced base (json.Encodes ((json.parse (d.lookup base)).erase controllerID)) d) d :=
  modify_ends (·.erase controllerID) h

/-- A state file that cannot be parsed is listed like an empty one. -/
theorem listSessions_ends :
    (listSessions json base).Ends (M := machine) (rules base) tid
      (fun r d' => (json.Parses (d.lookup base) → d' = d) ∧ ∀ rows, r = .ok rows →
        rows = (json.parse (d.lookup base)).entries.map Sigma.snd) d := by
  refine readAllLocked_ends.bind fun r d' hread => ?_
  cases r with
  | error err => exact ⟨hread.kept, fun rows hr => by cases hr⟩
  | ok data =>
      refine ⟨hread.kept, fun rows hr => ?_⟩
      rw [← hread.read data rfl]
      exact (Except.ok.inj hr).symm

end

/-! ## Histories of calls -/

inductive Op where
  | saveSession (snapshot : SessionSnapshot)
  | deleteSession (controllerID : String)
  | listSessions

@[reducible] def Op.Res : Op → Type
  | saveSession _ | deleteSession _ => Option String
  | listSessions => Except String (Multiset SessionSnapshot)

def Op.prog (json : Json) (base : String) : (op : Op) → Filing op.Res
  | saveSession snapshot => FileStore.saveSession json base snapshot
  | deleteSession controllerID => FileStore.deleteSession json base controllerID
  | listSessions => FileStore.listSessions json base

/-- What the call does to the map if it reports success. -/
def Op.apply (st : Store) : (op : Op) → op.Res → Store
  | saveSession snapshot, none => st.saveSession snapshot
  | deleteSession controllerID, none => st.deleteSession controllerID
  | saveSession _, some _ | deleteSession _, some _ | listSessions, _ => st

/-- Calls, one after the other, on a directory and on a map. -/
inductive History (json : Json) (base : String) (d : Directory) (st : Store) :
    Directory → Store → Prop where
  | nil : History json base d st d st
  | call {d' d'' : Directory} {st' : Store} (hpast : History json base d st d' st') (op : Op)
      {r : op.Res} {tid : ℕ}
      (hcall : Call (M := machine) (rules base) tid d' (op.prog json base) d'' r) :
      History json base d st d'' (op.apply st' r)

/-- The state file is missing, empty or valid, and stands for the map. In a valid file every
snapshot has the id of its own controller. -/
structure Represents (json : Json) (base : String) (d : Directory) (st : Store) : Prop where
  parses : json.Parses (d.lookup base)
  row : ∀ id, st id = (json.parse (d.lookup base)).lookup id
  keyed : ∀ id snap, st id = some snap → snap.controllerID = id

section

variable {json : Json} {base : String} {tid : ℕ} {d d' : Directory} {st st' : Store}

theorem Represents.congr (h : Represents json base d st)
    (hfile : d'.lookup base = d.lookup base) : Represents json base d' st where
  parses := hfile ▸ h.parses
  row := hfile ▸ h.row
  keyed := h.keyed

theorem Represents.saved (h : Represents json base d st) {snapshot : SessionSnapshot}
    (hencodes : json.Encodes
      ((json.parse (d.lookup base)).insert snapshot.controllerID snapshot) (d'.lookup base)) :
    Represents json base d' (st.saveSession snapshot) := by
  refine ⟨hencodes.parses, fun id => ?_, fun id snap hsnap => ?_⟩
  · rw [hencodes.parse]
    by_cases hid : id = snapshot.controllerID
    · subst hid
      rw [Store.saveSession, Function.update_self, Finmap.lookup_insert]
    · rw [Store.saveSession, Function.update_of_ne hid, Finmap.lookup_insert_of_ne _ hid, h.row]
  · by_cases hid : id = snapshot.controllerID
    · subst hid
      rw [Store.saveSession, Function.update_self] at hsnap
      exact congrArg _ (Option.some.inj hsnap).symm
    · rw [Store.saveSession, Function.update_of_ne hid] at hsnap
      exact h.keyed id snap hsnap

theorem Represents.deleted (h : Represents json base d st) {controllerID : String}
    (hencodes : json.Encodes ((json.parse (d.lookup base)).erase controllerID) (d'.lookup base)) :
    Represents json base d' (st.deleteSession controllerID) := by
  refine ⟨hencodes.parses, fun id => ?_, fun id snap hsnap => ?_⟩
  · rw [hencodes.parse]
    by_cases hid : id = controllerID
    · subst hid
      rw [Store.deleteSession, Function.update_self, Finmap.lookup_erase]
    · rw [Store.deleteSession, Function.update_of_ne hid, Finmap.lookup_erase_ne hid, h.row]
  · by_cases hid : id = controllerID
    · subst hid
      rw [Store.deleteSession, Function.update_self] at hsnap
      cases hsnap
    · rw [Store.deleteSession, Function.update_of_ne hid] at hsnap
      exact h.keyed id snap hsnap

theorem Represents.call (h : Represents json base d st) (op : Op) {r : op.Res}
    (hcall : Call (M := machine) (rules base) tid d (op.prog json base) d' r) :
    Represents json base d' (op.apply st r) := by
  cases op with
  | saveSession snapshot =>
      have hpost := (saveSession_ends h.parses).call hcall
      cases r with
      | none => exact h.saved hpost
      | some err => exact h.congr hpost
  | deleteSession controllerID =>
      have hpost := (deleteSession_ends h.parses).call hcall
      cases r with
      | none => exact h.deleted hpost
      | some err => exact h.congr hpost
  | listSessions =>
      have hpost := listSessions_ends.call hcall
      obtain rfl := hpost.1 h.parses
      exact h

theorem History.represents (hist : History json base d st d' st') (h : Represents json base d st) :
    Represents json base d' st' := by
  induction hist with
  | nil => exact h
  | call _ op hcall ih => exact ih.call op hcall

theorem Represents.lists (h : Represents json base d st) {order : List SessionSnapshot}
    (horder : (order : Multiset SessionSnapshot) =
      (json.parse (d.lookup base)).entries.map Sigma.snd) : st.Lists order := by
  have hmem : ∀ id snap, st id = some snap ↔
      (⟨id, snap⟩ : Sigma fun _ : String => SessionSnapshot) ∈
        (json.parse (d.lookup base)).entries := by
    intro id snap
    rw [h.row id]
    exact Finmap.lookup_eq_some_iff
  constructor
  · have hkeys : ((order.map SessionSnapshot.controllerID : List String) : Multiset String) =
        (json.parse (d.lookup base)).entries.keys := by
      rw [← Multiset.map_coe, horder, Multiset.map_map]
      refine Multiset.map_congr rfl fun e he => ?_
      exact h.keyed e.1 e.2 ((hmem e.1 e.2).mpr he)
    rw [← Multiset.coe_nodup, hkeys]
    exact (json.parse (d.lookup base)).nodupKeys.nodup_keys
  · intro id snap
    rw [← Multiset.mem_coe, horder, hmem]
    constructor
    · intro he
      exact ⟨Multiset.mem_map.mpr ⟨_, he, rfl⟩, h.keyed id snap ((hmem id snap).mpr he)⟩
    · rintro ⟨hrow, rfl⟩
      obtain ⟨⟨id, _⟩, he, rfl⟩ := Multiset.mem_map.mp hrow
      rwa [h.keyed id _ ((hmem id _).mpr he)]

/-- Whatever steps fail, the store lists what the successful calls have made of the map, one row
for each controller, and a failed call leaves the state file as it was. -/
theorem fileStore_atomic (h : Represents json base d st) (hist : History json base d st d' st') :
    (∀ tid d'' rows,
      Call (M := machine) (rules base) tid d' (listSessions json base) d'' (.ok rows) →
      ∀ order : List SessionSnapshot, (order : Multiset SessionSnapshot) = rows →
        st'.Lists order) ∧
    (∀ tid d'' snapshot err,
      Call (M := machine) (rules base) tid d' (saveSession json base snapshot) d'' (some err) →
        d''.lookup base = d'.lookup base) ∧
    ∀ tid d'' controllerID err,
      Call (M := machine) (rules base) tid d' (deleteSession json base controllerID) d''
          (some err) →
        d''.lookup base = d'.lookup base := by
  have h' := hist.represents h
  refine ⟨?_, ?_, ?_⟩
  · rintro tid d'' rows hcall order rfl
    exact h'.lists ((listSessions_ends.call hcall).2 _ rfl)
  · intro tid d'' snapshot err hcall
    exact (saveSession_ends h'.parses).call hcall
  · intro tid d'' controllerID err hcall
    exact (deleteSession_ends h'.parses).call hcall

end

/-- A snapshot without commands. -/
def idle : SessionSnapshot := ⟨"17", 0, 1500, false, false, [], [], 0⟩

deriving instance DecidableEq for InFlightSnapshot, SessionSnapshot

/-- What `MarshalIndent` writes for the map with this snapshot alone. -/
def idleText : List UInt8 :=
  Codec.ascii "\x7b
  \"17\": \x7b
    \"ControllerID\": \"17\",
    \"LastSeen\": \"0001-01-01T00:00:00Z\",
    \"BufferFree\": 1500,
    \"FWMode\": false,
    \"SyncMode\": false,
    \"Pending\": [],
    \"InFlight\": [],
    \"NextSeq\": 0
  \x7d
\x7d"

/-- The codec on that map and its text. -/
def idleJson : Json where
  marshalIndent data :=
    if data = Finmap.singleton "17" idle then .ok idleText else .error "unsupported"
  unmarshal raw :=
    if raw = idleText then .ok (some (Finmap.singleton "17" idle)) else .error "syntax"
  roundTrip data raw h := by
    split at h
    next hdata =>
        obtain rfl := Except.ok.inj h
        rw [if_pos rfl, hdata]
    next => cases h
  unmarshal_nil := ⟨_, if_neg (by decide +kernel)⟩

theorem idle_listed :
    ∃ d, Call (M := machine) (rules "sessions.json") 0 ∅
        (saveSession idleJson "sessions.json" idle) d none ∧
      ∀ tid d' rows,
        Call (M := machine) (rules "sessions.json") tid d (listSessions idleJson "sessions.json") d'
          (.ok rows) →
        ∀ order : List SessionSnapshot, (order : Multiset SessionSnapshot) = rows →
          (Store.saveSession (fun _ => none) idle).Lists order := by
  have hrule : ∀ d a, (rules "sessions.json").act d 0 a { random := "1" } := by
    intro d a
    cases a with
    | createTemp before after =>
        intro heq
        have hmem : '1' ∈ "sessions.json".toList := by
          rw [← heq]
          simp
        exact absurd hmem (by decide)
    | _ => trivial
  have hsave : Call (M := machine) (rules "sessions.json") 0 ∅
      (saveSession idleJson "sessions.json" idle) _ none :=
    Prog.call_of_eval _ hrule rfl
  have hstart : Represents idleJson "sessions.json" ∅ fun _ => none :=
    ⟨fun f hf => (by cases hf), fun id => rfl, fun id snap hsnap => (by cases hsnap)⟩
  exact ⟨_, hsave, (fileStore_atomic hstart (.call .nil (.saveSession idle) hsave)).1⟩

end TcpAdapter.FileStore
