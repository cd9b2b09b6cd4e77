import SteamWire.Data.Json
import SteamWire.Net.Error
import SteamWire.Semantics.Run
import Mathlib.Data.List.Induction

/-!
# The store of guard data

The tokens of all accounts are kept in one file, which every store reads, changes and
writes as a whole. A write truncates the file first, and a store that fails behind that
has lost the tokens of all accounts: without such a store the file behaves as a map
(`behavesAsMap_iff`).
-/

namespace SteamWire

open Semantics
open Json (StringMap)

/-- The components of a path, from a root or from the working directory. -/
structure PathBuf where
  hasRoot : Bool
  components : List String
  deriving DecidableEq, Repr

def PathBuf.parent (path : PathBuf) : Option PathBuf :=
  if path.components = [] then none else some { path with components := path.components.dropLast }

/-- The path of the working directory, of a file name without a directory. -/
def PathBuf.isEmpty (path : PathBuf) : Bool := !path.hasRoot && path.components.isEmpty

/-- An error of storing or loading guard data; `ε` is the error of the JSON library. -/
inductive FileStoreError (ε : Type*) where
  | read (err : IoError) (path : PathBuf)
  | write (err : IoError) (path : PathBuf)
  | json (err : ε) (path : PathBuf)
  | dirCreation (err : IoError) (path : PathBuf)
  deriving DecidableEq

/-- What the JSON library does with the tokens. -/
structure TokenCodec (ε : Type*) where
  toString : StringMap → Except ε String
  fromStr : String → Except ε StringMap

/-- Tokens that are written are read back, and an empty file is refused. -/
structure TokenCodec.Lawful {ε : Type*} (json : TokenCodec ε) : Prop where
  roundTrip : ∀ tokens, ∃ raw tokens', json.toString tokens = .ok raw ∧
    json.fromStr raw = .ok tokens' ∧ ∀ account, tokens'.lookup account = tokens.lookup account
  empty : ∃ err, json.fromStr "" = .error err

/-- The file of the tokens. -/
inductive TokenFile where
  | absent
  | text (raw : String)
  | notUtf8
  deriving DecidableEq, Repr

/-- The steps of one call that fail. -/
structure Faults where
  read : Option IoError := none
  createDir : Option IoError := none
  truncate : Option IoError := none
  write : Option IoError := none
  deriving DecidableEq, Repr

namespace TokenFile

/-- `Path::exists`. -/
def pathExists : TokenFile → Bool
  | absent => false
  | _ => true

def readToString (faults : Faults) : TokenFile → Except IoError String
  | absent => .error (.other "No such file or directory")
  | text raw => faults.read.elim (.ok raw) .error
  | notUtf8 => .error (faults.read.getD (.other "stream did not contain valid UTF-8"))

/-- `fs::write`: truncate the file, or create it, and then write to it. -/
def write (faults : Faults) (raw : String) (file : TokenFile) : Except IoError Unit × TokenFile :=
  match faults.truncate with
  | some err => (.error err, file)
  | none =>
    match faults.write with
    -- the old contents are gone by now
    | some err => (.error err, .text "")
    | none => (.ok (), .text raw)

/-- The tokens that a file holds, if they can be parsed. -/
def tokens? {ε : Type*} (json : TokenCodec ε) : TokenFile → Option StringMap
  | absent => some ∅
  | text raw => (json.fromStr raw).toOption
  | notUtf8 => none

end TokenFile

structure FileGuardDataStore where
  path : PathBuf
  deriving DecidableEq, Repr

namespace FileGuardDataStore

variable {ε : Type*} (self : FileGuardDataStore) (json : TokenCodec ε)

def allTokens (faults : Faults) (file : TokenFile) : Except (FileStoreError ε) StringMap :=
  if file.pathExists then
    match file.readToString faults with
    | .error err => .error (.read err self.path)
    | .ok raw => (json.fromStr raw).mapError (.json · self.path)
  else .ok ∅

/-- Why the parent directory cannot be created, if there is one to create. -/
def dirError (faults : Faults) : Option (FileStoreError ε) :=
  self.path.parent.bind fun parent =>
    -- a bare file name has the empty path for its parent
    if parent.isEmpty then none else faults.createDir.map (.dirCreation · parent)

def save (faults : Faults) (tokens : StringMap) (file : TokenFile) :
    Except (FileStoreError ε) Unit × TokenFile :=
  match self.dirError faults with
  | some err => (.error err, file)
  | none =>
    match json.toString tokens with
    | .error err => (.error (.json err self.path), file)
    | .ok raw =>
      match file.write faults raw with
      | (.error err, file) => (.error (.write err self.path), file)
      | (.ok (), file) => (.ok (), file)

def store (account machineToken : String) (faults : Faults) (file : TokenFile) :
    Except (FileStoreError ε) Unit × TokenFile :=
  -- an empty token is not stored
  if machineToken ≠ "" then
    match self.allTokens json faults file with
    | .error err => (.error err, file)
    | .ok tokens => self.save json faults (tokens.insert account machineToken) file
  else (.ok (), file)

def load (account : String) (faults : Faults) (file : TokenFile) :
    Except (FileStoreError ε) (Option String) :=
  (self.allTokens json faults file).map fun tokens => (tokens.lookup account).filter (· ≠ "")

/-! ### One call -/

variable {self json} {account token : String} {faults : Faults} {file : TokenFile}
  {tokens : StringMap}

theorem tokens?_of_allTokens (h : self.allTokens json faults file = .ok tokens) :
    file.tokens? json = some tokens := by
  unfold allTokens at h
  cases file with
  | absent => exact congrArg some (Except.ok.inj h)
  | text raw =>
    cases hread : faults.read with
    | some => simp [TokenFile.pathExists, TokenFile.readToString, hread] at h
    | none =>
      cases hparse : json.fromStr raw with
      | error =>
        simp [TokenFile.pathExists, TokenFile.readToString, hread, hparse, Except.mapError] at h
      | ok =>
        simp [TokenFile.pathExists, TokenFile.readToString, hread, hparse, Except.mapError] at h
        simp [TokenFile.tokens?, hparse, h, Except.toOption]
  | notUtf8 => simp [TokenFile.pathExists, TokenFile.readToString] at h

theorem allTokens_of_tokens? (h : file.tokens? json = some tokens) :
    self.allTokens json {} file = .ok tokens := by
  unfold allTokens
  cases file with
  | absent => exact congrArg Except.ok (Option.some.inj h)
  | text raw =>
    cases hparse : json.fromStr raw with
    | error => simp [TokenFile.tokens?, hparse, Except.toOption] at h
    | ok =>
      simp [TokenFile.tokens?, hparse, Except.toOption] at h
      simp [TokenFile.pathExists, TokenFile.readToString, hparse, h, Except.mapError]
  | notUtf8 => cases h

/-- A store gets as far as the write, and fails when the file is truncated. -/
def FailsAfterTruncate (self : FileGuardDataStore) (json : TokenCodec ε) (token : String)
    (faults : Faults) (file : TokenFile) : Prop :=
  token ≠ "" ∧ (∃ tokens, self.allTokens json faults file = .ok tokens) ∧
    (self.dirError faults : Option (FileStoreError ε)) = none ∧ faults.truncate = none ∧
    faults.write ≠ none

/-- What a store can do. -/
inductive Stores (self : FileGuardDataStore) (json : TokenCodec ε) (account token : String)
    (faults : Faults) (file : TokenFile) : Except (FileStoreError ε) Unit → TokenFile → Prop
  | skipped (h : token = "") : Stores self json account token faults file (.ok ()) file
  | failed {err : FileStoreError ε} (h : ¬ self.FailsAfterTruncate json token faults file) :
    Stores self json account token faults file (.error err) file
  | torn {err : FileStoreError ε} (h : self.FailsAfterTruncate json token faults file) :
    Stores self json account token faults file (.error err) (.text "")
  | stored {tokens : StringMap} {raw : String} (htoken : token ≠ "")
      (htokens : file.tokens? json = some tokens)
      (hraw : json.toString (tokens.insert account token) = .ok raw)
      (h : ¬ self.FailsAfterTruncate json token faults file) :
    Stores self json account token faults file (.ok ()) (.text raw)

theorem stores (hjson : json.Lawful) : Stores self json account token faults file
    (self.store json account token faults file).1
    (self.store json account token faults file).2 := by
  -- the steps of a store in their order, each with its failure
  by_cases htoken : token = ""
  · simpa [store, htoken] using .skipped rfl
  cases htokens : self.allTokens json faults file with
  | error err =>
    simpa [store, htoken, htokens] using
      .failed fun ⟨_, ⟨_, h⟩, _⟩ => nomatch htokens.symm.trans h
  | ok tokens =>
    -- writing a map as JSON does not fail
    obtain ⟨raw, -, hraw, -⟩ := hjson.roundTrip (tokens.insert account token)
    cases hdir : (self.dirError faults : Option (FileStoreError ε)) with
    | some err =>
      simpa [store, save, htoken, htokens, hdir] using
        .failed fun ⟨_, _, h, _⟩ => nomatch hdir.symm.trans h
    | none =>
      cases htruncate : faults.truncate with
      | some err =>
        simpa [store, save, TokenFile.write, htoken, htokens, hdir, hraw, htruncate] using
          .failed fun ⟨_, _, _, h, _⟩ => nomatch htruncate.symm.trans h
      | none =>
        cases hwrite : faults.write with
        | some err =>
          simpa [store, save, TokenFile.write, htoken, htokens, hdir, hraw, htruncate, hwrite] using
            .torn ⟨htoken, ⟨tokens, htokens⟩, hdir, htruncate, by simp [hwrite]⟩
        | none =>
          simpa [store, save, TokenFile.write, htoken, htokens, hdir, hraw, htruncate, hwrite] using
            .stored htoken (tokens?_of_allTokens htokens) hraw fun ⟨_, _, _, _, h⟩ => h hwrite

end FileGuardDataStore

/-! ### Calls one after another -/

/-- A call, the steps of it that fail, and its result. -/
inductive GuardDataCall (ε : Type*) where
  | store (account machineToken : String) (faults : Faults) (res : Except (FileStoreError ε) Unit)
  | load (account : String) (faults : Faults) (res : Except (FileStoreError ε) (Option String))

namespace FileGuardDataStore

variable {ε : Type*} [DecidableEq ε] (self : FileGuardDataStore) (json : TokenCodec ε)

/-- One call on the store. -/
def step (file : TokenFile) : GuardDataCall ε → Option TokenFile
  | .store account machineToken faults res =>
    if res = (self.store json account machineToken faults file).1 then
      some (self.store json account machineToken faults file).2
    else none
  | .load account faults res => if res = self.load json account faults file then some file else none

/-- All later calls can have the same results. -/
def SameLater (file file' : TokenFile) : Prop :=
  ∀ later, (run (self.step json) file later).isSome = (run (self.step json) file' later).isSome

end FileGuardDataStore

section BehavesAsMap

variable {ε : Type*}

namespace GuardDataCall

/-- The token that a call has stored for an account. -/
def storedToken (account : String) : GuardDataCall ε → Option String
  | .store other machineToken _ (.ok ()) =>
    if other = account ∧ machineToken ≠ "" then some machineToken else none
  | _ => none

/-- A store that fails when the file is truncated. -/
def FailsAfterTruncate (self : FileGuardDataStore) (json : TokenCodec ε) (file : TokenFile) :
    GuardDataCall ε → Prop
  | .store _ machineToken faults _ => self.FailsAfterTruncate json machineToken faults file
  | .load .. => False

end GuardDataCall

/-- The last token that was stored for an account. -/
def lastStored (account : String) (past : List (GuardDataCall ε)) : Option String :=
  (past.filterMap (GuardDataCall.storedToken account)).getLast?

/-- The token that a file holds for an account. -/
def TokenFile.tokenOf (json : TokenCodec ε) (file : TokenFile) (account : String) :
    Option String :=
  ((file.tokens? json).bind (·.lookup account)).filter (· ≠ "")

variable {self : FileGuardDataStore} {json : TokenCodec ε} {file file' file₀ : TokenFile}
  {account machineToken : String} {faults : Faults} {tokens : StringMap}

theorem lastStored_concat (account : String) (w : List (GuardDataCall ε))
    (call : GuardDataCall ε) :
    lastStored account (w ++ [call]) = (call.storedToken account).or (lastStored account w) := by
  rw [lastStored, List.filterMap_append, List.getLast?_append]
  cases h : call.storedToken account <;> simp [h, lastStored]

theorem load_of_tokens? (h : file.tokens? json = some tokens) :
    self.load json account {} file = .ok ((tokens.lookup account).filter (· ≠ "")) := by
  rw [FileGuardDataStore.load, FileGuardDataStore.allTokens_of_tokens? h]
  rfl

theorem tokens?_of_load {res : Option String}
    (h : self.load json account faults file = .ok res) :
    (∃ tokens, file.tokens? json = some tokens) ∧ res = file.tokenOf json account := by
  unfold FileGuardDataStore.load at h
  cases htokens : self.allTokens json faults file with
  | error => simp [htokens, Except.map] at h
  | ok tokens =>
    rw [htokens] at h
    have hfile := FileGuardDataStore.tokens?_of_allTokens htokens
    refine ⟨⟨tokens, hfile⟩, ?_⟩
    rw [TokenFile.tokenOf, hfile]
    exact (Except.ok.inj h).symm

/-- The text that is written holds the tokens. -/
theorem tokens?_of_toString (hjson : json.Lawful) {raw : String}
    (hraw : json.toString tokens = .ok raw) : ∃ tokens',
    (TokenFile.text raw).tokens? json = some tokens' ∧
      ∀ account, tokens'.lookup account = tokens.lookup account := by
  obtain ⟨raw', tokens', hraw', hparse, hlookup⟩ := hjson.roundTrip tokens
  obtain rfl := Except.ok.inj (hraw.symm.trans hraw')
  exact ⟨tokens', by rw [TokenFile.tokens?, hparse]; rfl, hlookup⟩

/-- What a store that goes well makes of the file. -/
theorem tokenOf_of_stores (hjson : json.Lawful)
    (h : self.Stores json account machineToken faults file (.ok ()) file')
    (hparse : ∃ tokens, file'.tokens? json = some tokens) (other : String) :
    (∃ tokens, file.tokens? json = some tokens) ∧ file'.tokenOf json other =
      (if account = other ∧ machineToken ≠ "" then some machineToken else none).or
        (file.tokenOf json other) := by
  cases h with
  | skipped h => exact ⟨hparse, by simp [h]⟩
  | @stored tokens raw htoken htokens hraw =>
    obtain ⟨tokens', htokens', hlookup⟩ := tokens?_of_toString hjson hraw
    refine ⟨⟨tokens, htokens⟩, ?_⟩
    rw [TokenFile.tokenOf, TokenFile.tokenOf, htokens', htokens]
    change (tokens'.lookup other).filter _ = _
    rw [hlookup]
    by_cases hother : account = other
    · subst hother
      simp [htoken]
    · simp [hother, AList.lookup_insert_ne (Ne.symm hother)]

/-- An empty file is not parsed. -/
theorem exists_load_empty (hjson : json.Lawful) :
    ∃ err, self.load json account {} (.text "") = .error err := by
  obtain ⟨err, herr⟩ := hjson.empty
  refine ⟨.json err self.path, ?_⟩
  simp [FileGuardDataStore.load, FileGuardDataStore.allTokens, TokenFile.pathExists,
    TokenFile.readToString, herr, Except.mapError, Except.map]

variable [DecidableEq ε]

/-- The calls on a store see a map from accounts to tokens, and a call that fails changes
nothing. -/
structure BehavesAsMap (store : FileGuardDataStore) (json : TokenCodec ε) (file₀ : TokenFile)
    (w : List (GuardDataCall ε)) : Prop where
  load : ∀ u account faults res v, w = u ++ .load account faults (.ok res) :: v →
    res = (lastStored account u).or (file₀.tokenOf json account)
  frame : ∀ file account machineToken faults res file',
    Takes (store.step json) file₀ w file (.store account machineToken faults res) file' →
      ∀ other ≠ account, store.load json other {} file' = store.load json other {} file
  skip : ∀ file account faults res file',
    Takes (store.step json) file₀ w file (.store account "" faults res) file' →
      res = .ok () ∧ file' = file
  failed : ∀ file account machineToken faults err file',
    Takes (store.step json) file₀ w file (.store account machineToken faults (.error err)) file' →
      store.SameLater json file' file

variable {w : List (GuardDataCall ε)} {call : GuardDataCall ε}
  {res : Except (FileStoreError ε) Unit}

theorem stores_of_step (hjson : json.Lawful)
    (h : self.step json file (.store account machineToken faults res) = some file') :
    self.Stores json account machineToken faults file res file' := by
  have hstores := @FileGuardDataStore.stores _ self json account machineToken faults file hjson
  obtain ⟨hres, hfile⟩ := Option.ite_none_right_eq_some.mp h
  rw [← hres, Option.some.inj hfile] at hstores
  exact hstores

/-- As long as no store fails when the file is truncated, the file holds what was stored. -/
theorem tokenOf_of_run (hjson : json.Lawful)
    (hsafe : ∀ f call g, Takes (self.step json) file₀ w f call g →
      ¬ call.FailsAfterTruncate self json f)
    (hrun : run (self.step json) file₀ w = some file)
    (hparse : ∃ tokens, file.tokens? json = some tokens) (account : String) :
    file.tokenOf json account = (lastStored account w).or (file₀.tokenOf json account) := by
  -- by the last call: a load changes nothing, a store what it says
  induction w using List.reverseRecOn generalizing file with
  | nil => rw [← Option.some.inj hrun]; rfl
  | append_singleton w call ih =>
    rw [run_append, Option.bind_eq_some_iff] at hrun
    obtain ⟨f, hf, hrun⟩ := hrun
    obtain ⟨_, hstep, hfile⟩ := run_cons_eq_some.mp hrun
    obtain rfl := Option.some.inj hfile
    have hlast := ih (fun f call g h => hsafe f call g (h.append _)) hf
    rw [lastStored_concat]
    cases call with
    | load other faults res =>
      obtain ⟨-, hfile⟩ := Option.ite_none_right_eq_some.mp hstep
      obtain rfl := Option.some.inj hfile
      exact hlast hparse
    | store other machineToken faults res =>
      have hstores := stores_of_step hjson hstep
      cases res with
      | ok =>
        obtain ⟨hparse, htoken⟩ := tokenOf_of_stores hjson hstores hparse account
        rw [htoken, hlast hparse, ← Option.or_assoc]
        rfl
      | error err =>
        cases hstores with
        | failed => exact hlast hparse
        -- the condition on the run rules this out
        | torn h => exact absurd h (hsafe _ _ _ ⟨w, [], rfl, hf, hstep⟩)

/-- A load that went well is refused once the file is empty. -/
theorem not_sameLater_empty (hjson : json.Lawful) (h : file.tokens? json = some tokens) :
    ¬ self.SameLater json (.text "") file := by
  intro hsame
  obtain ⟨err, herr⟩ := @exists_load_empty _ self json "" hjson
  have hload := hsame [.load "" {} (.error err)]
  simp [run, FileGuardDataStore.step, herr, load_of_tokens? h] at hload

/-- The calls of a run see a map if and only if no store fails when the file is truncated. -/
theorem behavesAsMap_iff (hjson : json.Lawful)
    (hrun : run (self.step json) file₀ w = some file) :
    BehavesAsMap self json file₀ w ↔ AllSteps (self.step json)
      (fun file call => ¬ call.FailsAfterTruncate self json file) file₀ w := by
  rw [AllSteps.iff_takes]
  constructor
  · intro h f call g htakes hbad
    obtain ⟨u, v, -, -, hstep⟩ := id htakes
    cases call with
    | load => exact hbad
    | store account machineToken faults res =>
      have hstores := stores_of_step hjson hstep
      cases hstores with
      | skipped htoken => exact hbad.1 htoken
      | failed h => exact h hbad
      | stored _ _ _ h => exact h hbad
      | torn =>
        -- before the store the file was parsed, and now it is empty
        obtain ⟨-, ⟨tokens, htokens⟩, -⟩ := id hbad
        have hparse := FileGuardDataStore.tokens?_of_allTokens htokens
        exact not_sameLater_empty hjson hparse (h.failed _ _ _ _ _ _ htakes)
  · intro hsafe
    refine ⟨?_, ?_, ?_, ?_⟩
    · -- a load gives what the file holds
      rintro u account faults res v rfl
      rw [run_append, Option.bind_eq_some_iff] at hrun
      obtain ⟨f, hf, hrun⟩ := hrun
      obtain ⟨_, hstep, -⟩ := run_cons_eq_some.mp hrun
      obtain ⟨hload, -⟩ := Option.ite_none_right_eq_some.mp hstep
      obtain ⟨hparse, rfl⟩ := tokens?_of_load hload.symm
      exact tokenOf_of_run hjson (fun f call g h => hsafe f call g (h.append _)) hf hparse account
    · -- a store keeps the other accounts
      intro f account machineToken faults res g htakes other hother
      obtain ⟨u, v, -, -, hstep⟩ := id htakes
      cases stores_of_step hjson hstep with
      | skipped | failed => rfl
      | torn h => exact absurd h (hsafe _ _ _ htakes)
      | stored htoken htokens hraw =>
        obtain ⟨tokens', htokens', hlookup⟩ := tokens?_of_toString hjson hraw
        rw [load_of_tokens? htokens', load_of_tokens? htokens, hlookup,
          AList.lookup_insert_ne hother]
    · rintro f account faults res g ⟨u, v, -, -, hstep⟩
      obtain ⟨rfl, hfile⟩ := Option.ite_none_right_eq_some.mp hstep
      exact ⟨rfl, (Option.some.inj hfile).symm⟩
    · -- a store that fails keeps the file
      intro f account machineToken faults err g htakes
      obtain ⟨u, v, -, -, hstep⟩ := id htakes
      cases stores_of_step hjson hstep with
      | failed => exact fun later => rfl
      | torn h => exact absurd h (hsafe _ _ _ htakes)

end BehavesAsMap

section Examples

/-- The JSON of the tokens. -/
def jsonTokens : TokenCodec Unit where
  toString tokens := .ok (Json.toStr tokens)
  fromStr raw := (Json.fromStr raw).elim (.error ()) .ok

theorem jsonTokens_lawful : jsonTokens.Lawful where
  roundTrip tokens := by
    obtain ⟨tokens', hread, hlookup⟩ := Json.lookup_of_fromStr_toStr tokens
    exact ⟨_, tokens', rfl, by simp only [jsonTokens, hread]; rfl, hlookup⟩
  empty := ⟨(), by simp only [jsonTokens, Json.fromStr_empty]; rfl⟩

def tokenStore : FileGuardDataStore where
  path := ⟨true, ["cache", "steam-wire", "machine_tokens.json"]⟩

def diskFull : IoError := .other "No space left on device"

/-- A store that cannot open the file, and one that goes well. -/
def storeTwice : List (GuardDataCall Unit) :=
  [.store "alice" "2B4K7" { truncate := some diskFull } (.error (.write diskFull tokenStore.path)),
    .store "bob" "9XHQT" {} (.ok ())]

theorem run_storeTwice : run (tokenStore.step jsonTokens) .absent storeTwice =
    some (.text (Json.toStr (AList.insert "bob" "9XHQT" ∅))) := by
  simp [storeTwice, run, FileGuardDataStore.step, FileGuardDataStore.store,
    FileGuardDataStore.allTokens, FileGuardDataStore.save, FileGuardDataStore.dirError,
    TokenFile.pathExists, TokenFile.write, PathBuf.parent, jsonTokens, tokenStore]

theorem behavesAsMap_storeTwice : BehavesAsMap tokenStore jsonTokens .absent storeTwice := by
  refine (behavesAsMap_iff jsonTokens_lawful run_storeTwice).mpr ?_
  simp [storeTwice, AllSteps, GuardDataCall.FailsAfterTruncate,
    FileGuardDataStore.FailsAfterTruncate]

/-- A store that fails on a full disk. -/
def storeOnFullDisk : List (GuardDataCall Unit) :=
  [.store "alice" "2B4K7" { write := some diskFull } (.error (.write diskFull tokenStore.path))]

/-- The file is empty behind it, and no load goes well. -/
theorem not_behavesAsMap_storeOnFullDisk :
    run (tokenStore.step jsonTokens) .absent storeOnFullDisk = some (.text "") ∧
      ¬ BehavesAsMap tokenStore jsonTokens .absent storeOnFullDisk := by
  have hstep : tokenStore.step jsonTokens .absent (.store "alice" "2B4K7"
      { write := some diskFull } (.error (.write diskFull tokenStore.path))) =
        some (.text "") := by
    simp [FileGuardDataStore.step, FileGuardDataStore.store, FileGuardDataStore.allTokens,
      FileGuardDataStore.save, FileGuardDataStore.dirError, TokenFile.pathExists, TokenFile.write,
      PathBuf.parent, jsonTokens, tokenStore]
  refine ⟨by rw [storeOnFullDisk, run_cons, hstep]; rfl, fun h => ?_⟩
  exact not_sameLater_empty jsonTokens_lawful rfl
    (h.failed _ _ _ _ _ _ ⟨[], [], rfl, rfl, hstep⟩)

end Examples

end SteamWire
