import SteamWire.Auth.GuardData
import Mathlib.Logic.Function.Basic

/-!
# Concurrent stores of guard data

A store reads the file in one step and writes it in another. Stores on one file that run
at the same time keep all tokens if none of them reads while another is between its two
steps (`keepsTokens_of_exclusive`). When the tokens are new to the file, they are only kept
then (`exclusive_of_keepsTokens`).
-/

namespace SteamWire

open Semantics
open Json (StringMap)

/-- The tokens of logins with different accounts. -/
structure Logins (ι : Type*) where
  account : ι → String
  token : ι → String
  account_injective : Function.Injective account
  token_ne_empty : ∀ i, token i ≠ ""

/-- Where a store is. -/
inductive StorePhase (ε : Type*) where
  | ready
  | read (tokens : StringMap)
  | done (res : Except (FileStoreError ε) Unit)

/-- The file, and the stores that share it. -/
structure SharedFile (ι ε : Type*) where
  file : TokenFile
  phase : ι → StorePhase ε

inductive StoreStep (ι : Type*) where
  | read (i : ι)
  | write (i : ι)
  deriving DecidableEq

namespace SharedFile

variable {ι ε : Type*} [DecidableEq ι]

def start (file : TokenFile) : SharedFile ι ε where
  file := file
  phase := fun _ => .ready

def setPhase (s : SharedFile ι ε) (i : ι) (phase : StorePhase ε) : SharedFile ι ε :=
  { s with phase := Function.update s.phase i phase }

@[simp] theorem file_setPhase (s : SharedFile ι ε) (i : ι) (phase : StorePhase ε) :
    (s.setPhase i phase).file = s.file := rfl

theorem phase_setPhase_eq {s : SharedFile ι ε} {i j : ι} {phase phase' : StorePhase ε} :
    (s.setPhase i phase).phase j = phase' ↔
      j = i ∧ phase = phase' ∨ j ≠ i ∧ s.phase j = phase' := by
  rw [show (s.setPhase i phase).phase = Function.update s.phase i phase from rfl,
    Function.update_apply]
  by_cases h : j = i <;> simp [h]

variable (store : FileGuardDataStore) (json : TokenCodec ε) (logins : Logins ι)

/-- One step of one store: `all_tokens`, or the insertion and `save`. -/
def step (s : SharedFile ι ε) : StoreStep ι → Option (SharedFile ι ε)
  | .read i =>
    match s.phase i with
    | .ready =>
      match store.allTokens json {} s.file with
      | .error err => some (s.setPhase i (.done (.error err)))
      | .ok tokens => some (s.setPhase i (.read tokens))
    | _ => none
  | .write i =>
    match s.phase i with
    | .read tokens =>
      -- the map is written as it was read, whatever the file holds by now
      let saved := store.save json {} (tokens.insert (logins.account i) (logins.token i)) s.file
      some (setPhase { s with file := saved.2 } i (.done saved.1))
    | _ => none

variable {store json logins} {file₀ : TokenFile} {s t : SharedFile ι ε} {a : StoreStep ι}
  {w : List (StoreStep ι)}

/-- What a step can do. -/
inductive StepsTo (json : TokenCodec ε) (logins : Logins ι) (s : SharedFile ι ε) :
    StoreStep ι → SharedFile ι ε → Prop
  | refused {i : ι} {err : FileStoreError ε} (hphase : s.phase i = .ready)
      (hfile : s.file.tokens? json = none) :
    StepsTo json logins s (.read i) (s.setPhase i (.done (.error err)))
  | read {i : ι} {tokens : StringMap} (hphase : s.phase i = .ready)
      (hfile : s.file.tokens? json = some tokens) :
    StepsTo json logins s (.read i) (s.setPhase i (.read tokens))
  | write {i : ι} {tokens tokens' : StringMap} {file : TokenFile}
      (hphase : s.phase i = .read tokens) (hfile : file.tokens? json = some tokens')
      (hlookup : ∀ account, tokens'.lookup account =
        (tokens.insert (logins.account i) (logins.token i)).lookup account) :
    StepsTo json logins s (.write i) (setPhase { s with file := file } i (.done (.ok ())))

theorem stepsTo_of_step (hjson : json.Lawful) (h : step store json logins s a = some t) :
    StepsTo json logins s a t := by
  cases a with
  | read i =>
    cases hphase : s.phase i with
    | ready =>
      cases htokens : store.allTokens json {} s.file with
      | error err =>
        simp only [step, hphase, htokens, Option.some.injEq] at h
        refine h ▸ .refused hphase ?_
        rw [Option.eq_none_iff_forall_ne_some]
        intro tokens hfile
        rw [FileGuardDataStore.allTokens_of_tokens? hfile] at htokens
        cases htokens
      | ok tokens =>
        simp only [step, hphase, htokens, Option.some.injEq] at h
        exact h ▸ .read hphase (FileGuardDataStore.tokens?_of_allTokens htokens)
    | read | done => simp [step, hphase] at h
  | write i =>
    cases hphase : s.phase i with
    | read tokens =>
      obtain ⟨raw, -, hraw, -⟩ :=
        hjson.roundTrip (tokens.insert (logins.account i) (logins.token i))
      obtain ⟨tokens', hfile, hlookup⟩ := tokens?_of_toString hjson hraw
      have hsave : store.save json {} (tokens.insert (logins.account i) (logins.token i)) s.file =
          (.ok (), .text raw) := by
        simp [FileGuardDataStore.save, FileGuardDataStore.dirError, hraw, TokenFile.write]
      simp only [step, hphase, hsave, Option.some.injEq] at h
      exact h ▸ .write hphase hfile hlookup
    | ready | done => simp [step, hphase] at h

/-- All stores have returned `Ok`. -/
def AllDone (s : SharedFile ι ε) : Prop := ∀ i, s.phase i = .done (.ok ())

/-- When all stores are done, their tokens are loaded, and for other accounts what the file
held before. -/
def KeepsTokens (store : FileGuardDataStore) (json : TokenCodec ε) (logins : Logins ι)
    (file₀ : TokenFile) (s : SharedFile ι ε) : Prop :=
  s.AllDone →
    (∀ i, store.load json (logins.account i) {} s.file = .ok (some (logins.token i))) ∧
      ∀ other, (∀ i, logins.account i ≠ other) →
        store.load json other {} s.file = store.load json other {} file₀

/-- No store reads the file between the two steps of another. -/
def Exclusive (s : SharedFile ι ε) : StoreStep ι → Prop
  | .read _ => ∀ j tokens, s.phase j ≠ .read tokens
  | .write _ => True

/-! ### One store at a time -/

/-- What holds as long as the stores come one at a time. -/
structure Serial (json : TokenCodec ε) (logins : Logins ι) (file₀ : TokenFile)
    (s : SharedFile ι ε) : Prop where
  unique : ∀ i j tokens tokens', s.phase i = .read tokens → s.phase j = .read tokens' → i = j
  current : ∀ i tokens, s.phase i = .read tokens → s.file.tokens? json = some tokens
  untouched : (∀ i, s.phase i ≠ .done (.ok ())) → s.file = file₀
  parsed : ∀ i, s.phase i = .done (.ok ()) →
    ∃ tokens tokens₀, s.file.tokens? json = some tokens ∧ file₀.tokens? json = some tokens₀
  stored : ∀ i, s.phase i = .done (.ok ()) → ∀ tokens, s.file.tokens? json = some tokens →
    tokens.lookup (logins.account i) = some (logins.token i)
  kept : ∀ account, (∀ i, s.phase i = .done (.ok ()) → logins.account i ≠ account) →
    ∀ tokens tokens₀, s.file.tokens? json = some tokens → file₀.tokens? json = some tokens₀ →
      tokens.lookup account = tokens₀.lookup account

omit [DecidableEq ι] in
theorem serial_start : Serial json logins file₀ (start file₀ : SharedFile ι ε) where
  unique := nofun
  current := nofun
  untouched _ := rfl
  parsed := nofun
  stored := nofun
  kept := by
    intro account _ tokens tokens₀ h h₀
    rw [Option.some.inj (h.symm.trans h₀)]

omit [DecidableEq ι] in
/-- A step that changes neither the file nor which stores are done. -/
theorem Serial.of_file_eq (hs : Serial json logins file₀ s) (hfile : t.file = s.file)
    (hdone : ∀ i, t.phase i = .done (.ok ()) ↔ s.phase i = .done (.ok ()))
    (hunique : ∀ i j tokens tokens', t.phase i = .read tokens → t.phase j = .read tokens' → i = j)
    (hcurrent : ∀ i tokens, t.phase i = .read tokens → s.file.tokens? json = some tokens) :
    Serial json logins file₀ t where
  unique := hunique
  current := hfile ▸ hcurrent
  untouched h := hfile ▸ hs.untouched fun i hi => h i ((hdone i).mpr hi)
  parsed i hi := hfile ▸ hs.parsed i ((hdone i).mp hi)
  stored i hi := hfile ▸ hs.stored i ((hdone i).mp hi)
  kept account h := hfile ▸ hs.kept account fun i hi => h i ((hdone i).mpr hi)

/-- A phase that is set does not change which stores are done, if neither it nor the one before
is the end. -/
theorem phase_setPhase_eq_done_iff {i : ι} {phase : StorePhase ε}
    (hbefore : s.phase i ≠ .done (.ok ())) (hafter : phase ≠ .done (.ok ())) (j : ι) :
    (s.setPhase i phase).phase j = .done (.ok ()) ↔ s.phase j = .done (.ok ()) := by
  rw [phase_setPhase_eq]
  constructor
  · rintro (⟨-, hdone⟩ | ⟨-, hdone⟩)
    · exact absurd hdone hafter
    · exact hdone
  · intro hdone
    refine .inr ⟨?_, hdone⟩
    rintro rfl
    exact hbefore hdone

/-- A store that is refused holds nothing. -/
theorem Serial.of_refused (hs : Serial json logins file₀ s) {i : ι} {err : FileStoreError ε}
    (hphase : s.phase i = .ready) : Serial json logins file₀ (s.setPhase i (.done (.error err))) := by
  have hread : ∀ j tokens, (s.setPhase i (.done (.error err))).phase j = .read tokens →
      s.phase j = .read tokens := by
    intro j tokens hj
    obtain ⟨-, hj⟩ | ⟨-, hj⟩ := phase_setPhase_eq.mp hj
    · cases hj
    · exact hj
  apply hs.of_file_eq (file_setPhase s i _)
  · exact phase_setPhase_eq_done_iff (by simp [hphase]) (by simp)
  · intro j k tokens tokens' hj hk
    exact hs.unique j k _ _ (hread j _ hj) (hread k _ hk)
  · intro j tokens hj
    exact hs.current j tokens (hread j _ hj)

/-- A store that reads is the only one that holds tokens, and these are those of the file. -/
theorem Serial.of_read (hs : Serial json logins file₀ s) {i : ι} {tokens : StringMap}
    (hexclusive : Exclusive s (.read i)) (hphase : s.phase i = .ready)
    (hfile : s.file.tokens? json = some tokens) :
    Serial json logins file₀ (s.setPhase i (.read tokens)) := by
  -- no other store is between its steps
  have heq : ∀ j tokens', (s.setPhase i (.read tokens)).phase j = .read tokens' →
      j = i ∧ tokens = tokens' := by
    intro j tokens' hj
    obtain ⟨hji, htokens⟩ | ⟨-, hj'⟩ := phase_setPhase_eq.mp hj
    · exact ⟨hji, StorePhase.read.inj htokens⟩
    · exact absurd hj' (hexclusive j tokens')
  apply hs.of_file_eq (file_setPhase s i _)
  · exact phase_setPhase_eq_done_iff (by simp [hphase]) (by simp)
  · intro j k tokens' tokens'' hj hk
    rw [(heq j _ hj).1, (heq k _ hk).1]
  · intro j tokens' hj
    rw [hfile, (heq j _ hj).2]

/-- A store writes the tokens of the file and its own, and no other store holds any. -/
theorem Serial.of_write (hs : Serial json logins file₀ s) {i : ι} {tokens tokens' : StringMap}
    {file : TokenFile} (hphase : s.phase i = .read tokens) (hfile : file.tokens? json = some tokens')
    (hlookup : ∀ account, tokens'.lookup account =
      (tokens.insert (logins.account i) (logins.token i)).lookup account) :
    Serial json logins file₀ (setPhase { s with file := file } i (.done (.ok ()))) := by
  have hcurrent := hs.current i tokens hphase
  have hnone : ∀ j tokens'', (setPhase { s with file := file } i (.done (.ok ()))).phase j ≠
      .read tokens'' := by
    intro j tokens'' hj
    obtain ⟨-, hj⟩ | ⟨hne, hj⟩ := phase_setPhase_eq.mp hj
    · cases hj
    · exact hne (hs.unique j i _ _ hj hphase)
  refine ⟨?_, ?_, ?_, ?_, ?_, ?_⟩
  · intro j k _ _ hj
    exact absurd hj (hnone j _)
  · intro j _ hj
    exact absurd hj (hnone j _)
  · intro h
    exact absurd (phase_setPhase_eq.mpr (.inl ⟨rfl, rfl⟩)) (h i)
  · intro j _
    -- before the first write the file is as it was at the start
    by_cases hdone : ∃ k, s.phase k = .done (.ok ())
    · obtain ⟨k, hk⟩ := hdone
      obtain ⟨-, tokens₀, -, hfile₀⟩ := hs.parsed k hk
      exact ⟨tokens', tokens₀, hfile, hfile₀⟩
    · rw [not_exists] at hdone
      exact ⟨tokens', tokens, hfile, hs.untouched hdone ▸ hcurrent⟩
  · intro j hj tokens'' htokens
    obtain rfl := Option.some.inj (hfile.symm.trans htokens)
    rw [hlookup]
    -- the token of this store, and those of the stores before it
    obtain ⟨rfl, -⟩ | ⟨hne, hj⟩ := phase_setPhase_eq.mp hj
    · exact AList.lookup_insert tokens
    · rw [AList.lookup_insert_ne (logins.account_injective.ne hne)]
      exact hs.stored j hj tokens hcurrent
  · intro account haccount tokens'' tokens₀ htokens hfile₀
    obtain rfl := Option.some.inj (hfile.symm.trans htokens)
    have hi := haccount i (phase_setPhase_eq.mpr (.inl ⟨rfl, rfl⟩))
    rw [hlookup, AList.lookup_insert_ne hi.symm]
    refine hs.kept account (fun j hj => haccount j ?_) tokens tokens₀ hcurrent hfile₀
    refine phase_setPhase_eq.mpr (.inr ⟨?_, hj⟩)
    rintro rfl
    cases hphase.symm.trans hj

theorem Serial.step (hs : Serial json logins file₀ s) (hexclusive : Exclusive s a)
    (h : StepsTo json logins s a t) : Serial json logins file₀ t := by
  cases h with
  | refused hphase => exact hs.of_refused hphase
  | read hphase hfile => exact hs.of_read hexclusive hphase hfile
  | write hphase hfile hlookup => exact hs.of_write hphase hfile hlookup

omit [DecidableEq ι] in
/-- Stores that come one at a time keep all tokens. -/
theorem Serial.keepsTokens (hs : Serial json logins file₀ s) :
    KeepsTokens store json logins file₀ s := by
  intro hdone
  refine ⟨fun i => ?_, fun other hother => ?_⟩
  · obtain ⟨tokens, -, hfile, -⟩ := hs.parsed i (hdone i)
    rw [load_of_tokens? hfile, hs.stored i (hdone i) tokens hfile]
    simp [logins.token_ne_empty]
  · by_cases hnone : ∀ i, s.phase i ≠ .done (.ok ())
    · rw [hs.untouched hnone]
    · obtain ⟨i, -⟩ := not_forall.mp hnone
      obtain ⟨tokens, tokens₀, hfile, hfile₀⟩ := hs.parsed i (hdone i)
      rw [load_of_tokens? hfile, load_of_tokens? hfile₀,
        hs.kept other (fun j _ => hother j) tokens tokens₀ hfile hfile₀]

/-! ### Stores that overlap -/

/-- A store that has read the file, and may have written it. -/
def Started (s : SharedFile ι ε) (i : ι) : Prop :=
  (∃ tokens, s.phase i = .read tokens) ∨ s.phase i = .done (.ok ())

def Lacks (logins : Logins ι) (tokens : StringMap) (i : ι) : Prop :=
  tokens.lookup (logins.account i) ≠ some (logins.token i)

/-- Only a store puts its token into the file. -/
structure Fresh (json : TokenCodec ε) (logins : Logins ι) (s : SharedFile ι ε) : Prop where
  file : ∀ tokens, s.file.tokens? json = some tokens →
    ∀ k, s.phase k ≠ .done (.ok ()) → Lacks logins tokens k
  read : ∀ i tokens, s.phase i = .read tokens → (∃ tokens', s.file.tokens? json = some tokens') ∧
    ∀ k, s.phase k ≠ .done (.ok ()) → Lacks logins tokens k

/-- The token of a started store is missing from the file, and from what each store that is
between its steps is going to write. -/
structure Doomed (json : TokenCodec ε) (logins : Logins ι) (s : SharedFile ι ε) : Prop where
  file : ∃ tokens, s.file.tokens? json = some tokens ∧ ∃ k, s.Started k ∧ Lacks logins tokens k
  read : ∀ i tokens, s.phase i = .read tokens → ∃ k, k ≠ i ∧ s.Started k ∧ Lacks logins tokens k

/-- A store that is done stays so. -/
theorem phase_eq_done_of_stepsTo {k : ι} (hk : s.phase k = .done (.ok ()))
    (h : StepsTo json logins s a t) : t.phase k = .done (.ok ()) := by
  cases h with
  | refused hphase | read hphase | write hphase =>
    refine phase_setPhase_eq.mpr (.inr ⟨?_, hk⟩)
    rintro rfl
    cases hphase.symm.trans hk

theorem Started.step {k : ι} (hk : s.Started k) (h : StepsTo json logins s a t) : t.Started k := by
  obtain ⟨tokens, hread⟩ | hdone := hk
  · cases h with
    | refused hphase | read hphase =>
      refine .inl ⟨tokens, phase_setPhase_eq.mpr (.inr ⟨?_, hread⟩)⟩
      rintro rfl
      cases hphase.symm.trans hread
    | @write i =>
      by_cases hki : k = i
      · exact .inr (phase_setPhase_eq.mpr (.inl ⟨hki, rfl⟩))
      · exact .inl ⟨tokens, phase_setPhase_eq.mpr (.inr ⟨hki, hread⟩)⟩
  · exact .inr (phase_eq_done_of_stepsTo hdone h)

omit [DecidableEq ι] in
theorem Started.ne_of_ready {i k : ι} (hk : s.Started k) (hphase : s.phase i = .ready) :
    k ≠ i := by
  rintro rfl
  obtain ⟨_, hk⟩ | hk := hk <;> cases hphase.symm.trans hk

omit [DecidableEq ι] in
/-- A write adds nothing but the token of its own account. -/
theorem Lacks.insert {i k : ι} {tokens tokens' : StringMap} (h : Lacks logins tokens k)
    (hki : k ≠ i) (hlookup : ∀ account, tokens'.lookup account =
      (tokens.insert (logins.account i) (logins.token i)).lookup account) :
    Lacks logins tokens' k := by
  rw [Lacks, hlookup, AList.lookup_insert_ne (logins.account_injective.ne hki)]
  exact h

theorem Fresh.step (hs : Fresh json logins s) (h : StepsTo json logins s a t) :
    Fresh json logins t := by
  have hdone : ∀ k, t.phase k ≠ .done (.ok ()) → s.phase k ≠ .done (.ok ()) :=
    fun k hk hdone => hk (phase_eq_done_of_stepsTo hdone h)
  cases h with
  | @refused i err hphase hfile =>
    refine ⟨fun tokens htokens => ?_, fun j tokens hj => ?_⟩
    · cases hfile.symm.trans htokens
    · obtain ⟨-, hj⟩ | ⟨-, hj⟩ := phase_setPhase_eq.mp hj
      · cases hj
      · exact ⟨(hs.read j tokens hj).1, fun k hk => (hs.read j tokens hj).2 k (hdone k hk)⟩
  | @read i tokens hphase hfile =>
    refine ⟨fun tokens htokens k hk => hs.file tokens htokens k (hdone k hk),
      fun j tokens' hj => ?_⟩
    obtain ⟨-, hj⟩ | ⟨-, hj⟩ := phase_setPhase_eq.mp hj
    · obtain rfl := StorePhase.read.inj hj
      exact ⟨⟨tokens, hfile⟩, fun k hk => hs.file tokens hfile k (hdone k hk)⟩
    · exact ⟨⟨tokens, hfile⟩, fun k hk => (hs.read j tokens' hj).2 k (hdone k hk)⟩
  | @write i tokens tokens' file hphase hfile hlookup =>
    have hne : ∀ k, (setPhase { s with file := file } i (.done (.ok ()))).phase k ≠
        .done (.ok ()) → k ≠ i := by
      rintro k hk rfl
      exact hk (phase_setPhase_eq.mpr (.inl ⟨rfl, rfl⟩))
    refine ⟨fun tokens'' htokens k hk => ?_, fun j tokens'' hj => ?_⟩
    · obtain rfl := Option.some.inj (hfile.symm.trans htokens)
      exact ((hs.read i tokens hphase).2 k (hdone k hk)).insert (hne k hk) hlookup
    · obtain ⟨-, hj⟩ | ⟨-, hj⟩ := phase_setPhase_eq.mp hj
      · cases hj
      · exact ⟨⟨tokens', hfile⟩, fun k hk => (hs.read j tokens'' hj).2 k (hdone k hk)⟩

theorem Doomed.step (hs : Doomed json logins s) (h : StepsTo json logins s a t) :
    Doomed json logins t := by
  have hstarted : ∀ k, s.Started k → t.Started k := fun k hk => hk.step h
  obtain ⟨tokens₁, hfile₁, k₁, hk₁, hlacks₁⟩ := hs.file
  cases h with
  | refused hphase hfile => cases hfile.symm.trans hfile₁
  | @read i tokens hphase hfile =>
    obtain rfl := Option.some.inj (hfile.symm.trans hfile₁)
    refine ⟨⟨tokens, hfile, k₁, hstarted k₁ hk₁, hlacks₁⟩, fun j tokens' hj => ?_⟩
    obtain ⟨rfl, htokens⟩ | ⟨-, hj⟩ := phase_setPhase_eq.mp hj
    · obtain rfl := StorePhase.read.inj htokens
      exact ⟨k₁, hk₁.ne_of_ready hphase, hstarted k₁ hk₁, hlacks₁⟩
    · obtain ⟨k, hne, hk, hlacks⟩ := hs.read j tokens' hj
      exact ⟨k, hne, hstarted k hk, hlacks⟩
  | @write i tokens tokens' file hphase hfile hlookup =>
    obtain ⟨k, hne, hk, hlacks⟩ := hs.read i tokens hphase
    refine ⟨⟨tokens', hfile, k, hstarted k hk, hlacks.insert hne hlookup⟩, fun j tokens'' hj => ?_⟩
    obtain ⟨-, hj⟩ | ⟨-, hj⟩ := phase_setPhase_eq.mp hj
    · cases hj
    · obtain ⟨k, hne, hk, hlacks⟩ := hs.read j tokens'' hj
      exact ⟨k, hne, hstarted k hk, hlacks⟩

/-- A store that reads the file between the steps of another dooms one of the two. -/
theorem Fresh.doomed {i : ι} (hs : Fresh json logins s) (hoverlap : ¬ Exclusive s (.read i))
    (h : StepsTo json logins s (.read i) t) : Doomed json logins t := by
  simp only [Exclusive, not_forall, not_not] at hoverlap
  obtain ⟨j, tokens, hj⟩ := hoverlap
  obtain ⟨⟨tokens', hfile'⟩, hlacks⟩ := hs.read j tokens hj
  have hnotDone : s.phase j ≠ .done (.ok ()) := by simp [hj]
  have hstarted : t.Started j := Started.step (.inl ⟨tokens, hj⟩) h
  cases h with
  | refused hphase hfile => cases hfile.symm.trans hfile'
  | @read i tokens₁ hphase hfile =>
    have hij : i ≠ j := by
      rintro rfl
      cases hphase.symm.trans hj
    have hlacks₁ := hs.file tokens₁ hfile j hnotDone
    refine ⟨⟨tokens₁, hfile, j, hstarted, hlacks₁⟩, fun k tokens₂ hk => ?_⟩
    by_cases hkj : k = j
    · -- the other store lacks the token of this one
      subst hkj
      obtain ⟨hki, -⟩ | ⟨-, hk⟩ := phase_setPhase_eq.mp hk
      · exact absurd hki.symm hij
      · exact ⟨i, hij, .inl ⟨tokens₁, phase_setPhase_eq.mpr (.inl ⟨rfl, rfl⟩)⟩,
          (hs.read k tokens₂ hk).2 i (by simp [hphase])⟩
    · refine ⟨j, Ne.symm hkj, hstarted, ?_⟩
      obtain ⟨-, htokens⟩ | ⟨-, hk⟩ := phase_setPhase_eq.mp hk
      · exact StorePhase.read.inj htokens ▸ hlacks₁
      · exact (hs.read k tokens₂ hk).2 j hnotDone

omit [DecidableEq ι] in
theorem Doomed.not_keepsTokens (hs : Doomed json logins s) (hdone : s.AllDone) :
    ¬ KeepsTokens store json logins file₀ s := by
  intro hkeeps
  obtain ⟨tokens, hfile, k, -, hlacks⟩ := hs.file
  have hload := (hkeeps hdone).1 k
  rw [load_of_tokens? hfile, Except.ok.injEq, Option.filter_eq_some_iff] at hload
  exact hlacks hload.1

end SharedFile

/-- In a run in which no store reads the file between the two steps of another, no update is
lost. -/
theorem keepsTokens_of_exclusive {ι ε : Type*} [DecidableEq ι] {store : FileGuardDataStore}
    {json : TokenCodec ε} {logins : Logins ι} {file₀ : TokenFile} {w : List (StoreStep ι)}
    (hjson : json.Lawful)
    (h : AllSteps (SharedFile.step store json logins) SharedFile.Exclusive (.start file₀) w) :
    AllStates (SharedFile.step store json logins)
      (SharedFile.KeepsTokens store json logins file₀) (.start file₀) w :=
  h.allStates (fun _ hs => hs.keepsTokens)
    (fun _ _ _ hs hexclusive hstep => hs.step hexclusive (SharedFile.stepsTo_of_step hjson hstep))
    SharedFile.serial_start

/-- When no token was in the file before, the condition is exact: the stores of a run that are
all done have lost no update only if no store read the file between the two steps of
another. -/
theorem exclusive_of_keepsTokens {ι ε : Type*} [DecidableEq ι] {store : FileGuardDataStore}
    {json : TokenCodec ε} {logins : Logins ι} {file₀ : TokenFile} {w : List (StoreStep ι)}
    {s : SharedFile ι ε} (hjson : json.Lawful)
    (hnew : ∀ tokens, file₀.tokens? json = some tokens → ∀ i, SharedFile.Lacks logins tokens i)
    (hrun : run (SharedFile.step store json logins) (.start file₀) w = some s)
    (hdone : s.AllDone) (hkeeps : SharedFile.KeepsTokens store json logins file₀ s) :
    AllSteps (SharedFile.step store json logins) SharedFile.Exclusive (.start file₀) w := by
  rw [AllSteps.iff_takes]
  rintro s₁ a s₂ ⟨u, v, rfl, hu, hstep⟩
  -- the first overlap dooms a token, and the rest of the run does not bring it back
  by_contra hoverlap
  rw [run_append, hu] at hrun
  obtain ⟨_, hs₂, hv⟩ := run_cons_eq_some.mp hrun
  obtain rfl := Option.some.inj (hstep.symm.trans hs₂)
  have hstart : SharedFile.Fresh json logins (.start file₀ : SharedFile ι ε) :=
    ⟨fun tokens h k _ => hnew tokens h k, fun _ _ h => by cases h⟩
  have hfresh := run_invariant
    (fun _ _ _ hs h => SharedFile.Fresh.step hs (SharedFile.stepsTo_of_step hjson h)) hstart hu
  cases a with
  | write => exact hoverlap trivial
  | read i =>
    have hdoomed := hfresh.doomed hoverlap (SharedFile.stepsTo_of_step hjson hstep)
    have hend := run_invariant
      (fun _ _ _ hs h => SharedFile.Doomed.step hs (SharedFile.stepsTo_of_step hjson h)) hdoomed hv
    exact hend.not_keepsTokens hdone hkeeps

section Examples

/-- The logins of two accounts. -/
def twoLogins : Logins Bool where
  account i := if i then "bob" else "alice"
  token i := if i then "9XHQT" else "2B4K7"
  account_injective := by
    intro i j h
    cases i <;> cases j <;> simp at h ⊢
  token_ne_empty := by decide

/-- One login after the other. -/
theorem keepsTokens_twoLogins : AllStates (SharedFile.step tokenStore jsonTokens twoLogins)
    (SharedFile.KeepsTokens tokenStore jsonTokens twoLogins .absent) (.start .absent)
      [.read false, .write false, .read true, .write true] := by
  refine keepsTokens_of_exclusive jsonTokens_lawful ?_
  intro s₁ h₁
  refine ⟨nofun, fun s₂ h₂ => ⟨trivial, fun s₃ _ => ⟨?_, fun s₄ _ => ⟨trivial, trivial⟩⟩⟩⟩
  -- the first login is done
  intro j tokens hj
  cases SharedFile.stepsTo_of_step jsonTokens_lawful h₂
  obtain ⟨-, hj⟩ | ⟨hne, hj⟩ := SharedFile.phase_setPhase_eq.mp hj
  · cases hj
  cases SharedFile.stepsTo_of_step jsonTokens_lawful h₁ with
  | refused | read =>
    obtain ⟨hj', -⟩ | ⟨-, hj⟩ := SharedFile.phase_setPhase_eq.mp hj
    · exact hne hj'
    · cases hj

/-- Both logins read the file, and then both write it. -/
theorem not_keepsTokens_twoLogins :
    ∃ s, run (SharedFile.step tokenStore jsonTokens twoLogins) (.start .absent)
      [.read false, .read true, .write false, .write true] = some s ∧
        ¬ SharedFile.KeepsTokens tokenStore jsonTokens twoLogins .absent s := by
  refine ⟨_, rfl, fun h => ?_⟩
  have hload := (h fun i => by cases i <;> rfl).1 false
  obtain ⟨tokens, hfile, hlookup⟩ := tokens?_of_toString jsonTokens_lawful
    (show jsonTokens.toString (AList.insert "bob" "9XHQT" ∅) = .ok _ from rfl)
  rw [show twoLogins.account false = "alice" from rfl] at hload
  -- the last write comes from a map without the other token
  have hnone : tokens.lookup "alice" = none := by
    rw [hlookup, AList.lookup_insert_ne (by decide), AList.lookup_empty]
  have hload' := @load_of_tokens? _ tokenStore _ _ "alice" _ hfile
  rw [hnone] at hload'
  cases hload.symm.trans hload'

end Examples

end SteamWire
