import SteamWire.Connection.Correlation

/-!
# Job ids over the lifetime of a connection

A connection starts with a session of its own, for the service methods that are called
before the logon. The logon replaces the session, and with it the counter of job ids, while
the filter stays: ids are unique in each of the two sessions (`separate_of_session_eq`), and
the second hands out the ids of the first again (`not_separate_after_logon`).
-/

namespace SteamWire

open Semantics

/-- The calls that are made before the logon. -/
def CallKind.isUnAuthenticated : CallKind → Bool
  | .serviceMethodUnAuthenticated _ => true
  | _ => false

/-- A connection, and how many calls were made on it before the logon. -/
structure Lifetime (SteamID : Type) where
  client : Client SteamID := {}
  logonAt : Option Nat := none

namespace Lifetime

variable {SteamID : Type}

/-- What can happen in the lifetime of a connection. -/
inductive Action (SteamID : Type) where
  | client (a : Client.Action SteamID)
  | logon

/-- The unauthenticated connection has calls of its own, and is used up by the logon. -/
def Permits (s : Lifetime SteamID) : Client.Action SteamID → Prop
  | .draw kind _ _ => kind.isUnAuthenticated = s.logonAt.isNone
  | _ => True

instance (s : Lifetime SteamID) (a : Client.Action SteamID) : Decidable (s.Permits a) :=
  match a with
  | .draw kind _ _ => inferInstanceAs (Decidable (kind.isUnAuthenticated = s.logonAt.isNone))
  | .register _ | .transmit _ | .sendOk _ | .sendFailed _ _ | .receive _ | .timeout _ | .closed _
  | .cancel _ | .resume _ | .complete _ | .finish _ | .source _ | .filter _ =>
    inferInstanceAs (Decidable True)

def IsOver (call : Call) : Prop :=
  match call.phase with
  | .finished _ => True
  | _ => False

instance : DecidablePred IsOver := fun call => by
  unfold IsOver
  split <;> infer_instance

/-- One step in the lifetime of a connection. -/
def step (shard : JobId → Nat) (s : Lifetime SteamID) : Action SteamID → Option (Lifetime SteamID)
  | .client a =>
    if s.Permits a then (s.client.step shard a).map fun client => { s with client } else none
  | .logon =>
    -- `send_logon` makes the new session; the calls of the old one borrow the connection
    if s.logonAt = none ∧ ∀ call ∈ s.client.calls, IsOver call then
      some { client := { s.client with jobId := 1 }, logonAt := some s.client.calls.length }
    else none

/-- The call with this index was made after the logon. -/
def session (s : Lifetime SteamID) (i : Nat) : Bool :=
  match s.logonAt with
  | none => false
  | some n => n ≤ i

/-- Two calls, once they have registered, did not register the same id, and the second
received no message that is addressed to the first. -/
def Separate (s : Lifetime SteamID) (i j : Nat) : Prop :=
  ∀ first second, s.client.calls[i]? = some first → s.client.calls[j]? = some second →
    first.phase ≠ .drawn → second.phase ≠ .drawn →
      first.id ≠ second.id ∧
        ∀ item ∈ (s.client.filter.channels second.chan).inbox, item.target ≠ first.id

variable {shard : JobId → Nat} {s t : Lifetime SteamID} {a : Action SteamID}

/-! ### What a step can do -/

/-- The steps in the lifetime of a connection. -/
inductive StepsTo (s : Lifetime SteamID) : Action SteamID → Lifetime SteamID → Prop
  | client {a : Client.Action SteamID} {client : Client SteamID} (h : s.client.StepsTo a client) :
      StepsTo s (.client a) { s with client }
  | logon (h : s.logonAt = none) :
      StepsTo s .logon
        { client := { s.client with jobId := 1 }, logonAt := some s.client.calls.length }

theorem stepsTo_of_step (h : s.step shard a = some t) : StepsTo s a t := by
  cases a with
  | client a =>
    obtain ⟨-, hmap⟩ := Option.ite_none_right_eq_some.mp h
    obtain ⟨client, hclient, rfl⟩ := Option.map_eq_some_iff.mp hmap
    exact .client (Client.stepsTo_of_step hclient)
  | logon =>
    obtain ⟨hlogon, heq⟩ := Option.ite_none_right_eq_some.mp h
    cases heq
    exact .logon hlogon.1

theorem StepsTo.length_le (h : StepsTo s a t) : s.client.calls.length ≤ t.client.calls.length := by
  cases h with
  | client h =>
    rw [h.length_eq]
    omega
  | logon => exact le_rfl

/-! ### The receivers of the calls -/

section Receives

variable {f g : MessageFilter SteamID} {b : Client.Action SteamID} {call call' : Call}

/-- The receiver of a call stays its own when the call goes on. -/
theorem receives_of_callSteps (hf : Client.Receives f call) (hown : f.Owned)
    (h : Client.CallSteps f call b call' g) : Client.Receives g call' := by
  cases h with
  | register hphase hreg => exact fun _ => ⟨hreg.origins_new, by simp [hreg.channels_new]⟩
  | transmit hphase | sendOk hphase | resume hphase => exact fun _ => hf (by simp [hphase])
  | close _ hphase =>
    have hne := Phase.IsOpen.ne_drawn (Phase.IsSuspended.isOpen hphase)
    exact fun _ => hf hne
  | receive hphase hitem htaken =>
    have hsteps := MessageFilter.StepsTo.recv (List.ne_nil_of_mem hitem) htaken
    exact fun _ => hf.of_steps hown hsteps (by simp [hphase])
  | complete hphase => exact fun _ => hf.of_steps hown .complete (by simp [hphase])
  | finish hphase => exact fun _ => hf.of_steps hown .drop (by simp [hphase])

end Receives

/-! ### The ids of the two sessions -/

/-- The filter is in order, the receivers are those of their calls, and each session has
numbered its calls from one on. -/
structure Inv (s : Lifetime SteamID) : Prop where
  owned : s.client.filter.Owned
  receives : ∀ call ∈ s.client.calls, Client.Receives s.client.filter call
  le : ∀ n ∈ s.logonAt, n ≤ s.client.calls.length
  numbered : s.client.NumberedFrom (s.logonAt.getD 0)
  before : ∀ n ∈ s.logonAt, ∀ {i call}, i < n → s.client.calls[i]? = some call →
    call.id.raw.toNat = i + 1

theorem inv_init : ({} : Lifetime SteamID).Inv where
  owned := MessageFilter.owned_init
  receives call hcall := by cases hcall
  le n hn := by cases hn
  numbered := ⟨rfl, fun _ h => by cases h⟩
  before n hn := by cases hn

/-- The steps of the calls and of others keep the receivers those of their calls. -/
theorem receives_of_steps {s t : Client SteamID} {a : Client.Action SteamID}
    (hown : s.filter.Owned) (hs : ∀ call ∈ s.calls, Client.Receives s.filter call)
    (h : s.StepsTo a t) :
    t.filter.Owned ∧ ∀ call ∈ t.calls, Client.Receives t.filter call := by
  cases h with
  | draw =>
    refine ⟨hown, fun call hcall => ?_⟩
    rcases List.mem_append.mp hcall with hcall | hnew
    · exact hs call hcall
    · -- a new call has no receiver yet
      rw [List.mem_singleton.mp hnew]
      exact fun hne => absurd rfl hne
  | source hsteps | filter _ hsteps =>
    exact ⟨hown.of_steps hsteps, fun call hcall => (hs call hcall).of_steps hown hsteps⟩
  | @call _ i before after g ha hcall hsteps =>
    refine ⟨hsteps.owned_of hown, fun call hmem => ?_⟩
    rcases List.mem_or_eq_of_mem_set hmem with hold | rfl
    · rcases hsteps.filter_cases with hsame | ⟨b, hb, -⟩
      · exact hsame ▸ hs call hold
      · exact (hs call hold).of_steps hown hb
    · exact receives_of_callSteps (hs before (List.mem_of_getElem? hcall)) hown hsteps

theorem Inv.of_steps (hs : s.Inv) (h : StepsTo s a t)
    (hdraws : t.client.calls.length < 2 ^ 64 - 1) : t.Inv := by
  cases h with
  | @client a client hclient =>
    obtain ⟨howned, hreceives⟩ := receives_of_steps hs.owned hs.receives hclient
    have hlength := hclient.length_eq
    refine ⟨howned, hreceives, fun n hn => ?_, hs.numbered.of_steps hclient hdraws,
      fun n hn i call hi hcall => ?_⟩
    · have hle := hs.le n hn
      dsimp only
      omega
    · rcases hclient.id_eq hcall with ⟨earlier, hearlier, hid⟩ | ⟨rfl, -⟩
      · rw [hid]
        exact hs.before n hn hi hearlier
      · -- calls that are made now come after the logon
        exact absurd hi (not_lt.mpr (hs.le n hn))
  | logon hlogon =>
    refine ⟨hs.owned, hs.receives, fun n hn => ?_, ⟨?_, fun {i call} hi hcall => ?_⟩,
      fun n hn i call hi hcall => ?_⟩
    · rw [Option.mem_some] at hn
      exact hn ▸ le_rfl
    · simp only [Option.getD_some, UInt64.toNat_one]
      omega
    · have hlt := (List.getElem?_eq_some_iff.mp hcall).1
      exact absurd hi (not_le.mpr hlt)
    · have hid := hs.numbered.ids (Nat.zero_le i |>.trans_eq' (by rw [hlogon]; rfl)) hcall
      rw [hlogon] at hid
      exact hid

/-- The calls of a session have ids of their own. -/
theorem Inv.eq_of_id_eq (hs : s.Inv) {i j : Nat} {first second : Call}
    (hi : s.client.calls[i]? = some first) (hj : s.client.calls[j]? = some second)
    (hsession : s.session i = s.session j) (hid : first.id = second.id) : i = j := by
  have hraw : first.id.raw.toNat = second.id.raw.toNat := by rw [hid]
  cases hlogon : s.logonAt with
  | none =>
    have hnext := hs.numbered
    rw [hlogon] at hnext
    have hfirst := hnext.ids (Nat.zero_le i) hi
    have hsecond := hnext.ids (Nat.zero_le j) hj
    omega
  | some n =>
    have hnext := hs.numbered
    rw [hlogon] at hnext
    simp only [session, hlogon, decide_eq_decide] at hsession
    by_cases hle : n ≤ i
    · have hfirst := hnext.ids hle hi
      have hsecond := hnext.ids (hsession.mp hle) hj
      omega
    · have hfirst := hs.before n hlogon (not_le.mp hle) hi
      have hsecond := hs.before n hlogon (not_le.mp fun hlt => hle (hsession.mpr hlt)) hj
      omega

/-- In every state a connection can come to with fewer than `2 ^ 64 - 1` calls made on it, two
calls of the same session have registered for jobs of their own. -/
theorem separate_of_session_eq (hs : Reachable (step shard) (fun s => s = {}) s)
    (hcalls : s.client.calls.length < 2 ^ 64 - 1) {i j : Nat} (hij : i ≠ j)
    (hsession : s.session i = s.session j) : s.Separate i j := by
  have hinv : s.client.calls.length < 2 ^ 64 - 1 → s.Inv := by
    apply hs.invariant
    · rintro s rfl -
      exact inv_init
    · intro s a t ih hstep hlt
      have hsteps := stepsTo_of_step hstep
      exact (ih (hsteps.length_le.trans_lt hlt)).of_steps hsteps hlt
  intro first second hi hj _ hregistered
  have hid : first.id ≠ second.id := fun hsame =>
    hij ((hinv hcalls).eq_of_id_eq hi hj hsession hsame)
  have hreceives := (hinv hcalls).receives second (List.mem_of_getElem? hj) hregistered
  refine ⟨hid, fun item hitem htarget => hid ?_⟩
  rw [← htarget, hreceives.2 item hitem]

/-- The response to the first call before the logon. -/
def authResponse : RawNetMessage UInt64 where
  kind := EMsg.kEMsgServiceMethodResponse.kind
  isProtobuf := true
  header := { (default : NetMessageHeader UInt64) with
    targetJobId := ⟨1⟩
    targetJobName := some "Authentication.BeginAuthSessionViaCredentials#1" }
  data := []
  frameHeaderBuffer := none
  ivBuffer := none
  headerBuffer := []

/-- The first call before the logon, up to its end. -/
def authCall : List (Action UInt64) :=
  [.client (.draw (.serviceMethodUnAuthenticated "Authentication.BeginAuthSessionViaCredentials#1")
      (fun _ => .ok true) 0),
    .client (.register 0), .client (.transmit 0), .client (.sendOk 0),
    .client (.source (some (.ok authResponse))), .client (.filter .dispatch),
    .client (.filter .dispatch), .client (.receive 0), .client (.finish 0)]

/-- The logon, the first call after it, and the response to the other call once more. -/
def repeatedResponse : List (Action UInt64) :=
  [.logon,
    .client (.draw (.job EMsg.kEMsgClientLogOnResponse.kind) (fun _ => .ok true) 0),
    .client (.register 1), .client (.source (some (.ok authResponse))),
    .client (.filter .dispatch), .client (.filter .dispatch)]

/-- A repeated response reaches a call of the other session, which has the same id. -/
theorem not_separate_after_logon :
    ∃ s : Lifetime UInt64,
      run (step fun _ => 0) {} (authCall ++ repeatedResponse) = some s ∧
        (s.client.filter.channels 1).inbox.map Item.message = [authResponse] ∧
          ¬ s.Separate 0 1 := by
  refine ⟨_, rfl, rfl, fun h => ?_⟩
  obtain ⟨hid, -⟩ := h _ _ rfl rfl (by simp) (by simp)
  exact hid rfl

/-- A second call before the logon. -/
def pollCall : List (Action UInt64) :=
  [.client (.draw (.serviceMethodUnAuthenticated "Authentication.PollAuthSessionStatus#1")
      (fun _ => .ok true) 0),
    .client (.register 1)]

/-- Two calls before the logon. -/
theorem separate_of_session_eq_authCall :
    ∃ s : Lifetime UInt64,
      run (step fun _ => 0) {} (authCall ++ pollCall) = some s ∧ s.Separate 0 1 := by
  refine ⟨_, rfl, ?_⟩
  exact @separate_of_session_eq UInt64 (fun _ => 0) _ ⟨{}, authCall ++ pollCall, rfl, rfl⟩
    (by decide) 0 1 (by decide) rfl

end Lifetime

end SteamWire
