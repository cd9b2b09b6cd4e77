import SteamWire.Auth.Confirmation
import SteamWire.Data.Cursor
import SteamWire.Data.Duration
import SteamWire.Semantics.Separation
import Mathlib.Data.List.Induction

/-!
# Waiting for the tokens of a login

A login that is started is polled until the service gives an access token: an inner loop
polls until a response has any data, an outer one until the data has the token. Only the
inner loop sleeps (`paced_iff`), and what a response without the token says is dropped
(`keepsPolled_iff`).
-/

namespace SteamWire

open Semantics

structure PollAuthSessionStatusRequest where
  clientId : Option UInt64
  requestId : Option Bytes
  tokenToRevoke : Option UInt64 := none
  deriving DecidableEq, Repr

structure PollAuthSessionStatusResponse where
  newClientId : Option UInt64 := none
  newChallengeUrl : Option String := none
  refreshToken : Option String := none
  accessToken : Option String := none
  hadRemoteInteraction : Option Bool := none
  accountName : Option String := none
  newGuardData : Option String := none
  agreementSessionUrl : Option String := none
  deriving DecidableEq, Repr

structure Token where
  value : String
  deriving DecidableEq, Repr

structure Tokens where
  accessToken : Token
  refreshToken : Token
  newGuardData : Option String
  deriving DecidableEq, Repr

namespace PollAuthSessionStatusResponse

/-- What ends the inner loop. -/
def hasData (resp : PollAuthSessionStatusResponse) : Bool :=
  resp.accessToken.isSome || resp.accountName.isSome || resp.agreementSessionUrl.isSome ||
    resp.hadRemoteInteraction.isSome || resp.newChallengeUrl.isSome || resp.newClientId.isSome ||
    resp.newGuardData.isSome || resp.refreshToken.isSome

/-- The tokens of a response that ends the outer loop. -/
def tokens (response : PollAuthSessionStatusResponse) : Tokens where
  accessToken := ⟨response.accessToken.getD ""⟩
  refreshToken := ⟨response.refreshToken.getD ""⟩
  newGuardData := response.newGuardData

theorem hasData_of_accessToken {resp : PollAuthSessionStatusResponse}
    (h : resp.accessToken.isSome) : resp.hasData := by
  simp [hasData, h]

end PollAuthSessionStatusResponse

/-- The response to the start of a session, as far as polling uses it. -/
structure BeginAuthSessionResponse where
  clientId : Option UInt64 := none
  requestId : Option Bytes := none
  interval : Option F32 := none
  deriving DecidableEq, Repr

structure PendingAuth where
  clientId : UInt64
  requestId : Bytes
  interval : F32
  deriving DecidableEq, Repr

/-- `StartedAuth::poll`. -/
def BeginAuthSessionResponse.poll (res : BeginAuthSessionResponse) : PendingAuth where
  interval := res.interval.getD ⟨0⟩
  clientId := res.clientId.getD 0
  requestId := res.requestId.getD []

/-- Where `wait_for_tokens` is: at the top of its loop, at the top of the loop of
`poll_until_info`, behind a request, before the sleep, back from `poll_until_info`, or at
its end. -/
inductive WaitForTokens where
  | start
  | polling (interval : Duration)
  | awaiting (interval : Duration)
  | sleeping (interval : Duration)
  | info (response : PollAuthSessionStatusResponse)
  | done (res : Except NetworkError Tokens)
  | panicked
  deriving DecidableEq

/-- What it does. A request that cannot be sent, or is not answered in time, has an error for
its response. -/
inductive PollEvent where
  | call
  | request (req : PollAuthSessionStatusRequest)
  | response (res : Except NetworkError PollAuthSessionStatusResponse)
  | sleep (interval : Duration)
  | inspect
  deriving DecidableEq

namespace PendingAuth

/-- The request of every poll. -/
def request (pending : PendingAuth) : PollAuthSessionStatusRequest where
  clientId := some pending.clientId
  requestId := some pending.requestId

/-- One step of `wait_for_tokens` and `poll_until_info`. -/
def step (pending : PendingAuth) : WaitForTokens → PollEvent → Option WaitForTokens
  | .start, .call =>
    -- the interval is converted before every call
    match Duration.fromSecsF32 pending.interval with
    | some interval => some (.polling interval)
    | none => some .panicked
  | .polling interval, .request req =>
    if req = pending.request then some (.awaiting interval) else none
  -- an error ends both loops
  | .awaiting _, .response (.error e) => some (.done (.error e))
  | .awaiting interval, .response (.ok resp) =>
    -- any data at all ends the inner loop
    if resp.hasData then some (.info resp) else some (.sleeping interval)
  | .sleeping interval, .sleep d => if d = interval then some (.polling interval) else none
  | .info response, .inspect =>
    -- only the token ends the outer one
    if response.accessToken.isSome then some (.done (.ok response.tokens)) else some .start
  | _, _ => none

end PendingAuth

/-- The successful responses, in their order. -/
def responses (w : List PollEvent) : List PollAuthSessionStatusResponse :=
  w.filterMap fun
    | .response (.ok resp) => some resp
    | _ => none

@[simp] theorem responses_append (u v : List PollEvent) :
    responses (u ++ v) = responses u ++ responses v := List.filterMap_append

@[simp] theorem responses_cons_response (resp : PollAuthSessionStatusResponse)
    (w : List PollEvent) : responses (.response (.ok resp) :: w) = resp :: responses w := rfl

theorem mem_responses {resp : PollAuthSessionStatusResponse} {w : List PollEvent} :
    resp ∈ responses w ↔ .response (.ok resp) ∈ w := by
  rw [responses, List.mem_filterMap]
  constructor
  · rintro ⟨e, he, hresp⟩
    split at hresp
    case h_1 => exact Option.some.inj hresp ▸ he
    case h_2 => cases hresp
  · exact fun h => ⟨_, h, rfl⟩

namespace WaitForTokens

/-- The interval that a state waits by. -/
def interval? : WaitForTokens → Option Duration
  | .polling interval | .awaiting interval | .sleeping interval => some interval
  | _ => none

/-- No response so far has had the token. -/
def IsLive : WaitForTokens → Prop
  | .info response => response.accessToken = none
  | .done _ | .panicked => False
  | _ => True

/-- The next request comes without a sleep. -/
def IsDue : WaitForTokens → Prop
  | .start | .polling _ => True
  | .info response => response.accessToken = none
  | _ => False

end WaitForTokens

namespace PendingAuth

variable {pending : PendingAuth} {s t : WaitForTokens} {e : PollEvent} {w : List PollEvent}
  {interval : Duration} {resp : PollAuthSessionStatusResponse}

/-- What a step can do. -/
inductive StepsTo (pending : PendingAuth) : WaitForTokens → PollEvent → WaitForTokens → Prop
  | call {interval : Duration} (h : Duration.fromSecsF32 pending.interval = some interval) :
    pending.StepsTo .start .call (.polling interval)
  | panic (h : Duration.fromSecsF32 pending.interval = none) :
    pending.StepsTo .start .call .panicked
  | request {interval : Duration} :
    pending.StepsTo (.polling interval) (.request pending.request) (.awaiting interval)
  | fail {interval : Duration} {e : NetworkError} :
    pending.StepsTo (.awaiting interval) (.response (.error e)) (.done (.error e))
  | info {interval : Duration} {resp : PollAuthSessionStatusResponse} (h : resp.hasData) :
    pending.StepsTo (.awaiting interval) (.response (.ok resp)) (.info resp)
  | noData {interval : Duration} {resp : PollAuthSessionStatusResponse}
      (h : resp.hasData = false) :
    pending.StepsTo (.awaiting interval) (.response (.ok resp)) (.sleeping interval)
  | sleep {interval : Duration} :
    pending.StepsTo (.sleeping interval) (.sleep interval) (.polling interval)
  | tokens {resp : PollAuthSessionStatusResponse} (h : resp.accessToken.isSome) :
    pending.StepsTo (.info resp) .inspect (.done (.ok resp.tokens))
  | again {resp : PollAuthSessionStatusResponse} (h : resp.accessToken = none) :
    pending.StepsTo (.info resp) .inspect .start

theorem stepsTo_of_step (h : pending.step s e = some t) : pending.StepsTo s e t := by
  unfold step at h
  split at h
  case h_1 =>
    split at h
    case h_1 hinterval => exact Option.some.inj h ▸ .call hinterval
    case h_2 hinterval => exact Option.some.inj h ▸ .panic hinterval
  case h_2 =>
    obtain ⟨rfl, ht⟩ := Option.ite_none_right_eq_some.mp h
    exact Option.some.inj ht ▸ .request
  case h_3 => exact Option.some.inj h ▸ .fail
  case h_4 =>
    split at h
    case isTrue hdata => exact Option.some.inj h ▸ .info hdata
    case isFalse hdata => exact Option.some.inj h ▸ .noData (Bool.not_eq_true _ ▸ hdata)
  case h_5 =>
    obtain ⟨rfl, ht⟩ := Option.ite_none_right_eq_some.mp h
    exact Option.some.inj ht ▸ .sleep
  case h_6 =>
    split at h
    case isTrue htoken => exact Option.some.inj h ▸ .tokens htoken
    case isFalse htoken =>
      exact Option.some.inj h ▸ .again (Option.not_isSome_iff_eq_none.mp htoken)
  case h_7 => cases h

/-! ### What a run keeps -/

/-- A state waits by the announced interval. -/
theorem StepsTo.interval? (h : pending.StepsTo s e t)
    (hs : ∀ d ∈ s.interval?, Duration.fromSecsF32 pending.interval = some d) :
    ∀ d ∈ t.interval?, Duration.fromSecsF32 pending.interval = some d := by
  cases h with
  | call h =>
    intro d hd
    obtain rfl := Option.some.inj hd
    exact h
  | request | noData | sleep => exact hs
  | _ => nofun

/-- Once there is a token, polling is over. -/
theorem StepsTo.isLive (h : pending.StepsTo s e t) (ht : t.IsLive) : s.IsLive := by
  cases h with
  | again h => exact h
  | fail | tokens | panic => exact ht.elim
  | _ => trivial

/-- As long as there is no token, no response has had one. -/
theorem accessToken_eq_none_of_isLive (hrun : run pending.step s w = some t) (ht : t.IsLive) :
    ∀ resp ∈ responses w, resp.accessToken = none := by
  induction w generalizing s with
  | nil =>
    intro resp hresp
    cases mem_responses.mp hresp
  | cons e w ih =>
    obtain ⟨u, hu, hrest⟩ := run_cons_eq_some.mp hrun
    have hlive : u.IsLive := by
      by_contra hdead
      have hover := @run_invariant _ _ pending.step (fun s => ¬ s.IsLive)
        (fun _ _ _ hs h ht => hs ((stepsTo_of_step h).isLive ht)) _ _ _ hdead hrest
      exact hover ht
    intro resp hresp
    rw [mem_responses, List.mem_cons] at hresp
    obtain rfl | hmem := hresp
    · cases stepsTo_of_step hu with
      | info => exact hlive
      | noData h =>
        rw [← Option.not_isSome_iff_eq_none]
        intro htoken
        rw [PollAuthSessionStatusResponse.hasData_of_accessToken htoken] at h
        cases h
    · exact ih hrest resp (mem_responses.mpr hmem)

/-- A response is only awaited as long as there is no token. -/
theorem accessToken_eq_none_of_run {u v : List PollEvent}
    (hrun : run pending.step s (u ++ .response (.ok resp) :: v) = some t) :
    ∀ r ∈ responses u, r.accessToken = none := by
  rw [run_append, Option.bind_eq_some_iff] at hrun
  obtain ⟨s₁, hs₁, hrun⟩ := hrun
  obtain ⟨s₂, hs₂, -⟩ := run_cons_eq_some.mp hrun
  apply accessToken_eq_none_of_isLive hs₁
  cases stepsTo_of_step hs₂ <;> trivial

/-! ### Pacing -/

def IsRequest (e : PollEvent) : Prop := ∃ req, e = .request req

/-- Between any two requests there is a sleep of the announced interval. -/
def Paced (pending : PendingAuth) (w : List PollEvent) : Prop :=
  ∀ interval, Duration.fromSecsF32 pending.interval = some interval →
    Separated IsRequest (· = .sleep interval) w

/-- A response that does not make `wait_for_tokens` poll at once. -/
def IsPaced : PollEvent → Prop
  | .response (.ok resp) => resp.hasData → resp.accessToken.isSome
  | _ => True

/-- Without a response that has data but no token, polling is paced. -/
theorem paced_of_run (hw : ∀ e ∈ w, IsPaced e) (hrun : run pending.step .start w = some s) :
    pending.Paced w := by
  intro interval hinterval
  have hstart : ∀ d ∈ WaitForTokens.start.interval?,
      Duration.fromSecsF32 pending.interval = some d := fun d hd => nomatch hd
  refine @separated_of_run _ _ _ _ _ _ WaitForTokens.IsDue _ _ _
    (fun s => ∀ d ∈ s.interval?, Duration.fromSecsF32 pending.interval = some d)
    (fun s e t hs h => (stepsTo_of_step h).interval? hs) ?_ ?_ ?_ hw hstart hrun
  · -- nothing but a sleep makes a request due
    intro s e t hs hpaced hsleep hdue h
    cases stepsTo_of_step h with
    | call | panic | request => exact (hdue trivial).elim
    | again hnone => exact (hdue hnone).elim
    | @sleep d =>
      obtain rfl := Option.some.inj (hinterval.symm.trans (hs d rfl))
      exact (hsleep rfl).elim
    | info hdata =>
      intro hnone
      have htoken := hpaced hdata
      rw [show _ = none from hnone] at htoken
      cases htoken
    | fail | noData | tokens => exact id
  · rintro s - t ⟨req, rfl⟩ h
    cases stepsTo_of_step h
    trivial
  · rintro s - t - - ⟨req, rfl⟩ h
    cases stepsTo_of_step h
    nofun

/-- One poll without the token, and what it makes the loops do. -/
def pollRound (pending : PendingAuth) (interval : Duration)
    (resp : PollAuthSessionStatusResponse) : List PollEvent :=
  [.request pending.request, .response (.ok resp)] ++
    if resp.hasData then [.inspect, .call] else [.sleep interval]

def pollRounds (pending : PendingAuth) (interval : Duration)
    (rs : List PollAuthSessionStatusResponse) : List PollEvent :=
  rs.flatMap (pending.pollRound interval)

theorem responses_pollRound : responses (pending.pollRound interval resp) = [resp] := by
  rw [pollRound]
  split <;> rfl

@[simp] theorem responses_pollRounds (rs : List PollAuthSessionStatusResponse) :
    responses (pending.pollRounds interval rs) = rs := by
  induction rs with
  | nil => rfl
  | cons resp rs ih =>
    rw [pollRounds, List.flatMap_cons, responses_append, responses_pollRound]
    exact congrArg (resp :: ·) ih

theorem run_pollRound (hinterval : Duration.fromSecsF32 pending.interval = some interval)
    (hresp : resp.accessToken = none) :
    run pending.step (.polling interval) (pending.pollRound interval resp) =
      some (.polling interval) := by
  rw [pollRound]
  split
  case isTrue hdata => simp [run, step, hdata, hresp, hinterval]
  case isFalse hdata => simp [run, step, hdata]

theorem run_pollRounds (hinterval : Duration.fromSecsF32 pending.interval = some interval)
    {rs : List PollAuthSessionStatusResponse} (hrs : ∀ resp ∈ rs, resp.accessToken = none) :
    run pending.step (.polling interval) (pending.pollRounds interval rs) =
      some (.polling interval) := by
  induction rs with
  | nil => rfl
  | cons resp rs ih =>
    rw [pollRounds, List.flatMap_cons, run_append,
      run_pollRound hinterval (hrs resp List.mem_cons_self)]
    exact ih fun r hr => hrs r (List.mem_cons_of_mem resp hr)

/-- Polling up to the last of these responses. -/
theorem run_start_pollRounds (hinterval : Duration.fromSecsF32 pending.interval = some interval)
    {rs : List PollAuthSessionStatusResponse} (hrs : ∀ resp ∈ rs, resp.accessToken = none) :
    run pending.step .start (.call :: pending.pollRounds interval rs) =
      some (.polling interval) := by
  rw [run_cons, step, hinterval]
  exact run_pollRounds hinterval hrs

end PendingAuth

/-- The responses that the service gives, in whatever subset, keep the polling paced if and
only if no response before the token has data: such a response is followed by the next
request at once. -/
theorem paced_iff (pending : PendingAuth) (rs : List PollAuthSessionStatusResponse) :
    (∀ w s, run pending.step .start w = some s → responses w <+: rs → pending.Paced w) ↔
      ((Duration.fromSecsF32 pending.interval).isSome →
        ∀ x resp y, rs = x ++ resp :: y → (∀ r ∈ x, r.accessToken = none) →
          resp.hasData → resp.accessToken.isSome) := by
  constructor
  · intro h hinterval x resp y hrs hx hdata
    obtain ⟨interval, hinterval⟩ := Option.isSome_iff_exists.mp hinterval
    by_contra htoken
    rw [Option.not_isSome_iff_eq_none] at htoken
    -- poll up to this response, and once more
    have hrun : run pending.step .start ((.call :: pending.pollRounds interval x) ++
        [.request pending.request, .response (.ok resp), .inspect, .call,
          .request pending.request]) = some (.awaiting interval) := by
      rw [run_append, PendingAuth.run_start_pollRounds hinterval hx]
      simp [run, PendingAuth.step, hdata, htoken, hinterval]
    have hresponses : responses ((.call :: pending.pollRounds interval x) ++
        [.request pending.request, .response (.ok resp), .inspect, .call,
          .request pending.request]) = x ++ [resp] := by
      rw [responses_append]
      exact congrArg (· ++ [resp]) (PendingAuth.responses_pollRounds x)
    have hpaced := h _ _ hrun (hresponses ▸ ⟨y, by rw [hrs, List.append_assoc]; rfl⟩) interval
      hinterval
    obtain ⟨e, he, hsleep⟩ := hpaced (.call :: pending.pollRounds interval x) _
      [.response (.ok resp), .inspect, .call] _ [] (by rw [List.append_assoc]; rfl)
      ⟨_, rfl⟩ ⟨_, rfl⟩
    subst hsleep
    simp at he
  · intro h w s hrun hw interval hinterval
    refine PendingAuth.paced_of_run (fun e he => ?_) hrun interval hinterval
    cases e with
    | response result =>
      cases result with
      | ok resp =>
        -- none of the responses before this one had the token
        obtain ⟨u, v, rfl⟩ := List.append_of_mem he
        have hx := PendingAuth.accessToken_eq_none_of_run hrun
        obtain ⟨y, hy⟩ := hw
        rw [responses_append, responses_cons_response, List.append_assoc] at hy
        exact h (hinterval ▸ rfl) (responses u) resp (responses v ++ y) hy.symm hx
      | error => trivial
    | call | request | sleep | inspect => trivial

section Examples

/-- A login that is polled every 5 seconds. -/
def pendingEvery5s : PendingAuth where
  clientId := 1
  requestId := [7]
  interval := ⟨0x40A00000⟩

/-- The user has seen the login, and has not confirmed it yet. -/
def remoteInteraction : PollAuthSessionStatusResponse where
  hadRemoteInteraction := some true

/-- The next poll follows at once. -/
theorem not_paced_remoteInteraction :
    ¬ ∀ w s, run pendingEvery5s.step .start w = some s →
      responses w <+: [remoteInteraction] → pendingEvery5s.Paced w := by
  intro h
  have hpaced := h [.call, .request pendingEvery5s.request, .response (.ok remoteInteraction),
    .inspect, .call, .request pendingEvery5s.request] _ rfl (List.prefix_refl _)
  obtain ⟨e, he, hsleep⟩ := hpaced ⟨5, 0, by decide⟩ (by decide) [.call] _
    [.response (.ok remoteInteraction), .inspect, .call] _ [] rfl ⟨_, rfl⟩ ⟨_, rfl⟩
  subst hsleep
  simp at he

end Examples

/-! ### What the service has said -/

/-- The last value of a field. -/
def latest {β : Type*} (field : PollAuthSessionStatusResponse → Option β)
    (rs : List PollAuthSessionStatusResponse) : Option β := (rs.filterMap field).getLast?

section Latest

variable {β : Type*} {field : PollAuthSessionStatusResponse → Option β}
  {rs : List PollAuthSessionStatusResponse} {resp : PollAuthSessionStatusResponse}

theorem latest_concat : latest field (rs ++ [resp]) = (field resp).or (latest field rs) := by
  rw [latest, List.filterMap_append, List.getLast?_append]
  cases h : field resp <;> simp [h, latest]

theorem latest_eq_none_iff : latest field rs = none ↔ ∀ resp ∈ rs, field resp = none := by
  rw [latest, List.getLast?_eq_none_iff, List.filterMap_eq_nil_iff]

theorem exists_of_latest {b : β} (h : latest field rs = some b) :
    ∃ resp ∈ rs, field resp = some b :=
  List.mem_filterMap.mp (List.mem_of_getLast? h)

end Latest

/-- Responses of which the last is the first with an access token. -/
structure TokenAnswers where
  pending : List PollAuthSessionStatusResponse
  last : PollAuthSessionStatusResponse
  noToken : ∀ resp ∈ pending, resp.accessToken = none
  token : last.accessToken.isSome

/-- A run makes use of what it was told: of the latest client id in every request, and of the
latest guard data and the latest refresh token in its result. -/
structure KeepsPolled (w : List PollEvent) (s : WaitForTokens) : Prop where
  clientId : ∀ u req v, w = u ++ .request req :: v →
    ∀ c, latest (·.newClientId) (responses u) = some c → req.clientId = some c
  newGuardData : ∀ tokens, s = .done (.ok tokens) →
    tokens.newGuardData = latest (·.newGuardData) (responses w)
  refreshToken : ∀ tokens, s = .done (.ok tokens) →
    latest (·.refreshToken) (responses w) = some tokens.refreshToken.value

namespace PendingAuth

variable {pending : PendingAuth} {s t : WaitForTokens} {w : List PollEvent}

/-- What a state holds is from the last response. -/
def HoldsLast (rs : List PollAuthSessionStatusResponse) : WaitForTokens → Prop
  | .info response => rs.getLast? = some response
  | .done (.ok tokens) => ∃ response, rs.getLast? = some response ∧
      response.accessToken.isSome ∧ tokens = response.tokens
  | _ => True

theorem holdsLast_of_run (hrun : run pending.step .start w = some s) :
    HoldsLast (responses w) s := by
  induction w using List.reverseRecOn generalizing s with
  | nil => exact Option.some.inj hrun ▸ trivial
  | append_singleton w e ih =>
    rw [run_append, Option.bind_eq_some_iff] at hrun
    obtain ⟨u, hu, hrun⟩ := hrun
    obtain ⟨_, hstep, hs⟩ := run_cons_eq_some.mp hrun
    obtain rfl := Option.some.inj hs
    have hlast := ih hu
    rw [responses_append]
    cases stepsTo_of_step hstep with
    | info => exact List.getLast?_concat
    | tokens htoken =>
      rw [show responses [.inspect] = [] from rfl, List.append_nil]
      exact ⟨_, hlast, htoken, rfl⟩
    | _ => trivial

/-- A run that ends with tokens has been given all responses. -/
theorem responses_eq_of_done {answers : TokenAnswers} {tokens : Tokens}
    (hrun : run pending.step .start w = some (.done (.ok tokens)))
    (hw : responses w <+: answers.pending ++ [answers.last]) :
    responses w = answers.pending ++ [answers.last] ∧ tokens = answers.last.tokens := by
  obtain ⟨resp, hlast, htoken, rfl⟩ := holdsLast_of_run hrun
  obtain hall | hpending := List.prefix_concat_iff.mp hw
  · rw [hall, List.getLast?_concat] at hlast
    exact ⟨hall, by rw [Option.some.inj hlast]⟩
  · -- an earlier response does not have the token
    have hnone := answers.noToken resp (hpending.subset (List.mem_of_getLast? hlast))
    rw [hnone] at htoken
    cases htoken

/-- Polling up to the tokens. -/
theorem run_start_answers (answers : TokenAnswers) {interval : Duration}
    (hinterval : Duration.fromSecsF32 pending.interval = some interval) :
    run pending.step .start ((.call :: pending.pollRounds interval answers.pending) ++
      [.request pending.request, .response (.ok answers.last), .inspect]) =
        some (.done (.ok answers.last.tokens)) := by
  have hdata := PollAuthSessionStatusResponse.hasData_of_accessToken answers.token
  rw [run_append, run_start_pollRounds hinterval answers.noToken]
  simp [run, step, hdata, answers.token]

theorem responses_start_answers (answers : TokenAnswers) (interval : Duration) :
    responses ((.call :: pending.pollRounds interval answers.pending) ++
      [.request pending.request, .response (.ok answers.last), .inspect]) =
        answers.pending ++ [answers.last] := by
  rw [responses_append]
  exact congrArg (· ++ [answers.last]) (responses_pollRounds answers.pending)

/-- Nothing goes on without an interval. -/
theorem isSome_interval_of_run (hrun : run pending.step .start w = some s) :
    s = .start ∨ s = .panicked ∨ (Duration.fromSecsF32 pending.interval).isSome := by
  refine @run_invariant _ _ pending.step
    (fun s => s = .start ∨ s = .panicked ∨ (Duration.fromSecsF32 pending.interval).isSome)
    ?_ _ _ _ (.inl rfl) hrun
  intro s e t hs h
  cases stepsTo_of_step h with
  | call hinterval => exact .inr (.inr (hinterval ▸ rfl))
  | panic => exact .inr (.inl rfl)
  | again => exact .inl rfl
  | _ => simpa using hs

/-- A request comes behind responses without the token, at an interval. -/
theorem of_run_request {u v : List PollEvent} {req : PollAuthSessionStatusRequest}
    (hrun : run pending.step .start (u ++ .request req :: v) = some t) :
    req = pending.request ∧ (Duration.fromSecsF32 pending.interval).isSome ∧
      ∀ resp ∈ responses u, resp.accessToken = none := by
  rw [run_append, Option.bind_eq_some_iff] at hrun
  obtain ⟨s₁, hs₁, hrun⟩ := hrun
  obtain ⟨s₂, hs₂, -⟩ := run_cons_eq_some.mp hrun
  have hnone := accessToken_eq_none_of_isLive hs₁
  have hinterval := isSome_interval_of_run hs₁
  cases stepsTo_of_step hs₂
  exact ⟨rfl, by simpa using hinterval, hnone trivial⟩

/-- Polling up to the request behind a response without the token. -/
theorem run_start_request {interval : Duration}
    (hinterval : Duration.fromSecsF32 pending.interval = some interval)
    {rs : List PollAuthSessionStatusResponse} (hrs : ∀ resp ∈ rs, resp.accessToken = none) :
    run pending.step .start ((.call :: pending.pollRounds interval rs) ++
      [.request pending.request]) = some (.awaiting interval) := by
  rw [run_append, run_start_pollRounds hinterval hrs]
  simp [run, step]

/-- If runs make use of the client ids that they are told, these are the one they started with. -/
theorem newClientId_eq_of_keepsPolled {answers : TokenAnswers} {interval : Duration}
    (hinterval : Duration.fromSecsF32 pending.interval = some interval)
    (h : ∀ w s, run pending.step .start w = some s →
      responses w <+: answers.pending ++ [answers.last] → KeepsPolled w s)
    {resp : PollAuthSessionStatusResponse} (hresp : resp ∈ answers.pending) {c : UInt64}
    (hc : resp.newClientId = some c) : c = pending.clientId := by
  obtain ⟨x, y, hxy⟩ := List.append_of_mem hresp
  have hx : ∀ r ∈ x ++ [resp], r.accessToken = none :=
    fun r hr => answers.noToken r (by rw [hxy]; simp at hr ⊢; tauto)
  have hresponses : responses (.call :: pending.pollRounds interval (x ++ [resp])) =
    x ++ [resp] := responses_pollRounds _
  -- the request behind this response
  have hkeeps := h _ _ (run_start_request hinterval hx) (by
    rw [responses_append, hresponses, hxy]
    exact ⟨y ++ [answers.last], by simp [responses]⟩)
  have hclient := hkeeps.clientId _ _ [] rfl c (by rw [hresponses, latest_concat, hc]; rfl)
  exact (Option.some.inj hclient).symm

/-- A request has the latest client id, if that never changes. -/
theorem clientId_of_run_request {answers : TokenAnswers}
    (hclient : ∀ resp ∈ answers.pending, ∀ c, resp.newClientId = some c → c = pending.clientId)
    {u v : List PollEvent} {req : PollAuthSessionStatusRequest}
    (hrun : run pending.step .start (u ++ .request req :: v) = some s)
    (hw : responses (u ++ .request req :: v) <+: answers.pending ++ [answers.last]) {c : UInt64}
    (hc : latest (·.newClientId) (responses u) = some c) : req.clientId = some c := by
  obtain ⟨rfl, -, hnone⟩ := of_run_request hrun
  obtain ⟨resp, hresp, hc⟩ := exists_of_latest hc
  have hmem := hw.subset (by rw [responses_append]; exact List.mem_append_left _ hresp)
  obtain hpending | hlast := List.mem_append.mp hmem
  · rw [hclient resp hpending c hc]
    rfl
  · -- the last response comes with the token, and no request follows
    have htoken := answers.token
    rw [← List.mem_singleton.mp hlast, hnone resp hresp] at htoken
    cases htoken

/-- The result has the guard data, if the last response has them or none does. -/
theorem newGuardData_of_done {answers : TokenAnswers} {tokens : Tokens}
    (hguard : answers.last.newGuardData.isSome ∨
      ∀ resp ∈ answers.pending, resp.newGuardData = none)
    (hrun : run pending.step .start w = some (.done (.ok tokens)))
    (hw : responses w <+: answers.pending ++ [answers.last]) :
    tokens.newGuardData = latest (·.newGuardData) (responses w) := by
  obtain ⟨hall, rfl⟩ := responses_eq_of_done hrun hw
  rw [hall, latest_concat, PollAuthSessionStatusResponse.tokens]
  obtain hsome | hnone := hguard
  · rw [Option.or_of_isSome hsome]
  · rw [latest_eq_none_iff.mpr hnone, Option.or_none]

/-- The result has the refresh token, if the last response has it or the one before is empty. -/
theorem refreshToken_of_done {answers : TokenAnswers} {tokens : Tokens}
    (hrefresh : answers.last.refreshToken.isSome ∨
      latest (·.refreshToken) answers.pending = some "")
    (hrun : run pending.step .start w = some (.done (.ok tokens)))
    (hw : responses w <+: answers.pending ++ [answers.last]) :
    latest (·.refreshToken) (responses w) = some tokens.refreshToken.value := by
  obtain ⟨hall, rfl⟩ := responses_eq_of_done hrun hw
  rw [hall, latest_concat, PollAuthSessionStatusResponse.tokens]
  obtain hsome | hempty := hrefresh
  · obtain ⟨token, htoken⟩ := Option.isSome_iff_exists.mp hsome
    rw [htoken]
    rfl
  · rw [hempty]
    cases answers.last.refreshToken <;> rfl

end PendingAuth

/-- What the service says on the way is kept if and only if it does not matter: it never
changes the client id, the last response has the guard data if any has, and a refresh
token if any was given that is not empty. -/
theorem keepsPolled_iff (pending : PendingAuth) (answers : TokenAnswers) :
    (∀ w s, run pending.step .start w = some s →
      responses w <+: answers.pending ++ [answers.last] → KeepsPolled w s) ↔
        ((Duration.fromSecsF32 pending.interval).isSome →
          (∀ resp ∈ answers.pending, ∀ c, resp.newClientId = some c → c = pending.clientId) ∧
          (answers.last.newGuardData.isSome ∨
            ∀ resp ∈ answers.pending, resp.newGuardData = none) ∧
          (answers.last.refreshToken.isSome ∨
            latest (·.refreshToken) answers.pending = some "")) := by
  constructor
  · intro h hinterval
    obtain ⟨interval, hinterval⟩ := Option.isSome_iff_exists.mp hinterval
    have hlast := h _ _ (PendingAuth.run_start_answers answers hinterval)
      (PendingAuth.responses_start_answers answers interval ▸ List.prefix_refl _)
    have hguard := hlast.newGuardData _ rfl
    have hrefresh := hlast.refreshToken _ rfl
    rw [PendingAuth.responses_start_answers, latest_concat] at hguard hrefresh
    refine ⟨fun resp hresp c hc => ?_, ?_, ?_⟩
    · exact PendingAuth.newClientId_eq_of_keepsPolled hinterval h hresp hc
    · cases hdata : answers.last.newGuardData with
      | some => exact .inl rfl
      | none =>
        rw [PollAuthSessionStatusResponse.tokens, hdata] at hguard
        exact .inr (latest_eq_none_iff.mp hguard.symm)
    · cases hdata : answers.last.refreshToken with
      | some => exact .inl rfl
      | none =>
        rw [PollAuthSessionStatusResponse.tokens, hdata] at hrefresh
        exact .inr hrefresh
  · intro h w s hrun hw
    refine ⟨?_, ?_, ?_⟩
    · rintro u req v rfl c hc
      obtain ⟨-, hinterval, -⟩ := PendingAuth.of_run_request hrun
      exact PendingAuth.clientId_of_run_request (h hinterval).1 hrun hw hc
    · rintro tokens rfl
      have hinterval := PendingAuth.isSome_interval_of_run hrun
      obtain ⟨-, hguard, -⟩ := h (by simpa using hinterval)
      exact PendingAuth.newGuardData_of_done hguard hrun hw
    · rintro tokens rfl
      have hinterval := PendingAuth.isSome_interval_of_run hrun
      obtain ⟨-, -, hrefresh⟩ := h (by simpa using hinterval)
      exact PendingAuth.refreshToken_of_done hrefresh hrun hw

section Examples

/-- The service changes the client id, and gives the guard data, before the tokens. -/
def newClientId : PollAuthSessionStatusResponse where
  newClientId := some 2
  newGuardData := some "guard"

/-- The access token, without a refresh token. -/
def accessTokenOnly : TokenAnswers where
  pending := [newClientId]
  last := { accessToken := some "access" }
  noToken := by decide
  token := rfl

/-- The tokens come without the guard data that the service gave. -/
theorem not_keepsPolled_newClientId :
    ¬ ∀ w s, run pendingEvery5s.step .start w = some s →
      responses w <+: accessTokenOnly.pending ++ [accessTokenOnly.last] → KeepsPolled w s := by
  intro h
  have hkeeps := h [.call, .request pendingEvery5s.request, .response (.ok newClientId), .inspect,
    .call, .request pendingEvery5s.request, .response (.ok accessTokenOnly.last), .inspect]
    (.done (.ok ⟨⟨"access"⟩, ⟨""⟩, none⟩)) rfl (List.prefix_refl _)
  have hguard := hkeeps.newGuardData _ rfl
  cases hguard

end Examples

end SteamWire
