import SteamWire.Connection.Correlation
import SteamWire.GameCoordinator.Send
import SteamWire.Message.Flatten
import SteamWire.Session.Logon

/-!
# Calls and the peer that answers them

The calls of a session together with what is on the wire. A call encodes its request with
the header of the session and its own job id, and the peer reads it from the bytes. A frame of
the peer may hold messages for no job, and responses to requests that it was sent; which
response is right for which request is up to the service. The receive pipeline makes results
of the frames, and the task of the filter pulls them one by one.

`Rpc.answeredOwn_of_reachable`: whatever the order in which requests are answered, and with any
number of calls at a time, everything a call receives is a right response to its own request, as
the peer read it, and a call for one response that succeeds has received one.
-/

namespace SteamWire

open Semantics

/-- A message that can be sent as a job: it keeps the job id of its header, and it is none of
the key exchange. -/
structure JobMessage (SteamID : Type) where
  message : EncodableMessage SteamID
  kind : MsgKind
  isProtobuf : Bool
  keepsJob : ∀ header, (message.processHeader header).sourceJobId = header.sourceJobId
  kind_nonneg : 0 ≤ kind.value
  isEncryptHandshake_kind : NetMessageHeader.isEncryptHandshake kind = false
  kind_ne_response : kind ≠ EMsg.kEMsgChannelEncryptResponse.kind

/-- A service method with its request, to be sent as a message of some kind. -/
def JobMessage.ofServiceMethod {SteamID : Type} (reqName : String) (request : Bytes) (kind : EMsg)
    (hkind : 0 ≤ kind.kind.value)
    (hhandshake : NetMessageHeader.isEncryptHandshake kind.kind = false)
    (hresponse : kind.kind ≠ EMsg.kEMsgChannelEncryptResponse.kind) : JobMessage SteamID where
  message := serviceMethodMessage reqName request
  kind := kind.kind
  isProtobuf := true
  keepsJob _ := rfl
  kind_nonneg := hkind
  isEncryptHandshake_kind := hhandshake
  kind_ne_response := hresponse

/-- A call as its caller makes it: what it sends, and the parser of its response bodies. -/
inductive Invocation (SteamID : Type) where
  | serviceMethod (reqName : String) (request : Bytes)
      (parse : Bytes → Except MessageBodyError Bool)
  | serviceMethodUnAuthenticated (reqName : String) (request : Bytes)
      (parse : Bytes → Except MessageBodyError Bool)
  | job (msg : JobMessage SteamID) (rsp : MsgKind) (parse : Bytes → Except MessageBodyError Bool)
  | jobMulti (msg : JobMessage SteamID) (rsp : MsgKind)
      (parse : Bytes → Except MessageBodyError Bool)

namespace Invocation

variable {SteamID : Type}

def callKind : Invocation SteamID → CallKind
  | .serviceMethod reqName _ _ => .serviceMethod reqName
  | .serviceMethodUnAuthenticated reqName _ _ => .serviceMethodUnAuthenticated reqName
  | .job _ rsp _ => .job rsp
  | .jobMulti _ rsp _ => .jobMulti rsp

def parse : Invocation SteamID → Bytes → Except MessageBodyError Bool
  | .serviceMethod _ _ parse | .serviceMethodUnAuthenticated _ _ parse | .job _ _ parse
  | .jobMulti _ _ parse => parse

def msg : Invocation SteamID → JobMessage SteamID
  | .serviceMethod reqName request _ =>
    .ofServiceMethod reqName request .kEMsgServiceMethodCallFromClient (by decide) rfl (by decide)
  | .serviceMethodUnAuthenticated reqName request _ =>
    .ofServiceMethod reqName request .kEMsgServiceMethodCallFromClientNonAuthed (by decide) rfl
      (by decide)
  | .job msg _ _ | .jobMulti msg _ _ => msg

variable [SteamIdOps SteamID] [DecidableEq SteamID] (codec : HeaderCodec)
  (session : Session SteamID) (inv : Invocation SteamID) (id : JobId)

/-- The header of the session for the job. -/
def header : NetMessageHeader SteamID :=
  inv.msg.message.processHeader ({ session with jobId := id }.header true).1

/-- The request of a call with this job id. -/
def request : Except NetworkError (RawNetMessage SteamID) :=
  RawNetMessage.fromMessageWithKind codec ({ session with jobId := id }.header true).1
    inv.msg.message inv.msg.kind inv.msg.isProtobuf

/-- The length of the header fits in its field. -/
def Fits : Prop :=
  inv.msg.isProtobuf = true →
    codec.encodedLen ((inv.header session id).protoHeader inv.msg.kind) < 2 ^ 32

instance : Decidable (inv.Fits codec session id) := inferInstanceAs (Decidable (_ → _))

/-- What the peer reads of the request. -/
structure IsRead (b : Bytes) (req : RawNetMessage SteamID) : Prop where
  read : RawNetMessage.read codec b = .ok req
  kind : req.kind = inv.msg.kind
  data : inv.msg.message.writeBody = .ok req.data
  sourceJobId : req.header.sourceJobId = id
  targetJobName : inv.msg.isProtobuf = true →
    req.header.targetJobName = (inv.header session id).targetJobName

variable {codec session inv id}

/-- The peer can read every request. -/
theorem exists_isRead (hcodec : codec.Lawful) (hfits : inv.Fits codec session id)
    {m : RawNetMessage SteamID} (hm : inv.request codec session id = .ok m) :
    ∃ req, inv.IsRead codec session id m.intoBytes req := by
  cases hbody : inv.msg.message.writeBody with
  | error e =>
    rw [request, RawNetMessage.fromMessageWithKind, hbody] at hm
    cases hm
  | ok body =>
    rw [request, RawNetMessage.fromMessageWithKind_eq hbody, Except.ok.injEq] at hm
    subst hm
    obtain ⟨req, hread, hkind, -, hdata, hjob, hname⟩ :=
      @GameCoordinator.exists_read_write_append SteamID _ _ MsgKind _ codec (inv.header session id)
        inv.msg.kind inv.msg.isProtobuf body hcodec inv.msg.kind_nonneg inv.msg.kind_ne_response
        hfits fun _ => inv.msg.isEncryptHandshake_kind
    exact ⟨req, hread, hkind, by rw [hbody, hdata], hjob.trans (inv.msg.keepsJob _), hname⟩

end Invocation

theorem mem_okMessages {SteamID : Type}
    {source : List (Outcome NetworkError (RawNetMessage SteamID))} {m : RawNetMessage SteamID} :
    m ∈ okMessages source ↔ .ok m ∈ source := by
  rw [okMessages, List.mem_filterMap]
  constructor
  · rintro ⟨res, hres, hm⟩
    cases res with
    | ok message =>
      cases hm
      exact hres
    | err | panic => cases hm
  · exact fun h => ⟨.ok m, h, rfl⟩

/-- The call is over, or about to be, with success. -/
def Phase.Succeeded : Phase → Prop
  | .closing (.returned none) | .finished (.returned none) => True
  | _ => False

theorem Phase.Succeeded.exit_eq {exit : Exit}
    (h : (Phase.closing exit).Succeeded ∨ (Phase.finished exit).Succeeded) :
    exit = .returned none := by
  cases exit with
  | returned error =>
    cases error with
    | none => rfl
    | some e => exact (h.elim id id).elim
  | dropped => exact (h.elim id id).elim

namespace Client

variable {SteamID : Type} {shard : JobId → Nat} {s t : Client SteamID} {f g : MessageFilter SteamID}
  {a : Action SteamID} {i : Nat} {call call' : Call}

/-- The calls of a connection keep what they are, and a draw makes a new one. -/
theorem StepsTo.call_cases (h : StepsTo s a t) (ht : t.calls[i]? = some call) :
    (∃ before, s.calls[i]? = some before ∧ call.kind = before.kind ∧ call.parse = before.parse ∧
      call.id = before.id ∧ (before.sent = true → call.sent = true)) ∨
    i = s.calls.length ∧ ∃ thread, a = .draw call.kind call.parse thread := by
  cases h with
  | @draw kind parse thread =>
    by_cases hlt : i < s.calls.length
    · rw [List.getElem?_append_left hlt] at ht
      exact .inl ⟨call, ht, rfl, rfl, rfl, id⟩
    · rw [List.getElem?_append_right (not_lt.mp hlt)] at ht
      obtain ⟨hzero, hcall⟩ := List.getElem?_eq_some_iff.mp ht
      rw [List.length_singleton] at hzero
      rw [List.getElem_singleton] at hcall
      subst hcall
      exact .inr ⟨by omega, thread, rfl⟩
  | source => exact .inl ⟨call, ht, rfl, rfl, rfl, id⟩
  | filter => exact .inl ⟨call, ht, rfl, rfl, rfl, id⟩
  | @call _ j before after g ha hcall hsteps =>
    left
    rw [update, List.getElem?_set] at ht
    split_ifs at ht with hij hlt
    · cases ht
      refine ⟨before, hij ▸ hcall, hsteps.id_eq.1, ?_, hsteps.id_eq.2, hsteps.sent_of.1⟩
      cases hsteps <;> rfl
    · exact ⟨call, ht, rfl, rfl, rfl, id⟩

/-- No call is lost, and none is unsent. -/
theorem StepsTo.exists_call (h : StepsTo s a t) (hcall : s.calls[i]? = some call) :
    ∃ call', t.calls[i]? = some call' ∧ call'.id = call.id ∧
      (call.sent = true → call'.sent = true) := by
  have hlt : i < t.calls.length := by
    have hlength := h.length_eq
    have hbefore := (List.getElem?_eq_some_iff.mp hcall).1
    omega
  refine ⟨t.calls[i], List.getElem?_eq_getElem hlt, ?_⟩
  rcases h.call_cases (List.getElem?_eq_getElem hlt) with ⟨before, hbefore, -, -, hkept⟩ | ⟨rfl, -⟩
  · rw [hcall, Option.some.injEq] at hbefore
    exact hbefore ▸ hkept
  · exact absurd (List.getElem?_eq_some_iff.mp hcall).1 (Nat.lt_irrefl _)

/-- The task of a filter gets its messages from the receive pipeline. -/
theorem item_cases_of_steps {b : MessageFilter.Action SteamID} (h : f.StepsTo b g)
    {item : Item SteamID} (hg : g.task.item = some item) :
    f.task.item = some item ∨ b = .next (some (.ok item.message)) := by
  cases h with
  | pull =>
    cases hg
    exact .inr rfl
  | stop => cases hg
  | skip => exact .inl hg
  | register _ hreg => exact .inl (by rwa [hreg.task] at hg)
  | dispatch h => exact .inl (item_of_steps (.dispatch h) nofun hg)
  | _ => exact .inl hg

/-- The task gets its messages from the receive pipeline. -/
theorem StepsTo.item_cases (h : StepsTo s a t) {item : Item SteamID}
    (ht : t.filter.task.item = some item) :
    s.filter.task.item = some item ∨ a = .source (some (.ok item.message)) := by
  cases h with
  | draw => exact .inl ht
  | source hsteps =>
    refine (item_cases_of_steps hsteps ht).imp_right fun heq => ?_
    rw [MessageFilter.Action.next.inj heq]
  | filter hpermits hsteps =>
    refine (item_cases_of_steps hsteps ht).imp_right ?_
    rintro rfl
    exact hpermits.elim
  | call _ _ hsteps => exact .inl (hsteps.item_of ht)

/-- The messages a call received are the messages of the task. -/
def ReceivesAll (P : RawNetMessage SteamID → Prop) (f : MessageFilter SteamID) (call : Call) : Prop :=
  call.phase ≠ .drawn → ∀ item ∈ (f.channels call.chan).inbox, P item.message

/-- A call for one response that succeeded received one that it could read. -/
def Succeeds (f : MessageFilter SteamID) (call : Call) : Prop :=
  call.kind.isMulti = false → call.phase.Succeeded →
    ∃ item ∈ (f.channels call.chan).inbox, ∃ completed, call.respond item.message = .ok completed

/-- A call that is about to register has returned nothing. -/
theorem succeeds_of_drawn (h : call.phase = .drawn) : Succeeds f call := by
  intro _ hdone
  rw [h] at hdone
  exact hdone.elim

/-- A response that was received stays received. -/
theorem Succeeds.of_steps {b : MessageFilter.Action SteamID} (hf : Succeeds f call) (hown : f.Owned)
    (h : f.StepsTo b g) : Succeeds g call := by
  intro hmulti hphase
  obtain ⟨item, hitem, hread⟩ := hf hmulti hphase
  exact ⟨item, hown.mem_inbox_of_steps h hitem, hread⟩

/-- A call returns with success only after a response. -/
theorem Succeeds.of_callSteps (hf : Succeeds f call)
    (hstreams : call.phase.IsStreaming → call.kind.isMulti = true)
    (h : CallSteps f call a call' g) : Succeeds g call' := by
  intro hmulti hdone
  cases h with
  | register | sendOk => exact hdone.elim
  | transmit => exact hf hmulti hdone
  | @receive _ item taken hphase hitem htaken =>
    -- the first response is the only one
    refine ⟨item, by simpa using hitem, ?_⟩
    change (call.afterResponse (call.respond item.message)).Succeeded at hdone
    cases hrespond : call.respond item.message with
    | ok completed => exact ⟨completed, hrespond⟩
    | error e =>
      rw [hrespond] at hdone
      exact hdone.elim
  | close _ _ hexit => exact absurd (Phase.Succeeded.exit_eq (.inl hdone)) hexit
  | @resume _ completed =>
    cases completed <;> exact hdone.elim
  | complete hphase =>
    have hmultiple := hstreams (by rw [hphase]; trivial)
    exact absurd (hmultiple.symm.trans hmulti) (by decide)
  | @finish _ exit hphase =>
    obtain rfl : exit = .returned none := Phase.Succeeded.exit_eq (.inr hdone)
    rw [MessageFilter.dropReceiver_inbox]
    exact hf hmulti (by rw [hphase]; trivial)

/-- A call for one response that succeeds has received that response only. -/
theorem Succeeds.inbox_eq (hf : Succeeds f call) (hreceives : Receives f call) (hown : f.Owned)
    (hmulti : call.kind.isMulti = false) (hdone : call.phase.Succeeded) :
    ∃ item completed, (f.channels call.chan).inbox = [item] ∧
      call.respond item.message = .ok completed := by
  obtain ⟨item, hitem, completed, hread⟩ := hf hmulti hdone
  have hphase : call.phase ≠ .drawn := by
    intro hdrawn
    rw [hdrawn] at hdone
    exact hdone
  have horigin := (hreceives hphase).1
  rw [Call.origin, if_neg (by simp [hmulti])] at horigin
  -- the receiver of such a call is used once
  have honce := hown.once (show (Origin.jobId call.id).OneShot from trivial) horigin
  obtain ⟨x, hx⟩ := List.length_eq_one_iff.mp
    (Nat.le_antisymm honce (List.length_pos_of_mem hitem))
  rw [hx, List.mem_singleton] at hitem
  exact ⟨x, completed, hx, hitem ▸ hread⟩

/-- A receiver gets the messages of the task. -/
theorem ReceivesAll.of_steps {P : RawNetMessage SteamID → Prop} {b : MessageFilter.Action SteamID}
    (hf : ReceivesAll P f call) (hreceives : Receives f call) (hown : f.Owned) (h : f.StepsTo b g)
    (htask : ∀ item, f.task.item = some item → P item.message) : ReceivesAll P g call := by
  intro hne item hitem
  obtain ⟨horigin, -⟩ := hreceives.of_steps hown h hne
  obtain ⟨-, hbefore | hsend⟩ :=
    hown.mem_inbox_cases h call.origin_not_isBroadcast horigin hitem
  · exact hf hne item hbefore
  · exact htask item hsend.item_eq

/-- A call that registers has received nothing yet, and reading receives nothing new. -/
theorem ReceivesAll.of_callSteps {P : RawNetMessage SteamID → Prop} (hf : ReceivesAll P f call)
    (hreceives : Receives f call) (hown : f.Owned) (h : CallSteps f call a call' g)
    (htask : ∀ item, f.task.item = some item → P item.message) : ReceivesAll P g call' := by
  by_cases hphase : call.phase = .drawn
  · obtain ⟨i, rfl, rfl, hreg⟩ := h.of_drawn hphase
    intro _ item hitem
    rw [hreg.channels_new] at hitem
    cases hitem
  · rw [ReceivesAll, (h.chan_eq hphase).1]
    rcases h.filter_cases with hsame | ⟨b, hb, -⟩
    · exact fun _ => hsame ▸ hf hphase
    · exact fun _ => hf.of_steps hreceives hown hb htask hphase

/-- The steps of a connection keep the answers of its calls. -/
theorem succeeds_of_steps (hs : s.Inv) (h : StepsTo s a t)
    (hsucceeds : ∀ call ∈ s.calls, Succeeds s.filter call) :
    ∀ call ∈ t.calls, Succeeds t.filter call :=
  forall_calls_of_steps hs.toAttached h (fun _ _ _ _ => succeeds_of_drawn rfl)
    (fun _ hsteps _ hold => hold.of_steps hs.owned hsteps)
    (fun hmem hsteps hold => hold.of_callSteps (hs.call _ hmem).multi hsteps) hsucceeds

/-- What holds of the message of the task holds of everything that calls receive. -/
theorem receivesAll_of_steps {P : RawNetMessage SteamID → Prop} (hs : s.Inv) (h : StepsTo s a t)
    (htask : ∀ item, s.filter.task.item = some item → P item.message)
    (hP : ∀ call ∈ s.calls, ReceivesAll P s.filter call) :
    ∀ call ∈ t.calls, ReceivesAll P t.filter call :=
  forall_calls_of_steps hs.toAttached h (fun _ _ _ _ hne => absurd rfl hne)
    (fun hmem hsteps _ hold => hold.of_steps (hs.call _ hmem).receives hs.owned hsteps htask)
    (fun hmem hsteps hold => hold.of_callSteps (hs.call _ hmem).receives hs.owned hsteps htask) hP

end Client

/-- The calls of a session with what the peer was sent and what was made of its frames. -/
structure Rpc (SteamID : Type) where
  client : Client SteamID := {}
  invocations : List (Invocation SteamID) := []
  wire : List Bytes := []
  results : List (Outcome NetworkError (RawNetMessage SteamID)) := []
  taken : Nat := 0

namespace Rpc

/-- What can happen. -/
inductive Action (SteamID : Type) where
  | invoke (inv : Invocation SteamID) (thread : Nat)
  /-- a call encodes its request and hands it to the transport -/
  | transmit (i : Nat)
  | client (a : Client.Action SteamID)
  | arrive (frame : Except NetworkError Bytes)
  | pull
  | hangUp

/-- The steps of the connection that are no steps of the peer or with a request. -/
def IsOwn {SteamID : Type} : Client.Action SteamID → Prop
  | .draw .. | .transmit _ | .source _ => False
  | _ => True

instance {SteamID : Type} : (a : Client.Action SteamID) → Decidable (IsOwn a)
  | .draw .. | .transmit _ | .source _ => isFalse id
  | .register _ | .sendOk _ | .sendFailed .. | .receive _ | .timeout _ | .closed _ | .cancel _
  | .resume _ | .complete _ | .finish _ | .filter _ => isTrue trivial

variable {SteamID : Type} [SteamIdOps SteamID] [DecidableEq SteamID] (shard : JobId → Nat)
  (codec : HeaderCodec) (multi : MultiCodec) (session : Session SteamID)
  (answers : RawNetMessage SteamID → RawNetMessage SteamID → Bool)

/-- The message is a right response to a request that was sent. -/
def isAnswer (m : RawNetMessage SteamID) (b : Bytes) : Bool :=
  match RawNetMessage.read codec b with
  | .ok req => req.header.sourceJobId = m.header.targetJobId && answers req m
  | _ => false

/-- What a peer sends when these requests were sent to it. -/
def Justified (wire : List Bytes) (m : RawNetMessage SteamID) : Prop :=
  m.header.targetJobId = JobId.none ∨ ∃ b ∈ wire, isAnswer codec answers m b = true

instance (wire : List Bytes) (m : RawNetMessage SteamID) :
    Decidable (Justified codec answers wire m) :=
  inferInstanceAs (Decidable (_ ∨ _))

/-- One step. -/
def step (s : Rpc SteamID) : Action SteamID → Option (Rpc SteamID)
  | .invoke inv thread =>
    (s.client.step shard (.draw inv.callKind inv.parse thread)).map fun client =>
      { s with client, invocations := s.invocations ++ [inv] }
  | .transmit i =>
    s.client.calls[i]?.bind fun call =>
      s.invocations[i]?.bind fun inv =>
        if call.sent then none
        else
          match inv.request codec session call.id with
          | .ok m =>
            (s.client.step shard (.transmit i)).map fun client =>
              { s with client, wire := s.wire ++ [m.intoBytes] }
          | .error e =>
            (s.client.step shard (.sendFailed i e)).map fun client => { s with client }
  | .client a =>
    if IsOwn a then (s.client.step shard a).map fun client => { s with client } else none
  | .arrive frame =>
    let results := incoming codec multi [frame]
    if ∀ m ∈ okMessages results, Justified codec answers s.wire m then
      some { s with results := s.results ++ results }
    else none
  | .pull =>
    s.results[s.taken]?.bind fun res =>
      (s.client.step shard (.source (some res))).map fun client =>
        { s with client, taken := s.taken + 1 }
  | .hangUp =>
    if s.taken = s.results.length then
      (s.client.step shard (.source none)).map fun client => { s with client }
    else none

/-- The beginning of a session. -/
structure Start (s : Rpc SteamID) : Prop where
  client : s.client.Start shard
  invocations : s.invocations = []
  wire : s.wire = []
  results : s.results = []
  taken : s.taken = 0

variable {shard codec multi session answers} {s t : Rpc SteamID} {a : Action SteamID} {i j : Nat}
  {call : Call} {inv : Invocation SteamID}

/-! ### What a step can do -/

/-- The steps, with what they do to the connection. -/
inductive StepsTo (shard : JobId → Nat) (codec : HeaderCodec) (multi : MultiCodec)
    (session : Session SteamID) (answers : RawNetMessage SteamID → RawNetMessage SteamID → Bool)
    (s : Rpc SteamID) : Action SteamID → Rpc SteamID → Prop
  | invoke {inv : Invocation SteamID} {thread : Nat} {client : Client SteamID}
      (h : s.client.step shard (.draw inv.callKind inv.parse thread) = some client) :
      StepsTo shard codec multi session answers s (.invoke inv thread)
        { s with client, invocations := s.invocations ++ [inv] }
  | transmit {i : Nat} {call : Call} {inv : Invocation SteamID} {m : RawNetMessage SteamID}
      {client : Client SteamID} (hcall : s.client.calls[i]? = some call)
      (hinv : s.invocations[i]? = some inv) (hsent : call.sent = false)
      (hm : inv.request codec session call.id = .ok m)
      (h : s.client.step shard (.transmit i) = some client) :
      StepsTo shard codec multi session answers s (.transmit i)
        { s with client, wire := s.wire ++ [m.intoBytes] }
  | refuse {i : Nat} {e : NetworkError} {client : Client SteamID}
      (h : s.client.step shard (.sendFailed i e) = some client) :
      StepsTo shard codec multi session answers s (.transmit i) { s with client }
  | client {a : Client.Action SteamID} {client : Client SteamID} (ha : IsOwn a)
      (h : s.client.step shard a = some client) :
      StepsTo shard codec multi session answers s (.client a) { s with client }
  | arrive {frame : Except NetworkError Bytes}
      (hjustified : ∀ m ∈ okMessages (incoming codec multi [frame]), Justified codec answers s.wire m) :
      StepsTo shard codec multi session answers s (.arrive frame)
        { s with results := s.results ++ incoming codec multi [frame] }
  | pull {res : Outcome NetworkError (RawNetMessage SteamID)} {client : Client SteamID}
      (hres : s.results[s.taken]? = some res)
      (h : s.client.step shard (.source (some res)) = some client) :
      StepsTo shard codec multi session answers s .pull { s with client, taken := s.taken + 1 }
  | hangUp {client : Client SteamID} (h : s.client.step shard (.source none) = some client) :
      StepsTo shard codec multi session answers s .hangUp { s with client }

/-- Every step is one of these. -/
theorem stepsTo_of_step (h : step shard codec multi session answers s a = some t) :
    StepsTo shard codec multi session answers s a t := by
  cases a with
  | invoke inv thread =>
    obtain ⟨client, hclient, rfl⟩ := Option.map_eq_some_iff.mp h
    exact .invoke hclient
  | transmit i =>
    obtain ⟨call, hcall, h⟩ := Option.bind_eq_some_iff.mp h
    obtain ⟨inv, hinv, h⟩ := Option.bind_eq_some_iff.mp h
    obtain ⟨hsent, h⟩ := Option.ite_none_left_eq_some.mp h
    cases hm : inv.request codec session call.id with
    | ok m =>
      rw [hm] at h
      obtain ⟨client, hclient, rfl⟩ := Option.map_eq_some_iff.mp h
      exact .transmit hcall hinv (eq_false_of_ne_true hsent) hm hclient
    | error e =>
      rw [hm] at h
      obtain ⟨client, hclient, rfl⟩ := Option.map_eq_some_iff.mp h
      exact .refuse hclient
  | client a =>
    obtain ⟨hown, h⟩ := Option.ite_none_right_eq_some.mp h
    obtain ⟨client, hclient, rfl⟩ := Option.map_eq_some_iff.mp h
    exact .client hown hclient
  | arrive frame =>
    obtain ⟨hjustified, heq⟩ := Option.ite_none_right_eq_some.mp h
    cases heq
    exact .arrive hjustified
  | pull =>
    obtain ⟨res, hres, h⟩ := Option.bind_eq_some_iff.mp h
    obtain ⟨client, hclient, rfl⟩ := Option.map_eq_some_iff.mp h
    exact .pull hres hclient
  | hangUp =>
    obtain ⟨-, h⟩ := Option.ite_none_right_eq_some.mp h
    obtain ⟨client, hclient, rfl⟩ := Option.map_eq_some_iff.mp h
    exact .hangUp hclient

/-- A step makes a call, or none. -/
theorem StepsTo.client_cases (h : StepsTo shard codec multi session answers s a t) :
    (∃ inv thread, s.client.step shard (.draw inv.callKind inv.parse thread) = some t.client ∧
      t.invocations = s.invocations ++ [inv]) ∨
    t.invocations = s.invocations ∧ (t.client = s.client ∨
      ∃ b, (∀ kind parse thread, b ≠ .draw kind parse thread) ∧
        s.client.step shard b = some t.client) := by
  cases h with
  | invoke h => exact .inl ⟨_, _, h, rfl⟩
  | arrive => exact .inr ⟨rfl, .inl rfl⟩
  | client ha h =>
    refine .inr ⟨rfl, .inr ⟨_, ?_, h⟩⟩
    rintro kind parse thread rfl
    exact ha
  | transmit _ _ _ _ h | refuse h | pull _ h | hangUp h =>
    exact .inr ⟨rfl, .inr ⟨_, by simp, h⟩⟩

/-- What happens to the connection is a step of it, or nothing. -/
theorem StepsTo.client_steps (h : StepsTo shard codec multi session answers s a t) :
    t.client = s.client ∨ ∃ b, s.client.step shard b = some t.client := by
  rcases h.client_cases with ⟨inv, thread, hstep, -⟩ | ⟨-, hsame | ⟨b, -, hstep⟩⟩
  · exact .inr ⟨_, hstep⟩
  · exact .inl hsame
  · exact .inr ⟨b, hstep⟩

/-! ### Own answers -/

variable (codec session) in
/-- The headers of the requests are not too long. -/
def Fits (s : Rpc SteamID) : Prop :=
  ∀ p ∈ s.client.calls.zip s.invocations, p.2.Fits codec session p.1.id

instance (s : Rpc SteamID) : Decidable (s.Fits codec session) :=
  inferInstanceAs (Decidable (∀ p ∈ s.client.calls.zip s.invocations, _))

variable (codec session answers) in
/-- A call is what its caller made, everything that it receives is a right response to its own
request, and a call for one response that succeeds has received one message, and could read
it. -/
structure AnsweredOwn (s : Rpc SteamID) : Prop where
  matched : ∀ {i : Nat} {call : Call} {inv : Invocation SteamID}, s.client.calls[i]? = some call →
    s.invocations[i]? = some inv → call.kind = inv.callKind ∧ call.parse = inv.parse
  own : ∀ {i : Nat} {call : Call} {inv : Invocation SteamID}, s.client.calls[i]? = some call →
    s.invocations[i]? = some inv → call.phase ≠ .drawn →
      ∀ item ∈ (s.client.filter.channels call.chan).inbox, ∃ sent req,
        inv.request codec session call.id = .ok sent ∧
        inv.IsRead codec session call.id sent.intoBytes req ∧ answers req item.message = true
  succeeded : ∀ call ∈ s.client.calls, call.kind.isMulti = false → call.phase.Succeeded →
    ∃ item completed, (s.client.filter.channels call.chan).inbox = [item] ∧
      call.respond item.message = .ok completed

variable (codec session) in
/-- The bytes are the request of a call that was sent. -/
def IsRequest (s : Rpc SteamID) (b : Bytes) : Prop :=
  ∃ (i : Nat) (call : Call) (inv : Invocation SteamID) (m : RawNetMessage SteamID),
    s.client.calls[i]? = some call ∧ s.invocations[i]? = some inv ∧ call.sent = true ∧
      inv.request codec session call.id = .ok m ∧ b = m.intoBytes

variable (codec session answers) in
/-- What ties the calls to what is on the wire. -/
structure Inv (s : Rpc SteamID) : Prop where
  client : s.client.Inv
  numbered : s.client.Numbered
  length : s.invocations.length = s.client.calls.length
  matched : ∀ {i : Nat} {call : Call} {inv : Invocation SteamID}, s.client.calls[i]? = some call →
    s.invocations[i]? = some inv → call.kind = inv.callKind ∧ call.parse = inv.parse
  wire : ∀ b ∈ s.wire, s.IsRequest codec session b
  results : ∀ m ∈ okMessages s.results, Justified codec answers s.wire m
  task : ∀ item, s.client.filter.task.item = some item → Justified codec answers s.wire item.message
  received : ∀ call ∈ s.client.calls,
    Client.ReceivesAll (Justified codec answers s.wire) s.client.filter call
  answered : ∀ call ∈ s.client.calls, Client.Succeeds s.client.filter call

omit [DecidableEq SteamID] in
/-- What was justified stays so. -/
theorem Justified.mono {wire wire' : List Bytes} {m : RawNetMessage SteamID}
    (h : Justified codec answers wire m) (hwire : wire ⊆ wire') : Justified codec answers wire' m := by
  rcases h with hnone | ⟨b, hb, hanswer⟩
  · exact .inl hnone
  · exact .inr ⟨b, hwire hb, hanswer⟩

theorem inv_of_start (hs : s.Start shard) : s.Inv codec session answers := by
  have hcalls := hs.client.calls
  refine ⟨hs.client.inv, hs.client.numbered, ?_, ?_, ?_, ?_,
    fun item hitem => .inl (hs.client.task item hitem), ?_, ?_⟩
  · rw [hs.invocations, hcalls]
    rfl
  · intro i call inv hcall
    rw [hcalls] at hcall
    cases hcall
  · rw [hs.wire]
    exact fun b hb => absurd hb List.not_mem_nil
  · rw [hs.results]
    exact fun m hm => absurd hm List.not_mem_nil
  · rw [hcalls]
    exact fun call hcall => absurd hcall List.not_mem_nil
  · rw [hcalls]
    exact fun call hcall => absurd hcall List.not_mem_nil

/-- The calls only get more. -/
theorem StepsTo.length_le (h : StepsTo shard codec multi session answers s a t) :
    s.client.calls.length ≤ t.client.calls.length := by
  rcases h.client_steps with hsame | ⟨b, hb⟩
  · exact hsame ▸ Nat.le_refl _
  · rw [(Client.stepsTo_of_step hb).length_eq]
    exact Nat.le_add_right ..

/-- No call is lost, and none is unsent. -/
theorem StepsTo.exists_call (h : StepsTo shard codec multi session answers s a t)
    (hcall : s.client.calls[i]? = some call) :
    ∃ call', t.client.calls[i]? = some call' ∧ call'.id = call.id ∧
      (call.sent = true → call'.sent = true) := by
  rcases h.client_steps with hsame | ⟨b, hb⟩
  · exact ⟨call, hsame ▸ hcall, rfl, id⟩
  · exact (Client.stepsTo_of_step hb).exists_call hcall

/-- Requests and invocations stay. -/
theorem StepsTo.prefix_of (h : StepsTo shard codec multi session answers s a t) :
    s.wire <+: t.wire ∧ s.invocations <+: t.invocations := by
  cases h with
  | invoke => exact ⟨List.prefix_rfl, List.prefix_append ..⟩
  | transmit => exact ⟨List.prefix_append .., List.prefix_rfl⟩
  | _ => exact ⟨List.prefix_rfl, List.prefix_rfl⟩

theorem StepsTo.getElem?_invocations (h : StepsTo shard codec multi session answers s a t)
    (hinv : s.invocations[i]? = some inv) : t.invocations[i]? = some inv := by
  obtain ⟨rest, hrest⟩ := h.prefix_of.2
  rw [← hrest, List.getElem?_append_left (List.getElem?_eq_some_iff.mp hinv).1, hinv]

/-- A call and its invocation are made together. -/
theorem Inv.matched_of_steps (hs : s.Inv codec session answers)
    (h : StepsTo shard codec multi session answers s a t) :
    t.invocations.length = t.client.calls.length ∧
      ∀ {i : Nat} {call : Call} {inv : Invocation SteamID}, t.client.calls[i]? = some call →
        t.invocations[i]? = some inv → call.kind = inv.callKind ∧ call.parse = inv.parse := by
  rcases h.client_cases with ⟨new, thread, hstep, hnew⟩ | ⟨hinvs, hsame | ⟨b, hb, hstep⟩⟩
  -- a new call is behind the others, as its invocation is
  · have hsteps := Client.stepsTo_of_step hstep
    rw [hnew, hsteps.length_eq]
    refine ⟨by simp [hs.length, Client.Action.draws], fun {i call inv} hcall hinv => ?_⟩
    rcases hsteps.call_cases hcall with ⟨before, hbefore, hkind, hparse, -, -⟩ | ⟨rfl, thread', heq⟩
    · have hlt := (List.getElem?_eq_some_iff.mp hbefore).1
      rw [List.getElem?_append_left (hs.length ▸ hlt)] at hinv
      rw [hkind, hparse]
      exact hs.matched hbefore hinv
    · rw [← hs.length, List.getElem?_concat_length, Option.some.injEq] at hinv
      rw [Client.Action.draw.injEq] at heq
      rw [← hinv]
      exact ⟨heq.1.symm, heq.2.1.symm⟩
  · rw [hinvs, hsame]
    exact ⟨hs.length, hs.matched⟩
  · have hsteps := Client.stepsTo_of_step hstep
    rw [hinvs]
    constructor
    · rw [hsteps.length_eq, hs.length]
      cases b with
      | draw => exact absurd rfl (hb _ _ _)
      | _ => rfl
    · intro i call inv hcall hinv
      rcases hsteps.call_cases hcall with ⟨before, hbefore, hkind, hparse, -, -⟩ | ⟨-, thread, heq⟩
      · rw [hkind, hparse]
        exact hs.matched hbefore hinv
      · exact absurd heq (hb _ _ _)

/-- A request stays the request of its call. -/
theorem IsRequest.of_steps {b : Bytes} (hb : s.IsRequest codec session b)
    (h : StepsTo shard codec multi session answers s a t) : t.IsRequest codec session b := by
  obtain ⟨i, call, inv, m, hcall, hinv, hsent, hm, rfl⟩ := hb
  obtain ⟨call', hcall', hid, hsent'⟩ := h.exists_call hcall
  exact ⟨i, call', inv, m, hcall', h.getElem?_invocations hinv, hsent' hsent, by rw [hid, hm], rfl⟩

/-- What is on the wire are the requests of the calls. -/
theorem Inv.wire_of_steps (hs : s.Inv codec session answers)
    (h : StepsTo shard codec multi session answers s a t) :
    ∀ b ∈ t.wire, t.IsRequest codec session b := by
  have hold : ∀ b ∈ s.wire, t.IsRequest codec session b := fun b hb => (hs.wire b hb).of_steps h
  cases h with
  | @transmit i call inv m client hcall hinv _ hm hstep =>
    intro b hb
    rcases List.mem_append.mp hb with hbefore | hnew
    · exact hold b hbefore
    · obtain ⟨call', new, g, hget, hcallStep, rfl⟩ := Client.exists_callStep_of_step hstep rfl
      obtain rfl := Option.some.inj (hget.symm.trans hcall)
      obtain ⟨-, heq⟩ := Option.ite_none_right_eq_some.mp hcallStep
      cases heq
      have hlt := (List.getElem?_eq_some_iff.mp hcall).1
      exact ⟨i, _, inv, m, List.getElem?_set_self hlt, hinv, rfl, hm, List.mem_singleton.mp hnew⟩
  | _ => exact hold

/-- The peer is honest, and so is what the task got of it. -/
theorem Inv.task_of_steps (hs : s.Inv codec session answers)
    (h : StepsTo shard codec multi session answers s a t) {item : Item SteamID}
    (ht : t.client.filter.task.item = some item) :
    Justified codec answers s.wire item.message := by
  have hclient : ∀ {b}, s.client.step shard b = some t.client →
      (b ≠ .source (some (.ok item.message))) → Justified codec answers s.wire item.message := by
    intro b hstep hb
    exact hs.task item (((Client.stepsTo_of_step hstep).item_cases ht).resolve_right hb)
  cases h with
  | arrive => exact hs.task item ht
  | client ha hstep =>
    refine hclient hstep ?_
    rintro rfl
    exact ha
  | @pull res client hres hstep =>
    rcases (Client.stepsTo_of_step hstep).item_cases ht with hold | heq
    · exact hs.task item hold
    · cases heq
      exact hs.results _ (mem_okMessages.mpr (List.mem_of_getElem? hres))
  | invoke hstep | transmit _ _ _ _ hstep | refuse hstep | hangUp hstep =>
    exact hclient hstep (by simp)

/-- What was made of the frames was justified when it arrived. -/
theorem Inv.results_of_steps (hs : s.Inv codec session answers)
    (h : StepsTo shard codec multi session answers s a t) :
    ∀ m ∈ okMessages t.results, Justified codec answers t.wire m := by
  have hold : ∀ m ∈ okMessages s.results, Justified codec answers t.wire m :=
    fun m hm => (hs.results m hm).mono h.prefix_of.1.subset
  cases h with
  | arrive hjustified =>
    intro m hm
    rw [mem_okMessages, List.mem_append] at hm
    rcases hm with hm | hm
    · exact hold m (mem_okMessages.mpr hm)
    · exact hjustified m (mem_okMessages.mpr hm)
  | _ => exact hold

/-- A message for a job is for a call whose request was sent, and answers it. -/
theorem Inv.exists_request (hs : s.Inv codec session answers) (hcodec : codec.Lawful)
    (hfits : s.Fits codec session) {m : RawNetMessage SteamID}
    (hm : Justified codec answers s.wire m) (hjob : m.header.targetJobId ≠ JobId.none) :
    ∃ (i : Nat) (call : Call) (inv : Invocation SteamID) (sent req : RawNetMessage SteamID),
      s.client.calls[i]? = some call ∧ s.invocations[i]? = some inv ∧ call.sent = true ∧
        call.id = m.header.targetJobId ∧ inv.request codec session call.id = .ok sent ∧
          inv.IsRead codec session call.id sent.intoBytes req ∧ answers req m = true := by
  rcases hm with hnone | ⟨b, hb, hanswer⟩
  · exact absurd hnone hjob
  · obtain ⟨i, call, inv, sent, hcall, hinv, hcallSent, hsent, rfl⟩ := hs.wire b hb
    have hpair : (call, inv) ∈ s.client.calls.zip s.invocations :=
      List.mem_of_getElem? (List.getElem?_zip_eq_some.mpr ⟨hcall, hinv⟩)
    obtain ⟨req, hreq⟩ := Invocation.exists_isRead hcodec (hfits _ hpair) hsent
    rw [isAnswer, hreq.read] at hanswer
    obtain ⟨hid, hanswers⟩ := Bool.and_eq_true_iff.mp hanswer
    -- the job id in the request tells whose it is
    exact ⟨i, call, inv, sent, req, hcall, hinv, hcallSent,
      hreq.sourceJobId.symm.trans (of_decide_eq_true hid), hsent, hreq, hanswers⟩

/-- What the task pulls is addressed to a call whose request was sent. -/
theorem Inv.addressed (hs : s.Inv codec session answers) (hcodec : codec.Lawful)
    (hfits : s.Fits codec session) {res : Outcome NetworkError (RawNetMessage SteamID)}
    (hres : res ∈ s.results) : s.client.Addressed (some res) := by
  cases res with
  | ok m =>
    by_cases hjob : m.header.targetJobId = JobId.none
    · exact .inl hjob
    · obtain ⟨i, call, _, _, _, hcall, -, hsent, hid, -⟩ :=
        hs.exists_request hcodec hfits (hs.results m (mem_okMessages.mpr hres)) hjob
      exact .inr ⟨call, List.mem_of_getElem? hcall, hsent, hid⟩
  | err | panic => trivial

/-- Headers that are not too long later are not too long before. -/
theorem Fits.of_steps (ht : t.Fits codec session)
    (h : StepsTo shard codec multi session answers s a t) : s.Fits codec session := by
  rintro ⟨call, inv⟩ hpair
  obtain ⟨i, hi⟩ := List.mem_iff_getElem?.mp hpair
  obtain ⟨hcall, hinv⟩ := List.getElem?_zip_eq_some.mp hi
  obtain ⟨call', hcall', hid, -⟩ := h.exists_call hcall
  have hlater := ht (call', inv) (List.mem_of_getElem?
    (List.getElem?_zip_eq_some.mpr ⟨hcall', h.getElem?_invocations hinv⟩))
  exact hid ▸ hlater

/-- On the connection ids are handed out once, and the peer is honest. -/
theorem Inv.client_steps (hs : s.Inv codec session answers) (hcodec : codec.Lawful)
    (h : StepsTo shard codec multi session answers s a t)
    (hdraws : t.client.calls.length < 2 ^ 64 - 1) (hfits : t.Fits codec session) :
    t.client = s.client ∨ ∃ b, s.client.step shard b = some t.client ∧
      Client.FreshIds s.client b ∧ s.client.Honest b := by
  have hfresh : ∀ {b}, s.client.step shard b = some t.client → Client.FreshIds s.client b := by
    rintro b hstep kind parse thread rfl
    have hlength := (Client.stepsTo_of_step hstep).length_eq
    exact hs.numbered.freshIds (by rw [hlength] at hdraws; exact hdraws) kind parse thread rfl
  have haddressed : ∀ {res}, res ∈ s.results → s.client.Addressed (some res) :=
    hs.addressed hcodec (hfits.of_steps h)
  cases h with
  | arrive => exact .inl rfl
  | pull hres hstep =>
    exact .inr ⟨_, hstep, hfresh hstep, haddressed (List.mem_of_getElem? hres)⟩
  | client ha hstep =>
    refine .inr ⟨_, hstep, hfresh hstep, ?_⟩
    unfold Client.Honest
    split
    · exact ha.elim
    · trivial
  | invoke hstep | transmit _ _ _ _ hstep | refuse hstep | hangUp hstep =>
    exact .inr ⟨_, hstep, hfresh hstep, trivial⟩

/-- Every step keeps the calls tied to what is on the wire. -/
theorem Inv.of_steps (hs : s.Inv codec session answers) (hcodec : codec.Lawful)
    (h : StepsTo shard codec multi session answers s a t)
    (hdraws : t.client.calls.length < 2 ^ 64 - 1) (hfits : t.Fits codec session) :
    t.Inv codec session answers := by
  -- what was justified by the requests so far still is
  have hmono : ∀ {m}, Justified codec answers s.wire m → Justified codec answers t.wire m :=
    fun hm => hm.mono h.prefix_of.1.subset
  have hcalls : t.client.Inv ∧ t.client.Numbered ∧
      (∀ call ∈ t.client.calls,
        Client.ReceivesAll (Justified codec answers s.wire) t.client.filter call) ∧
      ∀ call ∈ t.client.calls, Client.Succeeds t.client.filter call := by
    rcases hs.client_steps hcodec h hdraws hfits with hsame | ⟨b, hstep, hfresh, hpeer⟩
    · rw [hsame]
      exact ⟨hs.client, hs.numbered, hs.received, hs.answered⟩
    · have hsteps := Client.stepsTo_of_step hstep
      exact ⟨hs.client.of_steps hsteps hfresh hpeer, hs.numbered.of_steps hsteps hdraws,
        Client.receivesAll_of_steps hs.client hsteps hs.task hs.received,
        Client.succeeds_of_steps hs.client hsteps hs.answered⟩
  obtain ⟨hclient, hnumbered, hreceived, hanswered⟩ := hcalls
  exact ⟨hclient, hnumbered, (hs.matched_of_steps h).1, (hs.matched_of_steps h).2,
    hs.wire_of_steps h, hs.results_of_steps h, fun item hitem => hmono (hs.task_of_steps h hitem),
    fun call hcall hne item hitem => hmono (hreceived call hcall hne item hitem), hanswered⟩

theorem inv_of_reachable (hcodec : codec.Lawful)
    (hs : Reachable (step shard codec multi session answers) (Start shard) s)
    (hdraws : s.client.calls.length < 2 ^ 64 - 1) (hfits : s.Fits codec session) :
    s.Inv codec session answers := by
  have hinv : s.client.calls.length < 2 ^ 64 - 1 → s.Fits codec session →
      s.Inv codec session answers := by
    apply hs.invariant
    · exact fun s hstart _ _ => inv_of_start hstart
    · intro s a t ih hstep hlt hfits
      have hsteps := stepsTo_of_step hstep
      exact (ih (hsteps.length_le.trans_lt hlt) (hfits.of_steps hsteps)).of_steps hcodec hsteps hlt
        hfits
  exact hinv hdraws hfits

/-- With fewer than `2 ^ 64 - 1` calls made, every call gets answers to its own request only. -/
theorem answeredOwn_of_reachable (hcodec : codec.Lawful)
    (hs : Reachable (step shard codec multi session answers) (Start shard) s)
    (hdraws : s.client.calls.length < 2 ^ 64 - 1) (hfits : s.Fits codec session) :
    s.AnsweredOwn codec session answers := by
  have hinv := inv_of_reachable hcodec hs hdraws hfits
  have hclient := hinv.client
  refine ⟨hinv.matched, fun {i call inv} hcall hget hphase item hitem => ?_,
    fun call hmem hmulti hdone => ?_⟩
  · have hmem := List.mem_of_getElem? hcall
    have htarget := (hclient.call call hmem).inbox hphase item hitem
    obtain ⟨j, other, inv', sent, req, hother, hinv', -, hid, hsent, hreq, hanswers⟩ :=
      hinv.exists_request hcodec hfits (hinv.received call hmem hphase item hitem)
        fun hnone => hclient.ne_none call hmem (htarget.symm.trans hnone)
    obtain rfl := Client.index_eq_of_id_eq hclient.ids hother hcall (hid.trans htarget)
    obtain rfl := Option.some.inj (hother.symm.trans hcall)
    obtain rfl := Option.some.inj (hinv'.symm.trans hget)
    exact ⟨sent, req, hsent, hreq, hanswers⟩
  · exact (hinv.answered call hmem).inbox_eq (hclient.call call hmem).receives hclient.owned hmulti
      hdone

/-- A session of a user. -/
def userSession : Session UInt64 := { steamId := 76561197960287930, sessionId := 3 }

/-- A request is sent back. -/
def echoes (req m : RawNetMessage UInt64) : Bool := req.data = m.data

/-- A call to a service method that sends its request back. -/
def echo (request : Bytes) : Invocation UInt64 :=
  .serviceMethod "Echo.Echo#1" request fun _ => .ok true

/-- The response to the call with a job id. -/
def echoResponse (id : UInt64) (body : Bytes) : Bytes :=
  ({ (default : NetMessageHeader UInt64) with
      targetJobId := ⟨id⟩
      targetJobName := some "Echo.Echo#1" } : NetMessageHeader UInt64).write HeaderCodec.wire
    EMsg.kEMsgServiceMethodResponse true ++ body

/-- The second of two calls is answered first. -/
def echoRun : List (Action UInt64) :=
  [.invoke (echo [7]) 0, .invoke (echo [8]) 1, .client (.register 0), .client (.register 1),
    .transmit 0, .transmit 1, .client (.sendOk 0), .client (.sendOk 1),
    .arrive (.ok (echoResponse 2 [8])), .arrive (.ok (echoResponse 1 [7])), .pull,
    .client (.filter .dispatch), .client (.filter .dispatch), .pull, .client (.filter .dispatch),
    .client (.filter .dispatch), .client (.receive 1), .client (.receive 0)]

omit [SteamIdOps SteamID] [DecidableEq SteamID] in
theorem start_init : ({} : Rpc SteamID).Start shard := ⟨Client.start_init, rfl, rfl, rfl, rfl⟩

theorem answeredOwn_of_reachable_echoRun :
    ∃ s, run (step (fun _ => 0) HeaderCodec.wire MultiCodec.wire userSession echoes) {} echoRun =
        some s ∧
      s.AnsweredOwn HeaderCodec.wire userSession echoes := by
  exact ⟨_, rfl, @answeredOwn_of_reachable UInt64 _ _ (fun _ => 0) HeaderCodec.wire MultiCodec.wire
    userSession echoes _ HeaderCodec.wire_lawful ⟨{}, echoRun, start_init, rfl⟩ (by decide)
    (by decide)⟩

end Rpc

end SteamWire
