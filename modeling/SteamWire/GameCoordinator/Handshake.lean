import SteamWire.Connection.OneKind
import SteamWire.GameCoordinator.Send
import SteamWire.Session.Logon

/-!
# Handshakes with game coordinators

A client tells a coordinator that it plays a game, subscribes to the welcome, and sends hellos
until the welcome comes. Which kind of welcome it waits for depends on the session, while
the kind that the handshake decodes is fixed by its type. So a welcome that is waited for is
returned, unless the session is that of a game server: then it is always refused
(`GameCoordinator.completes_iff`).
-/

namespace SteamWire

open Semantics

/-! ### The messages -/

/-- The kinds that the coordinators of all games share. -/
inductive GCMsgKind where
  | invalid
  | kEMsgGCClientWelcome
  | kEMsgGCServerWelcome
  | kEMsgGCClientHello
  | kEMsgGCServerHello
  deriving DecidableEq, Repr

instance : MsgKindEnum GCMsgKind where
  enumValue
    | .invalid => 0
    | .kEMsgGCClientWelcome => 4004
    | .kEMsgGCServerWelcome => 4005
    | .kEMsgGCClientHello => 4006
    | .kEMsgGCServerHello => 4007

abbrev GCMsgKind.kind (k : GCMsgKind) : MsgKind := MsgKindEnum.toMsgKind k

/-- The generated kinds of the games, as far as the handshakes use them. -/
inductive EgcBaseClientMsg where
  | kEMsgGcClientWelcome
  deriving DecidableEq, Repr

instance : MsgKindEnum EgcBaseClientMsg where
  enumValue
    | .kEMsgGcClientWelcome => 4004

abbrev EgcBaseClientMsg.kind (k : EgcBaseClientMsg) : MsgKind := MsgKindEnum.toMsgKind k

/-- The hello of the generic handshake. -/
structure CMsgClientHello where
  protocolVersion : Option UInt32 := none
  deriving DecidableEq, Repr

def CMsgClientHello.encode (hello : CMsgClientHello) : Bytes :=
  Protobuf.write (hello.protocolVersion.map fun x => ⟨1, .varint x.toUInt64⟩).toList

/-- The welcome of the generic handshake, whose contents are not looked at. -/
structure GenericCMsgClientWelcome where
  deriving DecidableEq, Repr

/-- The announcement that one game is played. -/
def cMsgClientGamesPlayed (appId : UInt32) : Bytes :=
  Protobuf.write [⟨1, .bytes (Protobuf.write [⟨2, .fixed64 appId.toUInt64⟩])⟩]

/-- How a generated message is decoded: nothing but missing fields decodes to the message that
has none set. -/
structure ProstMessage (T : Type) where
  decode : Bytes → Except ProtoError T
  empty : T
  decode_nil : decode [] = .ok empty

/-! ### The handshakes -/

/-- A handshake: the app, the hello, and how the welcome is read. -/
structure GCHandshake (SteamID Welcome : Type) where
  appId : UInt32
  hello : EncodableMessage SteamID
  welcome : BodyReader SteamID Welcome

variable {SteamID W : Type}

def genericGCHandshake (appId : UInt32) (hello : CMsgClientHello) :
    GCHandshake SteamID GenericCMsgClientWelcome where
  appId
  hello := rpcMessage hello.encode
  welcome := rpcMessageReader GCMsgKind.kEMsgGCClientWelcome.kind fun _ => .ok {}

/-- The handshake of csgo, given its hello as it is encoded. -/
def csgoGCHandshake (welcome : ProstMessage W) (hello : Bytes) : GCHandshake SteamID W where
  appId := 730
  hello := rpcMessage hello
  welcome := rpcMessageReader EgcBaseClientMsg.kEMsgGcClientWelcome.kind welcome.decode

/-- The handshake of tf2, given its hello as it is encoded. -/
def tf2GCHandshake (welcome : ProstMessage W) (hello : Bytes) : GCHandshake SteamID W where
  appId := 440
  hello := rpcMessage hello
  welcome := rpcMessageReader EgcBaseClientMsg.kEMsgGcClientWelcome.kind welcome.decode

/-- The handshakes of the repository, by the type of their welcome. -/
inductive ShippedHandshake : Type → Type 1
  | generic (appId : UInt32) (hello : CMsgClientHello) : ShippedHandshake GenericCMsgClientWelcome
  | csgo {W : Type} (welcome : ProstMessage W) (hello : Bytes) : ShippedHandshake W
  | tf2 {W : Type} (welcome : ProstMessage W) (hello : Bytes) : ShippedHandshake W

namespace ShippedHandshake

def handshake : ShippedHandshake W → GCHandshake SteamID W
  | .generic appId hello => genericGCHandshake appId hello
  | .csgo welcome hello => csgoGCHandshake welcome hello
  | .tf2 welcome hello => tf2GCHandshake welcome hello

/-- All of them read their welcome alike. -/
theorem exists_welcome_eq (h : ShippedHandshake W) :
    ∃ (parse : Bytes → Except ProtoError W) (empty : W), parse [] = .ok empty ∧
      (h.handshake : GCHandshake SteamID W).welcome =
        rpcMessageReader GCMsgKind.kEMsgGCClientWelcome.kind parse := by
  cases h with
  | generic => exact ⟨_, {}, rfl, rfl⟩
  | csgo welcome | tf2 welcome => exact ⟨welcome.decode, welcome.empty, welcome.decode_nil, rfl⟩

end ShippedHandshake

/-! ### The handshake as a transition system -/

/-- An error of the sink that a transport writes to. -/
inductive SinkError where
  | io (error : IoError)
  | ws (text : String)
  deriving DecidableEq, Repr

def SinkError.toNetworkError : SinkError → NetworkError
  | .io e => .io e
  | .ws text => .ws text

theorem SinkError.toNetworkError_ne (e : SinkError) (x y : MsgKind) :
    e.toNetworkError ≠ .differentMessage x y := by
  cases e <;> exact nofun

/-- What the sink makes of a message. -/
abbrev SendRaw (SteamID : Type) := RawNetMessage SteamID → Except SinkError Unit

/-- The loop that sends hellos: in a send, or in the sleep after one. -/
inductive HelloSender where
  | sending
  | sleeping
  deriving DecidableEq, Repr

/-- Where `init_raw` is: before the announcement, behind it, in the race between the welcome
and the hellos, or at its end. -/
inductive InitPhase (SteamID : Type) where
  | announcing
  | announced
  | waiting (rx : ChanId) (hello : HelloSender)
  | returned (res : Except NetworkError (RawNetMessage SteamID))

/-- A run of `init_raw`, with the filter that it made for the coordinator. -/
structure InitRaw (SteamID : Type) where
  filter : MessageFilter SteamID := {}
  phase : InitPhase SteamID := .announcing

namespace Session

variable (session : Session SteamID) [HasAccountType SteamID]

/-- The kind that `send_hello` gives to the hellos. -/
def helloKind : GCMsgKind :=
  if session.isServer then .kEMsgGCServerHello else .kEMsgGCClientHello

/-- The kind that `wait_welcome` subscribes to. -/
def welcomeKind : GCMsgKind :=
  if session.isServer then .kEMsgGCServerWelcome else .kEMsgGCClientWelcome

end Session

namespace InitRaw

/-- What can happen during a handshake. The first poll of the race subscribes to the welcome
and starts to send a hello. -/
inductive Action (SteamID : Type) where
  | gamesPlayed (sendRaw : SendRaw SteamID)
  | poll
  | hello (sendRaw : SendRaw SteamID)
  | wake
  | welcome
  | closed
  | next (res : Option (Outcome NetworkError (RawNetMessage SteamID)))
  | dispatch

/-- The filter's task goes on. -/
def Action.isDispatch : Action SteamID → Bool
  | .dispatch => true
  | _ => false

variable [SteamIdOps SteamID] [DecidableEq SteamID] [HasAccountType SteamID] (codec : HeaderCodec)
  (gc : GcCodec) (session : Session SteamID) (appId : UInt32) (hello : EncodableMessage SteamID)

/-- Send the announcement. -/
def sendGamesPlayed (sendRaw : SendRaw SteamID) : Except NetworkError Unit := do
  let m ← RawNetMessage.fromMessageWithKind codec (session.header false).1
    (rpcMessage (cMsgClientGamesPlayed appId)) EMsg.kEMsgClientGamesPlayedWithDataBlob true
  (sendRaw m).mapError SinkError.toNetworkError

/-- `send_hello`. -/
def sendHello (sendRaw : SendRaw SteamID) : Except NetworkError Unit := do
  let session := session.withAppId appId
  let m ← GameCoordinator.rawSendWithKind codec gc appId (session.header false).1 hello
    session.helloKind true
  (sendRaw m).mapError SinkError.toNetworkError

/-- The sending end of the welcome's receiver is gone. -/
def SenderGone (s : InitRaw SteamID) (rx : ChanId) : Prop :=
  s.filter.oneshotKindFilters session.welcomeKind.kind ≠ some rx ∧
    s.filter.task.held ≠ some (.oneKind session.welcomeKind.kind, rx)

/-- The race polls the welcome first: the hellos go on while it is pending. -/
def IsPending (s : InitRaw SteamID) (rx : ChanId) : Prop :=
  (s.filter.channels rx).unread.length = 0 ∧ ¬ s.SenderGone session rx

instance (s : InitRaw SteamID) (rx : ChanId) : Decidable (s.SenderGone session rx) :=
  inferInstanceAs (Decidable (_ ∧ _))

instance (s : InitRaw SteamID) (rx : ChanId) : Decidable (s.IsPending session rx) :=
  inferInstanceAs (Decidable (_ ∧ _))

/-- The race is over, and its loser dropped. -/
def finish (filter : MessageFilter SteamID) (rx : ChanId)
    (res : Except NetworkError (RawNetMessage SteamID)) : InitRaw SteamID where
  filter := filter.dropReceiver rx
  phase := .returned res

/-- One step of `init_raw`, or of the task of its filter. -/
def step (s : InitRaw SteamID) : Action SteamID → Option (InitRaw SteamID)
  | .gamesPlayed sendRaw =>
    match s.phase with
    | .announcing =>
      match sendGamesPlayed codec session appId sendRaw with
      | .ok () => some { s with phase := .announced }
      | .error e => some { s with phase := .returned (.error e) }
    | _ => none
  | .poll =>
    match s.phase with
    | .announced =>
      some
        -- the receiver is registered when the future is polled, not when it is made
        { filter := s.filter.oneKind session.welcomeKind.kind
          phase := .waiting s.filter.nextChan .sending }
    | _ => none
  | .hello sendRaw =>
    match s.phase with
    | .waiting rx .sending =>
      if s.IsPending session rx then
        -- a hello that cannot be sent ends the race
        match sendHello codec gc session appId hello sendRaw with
        | .ok () => some { s with phase := .waiting rx .sleeping }
        | .error e => some (finish s.filter rx (.error e))
      else none
    | _ => none
  | .wake =>
    match s.phase with
    | .waiting rx .sleeping =>
      if s.IsPending session rx then some { s with phase := .waiting rx .sending } else none
    | _ => none
  | .welcome =>
    match s.phase with
    | .waiting rx _ =>
      (s.filter.recv rx).map fun (item, filter) => finish filter rx (.ok item.message)
    | _ => none
  | .closed =>
    match s.phase with
    | .waiting rx _ =>
      if (s.filter.channels rx).unread.length = 0 ∧ s.SenderGone session rx then
        some (finish s.filter rx (.error .eof))
      else none
    | _ => none
  | .next res =>
    match s.filter.task with
    | .awaiting => some { s with filter := s.filter.next res }
    | _ => none
  | .dispatch => s.filter.dispatch.map fun filter => { s with filter }

/-- What `with_handshake` returns, once it does. -/
def withHandshake (handshake : GCHandshake SteamID W) (s : InitRaw SteamID) :
    Option (Except NetworkError W) :=
  match s.phase with
  | .returned res => some (res.bind fun m => m.intoMessage handshake.welcome)
  | _ => none

/-! ### What a step does -/

section Steps

variable {codec gc session appId hello} {s t : InitRaw SteamID} {a : Action SteamID} {rx : ChanId}
  {sender : HelloSender}

variable (codec gc session appId hello) in
/-- The steps of a handshake. -/
inductive StepsTo (s : InitRaw SteamID) : Action SteamID → InitRaw SteamID → Prop
  | announced {sendRaw : SendRaw SteamID} (hphase : s.phase = .announcing)
      (hsend : sendGamesPlayed codec session appId sendRaw = .ok ()) :
      StepsTo s (.gamesPlayed sendRaw) { s with phase := .announced }
  | notAnnounced {sendRaw : SendRaw SteamID} {e : NetworkError} (hphase : s.phase = .announcing)
      (hsend : sendGamesPlayed codec session appId sendRaw = .error e) :
      StepsTo s (.gamesPlayed sendRaw) { s with phase := .returned (.error e) }
  | subscribed (hphase : s.phase = .announced) :
      StepsTo s .poll
        { filter := s.filter.oneKind session.welcomeKind.kind
          phase := .waiting s.filter.nextChan .sending }
  | sent {sendRaw : SendRaw SteamID} {rx : ChanId} (hphase : s.phase = .waiting rx .sending)
      (hsend : sendHello codec gc session appId hello sendRaw = .ok ()) :
      StepsTo s (.hello sendRaw) { s with phase := .waiting rx .sleeping }
  | failed {sendRaw : SendRaw SteamID} {rx : ChanId} {e : NetworkError}
      (hphase : s.phase = .waiting rx .sending) (hpending : s.IsPending session rx)
      (hsend : sendHello codec gc session appId hello sendRaw = .error e) :
      StepsTo s (.hello sendRaw) (finish s.filter rx (.error e))
  | woken {rx : ChanId} (hphase : s.phase = .waiting rx .sleeping) :
      StepsTo s .wake { s with phase := .waiting rx .sending }
  | welcomed {rx : ChanId} {sender : HelloSender} {item : Item SteamID}
      {filter : MessageFilter SteamID} (hphase : s.phase = .waiting rx sender)
      (hrecv : s.filter.recv rx = some (item, filter)) :
      StepsTo s .welcome (finish filter rx (.ok item.message))
  | closed {rx : ChanId} {sender : HelloSender} (hphase : s.phase = .waiting rx sender)
      (hunread : (s.filter.channels rx).unread = []) (hgone : s.SenderGone session rx) :
      StepsTo s .closed (finish s.filter rx (.error .eof))
  | next {res : Option (Outcome NetworkError (RawNetMessage SteamID))}
      {filter : MessageFilter SteamID} (h : s.filter.StepsTo (.next res) filter) :
      StepsTo s (.next res) { s with filter }
  | dispatch {filter : MessageFilter SteamID} (h : s.filter.dispatch = some filter) :
      StepsTo s .dispatch { s with filter }

/-- Every step is one of these. -/
theorem stepsTo_of_step (h : s.step codec gc session appId hello a = some t) :
    StepsTo codec gc session appId hello s a t := by
  cases a with
  | gamesPlayed sendRaw =>
    simp only [step] at h
    split at h
    · rename_i hphase
      split at h <;> rename_i hsend <;> cases h
      · exact .announced hphase hsend
      · exact .notAnnounced hphase hsend
    · cases h
  | poll =>
    simp only [step] at h
    split at h <;> rename_i hphase <;> cases h
    exact .subscribed hphase
  | hello sendRaw =>
    simp only [step] at h
    split at h
    · rename_i hphase
      obtain ⟨hpending, h⟩ := Option.ite_none_right_eq_some.mp h
      split at h <;> rename_i hsend <;> cases h
      · exact .sent hphase hsend
      · exact .failed hphase hpending hsend
    · cases h
  | wake =>
    simp only [step] at h
    split at h
    · rename_i hphase
      obtain ⟨-, h⟩ := Option.ite_none_right_eq_some.mp h
      cases h
      exact .woken hphase
    · cases h
  | welcome =>
    simp only [step] at h
    split at h
    · rename_i hphase
      obtain ⟨⟨item, filter⟩, hrecv, rfl⟩ := Option.map_eq_some_iff.mp h
      exact .welcomed hphase hrecv
    · cases h
  | closed =>
    simp only [step] at h
    split at h
    · rename_i hphase
      obtain ⟨⟨hunread, hgone⟩, h⟩ := Option.ite_none_right_eq_some.mp h
      cases h
      exact .closed hphase (List.length_eq_zero_iff.mp hunread) hgone
    · cases h
  | next res =>
    have hnext : s.filter.step (fun _ => 0) (.next res) = some t.filter ∧ t.phase = s.phase := by
      simp only [step] at h
      split at h <;> rename_i htask <;> cases h
      exact ⟨by simp only [MessageFilter.step, htask], rfl⟩
    obtain ⟨hfilter, hphase⟩ := hnext
    obtain ⟨filter, phase⟩ := t
    obtain rfl : phase = s.phase := hphase
    exact .next (MessageFilter.stepsTo_of_step hfilter)
  | dispatch =>
    obtain ⟨filter, hfilter, rfl⟩ := Option.map_eq_some_iff.mp h
    exact .dispatch hfilter

/-- A send fails because the message cannot be written, or because of the sink. -/
theorem sendHello_ne {sendRaw : SendRaw SteamID} {e : NetworkError}
    (h : sendHello codec gc session appId hello sendRaw = .error e) (x y : MsgKind) :
    e ≠ .differentMessage x y := by
  rcases bind_eq_error_iff.mp h with hwrite | ⟨m, -, hsend⟩
  · obtain ⟨error, rfl⟩ := GameCoordinator.exists_of_rawSendWithKind_eq_error hwrite
    exact nofun
  · obtain ⟨error, -, rfl⟩ := mapError_eq_error_iff.mp hsend
    exact error.toNetworkError_ne x y

omit [HasAccountType SteamID] in
theorem sendGamesPlayed_ne {sendRaw : SendRaw SteamID} {e : NetworkError}
    (h : sendGamesPlayed codec session appId sendRaw = .error e) (x y : MsgKind) :
    e ≠ .differentMessage x y := by
  rcases bind_eq_error_iff.mp h with hwrite | ⟨m, -, hsend⟩
  · rw [RawNetMessage.fromMessageWithKind_eq rfl] at hwrite
    cases hwrite
  · obtain ⟨error, -, rfl⟩ := mapError_eq_error_iff.mp hsend
    exact error.toNetworkError_ne x y

end Steps

end InitRaw

namespace InitRaw

variable [SteamIdOps SteamID] [DecidableEq SteamID] [HasAccountType SteamID] {codec : HeaderCodec}
  {gc : GcCodec} {session : Session SteamID} {appId : UInt32} {hello : EncodableMessage SteamID}
  {s t : InitRaw SteamID} {a : Action SteamID} {rx : ChanId} {item : Item SteamID}

/-! ### What holds during a handshake -/

section Inv

variable (session) in
/-- While the race is on there is a receiver for the welcome, and only a message of that kind
is returned. -/
structure Inv (s : InitRaw SteamID) : Prop where
  owned : s.filter.Owned
  noJobs : s.filter.NoJobs
  waits : ∀ {rx sender}, s.phase = .waiting rx sender →
    s.filter.Waits session.welcomeKind.kind rx
  kind : ∀ {m}, s.phase = .returned (.ok m) → m.kind = session.welcomeKind.kind
  error : ∀ {e}, s.phase = .returned (.error e) → ∀ x y, e ≠ .differentMessage x y

omit [DecidableEq SteamID] [SteamIdOps SteamID] in
theorem inv_init : ({} : InitRaw SteamID).Inv session where
  owned := MessageFilter.owned_init
  noJobs := ⟨fun _ => rfl, fun _ => rfl⟩
  waits := nofun
  kind := nofun
  error := nofun

omit [DecidableEq SteamID] [SteamIdOps SteamID] in
/-- The end of the race. -/
theorem inv_finish {filter : MessageFilter SteamID}
    {res : Except NetworkError (RawNetMessage SteamID)} (hown : filter.Owned) (hjobs : filter.NoJobs)
    (hkind : ∀ {m}, res = .ok m → m.kind = session.welcomeKind.kind)
    (herror : ∀ {e}, res = .error e → ∀ x y, e ≠ .differentMessage x y) :
    (finish filter rx res).Inv session where
  owned := hown.of_steps .drop
  noJobs := ⟨hjobs.single, hjobs.multi⟩
  waits := nofun
  kind h := hkind (InitPhase.returned.inj h)
  error h := herror (InitPhase.returned.inj h)

/-- Every step keeps this. -/
theorem Inv.of_steps (hs : s.Inv session) (h : StepsTo codec gc session appId hello s a t) :
    t.Inv session := by
  cases h with
  | announced => exact ⟨hs.owned, hs.noJobs, nofun, nofun, nofun⟩
  | notAnnounced _ hsend =>
    exact ⟨hs.owned, hs.noJobs, nofun, nofun,
      fun h => Except.error.inj (InitPhase.returned.inj h) ▸ sendGamesPlayed_ne hsend⟩
  | subscribed =>
    have hregister : s.filter.StepsTo (.oneKind session.welcomeKind.kind)
        (s.filter.oneKind session.welcomeKind.kind) :=
      .register rfl (MessageFilter.registers_oneKind ..)
    refine ⟨hs.owned.of_steps hregister, ⟨hs.noJobs.single, hs.noJobs.multi⟩, fun h => ?_, nofun, nofun⟩
    obtain ⟨rfl, -⟩ := InitPhase.waiting.inj h
    exact MessageFilter.waits_oneKind
  | sent hphase | woken hphase =>
    refine ⟨hs.owned, hs.noJobs, fun h => ?_, nofun, nofun⟩
    obtain ⟨rfl, -⟩ := InitPhase.waiting.inj h
    exact hs.waits hphase
  | failed _ _ hsend =>
    exact inv_finish hs.owned hs.noJobs nofun fun h => Except.error.inj h ▸ sendHello_ne hsend
  | @welcomed rx _ item filter hphase hrecv =>
    obtain ⟨hmem, taken, htaken, rfl⟩ := MessageFilter.of_recv_eq_some hrecv
    refine inv_finish (hs.owned.of_steps (.recv (List.ne_nil_of_mem hmem) htaken))
      ⟨hs.noJobs.single, hs.noJobs.multi⟩ (fun h => ?_) nofun
    -- only messages of the kind are sent to the receiver
    exact Except.ok.inj h ▸ (hs.waits hphase).kinds item hmem
  | closed =>
    exact inv_finish hs.owned hs.noJobs nofun fun h => Except.error.inj h ▸ nofun
  | next hnext =>
    exact ⟨hs.owned.of_steps hnext, hnext.of_next.2.2.2 hs.noJobs,
      fun h => (hs.waits h).of_next hnext, hs.kind, hs.error⟩
  | dispatch hfilter =>
    have hdispatch := MessageFilter.dispatches_of_eq_some hfilter
    exact ⟨hs.owned.of_steps (.dispatch hdispatch), hs.noJobs.of_dispatches hdispatch,
      fun h => (hs.waits h).of_dispatches hs.owned hdispatch, hs.kind, hs.error⟩

variable (codec gc session appId hello) in
/-- The states of a handshake. -/
abbrev IsReachable : InitRaw SteamID → Prop :=
  Reachable (step codec gc session appId hello) (· = {})

theorem IsReachable.inv (hs : IsReachable codec gc session appId hello s) : s.Inv session :=
  Reachable.invariant (fun _ h => h ▸ inv_init) (fun _ _ _ hs h => hs.of_steps (stepsTo_of_step h))
    hs

end Inv

/-! ### The way of the welcome -/

section Way

variable (codec gc session appId hello) in
/-- The send of a hello fails before the task has sent the welcome on. -/
def HelloFails (w : List (Action SteamID)) (e : NetworkError) : Prop :=
  ∃ u sendRaw v, w = u ++ .hello sendRaw :: v ∧ u.countP Action.isDispatch < 4 ∧
    sendHello codec gc session appId hello sendRaw = .error e

variable (codec gc session appId hello) in
/-- What becomes of a message that came in and is waited for, `w` later: it is on its way, it was
returned, or a hello failed first. -/
def Underway (item : Item SteamID) (w : List (Action SteamID)) (s : InitRaw SteamID) : Prop :=
  (∃ rx sender, s.phase = .waiting rx sender ∧
      s.filter.OnItsWay rx item (w.countP Action.isDispatch)) ∨
    s.phase = .returned (.ok item.message) ∨
      ∃ e, s.phase = .returned (.error e) ∧ HelloFails codec gc session appId hello w e

theorem HelloFails.append {w : List (Action SteamID)} {e : NetworkError}
    (h : HelloFails codec gc session appId hello w e) (a : Action SteamID) :
    HelloFails codec gc session appId hello (w ++ [a]) e := by
  obtain ⟨u, sendRaw, v, rfl, hu, hsend⟩ := h
  exact ⟨u, sendRaw, v ++ [a], by rw [List.append_assoc, List.cons_append], hu, hsend⟩

theorem StepsTo.returned_eq {res : Except NetworkError (RawNetMessage SteamID)}
    (h : StepsTo codec gc session appId hello s a t) (hs : s.phase = .returned res) :
    t.phase = .returned res := by
  cases h with
  | next | dispatch => exact hs
  | announced hphase | notAnnounced hphase | subscribed hphase | sent hphase | failed hphase
  | woken hphase | welcomed hphase | closed hphase =>
    rw [hphase] at hs
    cases hs

/-- Every step keeps track of the message. -/
theorem Underway.of_steps {w : List (Action SteamID)} (hs : s.Inv session)
    (hkind : item.kind = session.welcomeKind.kind)
    (hway : Underway codec gc session appId hello item w s)
    (h : StepsTo codec gc session appId hello s a t) :
    Underway codec gc session appId hello item (w ++ [a]) t := by
  rcases hway with ⟨rx, sender, hphase, hway⟩ | hreturned | ⟨e, hreturned, hfails⟩
  · have hwaits := hs.waits hphase
    rw [← hkind] at hwaits
    have hsent := hway.cases_sent hwaits hs.owned
    -- one case for each step, with the message where `hsent` says
    rw [Underway, List.countP_append, List.countP_singleton]
    cases h with
    | announced hphase' | notAnnounced hphase' | subscribed hphase' =>
      rw [hphase] at hphase'
      cases hphase'
    | sent hphase' | woken hphase' =>
      obtain ⟨rfl, -⟩ := InitPhase.waiting.inj (hphase.symm.trans hphase')
      exact .inl ⟨_, _, rfl, hway⟩
    | @failed sendRaw rx' e hphase' hpending hsend =>
      obtain ⟨rfl, -⟩ := InitPhase.waiting.inj (hphase.symm.trans hphase')
      rcases hsent with ⟨hn, -⟩ | hunread
      · exact .inr (.inr ⟨e, rfl, w, sendRaw, [], rfl, hn, hsend⟩)
      · -- the welcome is there, so the race does not get to the hellos
        have hnone := hpending.1
        rw [hunread] at hnone
        cases hnone
    | @welcomed rx' _ item' filter hphase' hrecv =>
      obtain ⟨rfl, -⟩ := InitPhase.waiting.inj (hphase.symm.trans hphase')
      rw [hwaits.recv_eq] at hrecv
      obtain ⟨⟨x, channel⟩, hchannel, heq⟩ := Option.map_eq_some_iff.mp hrecv
      obtain ⟨rfl, -⟩ := Prod.mk.inj heq
      have hunread := Channel.unread_of_recv hchannel
      rcases hsent with ⟨-, hnil, -⟩ | hitem
      · rw [hnil] at hunread
        cases hunread
      · obtain ⟨rfl, -⟩ := List.cons.inj (hitem.symm.trans hunread)
        exact .inr (.inl rfl)
    | closed hphase' hunread hgone =>
      obtain ⟨rfl, -⟩ := InitPhase.waiting.inj (hphase.symm.trans hphase')
      -- the sending end is not gone before the message is there
      rw [SenderGone, ← hkind] at hgone
      rcases hsent with ⟨-, -, hslot | hheld⟩ | hitem
      · exact absurd hslot hgone.1
      · exact absurd hheld hgone.2
      · rw [hitem] at hunread
        cases hunread
    | next hnext => exact .inl ⟨rx, sender, hphase, hway.of_next hnext⟩
    | dispatch hfilter =>
      exact .inl ⟨rx, sender, hphase, hway.of_dispatches hwaits hs.owned hs.noJobs hfilter⟩
  · exact .inr (.inl (h.returned_eq hreturned))
  · exact .inr (.inr ⟨e, h.returned_eq hreturned, hfails.append a⟩)

/-- A message that is waited for is on its way once it came in. -/
theorem underway_of_next {sender : HelloSender} {m : RawNetMessage SteamID}
    (hphase : s.phase = .waiting rx sender) (hslot : s.filter.oneshotKindFilters m.kind = some rx)
    (h : s.step codec gc session appId hello (.next (some (.ok m))) = some t) :
    Underway codec gc session appId hello ⟨s.filter.pulled, m⟩ [] t := by
  simp only [step] at h
  split at h <;> cases h
  exact .inl ⟨rx, sender, hphase, .jobLookup rfl hslot⟩

/-- While the message is on its way, the task can go on or the race can end. -/
theorem Underway.cases_enabled {w : List (Action SteamID)} (hs : s.Inv session)
    (hkind : item.kind = session.welcomeKind.kind)
    (hway : Underway codec gc session appId hello item w s) :
    s.phase = .returned (.ok item.message) ∨
      (∃ e, s.phase = .returned (.error e) ∧ HelloFails codec gc session appId hello w e) ∨
      (w.countP Action.isDispatch < 4 ∧
        (s.step codec gc session appId hello .dispatch).isSome) ∨
      (s.step codec gc session appId hello .welcome).isSome := by
  rcases hway with ⟨rx, sender, hphase, hway⟩ | hreturned | hfails
  · have hwaits := hs.waits hphase
    rw [← hkind] at hwaits
    rcases hway.cases_sent hwaits hs.owned with ⟨hn, -⟩ | hunread
    · obtain ⟨g, hg, -⟩ := hway.exists_dispatch hwaits hs.owned hs.noJobs hn
      exact .inr (.inr (.inl ⟨hn, by simp [step, hg]⟩))
    · exact .inr (.inr (.inr (by simp [step, hphase, hwaits.recv_eq, Channel.recv, hunread])))
  · exact .inl hreturned
  · exact .inr (.inl hfails)

/-- The task and the waiter bring the message to the caller when the hellos let them. -/
theorem exists_run_returned {sender : HelloSender} {n : Nat} (hs : s.Inv session)
    (hkind : item.kind = session.welcomeKind.kind) (hphase : s.phase = .waiting rx sender)
    (hway : s.filter.OnItsWay rx item n) :
    ∃ w t, run (step codec gc session appId hello) s w = some t ∧
      t.phase = .returned (.ok item.message) ∧ w.countP Action.isDispatch = 4 - n := by
  -- by the steps of the task that are left
  induction hleft : 4 - n generalizing s n with
  | zero =>
    have hwaits := hs.waits hphase
    rw [← hkind] at hwaits
    have hunread : (s.filter.channels rx).unread = [item] := by
      rcases hway.cases_sent hwaits hs.owned with ⟨hn, -⟩ | hunread
      · omega
      · exact hunread
    obtain ⟨t, ht⟩ : ∃ t, s.step codec gc session appId hello .welcome = some t ∧
        t.phase = .returned (.ok item.message) := by
      simp [step, hphase, hwaits.recv_eq, Channel.recv, hunread, finish]
    exact ⟨[.welcome], t, by rw [run_cons, ht.1]; rfl, ht.2, rfl⟩
  | succ k ih =>
    have hwaits := hs.waits hphase
    rw [← hkind] at hwaits
    obtain ⟨g, hg, hway'⟩ := hway.exists_dispatch hwaits hs.owned hs.noJobs (by omega)
    have hstep : s.step codec gc session appId hello .dispatch = some { s with filter := g } := by
      simp [step, hg]
    have hs' : ({ s with filter := g } : InitRaw SteamID).Inv session :=
      hs.of_steps (stepsTo_of_step hstep)
    obtain ⟨w, t, hrun, ht, hcount⟩ := ih hs' hphase hway' (by omega)
    refine ⟨.dispatch :: w, t, run_cons_eq_some.mpr ⟨_, hstep, hrun⟩, ht, ?_⟩
    rw [List.countP_cons_of_pos rfl, hcount]

end Way

end InitRaw

/-! ### Whether the handshake succeeds -/

namespace GameCoordinator

variable [SteamIdOps SteamID] [DecidableEq SteamID] [HasAccountType SteamID] (codec : HeaderCodec)
  (gc : GcCodec) (session : Session SteamID) (handshake : GCHandshake SteamID W)

/-- One step of `with_handshake`. -/
abbrev handshakeStep : InitRaw SteamID → InitRaw.Action SteamID → Option (InitRaw SteamID) :=
  InitRaw.step codec gc session handshake.appId handshake.hello

/-- The receiver for a welcome of this kind is in the table of the filter. -/
def AwaitsWelcome (s : InitRaw SteamID) : Prop :=
  ∃ rx sender, s.phase = .waiting rx sender ∧
    s.filter.oneshotKindFilters session.welcomeKind.kind = some rx

/-- A welcome of the kind that is waited for, with a body that can be decoded. -/
def IsWelcome (m : RawNetMessage SteamID) (value : W) : Prop :=
  m.kind = session.welcomeKind.kind ∧ (∀ result ∈ m.header.result, result = 1) ∧
    handshake.welcome.readBody m.data m.header = .ok value

/-- Whatever happens from here on, the welcome is returned, unless a hello fails first: until
then the task can go on, for four steps at most, or the race can end. -/
def Settles (s : InitRaw SteamID) (value : W) : Prop :=
  ∀ w t, run (handshakeStep codec gc session handshake) s w = some t →
    (∃ res, t.withHandshake handshake = some res ∧
      (res = .ok value ∨
        ∃ e, res = .error e ∧
          InitRaw.HelloFails codec gc session handshake.appId handshake.hello w e)) ∨
    (w.countP InitRaw.Action.isDispatch < 4 ∧
      (handshakeStep codec gc session handshake t .dispatch).isSome) ∨
    (handshakeStep codec gc session handshake t .welcome).isSome

/-- The handshake succeeds whenever the coordinator answers, and never tells of another kind
of message. -/
structure Completes : Prop where
  welcomed : ∀ s t m value,
    InitRaw.IsReachable codec gc session handshake.appId handshake.hello s →
    AwaitsWelcome session s → IsWelcome session handshake m value →
    handshakeStep codec gc session handshake s (.next (some (.ok m))) = some t →
    Settles codec gc session handshake t value
  matched : ∀ s, InitRaw.IsReachable codec gc session handshake.appId handshake.hello s →
    ∀ x y, s.withHandshake handshake ≠ some (.error (.differentMessage x y))

variable {codec gc session handshake} {s : InitRaw SteamID}

omit [SteamIdOps SteamID] [DecidableEq SteamID] [HasAccountType SteamID] in
theorem withHandshake_of_returned {res : Except NetworkError (RawNetMessage SteamID)}
    (h : s.phase = .returned res) : s.withHandshake handshake =
      some (res.bind fun m => m.intoMessage handshake.welcome) := by
  rw [InitRaw.withHandshake, h]

/-- A handshake that decodes the kind it waits for succeeds. -/
theorem completes_of_kind_eq (hkind : handshake.welcome.kind = session.welcomeKind.kind)
    (hbody : ∀ data header x y,
      handshake.welcome.readBody data header ≠ .error (.differentMessage x y)) :
    Completes codec gc session handshake where
  welcomed s t m value hs hawaits hwelcome hstep := by
    intro w u hrun
    obtain ⟨rx, sender, hphase, hslot⟩ := hawaits
    obtain ⟨hmkind, hresult, hvalue⟩ := hwelcome
    rw [← hmkind] at hslot
    -- the invariant and the way of the message, along the run
    have hway := run_history
      (I := fun w s => s.Inv session ∧ InitRaw.Underway codec gc session handshake.appId
        handshake.hello ⟨_, m⟩ w s)
      (fun w s a t hs h => ⟨hs.1.of_steps (InitRaw.stepsTo_of_step h),
        hs.2.of_steps hs.1 hmkind (InitRaw.stepsTo_of_step h)⟩)
      ⟨InitRaw.IsReachable.inv (hs.next hstep), InitRaw.underway_of_next hphase hslot hstep⟩ hrun
    rw [List.nil_append] at hway
    rcases hway.2.cases_enabled hway.1 hmkind with hreturned | ⟨e, hreturned, hfails⟩ | henabled
    · refine .inl ⟨_, withHandshake_of_returned hreturned, .inl ?_⟩
      exact RawNetMessage.intoMessage_eq_ok_iff.mpr ⟨hresult, hmkind.trans hkind.symm, hvalue⟩
    · exact .inl ⟨_, withHandshake_of_returned hreturned, .inr ⟨e, rfl, hfails⟩⟩
    · exact .inr henabled
  matched s hs x y := by
    intro h
    have hinv := hs.inv
    cases hphase : s.phase with
    | returned res =>
      rw [withHandshake_of_returned hphase] at h
      have heq := Option.some.inj h
      cases res with
      | error e => exact hinv.error hphase x y (Except.error.inj heq)
      | ok m =>
        exact RawNetMessage.intoMessage_ne_differentMessage
          ((hinv.kind hphase).trans hkind.symm) (hbody _ _) x y heq
    | announcing | announced | waiting =>
      rw [InitRaw.withHandshake, hphase] at h
      cases h

/-- A welcome, as short as one can be. -/
def shortWelcome (session : Session SteamID) : RawNetMessage SteamID where
  kind := session.welcomeKind.kind
  isProtobuf := true
  header := default
  data := []
  frameHeaderBuffer := none
  ivBuffer := none
  headerBuffer := []

variable (codec gc session handshake) in
/-- A coordinator can answer with it while it is waited for. -/
theorem exists_run_shortWelcome :
    ∃ s t w u, InitRaw.IsReachable codec gc session handshake.appId handshake.hello s ∧
      AwaitsWelcome session s ∧
      handshakeStep codec gc session handshake s (.next (some (.ok (shortWelcome session)))) =
        some t ∧
      run (handshakeStep codec gc session handshake) t w = some u ∧
      u.phase = .returned (.ok (shortWelcome session)) ∧
      w.countP InitRaw.Action.isDispatch = 4 := by
  have hwaiting : InitRaw.IsReachable codec gc session handshake.appId handshake.hello
      { filter := ({} : MessageFilter SteamID).oneKind session.welcomeKind.kind
        phase := .waiting 0 .sending } :=
    ⟨{}, [.gamesPlayed fun _ => .ok (), .poll], rfl, rfl⟩
  have hslot : (({} : MessageFilter SteamID).oneKind session.welcomeKind.kind).oneshotKindFilters
      session.welcomeKind.kind = some 0 := Function.update_self ..
  -- nobody sends a hello, and the welcome is the first message
  have hnext := hwaiting.next (a := .next (some (.ok (shortWelcome session)))) rfl
  obtain ⟨w, u, hrun, hu, hcount⟩ := InitRaw.exists_run_returned (InitRaw.IsReachable.inv hnext) rfl
    rfl (.jobLookup rfl hslot)
  exact ⟨_, _, w, u, hwaiting, ⟨0, .sending, rfl, hslot⟩, rfl, hrun, hu, hcount⟩

/-- A handshake that decodes another kind than the one it waits for does not succeed. -/
theorem not_completes_of_kind_ne (hkind : handshake.welcome.kind ≠ session.welcomeKind.kind)
    {value : W} (hvalue : handshake.welcome.readBody [] default = .ok value) :
    ¬ Completes codec gc session handshake := by
  intro h
  obtain ⟨s, t, w, u, hs, hawaits, hnext, hrun, hphase, hcount⟩ :=
    exists_run_shortWelcome codec gc session handshake
  have hreturns := (withHandshake_of_returned hphase).trans
    (congrArg some (RawNetMessage.intoMessage_of_kind_ne rfl hkind.symm))
  have hresult : ∀ result ∈ (shortWelcome session).header.result, result = 1 :=
    fun result hmem => absurd hmem (Option.not_mem_none result)
  rcases h.welcomed s t _ value hs hawaits ⟨rfl, hresult, hvalue⟩ hnext w u hrun with
    ⟨res, hres, hright⟩ | ⟨hlt, -⟩ | hwelcome
  · obtain rfl := Option.some.inj (hreturns.symm.trans hres)
    rcases hright with hok | ⟨e, herror, _, _, _, -, -, hsend⟩
    · cases hok
    · exact InitRaw.sendHello_ne hsend _ _ (Except.error.inj herror).symm
  · omega
  · -- the race is over
    simp [handshakeStep, InitRaw.step, hphase] at hwelcome

/-- A handshake succeeds exactly for sessions that are not those of game servers. -/
theorem completes_iff (codec : HeaderCodec) (gc : GcCodec) (session : Session SteamID)
    (h : ShippedHandshake W) :
    Completes codec gc session h.handshake ↔ session.isServer = false := by
  obtain ⟨parse, empty, hempty, hwelcome⟩ := @h.exists_welcome_eq SteamID
  constructor
  · intro hcompletes
    -- a server waits for one kind, and decodes the other
    by_contra hserver
    rw [Bool.not_eq_false] at hserver
    have hkind : (h.handshake : GCHandshake SteamID W).welcome.kind ≠ session.welcomeKind.kind := by
      rw [hwelcome, Session.welcomeKind, hserver, if_pos rfl]
      exact (by decide : GCMsgKind.kEMsgGCClientWelcome.kind ≠ GCMsgKind.kEMsgGCServerWelcome.kind)
    have hvalue : (h.handshake : GCHandshake SteamID W).welcome.readBody [] default =
        .ok empty := by
      rw [hwelcome, rpcMessageReader]
      exact mapError_eq_ok_iff.mpr hempty
    exact not_completes_of_kind_ne hkind hvalue hcompletes
  · intro huser
    apply completes_of_kind_eq
    · rw [hwelcome, Session.welcomeKind, huser]
      rfl
    · intro data header x y
      rw [hwelcome]
      intro herror
      obtain ⟨e, -, he⟩ := mapError_eq_error_iff.mp herror
      cases he

/-- The first fields of the welcome of csgo. -/
structure CMsgClientWelcome where
  version : Option UInt32 := none
  gameData : Option Bytes := none
  deriving DecidableEq, Repr

/-- Take one record into the welcome. -/
def CMsgClientWelcome.merge (welcome : CMsgClientWelcome) (r : Protobuf.Record) :
    Option CMsgClientWelcome :=
  match r.number, r.value with
  | 1, .varint x => some { welcome with version := some x.toUInt32 }
  | 2, .bytes b => some { welcome with gameData := some b }
  | 1, _ | 2, _ => none
  | _, _ => some welcome

/-- The decoder of these fields on the wire. -/
def csgoWelcome : ProstMessage CMsgClientWelcome where
  decode b :=
    match (Protobuf.parse b).bind fun records => records.foldlM CMsgClientWelcome.merge {} with
    | some welcome => .ok welcome
    | none => .error .decode
  empty := {}
  decode_nil := rfl

/-- The handshake of a player of csgo succeeds. -/
theorem completes_csgoWelcome :
    Completes HeaderCodec.wire GcCodec.wire ({ steamId := 76561197960287930 } : Session UInt64)
      (ShippedHandshake.csgo csgoWelcome []).handshake :=
  (completes_iff _ _ _ _).mpr (by decide)

/-- The session of an anonymous game server. -/
def serverSession : Session UInt64 where
  steamId := 90071992547409920

/-- A game server is welcomed, and its handshake fails. -/
theorem not_completes_serverSession :
    IsWelcome serverSession (genericGCHandshake 440 {}) (shortWelcome serverSession) {} ∧
      (∃ s, InitRaw.IsReachable HeaderCodec.wire GcCodec.wire serverSession 440
          (rpcMessage (CMsgClientHello.encode {})) s ∧
        s.phase = .returned (.ok (shortWelcome serverSession)) ∧
        s.withHandshake (genericGCHandshake 440 {}) =
          some (.error (.differentMessage ⟨4004⟩ ⟨4005⟩))) ∧
      ¬ Completes HeaderCodec.wire GcCodec.wire serverSession (genericGCHandshake 440 {}) := by
  have hkind : (genericGCHandshake 440 {} : GCHandshake UInt64 _).welcome.kind ≠
      serverSession.welcomeKind.kind := by decide
  obtain ⟨s, t, w, u, hs, -, hnext, hrun, hphase, -⟩ :=
    exists_run_shortWelcome HeaderCodec.wire GcCodec.wire serverSession (genericGCHandshake 440 {})
  have hreturns := (withHandshake_of_returned hphase).trans
    (congrArg some (RawNetMessage.intoMessage_of_kind_ne rfl hkind.symm))
  exact ⟨⟨rfl, nofun, rfl⟩, ⟨u, (hs.next hnext).trans_run hrun, hphase, hreturns⟩,
    not_completes_of_kind_ne hkind rfl⟩

end GameCoordinator

end SteamWire
