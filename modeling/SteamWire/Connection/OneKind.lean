import SteamWire.Connection.Ownership

/-!
# Waiting for a message of one kind

The way of a message to the receiver that waits for its kind, in a filter that nobody waits
for a job at: three lookups and a send. The message comes closer with every step of the task
(`MessageFilter.OnItsWay.exists_dispatch`), and once it is sent it stays where the receiver
finds it (`MessageFilter.OnItsWay.of_dispatches`).
-/

namespace SteamWire

open Semantics

namespace MessageFilter

variable {SteamID : Type} {f g : MessageFilter SteamID} {kind : MsgKind} {rx : ChanId}

/-- Nobody waits for the response to a job. -/
structure NoJobs (f : MessageFilter SteamID) : Prop where
  single : ∀ id, f.jobIdFilters id = none
  multi : ∀ id, f.jobIdMultiFilters id = none

theorem NoJobs.of_dispatches (hf : f.NoJobs) (h : Dispatches f g) : g.NoJobs := by
  cases h with
  | jobHit htask hslot =>
    rw [hf.single] at hslot
    cases hslot
  | jobSend | multiSend | kindOnceSend | notificationSend | kindSend =>
    rw [deliver_eq]
    exact ⟨hf.single, hf.multi⟩
  | _ => exact ⟨hf.single, hf.multi⟩

/-- The task takes its next message without touching a table or a receiver. -/
theorem StepsTo.of_next {res : Option (Outcome NetworkError (RawNetMessage SteamID))}
    (h : f.StepsTo (.next res) g) :
    f.task = .awaiting ∧ g.channels = f.channels ∧ g.origins = f.origins ∧
      (f.NoJobs → g.NoJobs) := by
  cases h with
  | register ho => cases ho
  | pull htask | stop htask | skip htask => exact ⟨htask, rfl, rfl, fun hf => ⟨hf.single, hf.multi⟩⟩

/-- A message is sent to a waiter for its kind. -/
theorem Sends.kind_eq {item : Item SteamID} {c : ChanId} (h : Sends f item (.oneKind kind) c g) :
    item.kind = kind := by
  have hheld := h.held
  have hitem := h.item_eq
  cases htask : f.task with
  | kindOnceSend item' tx =>
    rw [htask] at hheld hitem
    obtain rfl := Option.some.inj hitem
    obtain ⟨hkind, -⟩ := Prod.mk.inj (Option.some.inj hheld)
    exact Origin.oneKind.inj hkind
  | _ =>
    rw [htask] at hheld
    cases hheld

/-! ### The receiver -/

/-- The receiver waits for a message of this kind. -/
structure Waits (f : MessageFilter SteamID) (kind : MsgKind) (rx : ChanId) : Prop where
  origin : f.origins rx = some (.oneKind kind)
  alive : (f.channels rx).alive = true
  untaken : (f.channels rx).taken = 0
  kinds : ∀ item ∈ (f.channels rx).inbox, item.kind = kind

theorem Waits.unread (hf : f.Waits kind rx) : (f.channels rx).unread = (f.channels rx).inbox := by
  rw [Channel.unread, hf.untaken, List.drop_zero]

theorem waits_oneKind : (f.oneKind kind).Waits kind f.nextChan where
  origin := (registers_oneKind f kind).origins_new
  alive := by rw [(registers_oneKind f kind).channels_new]
  untaken := by rw [(registers_oneKind f kind).channels_new]
  kinds := by
    rw [(registers_oneKind f kind).channels_new]
    exact nofun

/-- A step of the task leaves the receiver as it is, or gives it its message. -/
theorem Waits.of_dispatches (hf : f.Waits kind rx) (hown : f.Owned) (h : Dispatches f g) :
    g.Waits kind rx := by
  have horigin : g.origins rx = some (.oneKind kind) :=
    ((StepsTo.dispatch h).origins_eq (.inr rfl)).trans hf.origin
  rcases hown.inbox_of_dispatches h hf.origin (Origin.oneShot_oneKind kind).not_isBroadcast with
    hsame | ⟨item, hsend, -, hpush⟩
  · exact ⟨horigin, by rw [hsame, hf.alive], by rw [hsame, hf.untaken], by
      rw [hsame]
      exact hf.kinds⟩
  · refine ⟨horigin, by rw [hpush, Channel.push_alive, hf.alive],
      by rw [hpush, Channel.push_taken, hf.untaken], fun other hother => ?_⟩
    rw [hpush, Channel.push_inbox, List.mem_append, List.mem_singleton] at hother
    rcases hother with hold | rfl
    · exact hf.kinds other hold
    · exact hsend.kind_eq

theorem Waits.of_next {res : Option (Outcome NetworkError (RawNetMessage SteamID))}
    (hf : f.Waits kind rx) (h : f.StepsTo (.next res) g) : g.Waits kind rx := by
  obtain ⟨-, hchannels, horigins, -⟩ := h.of_next
  exact ⟨by rw [horigins, hf.origin], by rw [hchannels, hf.alive], by rw [hchannels, hf.untaken], by
    rw [hchannels]
    exact hf.kinds⟩

/-- What the receiver takes is its message. -/
theorem Waits.recv_eq (hf : f.Waits kind rx) : f.recv rx =
    (f.channels rx).recv.map fun (item, channel) => (item, f.setChannel rx channel) := by
  rw [recv, hf.origin]

/-! ### The message -/

/-- A message is on its way to a receiver, `n` steps of the task after it came in. -/
inductive OnItsWay (f : MessageFilter SteamID) (rx : ChanId) (item : Item SteamID) : Nat → Prop
  | jobLookup (htask : f.task = .jobLookup item)
      (hslot : f.oneshotKindFilters item.kind = some rx) : OnItsWay f rx item 0
  | multiLookup (htask : f.task = .multiLookup item)
      (hslot : f.oneshotKindFilters item.kind = some rx) : OnItsWay f rx item 1
  | kindOnceLookup (htask : f.task = .kindOnceLookup item)
      (hslot : f.oneshotKindFilters item.kind = some rx) : OnItsWay f rx item 2
  | kindOnceSend (htask : f.task = .kindOnceSend item rx) : OnItsWay f rx item 3
  | delivered {n : Nat} (hn : 4 ≤ n) (hinbox : (f.channels rx).inbox = [item]) :
      OnItsWay f rx item n

variable {item : Item SteamID} {n : Nat}

/-- Until it is sent, the task can go on, and the message gets closer. -/
theorem OnItsWay.exists_dispatch (h : f.OnItsWay rx item n) (hf : f.Waits item.kind rx)
    (hown : f.Owned) (hjobs : f.NoJobs) (hn : n < 4) :
    ∃ g, f.dispatch = some g ∧ g.OnItsWay rx item (n + 1) := by
  cases h with
  | jobLookup htask hslot =>
    refine ⟨{ f with task := .multiLookup item }, ?_, .multiLookup rfl hslot⟩
    simp only [dispatch, htask, hjobs.single]
  | multiLookup htask hslot =>
    refine ⟨{ f with task := .kindOnceLookup item }, ?_, .kindOnceLookup rfl hslot⟩
    simp only [dispatch, htask, hjobs.multi]
  | kindOnceLookup htask hslot =>
    refine ⟨{ f with
      oneshotKindFilters := Function.update f.oneshotKindFilters item.kind none
      task := .kindOnceSend item rx }, ?_, .kindOnceSend rfl⟩
    simp only [dispatch, htask, hslot]
  | kindOnceSend htask =>
    refine ⟨f.deliver .oneshotKind item [rx], by simp only [dispatch, htask],
      .delivered (Nat.le_refl 4) ?_⟩
    -- the sending end is in the hand of the task, so nothing was sent with it yet
    have hheld : f.task.held = some (.oneKind item.kind, rx) := by rw [htask]; rfl
    rw [deliver_channels, if_pos ⟨List.mem_singleton_self rx, hf.alive⟩, Channel.push_inbox,
      (hown.unsent_held (Origin.oneShot_oneKind _) hheld).1, List.nil_append]
  | delivered hge => omega

/-- A message that was sent stays alone in the inbox. -/
theorem OnItsWay.of_dispatches (h : f.OnItsWay rx item n) (hf : f.Waits item.kind rx)
    (hown : f.Owned) (hjobs : f.NoJobs) (hstep : f.dispatch = some g) :
    g.OnItsWay rx item (n + 1) := by
  by_cases hn : n < 4
  · obtain ⟨g', hg', hway⟩ := h.exists_dispatch hf hown hjobs hn
    exact Option.some.inj (hg'.symm.trans hstep) ▸ hway
  · cases h with
    | delivered hge hinbox =>
      refine .delivered (Nat.le_succ_of_le hge) ?_
      have hdispatch := dispatches_of_eq_some hstep
      have hone := Origin.oneShot_oneKind item.kind
      rcases hown.inbox_of_dispatches hdispatch hf.origin hone.not_isBroadcast with
        hsame | ⟨other, hsend, -, -⟩
      · rw [hsame, hinbox]
      · -- a second message would need a second sending end
        have hnil := (hown.unsent_held hone hsend.held).1
        rw [hinbox] at hnil
        cases hnil
    | _ => omega

theorem OnItsWay.of_next {res : Option (Outcome NetworkError (RawNetMessage SteamID))}
    (h : f.OnItsWay rx item n) (hstep : f.StepsTo (.next res) g) : g.OnItsWay rx item n := by
  obtain ⟨htask', hchannels, -⟩ := hstep.of_next
  cases h with
  | delivered hge hinbox => exact .delivered hge (by rw [hchannels, hinbox])
  | jobLookup htask | multiLookup htask | kindOnceLookup htask | kindOnceSend htask =>
    -- the task pulls only when it is done with a message
    rw [htask] at htask'
    cases htask'

/-- Before it is sent, the sending end is there, and the receiver has nothing to read. -/
theorem OnItsWay.cases_sent (h : f.OnItsWay rx item n) (hf : f.Waits item.kind rx)
    (hown : f.Owned) :
    n < 4 ∧ (f.channels rx).unread = [] ∧
        (f.oneshotKindFilters item.kind = some rx ∨
          f.task.held = some (.oneKind item.kind, rx)) ∨
      (f.channels rx).unread = [item] := by
  rw [hf.unread]
  have hone := Origin.oneShot_oneKind item.kind
  cases h with
  | jobLookup _ hslot | multiLookup _ hslot | kindOnceLookup _ hslot =>
    exact .inl ⟨by decide, hown.unsent hone hslot, .inl hslot⟩
  | kindOnceSend htask =>
    have hheld : f.task.held = some (.oneKind item.kind, rx) := by rw [htask]; rfl
    exact .inl ⟨by decide, (hown.unsent_held hone hheld).1, .inr hheld⟩
  | delivered _ hinbox => exact .inr hinbox

end MessageFilter

end SteamWire
