import Mathlib.Data.Finset.Card
import SteamWire.Connection.Ownership

/-!
# Waiters for one message of a kind

The table of one-shot waiters has one slot for a kind, and a registration replaces what
is in it. `noneDisplaced_iff` says which runs serve all waiters of a kind: those in which
each of them registers when no other one waits.

A waiter that is stored keeps the messages of its kind that no job takes from passing the
slot (`Serving`), so that the first of them is delivered to it.
-/

namespace SteamWire

open Semantics

namespace MessageFilter

variable {SteamID : Type} {shard : JobId → Nat} {f g : MessageFilter SteamID} {a : Action SteamID}
  {kind : MsgKind} {c d : ChanId}

/-- A waiter for a message of a kind that exists and got none yet. -/
structure Pending (f : MessageFilter SteamID) (kind : MsgKind) (c : ChanId) : Prop where
  origin : f.origins c = some (.oneKind kind)
  alive : (f.channels c).alive = true
  inbox : (f.channels c).inbox = []

/-- The sending end of every pending waiter is stored, or held by the task. -/
def NoneDisplaced (f : MessageFilter SteamID) : Prop :=
  ∀ kind c, f.Pending kind c →
    f.Stored (.oneKind kind) c ∨ f.task.held = some (.oneKind kind, c)

/-- A waiter registers when no other one of its kind waits. -/
def RegistersVacant (f : MessageFilter SteamID) (a : Action SteamID) : Prop :=
  ∀ kind, a = .oneKind kind → ∀ c, f.Stored (.oneKind kind) c → (f.channels c).alive ≠ true

/-- The messages of a kind, from the `n`-th of all on, that the task is done with and no job
took. -/
def servable (f : MessageFilter SteamID) (kind : MsgKind) (n : Nat) :
    List (Item SteamID × Fate) :=
  f.fates.filter fun p => n ≤ p.1.seq ∧ p.1.kind = kind ∧ ¬ p.2.ByJob

/-- Whenever the task is done with as many messages of a kind as waiters of that kind were
pending after the last registration, each of those that still exist got exactly one, and
no two got the same. -/
def ServesAll (shard : JobId → Nat) (w : List (Action SteamID)) : Prop :=
  ∀ u kind v s t, w = u ++ .oneKind kind :: v → (∀ a ∈ v, a ≠ .oneKind kind) →
    run (step shard) {} (u ++ [.oneKind kind]) = some s → run (step shard) s v = some t →
    ∀ W : Finset ChanId, (∀ c ∈ W, s.Pending kind c) → (∀ c ∈ W, (t.channels c).alive = true) →
      W.card ≤ (t.servable kind s.pulled).length →
        (∀ c ∈ W, (t.channels c).inbox.length = 1) ∧
          ∀ c ∈ W, ∀ d ∈ W, c ≠ d → ∀ x ∈ (t.channels c).inbox, ∀ y ∈ (t.channels d).inbox,
            x.seq ≠ y.seq

/-! ### Displaced waiters -/

section Displaced

/-- A pending waiter was pending before the step, or registers in it. -/
theorem Owned.pending_of_steps (hf : f.Owned) (h : StepsTo f a g) (hg : g.Pending kind c) :
    f.Pending kind c ∨ c = f.nextChan ∧ a.origin = some (.oneKind kind) ∧
      Registers f (.oneKind kind) g := by
  rcases h.origin_cases hg.origin with horigin | ⟨ho, hnew, hreg⟩
  · refine .inl ⟨horigin, ?_, ?_⟩
    · rcases h.alive_of hg.alive with halive | ⟨hnew, -⟩
      · exact halive
      · exact absurd hnew (hf.ne_nextChan horigin)
    · rcases hf.inbox_of_steps h horigin not_false with hsame | ⟨item, -, -, hpush⟩
      · rw [← hsame, hg.inbox]
      · -- a waiter that gets a message now does not wait after the step
        have hinbox := hg.inbox
        rw [hpush, Channel.push_inbox] at hinbox
        exact absurd hinbox (List.append_ne_nil_of_right_ne_nil _ (List.cons_ne_nil _ _))
  · exact .inr ⟨hnew, ho, hreg⟩

/-- The actions that register a waiter. -/
theorem Action.eq_oneKind_of_origin (h : a.origin = some (.oneKind kind)) : a = .oneKind kind := by
  cases a <;> cases h
  rfl

/-- No waiter is displaced by a step that meets the condition. -/
theorem NoneDisplaced.of_steps (hf : NoneDisplaced f) (hown : f.Owned) (h : StepsTo f a g)
    (hguard : RegistersVacant f a) : NoneDisplaced g := by
  intro kind c hg
  rcases hown.pending_of_steps h hg with hold | ⟨rfl, ho, hreg⟩
  · rcases hf kind c hold with hstored | hheld
    · rcases h.stored_or hstored with hstored' | hheld' | ho | ⟨id, -, ho⟩
      · exact .inl hstored'
      · exact .inr hheld'
      · exact absurd hold.alive (hguard kind (Action.eq_oneKind_of_origin ho) c hstored)
      · cases ho
    · by_cases ha : a = .dispatch
      · subst ha
        have hdispatch := h.dispatches
        exact absurd hg.inbox (hdispatch.inbox_of_held hheld hold.alive)
      · exact .inr (h.held_eq ha hheld)
  · exact .inl hreg.stored_new

/-- A step that misses the condition displaces a waiter. -/
theorem not_noneDisplaced_of_steps (hown : f.Owned) (h : StepsTo f a g)
    (hguard : ¬ RegistersVacant f a) : ¬ NoneDisplaced g := by
  intro hnone
  apply hguard
  rintro kind rfl c hstored halive
  cases h with
  | @register _ o _ ho hreg =>
    cases ho
    have horigin := hown.stored hstored
    have hc := hown.ne_nextChan horigin
    -- the other waiter still waits after the registration, without its slot
    have hpending : g.Pending kind c := by
      refine ⟨?_, ?_, ?_⟩
      · rw [hreg.origins, Function.update_of_ne hc, horigin]
      · rw [hreg.channels, Function.update_of_ne hc, halive]
      · rw [hreg.channels, Function.update_of_ne hc, hown.unsent (Origin.oneShot_oneKind kind) hstored]
    rcases hnone kind c hpending with hstored' | hheld
    · exact hc (hstored'.unique (Origin.oneShot_oneKind kind).not_isBroadcast hreg.stored_new)
    · rw [hreg.task] at hheld
      exact (hown.unsent_held (Origin.oneShot_oneKind kind) hheld).2 hstored

end Displaced

/-! ### Serving the waiters -/

section Serving

/-- Messages are told apart by their position: the task is done with each of them once, and
two one-shot receivers never got the same one. -/
structure Sequenced (f : MessageFilter SteamID) : Prop where
  fates_lt : ∀ p ∈ f.fates, p.1.seq < f.pulled
  task_lt : ∀ {item}, f.task.item = some item → item.seq < f.pulled
  task_ne : ∀ {item}, f.task.item = some item → ∀ p ∈ f.fates, p.1.seq ≠ item.seq
  inbox : ∀ {o c x}, o.OneShot → f.origins c = some o → x ∈ (f.channels c).inbox →
    ∃ fate, (x, fate) ∈ f.fates
  distinct : ∀ {o o' c d x y}, o.OneShot → o'.OneShot → f.origins c = some o →
    f.origins d = some o' → c ≠ d → x ∈ (f.channels c).inbox → y ∈ (f.channels d).inbox →
      x.seq ≠ y.seq

theorem sequenced_init : ({} : MessageFilter SteamID).Sequenced where
  fates_lt _ h := nomatch h
  task_lt h := nomatch h
  task_ne h := nomatch h
  inbox _ h := nomatch h
  distinct _ _ h := nomatch h

private theorem Sequenced.of_dispatches (hf : f.Sequenced) (h : Dispatches f g) :
    (∀ p ∈ g.fates, p.1.seq < g.pulled) ∧ ∀ {item}, g.task.item = some item →
      item.seq < g.pulled ∧ ∀ p ∈ g.fates, p.1.seq ≠ item.seq := by
  rw [h.pulled_eq]
  rcases h.fates_cases with ⟨hfates, hitem⟩ | ⟨item, fate, hitem, hfates, htask, -⟩
  · rw [hfates, hitem]
    exact ⟨hf.fates_lt, fun h => ⟨hf.task_lt h, hf.task_ne h⟩⟩
  · refine ⟨fun p hp => ?_, fun h => by rw [htask] at h; cases h⟩
    rw [hfates, List.mem_append, List.mem_singleton] at hp
    rcases hp with hp | rfl
    · exact hf.fates_lt p hp
    · exact hf.task_lt hitem

private theorem Sequenced.of_not_dispatch (hf : f.Sequenced) (h : StepsTo f a g)
    (ha : a ≠ .dispatch) :
    (∀ p ∈ g.fates, p.1.seq < g.pulled) ∧ ∀ {item}, g.task.item = some item →
      item.seq < g.pulled ∧ ∀ p ∈ g.fates, p.1.seq ≠ item.seq := by
  rw [h.fates_eq ha]
  rcases h.item_cases ha with ⟨hpulled, hitem⟩ | ⟨message, hpulled, htask⟩
  · rw [hpulled]
    refine ⟨hf.fates_lt, fun {item} hg => ?_⟩
    rcases hitem with hitem | hitem
    · exact ⟨hf.task_lt (hitem ▸ hg), hf.task_ne (hitem ▸ hg)⟩
    · rw [hitem] at hg
      cases hg
  · rw [hpulled, htask]
    refine ⟨fun p hp => Nat.lt_succ_of_lt (hf.fates_lt p hp), fun {item} hg => ?_⟩
    cases hg
    exact ⟨Nat.lt_succ_self _, fun p hp => (hf.fates_lt p hp).ne⟩

/-- Every step keeps the messages apart. -/
theorem Sequenced.of_steps (hf : f.Sequenced) (hown : f.Owned) (h : StepsTo f a g) :
    g.Sequenced := by
  have htask : (∀ p ∈ g.fates, p.1.seq < g.pulled) ∧ ∀ {item}, g.task.item = some item →
      item.seq < g.pulled ∧ ∀ p ∈ g.fates, p.1.seq ≠ item.seq := by
    by_cases ha : a = .dispatch
    · subst ha
      have hdispatch := h.dispatches
      exact hf.of_dispatches hdispatch
    · exact hf.of_not_dispatch h ha
  refine ⟨htask.1, fun hg => (htask.2 hg).1, fun hg => (htask.2 hg).2, ?_, ?_⟩
  · intro o c x hone ho hx
    obtain ⟨horigin, hold | hsend⟩ := hown.mem_inbox_cases h hone.not_isBroadcast ho hx
    · obtain ⟨fate, hfate⟩ := hf.inbox hone horigin hold
      exact ⟨fate, h.fates_subset hfate⟩
    · exact hsend.mem_fates
  · intro o o' c d x y hone hone' ho ho' hcd hx hy
    obtain ⟨hc, hx | hsx⟩ := hown.mem_inbox_cases h hone.not_isBroadcast ho hx
    · obtain ⟨hd, hy | hsy⟩ := hown.mem_inbox_cases h hone'.not_isBroadcast ho' hy
      · exact hf.distinct hone hone' hc hd hcd hx hy
      · obtain ⟨fate, hfate⟩ := hf.inbox hone hc hx
        exact hf.task_ne hsy.item_eq _ hfate
    · obtain ⟨hd, hy | hsy⟩ := hown.mem_inbox_cases h hone'.not_isBroadcast ho' hy
      · obtain ⟨fate, hfate⟩ := hf.inbox hone' hd hy
        exact (hf.task_ne hsx.item_eq _ hfate).symm
      · -- the task holds one sending end at a time
        have hheld := hsx.held.symm.trans hsy.held
        rw [Option.some.injEq, Prod.mk.injEq] at hheld
        exact absurd hheld.2 hcd

variable {n : Nat}

/-- A waiter for a message of a kind is served: until it has a message, none of those from the
`n`-th on that no job takes was done with, nor is one past the slot while the waiter is
stored in it. -/
def Serving (f : MessageFilter SteamID) (kind : MsgKind) (n : Nat) (c : ChanId) : Prop :=
  (f.channels c).alive = true →
    (f.Stored (.oneKind kind) c ∧ f.servable kind n = [] ∧
      ∀ item, f.task.pastOneShot = some item → item.kind = kind → item.seq < n) ∨
    (f.task.held = some (.oneKind kind, c) ∧ f.servable kind n = []) ∨
    (f.channels c).inbox ≠ []

/-- A message gets past the slot of its kind only when the slot is empty, or by emptying it. -/
theorem Dispatches.pastOneShot_cases (h : Dispatches f g) {item : Item SteamID}
    (hg : g.task.pastOneShot = some item) :
    f.task.pastOneShot = some item ∨ ∀ c, ¬ g.Stored (.oneKind item.kind) c := by
  cases h with
  | kindOnceHit htask hslot =>
    cases hg
    exact .inr fun c hstored => by simp [Stored] at hstored
  | toNotification htask hslot | toKind htask hslot =>
    cases hg
    exact .inr fun c hstored => by
      rw [Stored, hslot] at hstored
      cases hstored
  | kindMiss htask =>
    cases hg
    exact .inl (by rw [htask]; rfl)
  | jobSend | multiSend | kindOnceSend | notificationSend | kindSend =>
    rw [deliver_task] at hg
    cases hg
  | _ => cases hg

/-- Outside of the task's steps no message gets past the slot. -/
theorem StepsTo.pastOneShot_of (h : StepsTo f a g) (ha : a ≠ .dispatch) {item : Item SteamID}
    (hg : g.task.pastOneShot = some item) : f.task.pastOneShot = some item := by
  cases h with
  | register ho hreg => rwa [hreg.task] at hg
  | pull => cases hg
  | stop => cases hg
  | dispatch => exact absurd rfl ha
  | _ => exact hg

/-- Messages looked up for a job, of another kind or from before do not count. -/
theorem servable_append {item : Item SteamID} {fate : Fate}
    (hfates : g.fates = f.fates ++ [(item, fate)])
    (hout : fate.ByJob ∨ (item.kind = kind → item.seq < n)) :
    g.servable kind n = f.servable kind n := by
  have hnot : ¬ (n ≤ item.seq ∧ item.kind = kind ∧ ¬ fate.ByJob) := by
    rintro ⟨hge, hkind, hjob⟩
    rcases hout with hby | hlt
    · exact hjob hby
    · exact absurd (hlt hkind) (not_lt.mpr hge)
  rw [servable, hfates, List.filter_append]
  simp [servable, hnot]

/-- A stored waiter is served in every step that does not register for its kind. -/
private theorem Serving.of_stored (h : StepsTo f a g) (ha : a ≠ .oneKind kind)
    (hstored : f.Stored (.oneKind kind) c) (hnone : f.servable kind n = [])
    (hpast : ∀ item, f.task.pastOneShot = some item → item.kind = kind → item.seq < n) :
    Serving g kind n c := by
  intro _
  -- a message the task is done with in this step counts only if it was past the slot
  have hnone' : g.servable kind n = [] := by
    by_cases hd : a = .dispatch
    · subst hd
      have hdispatch := h.dispatches
      rcases hdispatch.fates_cases with ⟨hfates, -⟩ | ⟨item, fate, -, hfates, -, hout⟩
      · rw [servable, hfates]
        exact hnone
      · rw [servable_append hfates (hout.imp_right fun hitem => hpast item hitem), hnone]
    · rw [servable, h.fates_eq hd]
      exact hnone
  rcases h.stored_or hstored with hstored' | hheld | ho | ⟨id, -, ho⟩
  · refine .inl ⟨hstored', hnone', fun item hg hkind => ?_⟩
    by_cases hd : a = .dispatch
    · subst hd
      have hdispatch := h.dispatches
      rcases hdispatch.pastOneShot_cases hg with hold | hempty
      · exact hpast item hold hkind
      · exact absurd hstored' (hkind ▸ hempty c)
    · exact hpast item (h.pastOneShot_of hd hg) hkind
  · exact .inr (.inl ⟨hheld, hnone'⟩)
  · exact absurd (Action.eq_oneKind_of_origin ho) ha
  · cases ho

/-- A waiter is served in every step that does not register for its kind. -/
theorem Serving.of_steps (hf : Serving f kind n c) (hown : f.Owned)
    (horigin : f.origins c = some (.oneKind kind)) (h : StepsTo f a g) (ha : a ≠ .oneKind kind) :
    Serving g kind n c := by
  intro hlive
  have halive : (f.channels c).alive = true := by
    rcases h.alive_of hlive with halive | ⟨hnew, -⟩
    · exact halive
    · exact absurd hnew (hown.ne_nextChan horigin)
  rcases hf halive with ⟨hstored, hnone, hpast⟩ | ⟨hheld, hnone⟩ | hinbox
  · exact Serving.of_stored h ha hstored hnone hpast hlive
  · by_cases hd : a = .dispatch
    · subst hd
      have hdispatch := h.dispatches
      exact .inr (.inr (hdispatch.inbox_of_held hheld halive))
    · refine .inr (.inl ⟨h.held_eq hd hheld, ?_⟩)
      rw [servable, h.fates_eq hd]
      exact hnone
  · -- what a waiter got it keeps
    obtain ⟨x, hx⟩ := List.exists_mem_of_ne_nil _ hinbox
    exact .inr (.inr (List.ne_nil_of_mem (hown.mem_inbox_of_steps h hx)))

/-- Every pending waiter is served from the last registration on, unless one is displaced. -/
theorem serving_of_pending (hf : NoneDisplaced f) (hseq : f.Sequenced) (hc : f.Pending kind c) :
    Serving f kind f.pulled c := by
  intro _
  have hnone : f.servable kind f.pulled = [] := by
    rw [servable, List.filter_eq_nil_iff]
    intro p hp
    simp [not_le.mpr (hseq.fates_lt p hp)]
  rcases hf kind c hc with hstored | hheld
  · exact .inl ⟨hstored, hnone, fun item hitem _ => hseq.task_lt (FilterTask.item_of_pastOneShot hitem)⟩
  · exact .inr (.inl ⟨hheld, hnone⟩)

/-- Serving goes on along a run without registrations for the kind. -/
theorem Serving.of_run {v : List (Action SteamID)} (hrun : run (step shard) f v = some g)
    (hf : Serving f kind n c) (hown : f.Owned) (hseq : f.Sequenced)
    (horigin : f.origins c = some (.oneKind kind)) (hv : ∀ a ∈ v, a ≠ .oneKind kind) :
    Serving g kind n c ∧ g.Owned ∧ g.Sequenced ∧ g.origins c = some (.oneKind kind) := by
  induction v generalizing f with
  | nil =>
    cases hrun
    exact ⟨hf, hown, hseq, horigin⟩
  | cons a v ih =>
    obtain ⟨f', hstep, hrest⟩ := run_cons_eq_some.mp hrun
    have h := stepsTo_of_step hstep
    refine ih hrest (hf.of_steps hown horigin h (hv a List.mem_cons_self)) (hown.of_steps h)
      (hseq.of_steps hown h) ?_ fun b hb => hv b (List.mem_cons_of_mem a hb)
    rw [h.origins_eq (.inl (hown.ne_nextChan horigin)), horigin]

/-- When no waiter is displaced, all of them are served. -/
theorem servesAll_of_noneDisplaced {w : List (Action SteamID)}
    (h : AllStates (step shard) NoneDisplaced {} w) : ServesAll shard w := by
  rintro u kind v s t rfl hv hs ht W hpending halive hcount
  have hsplit : u ++ .oneKind kind :: v = (u ++ [.oneKind kind]) ++ v := by simp
  rw [hsplit] at h
  have hdisplaced : NoneDisplaced s := h.of_append hs
  have hinv : s.Owned ∧ s.Sequenced := by
    apply @run_invariant _ _ _ (fun f => f.Owned ∧ f.Sequenced) _ _ _ _ ⟨owned_init, sequenced_init⟩ hs
    intro f a g hf hstep
    have hsteps := stepsTo_of_step hstep
    exact ⟨hf.1.of_steps hsteps, hf.2.of_steps hf.1 hsteps⟩
  have hserved : ∀ c ∈ W, Serving t kind s.pulled c ∧ t.Owned ∧ t.Sequenced ∧
      t.origins c = some (.oneKind kind) := fun c hc =>
    (serving_of_pending hdisplaced hinv.2 (hpending c hc)).of_run ht hinv.1 hinv.2
      (hpending c hc).origin hv
  refine ⟨fun c hc => ?_, fun c hc d hd hcd x hx y hy => ?_⟩
  · -- a message of the kind was done with, so the waiter is past waiting
    obtain ⟨hserving, hown, -, horigin⟩ := hserved c hc
    have hpos : t.servable kind s.pulled ≠ [] := by
      rw [← List.length_pos_iff]
      exact (Finset.card_pos.mpr ⟨c, hc⟩).trans_le hcount
    rcases hserving (halive c hc) with ⟨-, hnone, -⟩ | ⟨-, hnone⟩ | hinbox
    · exact absurd hnone hpos
    · exact absurd hnone hpos
    · exact Nat.le_antisymm (hown.once (Origin.oneShot_oneKind kind) horigin)
        (List.length_pos_iff.mpr hinbox)
  · obtain ⟨-, -, hseq, hc'⟩ := hserved c hc
    obtain ⟨-, -, -, hd'⟩ := hserved d hd
    exact hseq.distinct (Origin.oneShot_oneKind kind) (Origin.oneShot_oneKind kind) hc' hd' hcd hx hy

end Serving

/-- The runs of a filter in which one-shot waiters do not displace each other, and all of
them are served. -/
theorem noneDisplaced_iff (w : List (Action SteamID)) :
    (AllStates (step shard) NoneDisplaced {} w ∧ ServesAll shard w) ↔
      AllSteps (step shard) RegistersVacant {} w := by
  have hiff : AllStates (step shard) NoneDisplaced {} w ↔
      AllSteps (step shard) RegistersVacant {} w := by
    apply allStates_iff_allSteps (I := fun f => f.Owned ∧ NoneDisplaced f)
    · exact fun f hf => hf.2
    · intro f a g ⟨hown, hf⟩ hguard h
      have hsteps := stepsTo_of_step h
      exact ⟨hown.of_steps hsteps, hf.of_steps hown hsteps hguard⟩
    · intro f a g hf hguard h
      exact not_noneDisplaced_of_steps hf.1 (stepsTo_of_step h) hguard
    · exact ⟨owned_init, fun kind c hc => nomatch hc.origin⟩
  rw [← hiff]
  exact ⟨And.left, fun h => ⟨h, servesAll_of_noneDisplaced h⟩⟩

/-- Two waiters for a logon response: the second displaces the first. -/
theorem not_noneDisplaced_two_waiters :
    ∃ f : MessageFilter UInt64,
      run (step fun _ => 0) {} [.oneKind EMsg.kEMsgClientLogOnResponse.kind,
        .oneKind EMsg.kEMsgClientLogOnResponse.kind] = some f ∧ ¬ NoneDisplaced f := by
  refine ⟨_, rfl, fun h => ?_⟩
  rcases h EMsg.kEMsgClientLogOnResponse.kind 0 ⟨rfl, rfl, rfl⟩ with hstored | hheld
  · have hslot : some 1 = some 0 := hstored
    cases hslot
  · cases hheld

end MessageFilter

end SteamWire
