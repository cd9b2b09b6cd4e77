import Mathlib.Data.List.Infix
import Mathlib.Data.Nat.Find
import SteamWire.Semantics.Run

/-!
# A sink behind a lock

Many tasks send items into one sink. A task waits for the lock, puts its item into the buffer of
the sink, flushes the buffer, and lets go of the lock; it may fail or be dropped at any of these
points. The lock goes to the tasks in the order in which they ask for it, so the items get into
the sink in that order (`LockedSink.ordered_of_reachable`). What a sink makes of an item is a
parameter: the items are written whole when each is put behind the bytes that are still in the
buffer (`LockedSink.written_of_run`).
-/

namespace SteamWire.Semantics

/-- How far a task is that sends an item. -/
inductive SendPhase where
  | queued
  | locked
  | flushing
  | returned
  | failed
  | cancelled
  deriving DecidableEq, Repr

/-- The tasks that have the lock. -/
def SendPhase.isHeld : SendPhase → Bool
  | .locked => true
  | .flushing => true
  | _ => false

/-- The tasks that are not at their end. -/
def SendPhase.isPending : SendPhase → Bool
  | .queued => true
  | p => p.isHeld

/-- The items in the order in which their tasks asked for the lock, the phases of the tasks, the
buffer of the sink, and behind them what happened: the bytes that were written, and the tasks
whose items got into the sink. -/
structure LockedSink (M β : Type*) where
  items : List M := []
  phases : List SendPhase := []
  buffer : List β := []
  wire : List β := []
  accepted : List Nat := []

/-- What a sink does with an item: when it takes one, the buffer afterwards, and the bytes of the
item. -/
structure SinkOps (M β : Type*) where
  isReady : List β → Bool
  encode : M → List β → List β
  frame : M → List β

namespace LockedSink

variable {M β : Type*}

/-- A task asks for the lock, gets it, puts its item into the sink, ends its flush, sees an error
of the sink, or is dropped; and bytes are written. -/
inductive Action (M : Type*) where
  | call (item : M)
  | acquire (i : Nat)
  | accept (i : Nat)
  | write (n : Nat)
  | finish (i : Nat)
  | fail (i : Nat)
  | cancel (i : Nat)

def setPhase (s : LockedSink M β) (i : Nat) (p : SendPhase) : LockedSink M β :=
  { s with phases := s.phases.set i p }

/-- Whether a task may get the lock: nobody has it, and nobody asked for it before. -/
def mayAcquire (s : LockedSink M β) (i : Nat) : Bool :=
  s.phases.all (fun p => !p.isHeld) && (s.phases.take i).all (fun p => p != .queued)

def step (ops : SinkOps M β) (s : LockedSink M β) : Action M → Option (LockedSink M β)
  | .call item => some { s with items := s.items ++ [item], phases := s.phases ++ [.queued] }
  | .acquire i =>
    if s.phases[i]? = some .queued ∧ s.mayAcquire i = true then some (s.setPhase i .locked) else none
  | .accept i =>
    match s.items[i]? with
    | none => none
    | some item =>
      if s.phases[i]? = some .locked ∧ ops.isReady s.buffer = true then
        some { s.setPhase i .flushing with
          buffer := ops.encode item s.buffer, accepted := s.accepted ++ [i] }
      else none
  | .write n =>
    -- the bytes are written by polls of the task that has the lock
    if s.phases.any SendPhase.isHeld ∧ 0 < n ∧ n ≤ s.buffer.length then
      some { s with wire := s.wire ++ s.buffer.take n, buffer := s.buffer.drop n }
    else none
  | .finish i =>
    if s.phases[i]? = some .flushing ∧ s.buffer.isEmpty then some (s.setPhase i .returned) else none
  | .fail i =>
    if (s.phases[i]?.map SendPhase.isHeld) = some true then some (s.setPhase i .failed) else none
  | .cancel i =>
    if (s.phases[i]?.map SendPhase.isPending) = some true then some (s.setPhase i .cancelled)
    else none

variable {ops : SinkOps M β} {s t : LockedSink M β} {a : Action M}

/-! ### One step -/

/-- What a step does. -/
inductive StepsTo (ops : SinkOps M β) (s : LockedSink M β) : Action M → LockedSink M β → Prop
  | call (item : M) :
      StepsTo ops s (.call item)
        { s with items := s.items ++ [item], phases := s.phases ++ [.queued] }
  | acquire {i : Nat} (hphase : s.phases[i]? = some .queued)
      (hfree : ∀ p ∈ s.phases, p.isHeld = false) (hfirst : ∀ j < i, s.phases[j]? ≠ some .queued) :
      StepsTo ops s (.acquire i) (s.setPhase i .locked)
  | accept {i : Nat} {item : M} (hitem : s.items[i]? = some item)
      (hphase : s.phases[i]? = some .locked) (hready : ops.isReady s.buffer = true) :
      StepsTo ops s (.accept i)
        { s.setPhase i .flushing with
          buffer := ops.encode item s.buffer, accepted := s.accepted ++ [i] }
  | write {n : Nat} (hheld : ∃ p ∈ s.phases, p.isHeld = true) (hpos : 0 < n)
      (hle : n ≤ s.buffer.length) :
      StepsTo ops s (.write n)
        { s with wire := s.wire ++ s.buffer.take n, buffer := s.buffer.drop n }
  | finish {i : Nat} (hphase : s.phases[i]? = some .flushing) (hempty : s.buffer = []) :
      StepsTo ops s (.finish i) (s.setPhase i .returned)
  | fail {i : Nat} {p : SendPhase} (hphase : s.phases[i]? = some p) (hheld : p.isHeld = true) :
      StepsTo ops s (.fail i) (s.setPhase i .failed)
  | cancel {i : Nat} {p : SendPhase} (hphase : s.phases[i]? = some p) (hpending : p.isPending = true) :
      StepsTo ops s (.cancel i) (s.setPhase i .cancelled)

theorem mayAcquire_iff {i : Nat} (s : LockedSink M β) : s.mayAcquire i = true ↔
    (∀ p ∈ s.phases, p.isHeld = false) ∧ ∀ j < i, s.phases[j]? ≠ some .queued := by
  rw [mayAcquire, Bool.and_eq_true, List.all_eq_true, List.all_eq_true]
  refine and_congr ?_ ⟨fun h j hj hqueued => ?_, fun h p hp => ?_⟩
  · simp only [Bool.not_eq_true']
  · have hmem : SendPhase.queued ∈ s.phases.take i :=
      List.mem_of_getElem? (by rw [List.getElem?_take, if_pos hj]; exact hqueued)
    simpa using h _ hmem
  · obtain ⟨j, hj⟩ := List.mem_iff_getElem?.mp hp
    rw [List.getElem?_take] at hj
    split at hj
    · next hlt =>
      rw [bne_iff_ne]
      rintro rfl
      exact h j hlt hj
    · cases hj

theorem stepsTo_of_step (h : step ops s a = some t) : StepsTo ops s a t := by
  cases a with
  | call item =>
    obtain rfl := Option.some.inj h
    exact .call item
  | acquire i =>
    rw [step] at h
    split at h
    · next hguard =>
      obtain ⟨hfree, hfirst⟩ := (mayAcquire_iff s).mp hguard.2
      obtain rfl := Option.some.inj h
      exact .acquire hguard.1 hfree hfirst
    · cases h
  | accept i =>
    rw [step] at h
    split at h
    · cases h
    · next item hitem =>
      split at h
      · next hguard =>
        obtain rfl := Option.some.inj h
        exact .accept hitem hguard.1 hguard.2
      · cases h
  | write n =>
    rw [step] at h
    split at h
    · next hguard =>
      obtain rfl := Option.some.inj h
      exact .write (List.any_eq_true.mp hguard.1) hguard.2.1 hguard.2.2
    · cases h
  | finish i =>
    rw [step] at h
    split at h
    · next hguard =>
      obtain rfl := Option.some.inj h
      exact .finish hguard.1 (List.isEmpty_iff.mp hguard.2)
    · cases h
  | fail i =>
    rw [step] at h
    split at h
    · next hguard =>
      obtain ⟨p, hphase, hheld⟩ := Option.map_eq_some_iff.mp hguard
      obtain rfl := Option.some.inj h
      exact .fail hphase hheld
    · cases h
  | cancel i =>
    rw [step] at h
    split at h
    · next hguard =>
      obtain ⟨p, hphase, hpending⟩ := Option.map_eq_some_iff.mp hguard
      obtain rfl := Option.some.inj h
      exact .cancel hphase hpending
    · cases h

/-! ### The order of the items -/

/-- At most one task has the lock, the items got into the sink in the order in which their tasks
asked for it, and the item of a task that flushes is the last one. -/
structure Ordered (s : LockedSink M β) : Prop where
  length_eq : s.phases.length = s.items.length
  held_unique : ∀ (i j : Nat) (p q : SendPhase), s.phases[i]? = some p →
    s.phases[j]? = some q → p.isHeld = true → q.isHeld = true → i = j
  sorted : s.accepted.Pairwise (· < ·)
  mem_lt : ∀ j ∈ s.accepted, j < s.items.length
  accepted_lt : ∀ (i : Nat) (p : SendPhase), s.phases[i]? = some p → p = .queued ∨ p = .locked →
    ∀ j ∈ s.accepted, j < i
  held_lt : ∀ (i j : Nat) (p : SendPhase), s.phases[i]? = some .queued → s.phases[j]? = some p →
    p.isHeld = true → j < i
  flushing_last : ∀ i, s.phases[i]? = some .flushing → s.accepted.getLast? = some i
  returned_mem : ∀ i, s.phases[i]? = some .returned → i ∈ s.accepted

theorem getElem?_setPhase (s : LockedSink M β) {i : Nat} {p : SendPhase} (hi : s.phases[i]? = some p)
    (q : SendPhase) (j : Nat) :
    (s.setPhase i q).phases[j]? = if j = i then some q else s.phases[j]? := by
  obtain ⟨hlt, -⟩ := List.getElem?_eq_some_iff.mp hi
  rw [setPhase, List.getElem?_set]
  by_cases hij : i = j
  · rw [if_pos hij, if_pos hlt, if_pos hij.symm]
  · rw [if_neg hij, if_neg (Ne.symm hij)]

/-- A task comes to its end. -/
theorem Ordered.settle (h : s.Ordered) {i : Nat} {p q : SendPhase} (hi : s.phases[i]? = some p)
    (hq : q.isPending = false) (hreturned : q = .returned → i ∈ s.accepted) :
    (s.setPhase i q).Ordered := by
  have hnot : q ≠ .queued ∧ q ≠ .locked ∧ q ≠ .flushing ∧ q.isHeld ≠ true := by
    cases q <;> simp_all [SendPhase.isPending, SendPhase.isHeld]
  obtain ⟨hqueued, hlocked, hflushing, hheld⟩ := hnot
  -- the phase of another task is what it was
  have hother : ∀ (j : Nat) r, (s.setPhase i q).phases[j]? = some r → r ≠ q → s.phases[j]? = some r := by
    intro j r hj hne
    rw [getElem?_setPhase s hi] at hj
    split at hj
    · exact absurd (Option.some.inj hj).symm hne
    · exact hj
  have hne : ∀ r : SendPhase, r.isHeld = true → r ≠ q := by
    rintro r hr rfl
    exact hheld hr
  refine ⟨?_, ?_, h.sorted, h.mem_lt, ?_, ?_, ?_, ?_⟩
  · rw [setPhase, List.length_set]
    exact h.length_eq
  · intro j k r r' hj hk hr hr'
    exact h.held_unique j k r r' (hother j r hj (hne r hr)) (hother k r' hk (hne r' hr')) hr hr'
  · rintro j r hj hr
    exact h.accepted_lt j r (hother j r hj (by rcases hr with rfl | rfl <;> simp_all [Ne.symm])) hr
  · intro j k r hj hk hr
    exact h.held_lt j k r (hother j _ hj hqueued.symm) (hother k r hk (hne r hr)) hr
  · intro j hj
    exact h.flushing_last j (hother j _ hj hflushing.symm)
  · intro j hj
    rw [getElem?_setPhase s hi] at hj
    split at hj
    · next heq =>
      subst heq
      exact hreturned (Option.some.inj hj)
    · exact h.returned_mem j hj

/-- A task gets the lock. -/
theorem Ordered.acquire (h : s.Ordered) {i : Nat} (hi : s.phases[i]? = some .queued)
    (hfree : ∀ p ∈ s.phases, p.isHeld = false) (hfirst : ∀ j < i, s.phases[j]? ≠ some .queued) :
    (s.setPhase i .locked).Ordered := by
  have hsole : ∀ (j : Nat) r, (s.setPhase i .locked).phases[j]? = some r → r.isHeld = true → j = i := by
    intro j r hj hr
    rw [getElem?_setPhase s hi] at hj
    split at hj
    · assumption
    · exact absurd (hfree r (List.mem_of_getElem? hj)) (by simp [hr])
  refine ⟨?_, ?_, h.sorted, h.mem_lt, ?_, ?_, ?_, ?_⟩
  · rw [setPhase, List.length_set]
    exact h.length_eq
  · intro j k r r' hj hk hr hr'
    rw [hsole j r hj hr, hsole k r' hk hr']
  · intro j r hj hr
    rw [getElem?_setPhase s hi] at hj
    split at hj
    · next heq =>
      subst heq
      exact h.accepted_lt j _ hi (.inl rfl)
    · exact h.accepted_lt j r hj hr
  · -- a task that still waits asked for the lock later
    intro j k r hj hk hr
    obtain rfl := hsole k r hk hr
    rw [getElem?_setPhase s hi] at hj
    split at hj
    · cases hj
    · next hne =>
      by_contra hlt
      exact hfirst j (by omega) hj
  · intro j hj
    have heq := hsole j _ hj rfl
    rw [getElem?_setPhase s hi, if_pos heq] at hj
    cases hj
  · intro j hj
    rw [getElem?_setPhase s hi] at hj
    split at hj
    · cases hj
    · exact h.returned_mem j hj

/-- The item of the task that has the lock gets into the sink. -/
theorem Ordered.accept (h : s.Ordered) {i : Nat} (hi : s.phases[i]? = some .locked)
    (buffer : List β) :
    ({ s.setPhase i .flushing with buffer, accepted := s.accepted ++ [i] } : LockedSink M β).Ordered := by
  have hlast := h.accepted_lt i _ hi (.inr rfl)
  have hlen : i < s.items.length := h.length_eq ▸ (List.getElem?_eq_some_iff.mp hi).1
  have hsole : ∀ (j : Nat) r, (s.setPhase i .flushing).phases[j]? = some r → r.isHeld = true → j = i := by
    intro j r hj hr
    rw [getElem?_setPhase s hi] at hj
    split at hj
    · assumption
    · exact h.held_unique j i r _ hj hi hr rfl
  refine ⟨?_, ?_, ?_, ?_, ?_, ?_, ?_, ?_⟩
  · show (s.phases.set i _).length = _
    rw [List.length_set]
    exact h.length_eq
  · intro j k r r' hj hk hr hr'
    rw [hsole j r hj hr, hsole k r' hk hr']
  · rw [List.pairwise_append]
    exact ⟨h.sorted, List.pairwise_singleton _ _, fun j hj k hk => List.mem_singleton.mp hk ▸ hlast j hj⟩
  · intro j hj
    rcases List.mem_append.mp hj with hj | hj
    · exact h.mem_lt j hj
    · exact List.mem_singleton.mp hj ▸ hlen
  · intro j r hj hr k hk
    have hj' : (s.setPhase i .flushing).phases[j]? = some r := hj
    rw [getElem?_setPhase s hi] at hj'
    split at hj'
    · obtain rfl := Option.some.inj hj'
      simp at hr
    · next hne =>
      rcases List.mem_append.mp hk with hk | hk
      · exact h.accepted_lt j r hj' hr k hk
      · obtain rfl := List.mem_singleton.mp hk
        rcases hr with rfl | rfl
        · exact h.held_lt j k _ hj' hi rfl
        · exact absurd (h.held_unique j k _ _ hj' hi rfl rfl) hne
  · intro j k r hj hk hr
    obtain rfl := hsole k r hk hr
    have hj' : (s.setPhase k .flushing).phases[j]? = some .queued := hj
    rw [getElem?_setPhase s hi] at hj'
    split at hj'
    · cases hj'
    · exact h.held_lt j k _ hj' hi rfl
  · intro j hj
    rw [hsole j _ hj rfl]
    exact List.getLast?_concat
  · intro j hj
    have hj' : (s.setPhase i .flushing).phases[j]? = some .returned := hj
    rw [getElem?_setPhase s hi] at hj'
    split at hj'
    · cases hj'
    · exact List.mem_append_left _ (h.returned_mem j hj')

/-- A task that asks for the lock is behind all others. -/
theorem Ordered.call (h : s.Ordered) (item : M) :
    ({ s with items := s.items ++ [item], phases := s.phases ++ [.queued] } :
      LockedSink M β).Ordered := by
  have hold : ∀ (j : Nat) r, (s.phases ++ [SendPhase.queued])[j]? = some r → r ≠ .queued →
      s.phases[j]? = some r := by
    intro j r hj hne
    rcases lt_or_ge j s.phases.length with hlt | hge
    · rwa [List.getElem?_append_left hlt] at hj
    · rw [List.getElem?_append_right hge] at hj
      exact absurd (List.mem_singleton.mp (List.mem_of_getElem? hj)) hne
  have hheld : ∀ r : SendPhase, r.isHeld = true → r ≠ .queued := by
    rintro r hr rfl
    cases hr
  have hlen := h.length_eq
  refine ⟨?_, ?_, h.sorted, ?_, ?_, ?_, ?_, ?_⟩
  · rw [List.length_append, List.length_append, hlen]
    rfl
  · exact fun j k r r' hj hk hr hr' =>
      h.held_unique j k r r' (hold j r hj (hheld r hr)) (hold k r' hk (hheld r' hr')) hr hr'
  · intro j hj
    have hlt := h.mem_lt j hj
    rw [List.length_append]
    omega
  · intro j r hj hr k hk
    rcases lt_or_ge j s.phases.length with hlt | hge
    · rw [List.getElem?_append_left hlt] at hj
      exact h.accepted_lt j r hj hr k hk
    · have hlt := h.mem_lt k hk
      omega
  · intro j k r hj hk hr
    have hk' := hold k r hk (hheld r hr)
    obtain ⟨hlt', -⟩ := List.getElem?_eq_some_iff.mp hk'
    rcases lt_or_ge j s.phases.length with hlt | hge
    · rw [List.getElem?_append_left hlt] at hj
      exact h.held_lt j k r hj hk' hr
    · omega
  · exact fun j hj => h.flushing_last j (hold j _ hj (by decide))
  · exact fun j hj => h.returned_mem j (hold j _ hj (by decide))

theorem Ordered.of_stepsTo (h : s.Ordered) (hstep : StepsTo ops s a t) : t.Ordered := by
  cases hstep with
  | call item => exact h.call item
  | acquire hphase hfree hfirst => exact h.acquire hphase hfree hfirst
  | accept _ hphase _ => exact h.accept hphase _
  | write => exact ⟨h.1, h.2, h.3, h.4, h.5, h.6, h.7, h.8⟩
  | finish hphase _ =>
    exact h.settle hphase rfl fun _ => List.mem_of_getLast? (h.flushing_last _ hphase)
  | fail hphase _ => exact h.settle hphase rfl fun hno => by cases hno
  | cancel hphase _ => exact h.settle hphase rfl fun hno => by cases hno

theorem ordered_init : ({} : LockedSink M β).Ordered := by
  refine ⟨rfl, ?_, .nil, ?_, ?_, ?_, ?_, ?_⟩
  · intro i j p q hi
    cases hi
  · intro j hj
    cases hj
  · intro i p hi
    cases hi
  · intro i j p hi
    cases hi
  · intro i hi
    cases hi
  · intro i hi
    cases hi

/-- In every state that a sink can get into, the items are in order. -/
theorem ordered_of_reachable (h : Reachable (step ops) (· = {}) s) : s.Ordered := by
  refine h.invariant ?_ fun s a t hs hstep => hs.of_stepsTo (stepsTo_of_step hstep)
  rintro s rfl
  exact ordered_init

/-! ### The bytes of the items -/

/-- The bytes of the items of these tasks. -/
def framesOf (ops : SinkOps M β) (items : List M) (accepted : List Nat) : List β :=
  accepted.flatMap fun i => (items[i]?.map ops.frame).getD []

variable (ops) in
/-- What was written, and what waits to be written, are the bytes of the items in the sink. -/
def Whole (s : LockedSink M β) : Prop := s.wire ++ s.buffer = framesOf ops s.items s.accepted

variable (ops) in
/-- An item that gets into the sink is put behind the bytes in its buffer. -/
def Appends (s : LockedSink M β) : Action M → Prop
  | .accept i => ∀ item, s.items[i]? = some item →
      ops.encode item s.buffer = s.buffer ++ ops.frame item
  | _ => True

theorem framesOf_append (items : List M) (u v : List Nat) :
    framesOf ops items (u ++ v) = framesOf ops items u ++ framesOf ops items v := by
  rw [framesOf, List.flatMap_append]
  rfl

theorem framesOf_singleton {items : List M} {i : Nat} {item : M} (h : items[i]? = some item) :
    framesOf ops items [i] = ops.frame item := by
  rw [framesOf, List.flatMap_singleton, h]
  rfl

/-- More items do not change the bytes of those that are there. -/
theorem framesOf_items {items : List M} {accepted : List Nat} (h : ∀ i ∈ accepted, i < items.length)
    (more : List M) : framesOf ops (items ++ more) accepted = framesOf ops items accepted := by
  unfold framesOf
  induction accepted with
  | nil => rfl
  | cons i accepted ih =>
    rw [List.flatMap_cons, List.flatMap_cons, ih fun j hj => h j (List.mem_cons_of_mem i hj),
      List.getElem?_append_left (h i List.mem_cons_self)]

/-- Only an item that gets into the sink can do harm. -/
theorem Whole.of_stepsTo (h : s.Whole ops) (hordered : s.Ordered) (hguard : Appends ops s a)
    (hstep : StepsTo ops s a t) : t.Whole ops := by
  unfold Whole at h ⊢
  cases hstep with
  | call item =>
    rw [framesOf_items hordered.mem_lt]
    exact h
  | accept hitem _ _ =>
    show s.wire ++ ops.encode _ s.buffer = framesOf ops s.items (s.accepted ++ [_])
    rw [hguard _ hitem, ← List.append_assoc, h, framesOf_append, framesOf_singleton hitem]
  | write _ _ _ => rw [List.append_assoc, List.take_append_drop, h]
  | _ => exact h

/-! ### Tasks that returned -/

variable (ops) in
/-- The bytes up to the item of a task that has returned are written. -/
def Written (s : LockedSink M β) : Prop :=
  ∀ i, s.phases[i]? = some .returned → ∃ before, before ++ [i] <+: s.accepted ∧
    framesOf ops s.items (before ++ [i]) <+: s.wire

theorem Written.of_stepsTo (h : s.Written ops) (hordered : s.Ordered) (hwhole : s.Whole ops)
    (hstep : StepsTo ops s a t) : t.Written ops := by
  -- who had returned is still a task whose bytes are written
  have hold : ∀ q : SendPhase, q ≠ .returned → ∀ (i j : Nat) p, s.phases[i]? = some p →
      (s.setPhase i q).phases[j]? = some .returned → s.phases[j]? = some .returned := by
    intro q hq i j p hi hj
    rw [getElem?_setPhase s hi] at hj
    split at hj
    · exact absurd (Option.some.inj hj) hq
    · exact hj
  cases hstep with
  | call item =>
    intro i hi
    have hlt : i < s.phases.length := by
      by_contra hge
      rw [List.getElem?_append_right (not_lt.mp hge)] at hi
      cases List.mem_singleton.mp (List.mem_of_getElem? hi)
    rw [List.getElem?_append_left hlt] at hi
    obtain ⟨before, hbefore, hframes⟩ := h i hi
    refine ⟨before, hbefore, ?_⟩
    rw [framesOf_items fun j hj => hordered.mem_lt j (hbefore.subset hj)]
    exact hframes
  | acquire hphase _ _ => exact fun j hj => h j (hold _ (by decide) _ j _ hphase hj)
  | accept _ hphase _ =>
    intro j hj
    obtain ⟨before, hbefore, hframes⟩ := h j (hold _ (by decide) _ j _ hphase hj)
    exact ⟨before, hbefore.trans (List.prefix_append _ _), hframes⟩
  | write _ _ _ =>
    intro j hj
    obtain ⟨before, hbefore, hframes⟩ := h j hj
    exact ⟨before, hbefore, hframes.trans (List.prefix_append _ _)⟩
  | @finish i hphase hempty =>
    intro j hj
    rw [getElem?_setPhase s hphase] at hj
    split at hj
    · next heq =>
      -- the item that was flushed is the last one, and nothing is left of it
      subst heq
      obtain ⟨before, hbefore⟩ := List.getLast?_eq_some_iff.mp (hordered.flushing_last j hphase)
      have hwire : s.wire = framesOf ops s.items s.accepted := by
        rw [← hwhole, hempty, List.append_nil]
      refine ⟨before, hbefore ▸ List.prefix_rfl, ?_⟩
      show _ <+: s.wire
      rw [hwire, hbefore]
      exact List.prefix_rfl
    · exact h j hj
  | fail hphase _ => exact fun j hj => h j (hold _ (by decide) _ j _ hphase hj)
  | cancel hphase _ => exact fun j hj => h j (hold _ (by decide) _ j _ hphase hj)

/-- Along a run whose items are put behind the bytes in the buffer, they are in order and whole,
and those of the tasks that returned are written. -/
theorem written_of_run {w : List (Action M)} (hrun : run (step ops) {} w = some s)
    (hguard : AllSteps (step ops) (Appends ops) {} w) :
    s.Ordered ∧ s.Whole ops ∧ s.Written ops := by
  have hall : AllStates (step ops) (fun s => s.Ordered ∧ s.Whole ops ∧ s.Written ops) {} w := by
    refine hguard.allStates (fun s hs => hs) ?_ ⟨ordered_init, rfl, ?_⟩
    · intro s a t hs hguard hstep
      have hsteps := stepsTo_of_step hstep
      exact ⟨hs.1.of_stepsTo hsteps, hs.2.1.of_stepsTo hs.1 hguard hsteps,
        hs.2.2.of_stepsTo hs.1 hs.2.1 hsteps⟩
    · intro i hi
      cases hi
  exact hall.last hrun

/-! ### Sinks that replace their buffer -/

/-- A flush is not abandoned while bytes are left of it. -/
def Unabandoned (s : LockedSink M β) : Action M → Prop
  | .fail i => s.phases[i]? = some .flushing → s.buffer = []
  | .cancel i => s.phases[i]? = some .flushing → s.buffer = []
  | _ => True

/-- Bytes in the buffer belong to a task that flushes. -/
def Flushed (s : LockedSink M β) : Prop :=
  s.buffer = [] ∨ ∃ i : Nat, s.phases[i]? = some .flushing

/-- A task that comes to its end leaves no bytes behind. -/
theorem Flushed.settle (h : s.Flushed) {i : Nat} {p q : SendPhase} (hi : s.phases[i]? = some p)
    (hempty : p = .flushing → s.buffer = []) : (s.setPhase i q).Flushed := by
  rcases h with h | ⟨j, hj⟩
  · exact .inl h
  · by_cases hij : j = i
    · subst hij
      exact .inl (hempty (Option.some.inj (hi.symm.trans hj)))
    · refine .inr ⟨j, ?_⟩
      rw [getElem?_setPhase s hi, if_neg hij]
      exact hj

theorem Flushed.of_stepsTo (h : s.Flushed) (hguard : Unabandoned s a) (hstep : StepsTo ops s a t) :
    t.Flushed := by
  cases hstep with
  | call item =>
    rcases h with h | ⟨i, hi⟩
    · exact .inl h
    · refine .inr ⟨i, ?_⟩
      rw [List.getElem?_append_left (List.getElem?_eq_some_iff.mp hi).1]
      exact hi
  | acquire hphase _ _ => exact h.settle hphase fun hno => by cases hno
  | @accept i _ _ hphase _ =>
    exact .inr ⟨i, (getElem?_setPhase s hphase _ i).trans (if_pos rfl)⟩
  | write _ _ _ =>
    rcases h with h | hflushing
    · exact .inl (by rw [h, List.drop_nil])
    · exact .inr hflushing
  | finish hphase hempty => exact h.settle hphase fun _ => hempty
  | fail hphase _ => exact h.settle hphase fun heq => hguard (heq ▸ hphase)
  | cancel hphase _ => exact h.settle hphase fun heq => hguard (heq ▸ hphase)

/-- If no flush is abandoned, every item finds the buffer empty, and a sink that replaces its
buffer does no harm. -/
theorem appends_of_unabandoned (hencode : ∀ item, ops.encode item [] = ops.frame item)
    {w : List (Action M)} (h : AllSteps (step ops) Unabandoned {} w) :
    AllSteps (step ops) (Appends ops) {} w := by
  refine AllSteps.iff_takes.mpr fun s a t htakes => ?_
  obtain ⟨u, v, rfl, hu, hstep⟩ := htakes
  have hall : AllStates (step ops) (fun s => s.Ordered ∧ s.Flushed) {} (u ++ a :: v) := by
    refine h.allStates (fun s hs => hs) ?_ ⟨ordered_init, .inl rfl⟩
    exact fun s a t hs hguard hstep =>
      ⟨hs.1.of_stepsTo (stepsTo_of_step hstep), hs.2.of_stepsTo hguard (stepsTo_of_step hstep)⟩
  obtain ⟨hordered, hflushed⟩ := hall.of_append hu
  cases stepsTo_of_step hstep with
  | accept hitem hphase _ =>
    -- the task that has the lock has not flushed, so nobody does
    have hempty : s.buffer = [] := by
      refine hflushed.resolve_right ?_
      rintro ⟨j, hj⟩
      obtain rfl := hordered.held_unique _ _ _ _ hphase hj rfl rfl
      cases hphase.symm.trans hj
    intro item _
    rw [hempty, hencode, List.nil_append]
  | _ => trivial

/-! ### Progress -/

/-- What happens without new tasks, errors and drops. -/
def IsOwn : Action M → Prop
  | .acquire _ => True
  | .accept _ => True
  | .write _ => True
  | .finish _ => True
  | _ => False

/-- What is still to be done for an item of some bytes. -/
def weight (bytes : Nat) : SendPhase → Nat
  | .queued => 3 + bytes
  | .locked => 2 + bytes
  | .flushing => 1
  | _ => 0

variable (ops) in
def weights : List M → List SendPhase → Nat
  | item :: items, p :: phases => weight (ops.frame item).length p + weights items phases
  | _, _ => 0

variable (ops) in
/-- What is still to be done. -/
def measure (s : LockedSink M β) : Nat := weights ops s.items s.phases + s.buffer.length

theorem weights_set {items : List M} {phases : List SendPhase} {i : Nat} {item : M} {p : SendPhase}
    (hitem : items[i]? = some item) (hp : phases[i]? = some p) (q : SendPhase) :
    weights ops items (phases.set i q) + weight (ops.frame item).length p =
      weights ops items phases + weight (ops.frame item).length q := by
  induction i generalizing items phases with
  | zero =>
    match items, phases, hitem, hp with
    | _ :: _, _ :: _, hitem, hp =>
      obtain rfl := Option.some.inj hitem
      obtain rfl := Option.some.inj hp
      simp only [List.set_cons_zero, weights]
      omega
  | succ i ih =>
    match items, phases, hitem, hp with
    | _ :: items, _ :: phases, hitem, hp =>
      have hrest := @ih items phases hitem hp
      simp only [List.set_cons_succ, weights]
      omega

theorem exists_item (h : s.Ordered) {i : Nat} {p : SendPhase} (hi : s.phases[i]? = some p) :
    ∃ item, s.items[i]? = some item := by
  obtain ⟨hlt, -⟩ := List.getElem?_eq_some_iff.mp hi
  rw [h.length_eq] at hlt
  exact ⟨_, List.getElem?_eq_getElem hlt⟩

/-- Every such step leaves less to be done. -/
theorem measure_lt_of_step (h : s.Ordered)
    (hencode : ∀ item b, (ops.encode item b).length ≤ b.length + (ops.frame item).length)
    (ha : IsOwn a) (hstep : step ops s a = some t) : measure ops t < measure ops s := by
  cases stepsTo_of_step hstep with
  | @acquire i hphase _ _ =>
    obtain ⟨item, hitem⟩ := exists_item h hphase
    have hset := @weights_set _ _ ops _ _ _ _ _ hitem hphase .locked
    simp only [measure, setPhase, weight] at hset ⊢
    omega
  | @accept i item hitem hphase _ =>
    have hset := @weights_set _ _ ops _ _ _ _ _ hitem hphase .flushing
    have hlen := hencode item s.buffer
    simp only [measure, setPhase, weight] at hset ⊢
    omega
  | @write n _ hpos hle =>
    simp only [measure, List.length_drop]
    omega
  | @finish i hphase hempty =>
    obtain ⟨item, hitem⟩ := exists_item h hphase
    have hset := @weights_set _ _ ops _ _ _ _ _ hitem hphase .returned
    simp only [measure, setPhase, weight] at hset ⊢
    omega
  | call => exact ha.elim
  | fail => exact ha.elim
  | cancel => exact ha.elim

/-- So there are only so many of them. -/
theorem length_le_measure (h : s.Ordered)
    (hencode : ∀ item b, (ops.encode item b).length ≤ b.length + (ops.frame item).length)
    {w : List (Action M)} (hw : ∀ a ∈ w, IsOwn a) (hrun : run (step ops) s w = some t) :
    w.length ≤ measure ops s := by
  induction w generalizing s with
  | nil => exact Nat.zero_le _
  | cons a w ih =>
    obtain ⟨u, hu, hrest⟩ := run_cons_eq_some.mp hrun
    have hlt := measure_lt_of_step h hencode (hw a List.mem_cons_self) hu
    have hle := ih (h.of_stepsTo (stepsTo_of_step hu)) (fun b hb => hw b (List.mem_cons_of_mem a hb))
      hrest
    rw [List.length_cons]
    omega

/-- A sink that takes items into an empty buffer is not stuck while a task is not at its end. -/
theorem not_isPending_of_quiet (h : s.Ordered) (hready : ops.isReady [] = true)
    (hquiet : Quiet (step ops) IsOwn s) : ∀ p ∈ s.phases, p.isPending = false := by
  -- with the lock, a task goes on or its bytes are written
  have hheld : ∀ p ∈ s.phases, p.isHeld = false := by
    intro p hp
    by_contra hp'
    rw [Bool.not_eq_false] at hp'
    obtain ⟨i, hi⟩ := List.mem_iff_getElem?.mp hp
    obtain ⟨item, hitem⟩ := exists_item h hi
    by_cases hempty : s.buffer = []
    · cases p with
      | locked =>
        have haccept := hquiet (.accept i) trivial
        rw [step, hitem] at haccept
        simp [hi, hempty, hready] at haccept
      | flushing =>
        have hfinish := hquiet (.finish i) trivial
        rw [step] at hfinish
        simp [hi, hempty] at hfinish
      | _ => cases hp'
    · have hwrite := hquiet (.write 1) trivial
      have hpos := List.length_pos_iff.mpr hempty
      rw [step, if_pos ⟨List.any_eq_true.mpr ⟨p, hp, hp'⟩, by decide, hpos⟩] at hwrite
      cases hwrite
  intro p hp
  by_contra hp'
  rw [Bool.not_eq_false] at hp'
  have hqueued : SendPhase.queued ∈ s.phases := by
    have hfree := hheld p hp
    cases p with
    | queued => exact hp
    | locked => cases hfree
    | flushing => cases hfree
    | _ => cases hp'
  -- without, the first one that asked for the lock gets it
  have hsome : ∃ i : Nat, s.phases[i]? = some .queued := List.mem_iff_getElem?.mp hqueued
  have hacquire := hquiet (.acquire (Nat.find hsome)) trivial
  have hmay : s.mayAcquire (Nat.find hsome) = true :=
    (mayAcquire_iff s).mpr ⟨hheld, fun j hj => Nat.find_min hsome hj⟩
  rw [step, if_pos ⟨Nat.find_spec hsome, hmay⟩] at hacquire
  cases hacquire

end LockedSink

end SteamWire.Semantics
