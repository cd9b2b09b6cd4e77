import SteamWire.Data.Outcome
import SteamWire.Data.RingBuffer
import SteamWire.Data.VecDeque

/-!
# The unprocessed messages

The ring buffer of the connection is a growable queue that is kept from growing: how much it
may hold is not stored, but read back from the room the queue has. As long as there is room for
one item at all, the queue does as the ring buffer does (`VecDeque.ringCall_eq`), so that the
messages leave it in the order they came, each once (`VecDeque.conserves_withCapacity`).
-/

namespace SteamWire

namespace VecDeque

variable {α : Type*}

/-- `RingBuffer::push`, under the lock. Panics if the debug assertion fails. -/
def ringPush (growth : Growth) (d : VecDeque α) (item : α) :
    Outcome Empty (Option α × VecDeque α) :=
  if d.len = d.capacity then
    let (popped, d) := d.popFront
    let d := d.pushBack growth item
    if d.len = d.capacity then .ok (popped, d) else .panic
  else .ok (none, d.pushBack growth item)

/-- `RingBuffer::pop`, under the lock. -/
def ringPop (d : VecDeque α) : Option α × VecDeque α := d.popFront

/-- `RingBuffer::take`, under the lock. -/
def ringTake (d : VecDeque α) : List α × VecDeque α := (d.items, d.clear)

/-- A call on some clone of the buffer, with the items that it gives back. -/
def ringCall (growth : Growth) (d : VecDeque α) :
    RingCall α → Outcome Empty (List α × VecDeque α)
  | .push item => (d.ringPush growth item).bind fun (popped, d) => .ok (popped.toList, d)
  | .pop => .ok (d.ringPop.1.toList, d.ringPop.2)
  | .take => .ok d.ringTake

/-- Calls on the clones of the buffer, one after the other. -/
def ringCalls (growth : Growth) (d : VecDeque α) :
    List (RingCall α) → Outcome Empty (List (List α) × VecDeque α)
  | [] => .ok ([], d)
  | c :: w => (d.ringCall growth c).bind fun (ret, d) =>
      (d.ringCalls growth w).bind fun (returned, d) => .ok (ret :: returned, d)

/-- The ring buffer that a queue stands for. -/
def toRingBuffer (d : VecDeque α) : RingBuffer α := { capacity := d.capacity, items := d.items }

variable {growth : Growth} {d : VecDeque α}

theorem toRingBuffer_pushBack_of_lt (h : d.len < d.capacity) (item : α) :
    (d.pushBack growth item).toRingBuffer =
      { capacity := d.capacity, items := d.items ++ [item] } := by
  rw [toRingBuffer, capacity_pushBack_of_lt h]
  rfl

theorem ringPush_of_lt (h : d.len < d.capacity) (item : α) :
    d.ringPush growth item = .ok (none, d.pushBack growth item) := by
  rw [ringPush, if_neg h.ne]

/-- What is popped from a full queue leaves room for what is pushed. -/
theorem ringPush_of_full (hpos : 0 < d.capacity) (h : d.len = d.capacity) (item : α) :
    d.popFront.2.len < d.popFront.2.capacity ∧
      d.ringPush growth item = .ok (d.items.head?, d.popFront.2.pushBack growth item) := by
  have htail : d.items.tail.length + 1 = d.capacity := by
    rw [List.length_tail, ← h, len]
    rw [← h, len] at hpos
    omega
  have hroom : d.popFront.2.len < d.popFront.2.capacity := by
    rw [len, items_popFront, capacity_popFront]
    omega
  have hassert : (d.popFront.2.pushBack growth item).len =
      (d.popFront.2.pushBack growth item).capacity := by
    rw [capacity_pushBack_of_lt hroom, len, items_pushBack, items_popFront, List.length_append,
      List.length_singleton, capacity_popFront, htail]
  refine ⟨hroom, ?_⟩
  rw [ringPush, if_pos h]
  exact if_pos hassert

/-- A queue with room for an item at all does as the ring buffer does, and does not grow. -/
theorem ringCall_eq (hpos : 0 < d.capacity) (c : RingCall α) :
    ∃ d', d.ringCall growth c = .ok ((d.toRingBuffer.call c).1, d') ∧
      d'.toRingBuffer = (d.toRingBuffer.call c).2 := by
  cases c with
  | push item =>
    rw [ringCall, RingBuffer.call]
    rcases d.length_le.eq_or_lt with hfull | hroom
    · obtain ⟨hroom, hpush⟩ := @ringPush_of_full _ growth _ hpos hfull item
      refine ⟨d.popFront.2.pushBack growth item, ?_, ?_⟩
      · rw [hpush, Outcome.bind_ok, @RingBuffer.push_of_full _ d.toRingBuffer hfull]
        rfl
      · rw [@RingBuffer.push_of_full _ d.toRingBuffer hfull, toRingBuffer_pushBack_of_lt hroom]
        rfl
    · refine ⟨d.pushBack growth item, ?_, ?_⟩
      · rw [ringPush_of_lt hroom, Outcome.bind_ok, @RingBuffer.push_of_lt _ d.toRingBuffer hroom]
      · rw [@RingBuffer.push_of_lt _ d.toRingBuffer hroom, toRingBuffer_pushBack_of_lt hroom]
        rfl
  | pop => exact ⟨d.ringPop.2, rfl, rfl⟩
  | take => exact ⟨d.ringTake.2, rfl, rfl⟩

/-- The step lemma: a call keeps the room, gives back what it should, and what is held and what
comes in is what goes out and what is held then. -/
theorem ringCall_conserves (hpos : 0 < d.capacity) (c : RingCall α) :
    ∃ ret d', d.ringCall growth c = .ok (ret, d') ∧ d'.capacity = d.capacity ∧
      d.items ++ c.pushed = ret ++ d'.items ∧ ret = c.gives d.capacity d.items := by
  obtain ⟨d', hcall, hd'⟩ := @ringCall_eq _ growth _ hpos c
  refine ⟨_, d', hcall, ?_, ?_, ?_⟩
  · exact (congrArg RingBuffer.capacity hd').trans (RingBuffer.capacity_call c)
  · rw [show d'.items = _ from congrArg RingBuffer.items hd']
    exact @RingBuffer.call_conserves _ d.toRingBuffer c
  · exact RingBuffer.call_fst c

/-- Calls one after the other, split after the first ones. -/
theorem ringCalls_append (u v : List (RingCall α)) :
    d.ringCalls growth (u ++ v) = (d.ringCalls growth u).bind fun (returned, d) =>
      (d.ringCalls growth v).bind fun (returned', d) => .ok (returned ++ returned', d) := by
  induction u generalizing d with
  | nil =>
    cases h : d.ringCalls growth v with
    | ok pair => simp [ringCalls, h]
    | err e => exact e.elim
    | panic => simp [ringCalls, h, Outcome.bind]
  | cons c u ih =>
    rw [List.cons_append, ringCalls, ringCalls]
    cases d.ringCall growth c with
    | err e => exact e.elim
    | panic => rfl
    | ok pair =>
      obtain ⟨ret, d₁⟩ := pair
      simp only [Outcome.bind_ok, ih]
      cases d₁.ringCalls growth u with
      | err e => exact e.elim
      | panic => rfl
      | ok pair =>
        obtain ⟨returned, d₂⟩ := pair
        simp only [Outcome.bind_ok]
        cases d₂.ringCalls growth v with
        | err e => exact e.elim
        | panic => rfl
        | ok pair => rfl

/-- Calls do not panic, and what is held and what comes in is what goes out and what is held
then. -/
theorem ringCalls_conserves (hpos : 0 < d.capacity) (w : List (RingCall α)) :
    ∃ returned d', d.ringCalls growth w = .ok (returned, d') ∧ d'.capacity = d.capacity ∧
      returned.length = w.length ∧
      d.items ++ w.flatMap RingCall.pushed = returned.flatten ++ d'.items := by
  induction w generalizing d with
  | nil => exact ⟨[], d, rfl, rfl, rfl, by simp⟩
  | cons c w ih =>
    obtain ⟨ret, d₁, hcall, hcap, hitems, -⟩ := @ringCall_conserves _ growth _ hpos c
    obtain ⟨returned, d₂, hcalls, hcap', hlen, hrest⟩ := ih (hcap ▸ hpos)
    refine ⟨ret :: returned, d₂, ?_, hcap'.trans hcap, ?_, ?_⟩
    · simp only [ringCalls, hcall, Outcome.bind_ok, hcalls]
    · rw [List.length_cons, hlen, List.length_cons]
    · rw [List.flatMap_cons, ← List.append_assoc, hitems, List.append_assoc, hrest,
        List.flatten_cons, List.append_assoc]

/-- What calls on a ring buffer for `capacity` items have returned, and the queue behind it: it
holds what was pushed last and has not gone out, everything has gone out once and in the order it
came, and each call gave back what it should of what was held then: a push drives out the oldest
item exactly if the buffer is full. -/
structure Conserves (growth : Growth) (capacity : Nat) (w : List (RingCall α))
    (returned : List (List α)) (d : VecDeque α) : Prop where
  bounded : d.items.length ≤ capacity
  length_eq : returned.length = w.length
  order : w.flatMap RingCall.pushed = returned.flatten ++ d.items
  returns : ∀ u c v, w = u ++ c :: v →
    ∃ before held, (withCapacity capacity).ringCalls growth u = .ok (before, held) ∧
      returned[u.length]? = some (c.gives capacity held.items)

/-- The unprocessed messages are a bounded queue that loses and doubles nothing, and the debug
assertion never fails. -/
theorem conserves_withCapacity {capacity : Nat} (hpos : 1 ≤ capacity) (growth : Growth)
    (w : List (RingCall α)) :
    ∃ returned d, (withCapacity capacity).ringCalls growth w = .ok (returned, d) ∧
      Conserves growth capacity w returned d := by
  obtain ⟨returned, d, hcalls, hcap, hlen, horder⟩ :=
    @ringCalls_conserves _ growth (withCapacity capacity : VecDeque α) hpos w
  refine ⟨returned, d, hcalls, ?_, hlen, horder, ?_⟩
  · exact d.length_le.trans hcap.le
  · rintro u c v rfl
    obtain ⟨before, held, hu, hheld, hbefore, -⟩ :=
      @ringCalls_conserves _ growth (withCapacity capacity : VecDeque α) hpos u
    obtain ⟨ret, d₁, hcall, hd₁, -, hret⟩ := @ringCall_conserves _ growth held (hheld ▸ hpos) c
    obtain ⟨after, d₂, hv, -⟩ := @ringCalls_conserves _ growth d₁ (hd₁ ▸ hheld ▸ hpos) v
    refine ⟨before, held, hu, ?_⟩
    simp only [ringCalls_append, hu, ringCalls, Outcome.bind_ok, hcall, hv] at hcalls
    obtain ⟨rfl, -⟩ := Prod.mk.inj (Outcome.ok.inj hcalls)
    rw [← hbefore, List.getElem?_append_right le_rfl, Nat.sub_self, List.getElem?_cons_zero, hret,
      hheld]
    rfl

/-- Room is doubled. -/
def doubling : Growth := ⟨fun capacity => 2 * capacity + 1, by omega⟩

/-- The third push drives out the first item, and the take finds two. -/
def evictingCalls : List (RingCall Nat) :=
  [.push 1, .push 2, .push 3, .pop, .push 4, .take, .pop]

theorem conserves_evictingCalls :
    ∃ returned d, (withCapacity 2).ringCalls doubling evictingCalls = .ok (returned, d) ∧
      returned = [[], [], [1], [2], [], [3, 4], []] ∧
      Conserves doubling 2 evictingCalls returned d := by
  obtain ⟨returned, d, hcalls, h⟩ :=
    conserves_withCapacity (show 1 ≤ 2 by decide) doubling evictingCalls
  refine ⟨returned, d, hcalls, ?_, h⟩
  obtain ⟨hreturned, -⟩ := Prod.mk.inj (Outcome.ok.inj hcalls)
  exact hreturned.symm

end VecDeque

end SteamWire
