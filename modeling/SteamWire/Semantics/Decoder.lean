import Mathlib.Data.List.Basic

/-!
# Incremental decoders

A decoder takes items off the front of a buffer that grows chunk by chunk. What it
decides about a buffer it does not take back when more arrives: this is all that is
needed for the cuts between the chunks to be of no account (`Decoder.feed_eq_drain`).
-/

namespace SteamWire.Semantics

/-- A decoder, called on a buffer: its result, and the buffer after the call. -/
structure Decoder (β ε α : Type*) where
  decode : List β → Except ε (Option α) × List β
  rest_of_none : ∀ {b rest}, decode b = (.ok none, rest) → rest = b
  length_lt_of_some : ∀ {b x rest}, decode b = (.ok (some x), rest) → rest.length < b.length
  some_append : ∀ {b x rest} more, decode b = (.ok (some x), rest) →
    decode (b ++ more) = (.ok (some x), rest ++ more)
  error_append : ∀ {b e rest} more, decode b = (.error e, rest) →
    ∃ rest', decode (b ++ more) = (.error e, rest')

namespace Decoder

variable {β ε α : Type*} (d : Decoder β ε α)

/-- Decode until nothing more can be taken off the buffer. -/
def drain (b : List β) : Except ε (List α × List β) :=
  match _h : d.decode b with
  | (.error e, _) => .error e
  | (.ok none, rest) => .ok ([], rest)
  | (.ok (some x), rest) => (drain rest).map fun (xs, rest) => (x :: xs, rest)
termination_by b.length
decreasing_by exact d.length_lt_of_some _h

/-- Append chunks to the buffer one by one, and drain it after each. -/
def feed : List (List β) → List β → Except ε (List α × List β)
  | [], b => .ok ([], b)
  | chunk :: chunks, b =>
    (d.drain (b ++ chunk)).bind fun (xs, rest) =>
      (feed chunks rest).map fun (ys, rest) => (xs ++ ys, rest)

variable {d} {b rest more : List β} {x : α} {xs : List α} {e : ε}

theorem drain_of_none (h : d.decode b = (.ok none, rest)) : d.drain b = .ok ([], b) := by
  rw [drain]
  split
  · next heq => rw [h] at heq; cases heq
  · next rest' heq => rw [d.rest_of_none heq]
  · next heq => rw [h] at heq; cases heq

theorem drain_of_some (h : d.decode b = (.ok (some x), rest)) :
    d.drain b = (d.drain rest).map fun (xs, rest) => (x :: xs, rest) := by
  rw [drain]
  split
  · next heq => rw [h] at heq; cases heq
  · next heq => rw [h] at heq; cases heq
  · next heq => rw [h] at heq; cases heq; rfl

theorem drain_of_error (h : d.decode b = (.error e, rest)) : d.drain b = .error e := by
  rw [drain]
  split
  · next heq => rw [h] at heq; cases heq; rfl
  · next heq => rw [h] at heq; cases heq
  · next heq => rw [h] at heq; cases heq

/-- What a drained buffer still holds gives nothing more. -/
theorem drain_of_drain_eq (h : d.drain b = .ok (xs, rest)) : d.drain rest = .ok ([], rest) := by
  induction b using Decoder.drain.induct d generalizing xs with
  | case1 b e after hdecode =>
    rw [drain_of_error hdecode] at h
    cases h
  | case2 b after hdecode =>
    rw [drain_of_none hdecode] at h
    cases h
    exact drain_of_none hdecode
  | case3 b x after hdecode ih =>
    rw [drain_of_some hdecode] at h
    cases hdrain : d.drain after with
    | error e =>
      rw [hdrain] at h
      cases h
    | ok p =>
      rw [hdrain] at h
      cases h
      exact ih hdrain

/-- Draining a buffer is draining the front of it, and then what that leaves together with
the back. -/
theorem drain_append (b more : List β) :
    d.drain (b ++ more) = (d.drain b).bind fun (xs, rest) =>
      (d.drain (rest ++ more)).map fun (ys, rest) => (xs ++ ys, rest) := by
  induction b using Decoder.drain.induct d with
  | case1 b e after hdecode =>
    obtain ⟨rest', hmore⟩ := d.error_append more hdecode
    rw [drain_of_error hdecode, drain_of_error hmore]
    rfl
  | case2 b after hdecode =>
    rw [drain_of_none hdecode]
    simp only [Except.bind, List.nil_append]
    cases d.drain (b ++ more) <;> rfl
  | case3 b x after hdecode ih =>
    -- the first item is taken off either way
    rw [drain_of_some hdecode, drain_of_some (d.some_append more hdecode), ih]
    cases d.drain after with
    | error e => rfl
    | ok p =>
      simp only [Except.map, Except.bind]
      cases d.drain (p.2 ++ more) <;> rfl

/-- The cuts between the chunks are of no account. -/
theorem feed_eq_drain (chunks : List (List β)) (hb : d.drain b = .ok ([], b)) :
    d.feed chunks b = d.drain (b ++ chunks.flatten) := by
  induction chunks generalizing b with
  | nil => rw [feed, List.flatten_nil, List.append_nil, hb]
  | cons chunk chunks ih =>
    rw [feed, List.flatten_cons, ← List.append_assoc, drain_append (b ++ chunk)]
    cases hdrain : d.drain (b ++ chunk) with
    | error e => rfl
    | ok p => simp only [Except.bind, ih (drain_of_drain_eq hdrain)]

end Decoder

end SteamWire.Semantics
