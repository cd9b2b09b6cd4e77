import SteamWire.Semantics.Decoder

/-!
# Framed readers

A framed reader decodes items off a byte stream that arrives in chunks, one item a poll, with
polls and arrivals in any order. The items it has given are then the first ones in all the
bytes that arrived (`FramedRead.Follows.given_prefix`), and all of them when the reader has
nothing to give (`FramedRead.Follows.poll_done`): neither the cuts between the chunks nor the
times of the polls are of account.
-/

namespace SteamWire.Semantics

/-- What a poll gives: nothing yet, or a result. -/
inductive Poll (α : Type*) where
  | pending
  | ready (result : α)
  deriving DecidableEq, Repr

def Poll.isPending {α : Type*} : Poll α → Bool
  | .pending => true
  | .ready _ => false

namespace Decoder

variable {β ε α : Type*} (d : Decoder β ε α)

/-- The items at the front of some bytes, and what is behind them: an error, or a part of an
item. -/
def scan (b : List β) : List α × Except ε (List β) :=
  match _h : d.decode b with
  | (.error e, _) => ([], .error e)
  | (.ok none, rest) => ([], .ok rest)
  | (.ok (some x), rest) => (x :: (scan rest).1, (scan rest).2)
termination_by b.length
decreasing_by all_goals exact d.length_lt_of_some _h

variable {d} {b rest more : List β} {x : α} {xs : List α} {e : ε}

theorem scan_of_none (h : d.decode b = (.ok none, rest)) : d.scan b = ([], .ok b) := by
  rw [scan]
  split
  · next heq => rw [h] at heq; cases heq
  · next rest' heq => rw [d.rest_of_none heq]
  · next heq => rw [h] at heq; cases heq

theorem scan_of_some (h : d.decode b = (.ok (some x), rest)) :
    d.scan b = (x :: (d.scan rest).1, (d.scan rest).2) := by
  rw [scan]
  split
  · next heq => rw [h] at heq; cases heq
  · next heq => rw [h] at heq; cases heq
  · next heq => rw [h] at heq; cases heq; rfl

theorem scan_of_error (h : d.decode b = (.error e, rest)) : d.scan b = ([], .error e) := by
  rw [scan]
  split
  · next heq => rw [h] at heq; cases heq; rfl
  · next heq => rw [h] at heq; cases heq
  · next heq => rw [h] at heq; cases heq

/-- Draining bytes gives the items at their front, if no error is behind them. -/
theorem drain_eq_scan (b : List β) : d.drain b = (d.scan b).2.map fun rest => ((d.scan b).1, rest) := by
  induction b using Decoder.drain.induct d with
  | case1 b e after hdecode =>
    rw [drain_of_error hdecode, scan_of_error hdecode]
    rfl
  | case2 b after hdecode =>
    rw [drain_of_none hdecode, scan_of_none hdecode]
    rfl
  | case3 b x after hdecode ih =>
    rw [drain_of_some hdecode, scan_of_some hdecode, ih]
    cases (d.scan after).2 <;> rfl

theorem scan_of_drain_eq (h : d.drain b = .ok (xs, rest)) : d.scan b = (xs, .ok rest) := by
  rw [drain_eq_scan] at h
  cases hend : (d.scan b).2 with
  | error e =>
    rw [hend] at h
    cases h
  | ok rest' =>
    rw [hend] at h
    obtain ⟨rfl, rfl⟩ := Prod.mk.inj (Except.ok.inj h)
    rw [← hend]

/-- More bytes do not change the items that are there. -/
theorem scan_fst_append (b more : List β) : (d.scan b).1 <+: (d.scan (b ++ more)).1 := by
  induction b using Decoder.drain.induct d with
  | case1 b e after hdecode =>
    rw [scan_of_error hdecode]
    exact List.nil_prefix
  | case2 b after hdecode =>
    rw [scan_of_none hdecode]
    exact List.nil_prefix
  | case3 b x after hdecode ih =>
    rw [scan_of_some hdecode, scan_of_some (d.some_append more hdecode)]
    exact List.cons_prefix_cons.mpr ⟨rfl, ih⟩

/-- An error behind the items stays there. -/
theorem scan_append_of_error (h : (d.scan b).2 = .error e) (more : List β) :
    d.scan (b ++ more) = d.scan b := by
  induction b using Decoder.drain.induct d with
  | case1 b e' after hdecode =>
    obtain ⟨rest', hmore⟩ := d.error_append more hdecode
    rw [scan_of_error hdecode, scan_of_error hmore]
  | case2 b after hdecode =>
    rw [scan_of_none hdecode] at h
    cases h
  | case3 b x after hdecode ih =>
    rw [scan_of_some hdecode] at h
    rw [scan_of_some hdecode, scan_of_some (d.some_append more hdecode), ih h]

end Decoder

/-- A framed reader: the bytes it has read and not yet decoded, how the stream below has ended,
by an error or without, and if the reader itself has. -/
structure FramedRead (β ε : Type*) where
  buffer : List β := []
  closed : Option (Option ε) := none
  ended : Bool := false
  deriving DecidableEq, Repr

namespace FramedRead

variable {β ε α : Type*} (d : Decoder β ε α) (remaining : ε)

/-- Poll for the next result. Bytes that are left at the end are an error, and no result comes
behind an error. -/
def poll (r : FramedRead β ε) : Poll (Option (Except ε α)) × FramedRead β ε :=
  if r.ended then (.ready none, r)
  else
    match d.decode r.buffer with
    | (.error e, rest) => (.ready (some (.error e)), { r with buffer := rest, ended := true })
    | (.ok (some x), rest) => (.ready (some (.ok x)), { r with buffer := rest })
    | (.ok none, rest) =>
      match r.closed with
      | none => (.pending, { r with buffer := rest })
      | some (some e) => (.ready (some (.error e)), { r with buffer := rest, ended := true })
      | some none =>
        if rest.isEmpty then (.ready none, { r with buffer := rest, ended := true })
        else (.ready (some (.error remaining)), { r with buffer := rest, ended := true })

/-- Read a chunk into the buffer. -/
def arrive (r : FramedRead β ε) (chunk : List β) : FramedRead β ε :=
  { r with buffer := r.buffer ++ chunk }

/-- The stream below ends. -/
def close (r : FramedRead β ε) (error : Option ε) : FramedRead β ε :=
  { r with closed := some error }

/-- What a reader gives behind the items, by what is behind them and how the stream ended. -/
def lastResults : Except ε (List β) → Option (Option ε) → List (Except ε α)
  | .error e, _ => [.error e]
  | .ok _, none => []
  | .ok _, some (some e) => [.error e]
  | .ok rest, some none => if rest.isEmpty then [] else [.error remaining]

/-- All results of some bytes and of how their stream ended. -/
def results (b : List β) (closed : Option (Option ε)) : List (Except ε α) :=
  (d.scan b).1.map .ok ++ lastResults remaining (d.scan b).2 closed

/-- The reader has given these results of the bytes that arrived. Until it has ended, its
buffer holds the bytes behind them. -/
inductive Follows (arrived : List β) : List (Except ε α) → FramedRead β ε → Prop
  | going {taken : List α} {r : FramedRead β ε} (hended : r.ended = false)
      (hscan : ∀ more, d.scan (arrived ++ more) =
        (taken ++ (d.scan (r.buffer ++ more)).1, (d.scan (r.buffer ++ more)).2)) :
      Follows arrived (taken.map .ok) r
  | ended {given : List (Except ε α)} {r : FramedRead β ε} (hended : r.ended = true)
      (hgiven : given = results d remaining arrived r.closed)
      (hlast : r.closed.isSome ∨ ∃ e, (d.scan arrived).2 = .error e) : Follows arrived given r

variable {d remaining} {arrived b rest more : List β} {given : List (Except ε α)}
  {r r' : FramedRead β ε} {x : α} {e : ε} {res : Except ε α} {closed : Option (Option ε)}

/-- A poll does not change how the stream below has ended. -/
theorem closed_poll : (r.poll d remaining).2.closed = r.closed := by
  unfold poll
  split
  · rfl
  · split
    · rfl
    · rfl
    · split
      · rfl
      · rfl
      · split <;> rfl

theorem follows_nil : Follows d remaining [] [] ({} : FramedRead β ε) :=
  @Follows.going _ _ _ d remaining [] [] {} rfl fun _ => rfl

/-- Bytes that arrive go behind those that are not decoded yet. -/
theorem Follows.arrive (h : Follows d remaining arrived given r) (hclosed : r.closed = none)
    (chunk : List β) : Follows d remaining (arrived ++ chunk) given (r.arrive chunk) := by
  cases h with
  | going hended hscan =>
    refine .going hended fun more => ?_
    rw [List.append_assoc, hscan, FramedRead.arrive, List.append_assoc]
  | ended hended hgiven hlast =>
    -- only an error in the bytes ends a reader before its stream
    obtain ⟨e, he⟩ := hlast.resolve_left (by simp [hclosed])
    have hsame := Decoder.scan_append_of_error he chunk
    refine .ended hended ?_ (.inr ⟨e, by rw [hsame, he]⟩)
    rw [hgiven, results, results, hsame]
    rfl

/-- A stream that ends does not change what was given. -/
theorem Follows.close (h : Follows d remaining arrived given r) (hclosed : r.closed = none)
    (error : Option ε) : Follows d remaining arrived given (r.close error) := by
  cases h with
  | going hended hscan => exact .going hended hscan
  | ended hended hgiven hlast =>
    obtain ⟨e, he⟩ := hlast.resolve_left (by simp [hclosed])
    refine .ended hended ?_ (.inl rfl)
    rw [hgiven, results, results, he]
    rfl

/-- A reader that has ended has given all results. -/
theorem Follows.eq_results (h : Follows d remaining arrived given r) (hended : r.ended = true) :
    given = results d remaining arrived r.closed := by
  cases h with
  | going hgoing => cases hended.symm.trans hgoing
  | ended _ hgiven _ => exact hgiven

/-- A poll of a reader that goes on, when there is no item in its buffer. -/
private theorem poll_of_none (hended : r.ended = false) (h : d.decode r.buffer = (.ok none, rest)) :
    r.poll d remaining =
      match r.closed with
      | none => (.pending, r)
      | some (some e) => (.ready (some (.error e)), { r with ended := true })
      | some none =>
        if r.buffer.isEmpty then (.ready none, { r with ended := true })
        else (.ready (some (.error remaining)), { r with ended := true }) := by
  obtain rfl := d.rest_of_none h
  rw [poll, if_neg (by simp [hended]), h]

/-- A result that a reader gives is the next one of the bytes that arrived. -/
theorem Follows.poll_some (h : Follows d remaining arrived given r)
    (hpoll : r.poll d remaining = (.ready (some res), r')) :
    Follows d remaining arrived (given ++ [res]) r' := by
  cases h with
  | ended hended =>
    rw [FramedRead.poll, if_pos hended] at hpoll
    cases hpoll
  | @going taken _ hended hscan =>
    have hall := hscan []
    rw [List.append_nil, List.append_nil] at hall
    cases hdecode : d.decode r.buffer with
    | mk found rest =>
    match found with
    | .error e =>
      -- the error is behind the items that were given
      rw [FramedRead.poll, if_neg (by simp [hended]), hdecode] at hpoll
      obtain ⟨hres, rfl⟩ := Prod.mk.inj hpoll
      obtain rfl := Option.some.inj (Poll.ready.inj hres)
      rw [Decoder.scan_of_error hdecode, List.append_nil] at hall
      exact .ended rfl (by rw [results, hall]; rfl) (.inr ⟨e, by rw [hall]⟩)
    | .ok (some x) =>
      rw [FramedRead.poll, if_neg (by simp [hended]), hdecode] at hpoll
      obtain ⟨hres, rfl⟩ := Prod.mk.inj hpoll
      obtain rfl := Option.some.inj (Poll.ready.inj hres)
      rw [show taken.map (.ok : α → Except ε α) ++ [.ok x] = (taken ++ [x]).map .ok by simp]
      refine .going hended fun more => ?_
      rw [hscan, Decoder.scan_of_some (d.some_append more hdecode)]
      simp
    | .ok none =>
      -- what is left when the stream has ended is less than an item
      rw [poll_of_none hended hdecode] at hpoll
      rw [Decoder.scan_of_none hdecode, List.append_nil] at hall
      have hclosed : r.closed.isSome ∧ r' = { r with ended := true } ∧
          lastResults remaining (.ok r.buffer) r.closed = [res] := by
        cases hclosed : r.closed with
        | none =>
          rw [hclosed] at hpoll
          cases hpoll
        | some error =>
          rw [hclosed] at hpoll
          cases error with
          | some e =>
            obtain ⟨hres, rfl⟩ := Prod.mk.inj hpoll
            obtain rfl := Option.some.inj (Poll.ready.inj hres)
            exact ⟨rfl, rfl, rfl⟩
          | none =>
            simp only at hpoll
            split at hpoll
            · cases hpoll
            next hleft =>
            obtain ⟨hres, rfl⟩ := Prod.mk.inj hpoll
            obtain rfl := Option.some.inj (Poll.ready.inj hres)
            exact ⟨rfl, rfl, by rw [lastResults, if_neg hleft]⟩
      obtain ⟨hsome, rfl, hlast⟩ := hclosed
      exact .ended rfl (by rw [results, hall, hlast]) (.inl hsome)

/-- A reader that gives nothing more, or nothing yet, has given all results. -/
theorem Follows.poll_done (h : Follows d remaining arrived given r)
    (hpoll : r.poll d remaining = (.ready none, r') ∨ r.poll d remaining = (.pending, r')) :
    given = results d remaining arrived r.closed ∧ Follows d remaining arrived given r' := by
  cases h with
  | ended hended hgiven hlast =>
    rw [FramedRead.poll, if_pos hended] at hpoll
    obtain rfl : r = r' := by simpa using hpoll
    exact ⟨hgiven, .ended hended hgiven hlast⟩
  | @going taken _ hended hscan =>
    have hall := hscan []
    rw [List.append_nil, List.append_nil] at hall
    cases hdecode : d.decode r.buffer with
    | mk found rest =>
    match found with
    | .error e =>
      rw [FramedRead.poll, if_neg (by simp [hended]), hdecode] at hpoll
      simp at hpoll
    | .ok (some x) =>
      rw [FramedRead.poll, if_neg (by simp [hended]), hdecode] at hpoll
      simp at hpoll
    | .ok none =>
      rw [poll_of_none hended hdecode] at hpoll
      rw [Decoder.scan_of_none hdecode, List.append_nil] at hall
      have hresults : ∀ hlast : lastResults remaining (.ok r.buffer) r.closed = [],
          taken.map .ok = results d remaining arrived r.closed := fun hlast => by
        rw [results, hall, hlast, List.append_nil]
      cases hclosed : r.closed with
      | none =>
        rw [hclosed] at hpoll
        obtain rfl : r = r' := by simpa using hpoll
        exact ⟨hclosed ▸ hresults (by rw [hclosed]; rfl), .going hended hscan⟩
      | some error =>
        rw [hclosed] at hpoll
        cases error with
        | some e => simp at hpoll
        | none =>
          simp only at hpoll
          split at hpoll
          case isFalse => simp at hpoll
          case isTrue hempty =>
            -- the stream ended behind an item
            obtain rfl : { r with ended := true } = r' := by simpa [hclosed] using hpoll
            have hgiven := hresults (by rw [hclosed, lastResults, if_pos hempty])
            exact ⟨hclosed ▸ hgiven, .ended rfl hgiven (.inl (by simp [hclosed]))⟩

/-- The items among some results. -/
def items (given : List (Except ε α)) : List α := given.filterMap Except.toOption

theorem items_map_ok (taken : List α) : items (taken.map (.ok : α → Except ε α)) = taken := by
  rw [items, List.filterMap_map]
  exact List.filterMap_some

theorem items_results : items (results d remaining b closed) = (d.scan b).1 := by
  have hlast : items (lastResults remaining (d.scan b).2 closed : List (Except ε α)) = [] := by
    unfold lastResults
    split
    · rfl
    · rfl
    · rfl
    · split_ifs <;> rfl
  rw [results, items, List.filterMap_append]
  exact (congrArg₂ _ (items_map_ok _) hlast).trans (List.append_nil _)

/-- The items that were given are the first ones of the stream, whatever of it is still to
arrive. -/
theorem Follows.items_prefix (h : Follows d remaining arrived given r) (more : List β) :
    items given <+: (d.scan (arrived ++ more)).1 := by
  cases h with
  | going _ hscan =>
    rw [items_map_ok, hscan]
    exact List.prefix_append _ _
  | ended _ hgiven _ =>
    rw [hgiven, items_results]
    exact Decoder.scan_fst_append arrived more

/-- Results are given in the order in which they arrived. -/
theorem Follows.given_prefix (h : Follows d remaining arrived given r) :
    given <+: results d remaining arrived r.closed := by
  cases h with
  | going _ hscan =>
    have hall := hscan []
    rw [List.append_nil, List.append_nil] at hall
    rw [results, hall, List.map_append, List.append_assoc]
    exact List.prefix_append _ _
  | ended _ hgiven _ => exact hgiven ▸ List.prefix_rfl

end FramedRead

end SteamWire.Semantics
