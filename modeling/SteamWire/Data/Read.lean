import SteamWire.Data.LittleEndian

/-!
# Readers and iterators

`std::io::Read` from the side of its user: a call asks for some number of bytes and
gets as many or fewer, none of them only at the end. How a reader splits its bytes is
up to it, and it may end with an error. An exact read loops over the calls, so that it does
not depend on the splits (`Reader.Ends.readExact_of_le`, `Reader.Ends.readExact_of_lt`).
`Yields` tells what an iterator gives from a state on.
-/

namespace SteamWire

/-- Calling `next` from a state on gives these items, and then none. -/
inductive Yields {σ α : Type*} (next : σ → Option α × σ) : σ → List α → Prop
  | nil {s t : σ} (h : next s = (none, t)) : Yields next s []
  | cons {s t : σ} {x : α} {xs : List α} (h : next s = (some x, t)) (hrest : Yields next t xs) :
      Yields next s (x :: xs)

namespace Yields

variable {σ α β : Type*} {next : σ → Option α × σ} {s : σ} {xs ys : List α}

/-- What an iterator gives is determined. -/
theorem unique (h : Yields next s xs) (h' : Yields next s ys) : xs = ys := by
  induction h generalizing ys with
  | nil hnone =>
    cases h' with
    | nil => rfl
    | cons hsome => cases (congrArg Prod.fst hnone).symm.trans (congrArg Prod.fst hsome)
  | cons hsome _ ih =>
    cases h' with
    | nil hnone => cases (congrArg Prod.fst hnone).symm.trans (congrArg Prod.fst hsome)
    | cons hsome' hrest =>
      obtain ⟨hx, rfl⟩ := Prod.mk.inj (hsome.symm.trans hsome')
      rw [Option.some.inj hx, ih hrest]

/-- An iterator that maps the items of another. -/
theorem map {next' : σ → Option β × σ} {f : α → β}
    (hnext : ∀ s, next' s = ((next s).1.map f, (next s).2)) (h : Yields next s xs) :
    Yields next' s (xs.map f) := by
  induction h with
  | nil hnone => exact .nil ((hnext _).trans (by rw [hnone, Option.map_none]))
  | cons hsome _ ih => exact .cons ((hnext _).trans (by rw [hsome, Option.map_some])) ih

end Yields

/-- A reader with states in `ρ`. -/
structure Reader (ρ ε : Type*) where
  read : ρ → Nat → Except ε Bytes × ρ
  length_le : ∀ {r n b rest}, read r n = (.ok b, rest) → b.length ≤ n

namespace Reader

variable {ρ ε : Type*} (reader : Reader ρ ε)

/-- `read_exact`: call `read` until all bytes are there, or there are no more. -/
def readExact (eof : ε) (r : ρ) (n : Nat) : Except ε Bytes × ρ :=
  if _hn : n = 0 then (.ok [], r)
  else
    match reader.read r n with
    | (.error e, r) => (.error e, r)
    | (.ok b, r) =>
      if _hb : b = [] then (.error eof, r)
      else
        match readExact eof r (n - b.length) with
        | (.error e, r) => (.error e, r)
        | (.ok rest, r) => (.ok (b ++ rest), r)
termination_by n
decreasing_by
  have := List.length_pos_iff.mpr _hb
  omega

/-- The reader gives the bytes of `body`, in whatever portions, and then its end. -/
def Gives (r : ρ) (body : Bytes) : Prop :=
  ∃ I : ρ → Bytes → Prop, I r body ∧ ∀ r body n, I r body → 0 < n →
    ∃ b rest r', reader.read r n = (.ok b, r') ∧ body = b ++ rest ∧ (b = [] → body = []) ∧ I r' rest

variable {reader} {r : ρ} {body : Bytes} {n : Nat}

/-- One call on such a reader. -/
theorem Gives.exists_read (h : reader.Gives r body) (hn : 0 < n) :
    ∃ b rest r', reader.read r n = (.ok b, r') ∧ body = b ++ rest ∧ (b = [] → body = []) ∧
      reader.Gives r' rest := by
  obtain ⟨I, hr, hstep⟩ := h
  obtain ⟨b, rest, r', hread, hbody, hend, hrest⟩ := hstep r body n hr hn
  exact ⟨b, rest, r', hread, hbody, hend, I, hrest, hstep⟩

theorem readExact_zero {eof : ε} : reader.readExact eof r 0 = (.ok [], r) := by
  rw [readExact, dif_pos rfl]

/-- A call that gives nothing is the end of an exact read. -/
theorem readExact_of_read_nil {eof : ε} (hn : 0 < n) {r' : ρ} (h : reader.read r n = (.ok [], r')) :
    reader.readExact eof r n = (.error eof, r') := by
  rw [readExact, dif_neg hn.ne', h]
  exact dif_pos rfl

/-- After a call that gives something, an exact read goes on for the others. -/
theorem readExact_of_read_ne_nil {eof : ε} (hn : 0 < n) {b : Bytes} {r' : ρ}
    (h : reader.read r n = (.ok b, r')) (hb : b ≠ []) :
    reader.readExact eof r n =
      (match reader.readExact eof r' (n - b.length) with
        | (.error e, r) => (.error e, r)
        | (.ok rest, r) => (.ok (b ++ rest), r)) := by
  rw [readExact, dif_neg hn.ne', h]
  exact dif_neg hb

/-! ### Readers that fail -/

/-- The reader gives the bytes of `body`, in whatever portions, and then ends: with no more
bytes, or with an error. Behind an error it gives no bytes, whatever else it reports. -/
def Ends (r : ρ) (body : Bytes) (failure : Option ε) : Prop :=
  ∃ I : ρ → Bytes → Option ε → Prop, I r body failure ∧ ∀ r body failure n, I r body failure → 0 < n →
    (∃ b rest r', reader.read r n = (.ok b, r') ∧ body = b ++ rest ∧
        (b = [] → body = [] ∧ failure = none) ∧ I r' rest failure) ∨
      ∃ e r' failure', body = [] ∧ failure = some e ∧ reader.read r n = (.error e, r') ∧
        I r' [] failure'

variable {failure : Option ε}

/-- One call on such a reader. -/
theorem Ends.read_cases (h : reader.Ends r body failure) (hn : 0 < n) :
    (∃ b rest r', reader.read r n = (.ok b, r') ∧ body = b ++ rest ∧
        (b = [] → body = [] ∧ failure = none) ∧ reader.Ends r' rest failure) ∨
      ∃ e r' failure', body = [] ∧ failure = some e ∧ reader.read r n = (.error e, r') ∧
        reader.Ends r' [] failure' := by
  obtain ⟨I, hr, hstep⟩ := h
  rcases hstep r body failure n hr hn with
    ⟨b, rest, r', hread, hbody, hend, hrest⟩ | ⟨e, r', failure', hbody, hfail, hread, hrest⟩
  · exact .inl ⟨b, rest, r', hread, hbody, hend, I, hrest, hstep⟩
  · exact .inr ⟨e, r', failure', hbody, hfail, hread, I, hrest, hstep⟩

/-- A reader that gives its bytes ends without an error. -/
theorem Gives.ends (h : reader.Gives r body) : reader.Ends r body none := by
  refine ⟨fun r body failure => failure = none ∧ reader.Gives r body, ⟨rfl, h⟩, ?_⟩
  rintro r body _ n ⟨rfl, hgives⟩ hn
  obtain ⟨b, rest, r', hread, hbody, hend, hrest⟩ := hgives.exists_read hn
  exact .inl ⟨b, rest, r', hread, hbody, fun hb => ⟨hend hb, rfl⟩, rfl, hrest⟩

theorem Ends.gives (h : reader.Ends r body none) : reader.Gives r body := by
  refine ⟨fun r body => reader.Ends r body none, h, ?_⟩
  intro r body n hends hn
  rcases hends.read_cases hn with ⟨b, rest, r', hread, hbody, hend, hrest⟩ | ⟨e, -, -, -, hfail, -⟩
  · exact ⟨b, rest, r', hread, hbody, fun hb => (hend hb).1, hrest⟩
  · cases hfail

/-- An error of a call is the error of an exact read. -/
theorem readExact_of_read_error {eof e : ε} (hn : 0 < n) {r' : ρ}
    (h : reader.read r n = (.error e, r')) : reader.readExact eof r n = (.error e, r') := by
  rw [readExact, dif_neg hn.ne', h]

/-- An exact read of bytes that are there gives them, and leaves the others. -/
theorem Ends.readExact_of_le (h : reader.Ends r body failure) (hle : n ≤ body.length) (eof : ε) :
    ∃ r', reader.readExact eof r n = (.ok (body.take n), r') ∧
      reader.Ends r' (body.drop n) failure := by
  -- by the number of bytes to come: each call gives one at least, or is the last
  induction n using Nat.strongRecOn generalizing r body with
  | ind n ih =>
    rcases Nat.eq_zero_or_pos n with rfl | hn
    · exact ⟨r, readExact_zero, h⟩
    rcases h.read_cases hn with ⟨b, rest, r', hread, rfl, hend, hrest⟩ | ⟨e, -, -, rfl, -⟩
    · have hb : b ≠ [] := fun hnil => by
        rw [(hend hnil).1, List.length_nil] at hle
        omega
      have hpos := List.length_pos_iff.mpr hb
      have hlen := reader.length_le hread
      rw [List.length_append] at hle
      obtain ⟨r'', hexact, hgives⟩ := ih (n - b.length) (by omega) hrest (by omega)
      refine ⟨r'', ?_, ?_⟩
      · rw [readExact_of_read_ne_nil hn hread hb, hexact, List.take_append,
          List.take_of_length_le hlen]
      · rwa [List.drop_append, List.drop_eq_nil_of_le hlen, List.nil_append]
    · rw [List.length_nil] at hle
      omega

/-- An exact read of more than there is fails with what the reader ends with, and uses
everything up. -/
theorem Ends.readExact_of_lt (h : reader.Ends r body failure) (hlt : body.length < n) (eof : ε) :
    ∃ r' failure', reader.readExact eof r n = (.error (failure.getD eof), r') ∧
      reader.Ends r' [] failure' ∧ (failure = none → failure' = none) := by
  induction n using Nat.strongRecOn generalizing r body with
  | ind n ih =>
    have hn : 0 < n := by omega
    rcases h.read_cases hn with
      ⟨b, rest, r', hread, rfl, hend, hrest⟩ | ⟨e, r', failure', rfl, rfl, hread, hrest⟩
    · by_cases hb : b = []
      · -- nothing is left, so this call is the end
        subst hb
        obtain ⟨hnil, rfl⟩ := hend rfl
        exact ⟨r', none, readExact_of_read_nil hn hread, hnil ▸ hrest, id⟩
      · have hpos := List.length_pos_iff.mpr hb
        rw [List.length_append] at hlt
        obtain ⟨r'', failure', hexact, hends⟩ := ih (n - b.length) (by omega) hrest (by omega)
        exact ⟨r'', failure', by rw [readExact_of_read_ne_nil hn hread hb, hexact], hends⟩
    · exact ⟨r', failure', readExact_of_read_error hn hread, hrest, nofun⟩

theorem readExact_of_le (h : reader.Gives r body) (hle : n ≤ body.length) (eof : ε) :
    ∃ r', reader.readExact eof r n = (.ok (body.take n), r') ∧ reader.Gives r' (body.drop n) := by
  obtain ⟨r', hexact, hends⟩ := h.ends.readExact_of_le hle eof
  exact ⟨r', hexact, hends.gives⟩

theorem readExact_of_lt (h : reader.Gives r body) (hlt : body.length < n) (eof : ε) :
    ∃ r', reader.readExact eof r n = (.error eof, r') ∧ reader.Gives r' [] := by
  obtain ⟨r', failure', hexact, hends, hnone⟩ := h.ends.readExact_of_lt hlt eof
  obtain rfl := hnone rfl
  exact ⟨r', hexact, hends.gives⟩

end Reader

end SteamWire
