import SteamWire.Net.Message

/-!
# Multi messages

A multi message carries other messages, each behind its length, in a body that may be
compressed. `flattenMulti` replaces every multi message of a stream by the children it
carries. `MultiBodyIter.children_eq` reads the children off the bytes of the body: the
whole ones are parsed one by one, and a child that is cut short ends the list with an
I/O error. A child whose parse panics unwinds the stream, which gives nothing behind it. The
protobuf decoder of the message and the decompressor are parameters.
-/

namespace SteamWire

/-- The message that carries others. -/
structure CMsgMulti where
  sizeUnzipped : Option UInt32 := none
  messageBody : Option Bytes := none
  deriving DecidableEq, Repr

/-- A reader over the body of a multi message: the bytes it still gives, and the error it
ends with when the compressed stream behind it is damaged. -/
structure MultiBodyIter where
  bytes : Bytes
  failure : Option IoError := none
  deriving DecidableEq, Repr

/-- What the decoder of multi messages takes from other crates. -/
structure MultiCodec where
  parse : Bytes → Except ProtoError CMsgMulti
  gunzip : Bytes → MultiBodyIter

namespace MultiBodyIter

variable {SteamID : Type} [SteamIdOps SteamID]

/-- Read exactly `n` bytes. -/
def readExact (reader : MultiBodyIter) (n : Nat) : Except IoError (Bytes × MultiBodyIter) :=
  if n ≤ reader.bytes.length then
    .ok (reader.bytes.take n, { reader with bytes := reader.bytes.drop n })
  else .error (reader.failure.getD .unexpectedEof)

/-- `MultiBodyIter::new`. -/
def new (codec : MultiCodec) (data : Bytes) : Except NetworkError MultiBodyIter :=
  match codec.parse data with
  | .error e => .error (.malformedBody EMsg.kEMsgMulti.kind (.proto e))
  | .ok multi =>
    let messageBody := multi.messageBody.getD []
    if multi.sizeUnzipped.getD 0 = 0 then .ok { bytes := messageBody }
    else .ok (codec.gunzip messageBody)

/-- A multi message that cannot be parsed is a malformed body. -/
theorem new_eq_error {codec : MultiCodec} {data : Bytes} {e : NetworkError}
    (h : new codec data = .error e) :
    ∃ error, e = .malformedBody EMsg.kEMsgMulti.kind (.proto error) := by
  rw [new] at h
  split at h
  · exact ⟨_, (Except.error.inj h).symm⟩
  · split_ifs at h

/-- The next child. A body that ends, or fails, before the length of a child has no more. -/
def next (codec : HeaderCodec) (reader : MultiBodyIter) :
    Option (Outcome NetworkError (RawNetMessage SteamID) × MultiBodyIter) :=
  match reader.readExact 4 with
  | .error _ => none
  | .ok (size, reader) =>
    match reader.readExact (LittleEndian.decode size) with
    | .error e => some (.err (.io e), { reader with bytes := [] })
    | .ok (msgData, reader) => some (RawNetMessage.read codec msgData, reader)

/-- A child takes up at least its length field. -/
theorem length_lt_of_next {codec : HeaderCodec} {reader rest : MultiBodyIter}
    {item : Outcome NetworkError (RawNetMessage SteamID)}
    (h : reader.next codec = some (item, rest)) : rest.bytes.length < reader.bytes.length := by
  unfold next readExact at h
  split at h
  · cases h
  · rename_i size reader' hsize
    split at hsize
    · cases hsize
      dsimp only at h
      split at h <;> rename_i hread <;> split at hread <;> cases hread <;> cases h <;>
        simp <;> omega
    · cases hsize

/-- The children, until there are no more, or until the parse of one panics. -/
def children (codec : HeaderCodec) (reader : MultiBodyIter) :
    List (Outcome NetworkError (RawNetMessage SteamID)) :=
  match _h : reader.next codec with
  | none => []
  | some (.panic, _) => [.panic]
  | some (item, rest) => item :: children codec rest
termination_by reader.bytes.length
decreasing_by exact length_lt_of_next _h

/-- Cut a body at the lengths in it. Also tells if the last child is cut short. -/
def splitBody (body : Bytes) : List Bytes × Bool :=
  if _h : 4 ≤ body.length then
    let size := LittleEndian.decode (body.take 4)
    if size ≤ (body.drop 4).length then
      let rest := splitBody ((body.drop 4).drop size)
      ((body.drop 4).take size :: rest.1, rest.2)
    else ([], true)
  else ([], false)
termination_by body.length
decreasing_by simp; omega

/-- A body with a whole part in front. -/
theorem splitBody_of_whole {body : Bytes} (h4 : 4 ≤ body.length)
    (hsize : LittleEndian.decode (body.take 4) ≤ (body.drop 4).length) :
    splitBody body =
      ((body.drop 4).take (LittleEndian.decode (body.take 4)) ::
          (splitBody ((body.drop 4).drop (LittleEndian.decode (body.take 4)))).1,
        (splitBody ((body.drop 4).drop (LittleEndian.decode (body.take 4)))).2) := by
  rw [splitBody.eq_def body, dif_pos h4]
  exact if_pos hsize

/-- A body that ends inside its first part. -/
theorem splitBody_of_cut {body : Bytes} (h4 : 4 ≤ body.length)
    (hsize : ¬ LittleEndian.decode (body.take 4) ≤ (body.drop 4).length) :
    splitBody body = ([], true) := by
  rw [splitBody.eq_def body, dif_pos h4]
  exact if_neg hsize

/-- A body without room for a length. -/
theorem splitBody_of_lt {body : Bytes} (h4 : ¬ 4 ≤ body.length) : splitBody body = ([], false) := by
  rw [splitBody.eq_def body, dif_neg h4]

section Children

variable {codec : HeaderCodec} {reader rest : MultiBodyIter}
  {item : Outcome NetworkError (RawNetMessage SteamID)}

theorem children_of_next_eq_none (h : @next SteamID _ codec reader = none) :
    (reader.children codec : List (Outcome _ (RawNetMessage SteamID))) = [] := by
  rw [children]
  split
  · rfl
  · rename_i hpanic
    rw [h] at hpanic
    cases hpanic
  · rename_i hsome
    rw [h] at hsome
    cases hsome

theorem children_of_next_eq_panic
    (h : @next SteamID _ codec reader = some (.panic, rest)) :
    (reader.children codec : List (Outcome _ (RawNetMessage SteamID))) = [.panic] := by
  rw [children]
  split
  · rename_i hnone
    rw [h] at hnone
    cases hnone
  · rfl
  · rename_i hitem hsome
    rw [h, Option.some.injEq, Prod.mk.injEq] at hsome
    exact (hitem hsome.1.symm).elim

theorem children_of_next_eq_some (h : reader.next codec = some (item, rest))
    (hitem : item ≠ .panic) : reader.children codec = item :: rest.children codec := by
  rw [children]
  split
  · rename_i hnone
    rw [h] at hnone
    cases hnone
  · rename_i hpanic
    rw [h, Option.some.injEq, Prod.mk.injEq] at hpanic
    exact absurd hpanic.1 hitem
  · rename_i hsome
    rw [h, Option.some.injEq, Prod.mk.injEq] at hsome
    rw [hsome.1, hsome.2]

theorem readExact_of_le {n : Nat} (h : n ≤ reader.bytes.length) :
    reader.readExact n =
      .ok (reader.bytes.take n, { reader with bytes := reader.bytes.drop n }) := if_pos h

theorem readExact_of_lt {n : Nat} (h : reader.bytes.length < n) :
    reader.readExact n = .error (reader.failure.getD .unexpectedEof) := if_neg (not_le.mpr h)

variable (SteamID) in
/-- What is made of the parts of a body: the whole ones are parsed, and one that is cut short
is an I/O error. -/
def items (codec : HeaderCodec) (reader : MultiBodyIter) :
    List (Outcome NetworkError (RawNetMessage SteamID)) :=
  (splitBody reader.bytes).1.map (RawNetMessage.read codec) ++
    if (splitBody reader.bytes).2 then [.err (.io (reader.failure.getD .unexpectedEof))] else []

/-- The children of a body are its parts, up to the first one whose parse panics. -/
theorem children_eq (codec : HeaderCodec) (reader : MultiBodyIter) :
    reader.children codec = Outcome.upToPanic (items SteamID codec reader) := by
  obtain ⟨body, failure⟩ := reader
  induction body using splitBody.induct with
  | case1 body h4 size hsize ih =>
    -- the reader parses the whole part, and goes on behind it
    have hnext : (⟨body, failure⟩ : MultiBodyIter).next codec =
        some ((RawNetMessage.read codec ((body.drop 4).take size) :
            Outcome _ (RawNetMessage SteamID)), ⟨(body.drop 4).drop size, failure⟩) := by
      rw [next, readExact_of_le h4]
      dsimp only
      rw [readExact_of_le hsize]
    have hitems : items SteamID codec ⟨body, failure⟩ =
        RawNetMessage.read codec ((body.drop 4).take size) ::
          items SteamID codec ⟨(body.drop 4).drop size, failure⟩ := by
      rw [items, splitBody_of_whole h4 hsize]
      rfl
    rw [hitems]
    by_cases hpanic : (RawNetMessage.read codec ((body.drop 4).take size) :
        Outcome _ (RawNetMessage SteamID)) = .panic
    · rw [hpanic] at hnext ⊢
      exact children_of_next_eq_panic hnext
    · rw [children_of_next_eq_some hnext hpanic, ih, Outcome.upToPanic_cons hpanic]
  | case2 body h4 size hsize =>
    -- the part that is cut short uses up the body
    have hnext : (⟨body, failure⟩ : MultiBodyIter).next codec =
        some ((.err (.io (failure.getD .unexpectedEof)) : Outcome _ (RawNetMessage SteamID)),
          ⟨[], failure⟩) := by
      rw [next, readExact_of_le h4]
      dsimp only
      rw [readExact_of_lt (not_le.mp hsize)]
    have hend : @next SteamID _ codec ⟨[], failure⟩ = none := rfl
    rw [children_of_next_eq_some hnext (by simp), children_of_next_eq_none hend, items,
      splitBody_of_cut h4 hsize]
    rfl
  | case3 body h4 =>
    -- a few bytes at the end are no child, and no error either
    have hnext : @next SteamID _ codec ⟨body, failure⟩ = none := by
      rw [next, readExact_of_lt (not_le.mp h4)]
    rw [children_of_next_eq_none hnext, items, splitBody_of_lt h4]
    rfl

/-- A panic among the children is that of a whole part. -/
theorem panic_mem_children_iff :
    Outcome.panic ∈ (reader.children codec : List (Outcome _ (RawNetMessage SteamID))) ↔
      ∃ child ∈ (splitBody reader.bytes).1,
        (RawNetMessage.read codec child : Outcome _ (RawNetMessage SteamID)) = .panic := by
  rw [children_eq, Outcome.panic_mem_upToPanic_iff, items, List.mem_append, List.mem_map]
  constructor
  · rintro (h | h)
    · exact h
    · split at h <;> simp at h
  · exact .inl

end Children

end MultiBodyIter

/-- Flatten one result of the message stream. -/
def flattenOne {SteamID : Type} [SteamIdOps SteamID] (codec : HeaderCodec) (multi : MultiCodec) :
    Outcome NetworkError (RawNetMessage SteamID) → List (Outcome NetworkError (RawNetMessage SteamID))
  | .ok next =>
    if next.kind = EMsg.kEMsgMulti.kind then
      match MultiBodyIter.new multi next.data with
      | .error e => [.err e]
      | .ok reader => reader.children codec
    else [.ok next]
  | res => [res]

/-- What comes of one result ends where something panics. -/
theorem upToPanic_flattenOne {SteamID : Type} [SteamIdOps SteamID] (codec : HeaderCodec)
    (multi : MultiCodec) (item : Outcome NetworkError (RawNetMessage SteamID)) :
    Outcome.upToPanic (flattenOne codec multi item) = flattenOne codec multi item := by
  cases item with
  | ok next =>
    rw [flattenOne]
    split_ifs
    · split
      · rfl
      · rw [MultiBodyIter.children_eq, Outcome.upToPanic_upToPanic]
    · rfl
  | err e => rfl
  | panic => rfl

/-- Flatten the multi messages of a stream, until something panics. -/
def flattenMulti {SteamID : Type} [SteamIdOps SteamID] (codec : HeaderCodec) (multi : MultiCodec)
    (source : List (Outcome NetworkError (RawNetMessage SteamID))) :
    List (Outcome NetworkError (RawNetMessage SteamID)) :=
  Outcome.upToPanic (source.flatMap (flattenOne codec multi))

end SteamWire
