import SteamWire.Message.Children

/-!
# Damaged bodies

A body may be damaged: bytes may be missing at its end, or the decompressor may fail in it.
The iterator of the children ends when it cannot read the next length, whatever the cause. So
the damage goes unnoticed unless it lies in the bytes of a child (`neverCutShort_iff`).
-/

namespace SteamWire

variable {SteamID : Type} [SteamIdOps SteamID] {ρ ζ : Type} (reader : Reader ρ IoError)
  (codec : HeaderCodec)

/-- The reading half of `MultiBodyIter::next`: the bytes of the next child, or the error of the
reader. -/
def nextPart (r : ρ) : Option (Except IoError Bytes) × ρ :=
  match reader.readExact .unexpectedEof r 4 with
  | (.error _, r) => (none, r)
  | (.ok size, r) =>
    match reader.readExact .unexpectedEof r (LittleEndian.decode size) with
    | (.error e, r) => (some (.error e), r)
    | (.ok msgData, r) => (some (.ok msgData), r)

/-- The item for a part. -/
def childOfPart : Except IoError Bytes → Outcome NetworkError (RawNetMessage SteamID)
  | .error e => .err (.io e)
  | .ok msgData => RawNetMessage.read codec msgData

/-- The iterator reads a part and parses it. -/
theorem nextChild_eq (r : ρ) :
    (nextChild reader codec r : Option (Outcome _ (RawNetMessage SteamID)) × ρ) =
      ((nextPart reader r).1.map (childOfPart codec), (nextPart reader r).2) := by
  unfold nextChild nextPart
  rcases reader.readExact .unexpectedEof r 4 with ⟨e | size, r⟩
  · rfl
  · dsimp only
    rcases reader.readExact .unexpectedEof r (LittleEndian.decode size) with ⟨e | msgData, r⟩ <;>
      rfl

/-- A body that is whole children and nothing else. -/
def IsWhole (body : Bytes) : Prop :=
  ∃ children : List Bytes, (∀ c ∈ children, c.length < 2 ^ 32) ∧ body = packBody children

variable (SteamID) in
/-- The iteration ends, and when neither the parser panics nor the reader's error is among its
items, the body is whole and all of its children were among them. -/
structure NeverCutShort (r : ρ) (body : Bytes) (failure : Option IoError) : Prop where
  terminates : ∃ parts, Yields (nextPart reader) r parts ∧
    Yields (nextChild reader codec) r
      (parts.map (childOfPart codec) : List (Outcome _ (RawNetMessage SteamID)))
  complete : ∀ parts, Yields (nextPart reader) r parts →
    (∀ c, .ok c ∈ parts →
      (RawNetMessage.read codec c : Outcome _ (RawNetMessage SteamID)) ≠ .panic) →
    (∀ e, .error e ∉ parts) →
      failure = none ∧ ∃ children : List Bytes, (∀ c ∈ children, c.length < 2 ^ 32) ∧
        body = packBody children ∧ parts = children.map .ok

variable {reader codec} {r : ρ} {body : Bytes} {failure : Option IoError}

/-! ### What is read from a body -/

section Parts

/-- Without room for a length there are no more parts. -/
theorem nextPart_of_lt (h : reader.Ends r body failure) (h4 : ¬ 4 ≤ body.length) :
    ∃ r', nextPart reader r = (none, r') := by
  obtain ⟨r', -, hread, -⟩ := h.readExact_of_lt (not_le.mp h4) .unexpectedEof
  exact ⟨r', by rw [nextPart, hread]⟩

/-- A whole child is a part, and the reader is left behind it. -/
theorem nextPart_of_whole (h : reader.Ends r body failure) (h4 : 4 ≤ body.length)
    (hsize : LittleEndian.decode (body.take 4) ≤ (body.drop 4).length) :
    ∃ r', nextPart reader r =
        (some (.ok ((body.drop 4).take (LittleEndian.decode (body.take 4)))), r') ∧
      reader.Ends r' ((body.drop 4).drop (LittleEndian.decode (body.take 4))) failure := by
  obtain ⟨r₁, hword, hends₁⟩ := h.readExact_of_le h4 .unexpectedEof
  obtain ⟨r₂, hdata, hends₂⟩ := hends₁.readExact_of_le hsize .unexpectedEof
  exact ⟨r₂, by simp only [nextPart, hword, hdata], hends₂⟩

/-- A child that is cut short is the error that the reader ends with. -/
theorem nextPart_of_cut (h : reader.Ends r body failure) (h4 : 4 ≤ body.length)
    (hsize : ¬ LittleEndian.decode (body.take 4) ≤ (body.drop 4).length) :
    ∃ r' failure', nextPart reader r = (some (.error (failure.getD .unexpectedEof)), r') ∧
      reader.Ends r' [] failure' := by
  obtain ⟨r₁, hword, hends₁⟩ := h.readExact_of_le h4 .unexpectedEof
  obtain ⟨r₂, failure', hdata, hends₂, -⟩ :=
    hends₁.readExact_of_lt (not_le.mp hsize) .unexpectedEof
  exact ⟨r₂, failure', by simp only [nextPart, hword, hdata], hends₂⟩

/-- The parts of a body are its whole children, and an error for one that is cut short. -/
theorem yields_parts (h : reader.Ends r body failure) :
    Yields (nextPart reader) r
      ((MultiBodyIter.splitBody body).1.map .ok ++
        if (MultiBodyIter.splitBody body).2 then [.error (failure.getD .unexpectedEof)] else []) := by
  induction body using MultiBodyIter.splitBody.induct generalizing r with
  | case1 body h4 size hsize =>
    rename_i ih
    obtain ⟨r', hnext, hends⟩ := nextPart_of_whole h h4 hsize
    rw [MultiBodyIter.splitBody_of_whole h4 hsize]
    exact .cons hnext (ih hends)
  | case2 body h4 size =>
    rename_i hsize
    obtain ⟨r', failure', hnext, hends⟩ := nextPart_of_cut h h4 hsize
    obtain ⟨r'', hend⟩ := nextPart_of_lt hends (by simp)
    rw [MultiBodyIter.splitBody_of_cut h4 hsize]
    exact .cons hnext (.nil hend)
  | case3 body h4 =>
    obtain ⟨r', hend⟩ := nextPart_of_lt h h4
    rw [MultiBodyIter.splitBody_of_lt h4]
    exact .nil hend

end Parts

/-- Damage is noticed exactly when the body ends inside a child. Otherwise there must be none:
the reader ends without an error, and right behind a child. -/
theorem neverCutShort_iff (h : reader.Ends r body failure) :
    NeverCutShort SteamID reader codec r body failure ↔
      (MultiBodyIter.splitBody body).2 = true ∨ (failure = none ∧ IsWhole body) ∨
        ∃ c ∈ (MultiBodyIter.splitBody body).1,
          (RawNetMessage.read codec c : Outcome _ (RawNetMessage SteamID)) = .panic := by
  have hparts := yields_parts h
  constructor
  · intro hnever
    by_contra hnone
    -- the iteration ends like that of a whole body
    obtain ⟨hcut, hwhole, hpanic⟩ := not_or.mp hnone |>.imp_right not_or.mp
    rw [if_neg hcut, List.append_nil] at hparts
    obtain ⟨hfailure, children, hlen, hbody, -⟩ := hnever.complete _ hparts
      (fun c hc hread => hpanic ⟨c, by simpa using hc, hread⟩) (by simp)
    exact hwhole ⟨hfailure, children, hlen, hbody⟩
  · intro hdamage
    refine ⟨⟨_, hparts, hparts.map (nextChild_eq reader codec)⟩,
      fun parts hyields hread herror => ?_⟩
    -- there is one sequence of parts
    rw [hyields.unique hparts] at hread herror ⊢
    rcases hdamage with hcut | ⟨hfailure, children, hlen, rfl⟩ | ⟨c, hc, hpanic⟩
    · rw [if_pos hcut] at herror
      exact absurd (List.mem_append_right _ List.mem_cons_self) (herror _)
    · rw [splitBody_packBody hlen]
      exact ⟨hfailure, children, hlen, rfl, by simp⟩
    · exact absurd hpanic (hread c (List.mem_append_left _ (List.mem_map_of_mem hc)))

/-! ### Two damaged bodies -/

section Examples

/-- A decompressor for a single stored block whose checksum is wrong. -/
def GzDecoder.corrupt : GzDecoder Cursor where
  new := GzDecoder.stored.new
  reader :=
    { read cursor n :=
        if cursor.rest = [] then
          (.error (.other "corrupt gzip stream does not have a matching checksum"), cursor)
        else GzDecoder.stored.reader.read cursor n
      length_le {cursor n b rest} h := by
        split_ifs at h
        · cases h
        · exact GzDecoder.stored.reader.length_le h }

theorem GzDecoder.ends_corrupt (cursor : Cursor) :
    (MaybeZipReader.reader GzDecoder.corrupt).Ends (.zipped cursor) cursor.rest
      (some (.other "corrupt gzip stream does not have a matching checksum")) := by
  refine ⟨fun r body failure => (∃ cursor : Cursor, r = .zipped cursor ∧ cursor.rest = body) ∧
    failure = some (.other "corrupt gzip stream does not have a matching checksum"),
    ⟨⟨cursor, rfl, rfl⟩, rfl⟩, ?_⟩
  rintro _ _ _ n ⟨⟨cursor, rfl, rfl⟩, rfl⟩ hn
  by_cases hrest : cursor.rest = []
  · refine .inr ⟨_, .zipped cursor, _, hrest, rfl, ?_, ⟨cursor, rfl, hrest⟩, rfl⟩
    simp only [MaybeZipReader.reader, corrupt, if_pos hrest]
  · refine .inl ⟨_, _, .zipped (cursor.read (min n 1)).2, ?_, cursor.rest_eq_read_append (min n 1),
      fun hb => absurd (Cursor.rest_eq_nil_of_read (by omega) hb) hrest, ⟨_, rfl, rfl⟩, rfl⟩
    simp only [MaybeZipReader.reader, corrupt, if_neg hrest]
    rfl

/-- A wrong checksum behind the last child is noticed if and only if parsing that child panics. -/
theorem neverCutShort_iff_corrupt :
    NeverCutShort UInt64 (MaybeZipReader.reader GzDecoder.corrupt) HeaderCodec.wire
        (.zipped ⟨packBody [RawNetMessage.logOnResponseBytes], 0⟩)
        (packBody [RawNetMessage.logOnResponseBytes])
        (some (.other "corrupt gzip stream does not have a matching checksum")) ↔
      (MultiBodyIter.splitBody (packBody [RawNetMessage.logOnResponseBytes])).2 = true ∨
        ((some (.other "corrupt gzip stream does not have a matching checksum") :
            Option IoError) = none ∧ IsWhole (packBody [RawNetMessage.logOnResponseBytes])) ∨
          ∃ c ∈ (MultiBodyIter.splitBody (packBody [RawNetMessage.logOnResponseBytes])).1,
            (RawNetMessage.read HeaderCodec.wire c : Outcome _ (RawNetMessage UInt64)) = .panic :=
  neverCutShort_iff (GzDecoder.ends_corrupt ⟨packBody [RawNetMessage.logOnResponseBytes], 0⟩)

/-- The response to a logon, and a byte more. -/
def trailingByte : Bytes := packBody [RawNetMessage.logOnResponseBytes] ++ [7]

/-- The iterator gives the response, and drops the byte without an error. -/
theorem not_neverCutShort_trailingByte :
    (MaybeZipReader.reader GzDecoder.stored).Ends (.raw ⟨trailingByte, 0⟩) trailingByte none ∧
      ¬ NeverCutShort UInt64 (MaybeZipReader.reader GzDecoder.stored) HeaderCodec.wire
        (.raw ⟨trailingByte, 0⟩) trailingByte none := by
  have hends : (MaybeZipReader.reader GzDecoder.stored).Ends (.raw ⟨trailingByte, 0⟩) trailingByte
      none := (MaybeZipReader.gives_raw rfl).ends
  have hparts : Yields (nextPart (MaybeZipReader.reader GzDecoder.stored))
      (.raw ⟨trailingByte, 0⟩) ([RawNetMessage.logOnResponseBytes].map .ok) := by
    have hsplit : MultiBodyIter.splitBody trailingByte =
        ([RawNetMessage.logOnResponseBytes], false) := by
      rw [MultiBodyIter.splitBody_of_whole (by decide) (by decide),
        MultiBodyIter.splitBody_of_lt (by decide)]
      rfl
    have h := yields_parts hends
    rwa [hsplit, if_neg (by decide), List.append_nil] at h
  have hread : ∀ c, (.ok c : Except IoError Bytes) ∈ [RawNetMessage.logOnResponseBytes].map .ok →
      (RawNetMessage.read HeaderCodec.wire c : Outcome _ (RawNetMessage UInt64)) ≠ .panic := by
    intro c hc
    rw [List.map_singleton, List.mem_singleton, Except.ok.injEq] at hc
    rw [hc]
    decide
  refine ⟨hends, fun hnever => ?_⟩
  obtain ⟨-, children, -, hbody, hchildren⟩ := hnever.complete _ hparts hread (by simp)
  obtain rfl := (List.map_inj_right fun _ _ => Except.ok.inj).mp hchildren
  exact absurd hbody (by decide)

end Examples

end SteamWire
