import SteamWire.Data.Read
import SteamWire.Message.Multi

/-!
# Reading the children of a multi message

The body of a multi message is read through a cursor, or through a decompressor that
decides itself how many bytes a call gives. `nextChild` is the iterator of the children
over any reader, and gives the same children over all readers of one body
(`yields_items`). So a body that was put together from messages gives these back
(`yields_packBody`).
-/

namespace SteamWire

/-- The decompressor: how it is made from a compressed body, and how it is read. -/
structure GzDecoder (ζ : Type) where
  new : Bytes → ζ
  reader : Reader ζ IoError

/-- The reader of a body. -/
inductive MaybeZipReader (ζ : Type) where
  | raw (cursor : Cursor)
  | zipped (decoder : ζ)

namespace MaybeZipReader

variable {ζ : Type} (gz : GzDecoder ζ)

/-- `Read` for the reader of a body. -/
def reader : Reader (MaybeZipReader ζ) IoError where
  read
    | .raw cursor, n => (.ok (cursor.read n).1, .raw (cursor.read n).2)
    | .zipped decoder, n => ((gz.reader.read decoder n).1, .zipped (gz.reader.read decoder n).2)
  length_le {r n b rest} h := by
    cases r with
    | raw cursor =>
      cases h
      exact List.length_take_le ..
    | zipped decoder =>
      obtain ⟨hres, -⟩ := Prod.mk.inj h
      exact gz.reader.length_le (Prod.ext hres rfl)

/-- The reader that `MultiBodyIter::new` makes for a parsed multi message. -/
def ofMulti (multi : CMsgMulti) : MaybeZipReader ζ :=
  let messageBody := multi.messageBody.getD []
  if multi.sizeUnzipped.getD 0 = 0 then .raw ⟨messageBody, 0⟩ else .zipped (gz.new messageBody)

variable {gz} {body : Bytes}

/-- A cursor gives what is left in it, as much as is asked for. -/
theorem gives_raw {cursor : Cursor} (h : cursor.rest = body) :
    (reader gz).Gives (.raw cursor) body := by
  refine ⟨fun r body => ∃ cursor : Cursor, r = .raw cursor ∧ cursor.rest = body,
    ⟨cursor, rfl, h⟩, ?_⟩
  rintro _ _ n ⟨cursor, rfl, rfl⟩ hn
  exact ⟨_, _, _, rfl, cursor.rest_eq_read_append n, Cursor.rest_eq_nil_of_read hn, _, rfl, rfl⟩

/-- A decompressor gives what it expands to. -/
theorem gives_zipped {decoder : ζ} (h : gz.reader.Gives decoder body) :
    (reader gz).Gives (.zipped decoder) body := by
  refine ⟨fun r body => ∃ decoder, r = .zipped decoder ∧ gz.reader.Gives decoder body,
    ⟨decoder, rfl, h⟩, ?_⟩
  rintro _ body n ⟨decoder, rfl, hgives⟩ hn
  obtain ⟨b, rest, decoder', hread, hbody, hend, hrest⟩ := hgives.exists_read hn
  refine ⟨b, rest, .zipped decoder', ?_, hbody, hend, decoder', rfl, hrest⟩
  simp only [reader, hread]

end MaybeZipReader

section Children

variable {SteamID : Type} [SteamIdOps SteamID] {ρ : Type} (reader : Reader ρ IoError)
  (codec : HeaderCodec)

/-- `MultiBodyIter::next`, over any reader. -/
def nextChild (r : ρ) : Option (Outcome NetworkError (RawNetMessage SteamID)) × ρ :=
  match reader.readExact .unexpectedEof r 4 with
  | (.error _, r) => (none, r)
  | (.ok size, r) =>
    match reader.readExact .unexpectedEof r (LittleEndian.decode size) with
    | (.error e, r) => (some (.err (.io e)), r)
    | (.ok msgData, r) => (some (RawNetMessage.read codec msgData), r)

variable {reader codec} {r : ρ} {body : Bytes}

/-- A reader whose body has no room for a length has no more children. -/
theorem nextChild_of_lt (h : reader.Gives r body) (h4 : ¬ 4 ≤ body.length) :
    ∃ r', (nextChild reader codec r : Option (Outcome _ (RawNetMessage SteamID)) × ρ) =
      (none, r') := by
  obtain ⟨r', hread, -⟩ := Reader.readExact_of_lt h (not_le.mp h4) .unexpectedEof
  exact ⟨r', by rw [nextChild, hread]⟩

/-- A whole child is parsed, and the reader is left behind it. -/
theorem nextChild_of_whole (h : reader.Gives r body) (h4 : 4 ≤ body.length)
    (hsize : LittleEndian.decode (body.take 4) ≤ (body.drop 4).length) :
    ∃ r', (nextChild reader codec r : Option (Outcome _ (RawNetMessage SteamID)) × ρ) =
        (some (RawNetMessage.read codec
          ((body.drop 4).take (LittleEndian.decode (body.take 4)))), r') ∧
      reader.Gives r' ((body.drop 4).drop (LittleEndian.decode (body.take 4))) := by
  obtain ⟨r₁, hword, hgives₁⟩ := Reader.readExact_of_le h h4 .unexpectedEof
  obtain ⟨r₂, hdata, hgives₂⟩ := Reader.readExact_of_le hgives₁ hsize .unexpectedEof
  exact ⟨r₂, by simp only [nextChild, hword, hdata], hgives₂⟩

/-- A child that is cut short is an error, and the last. -/
theorem nextChild_of_cut (h : reader.Gives r body) (h4 : 4 ≤ body.length)
    (hsize : ¬ LittleEndian.decode (body.take 4) ≤ (body.drop 4).length) :
    ∃ r', (nextChild reader codec r : Option (Outcome _ (RawNetMessage SteamID)) × ρ) =
        (some (.err (.io .unexpectedEof)), r') ∧ reader.Gives r' [] := by
  obtain ⟨r₁, hword, hgives₁⟩ := Reader.readExact_of_le h h4 .unexpectedEof
  obtain ⟨r₂, hdata, hgives₂⟩ :=
    Reader.readExact_of_lt hgives₁ (not_le.mp hsize) .unexpectedEof
  exact ⟨r₂, by simp only [nextChild, hword, hdata], hgives₂⟩

/-- However a reader splits a body, the items are made of the parts of the body. -/
theorem yields_items (h : reader.Gives r body) :
    Yields (nextChild reader codec) r (MultiBodyIter.items SteamID codec ⟨body, none⟩) := by
  unfold MultiBodyIter.items
  dsimp only
  induction body using MultiBodyIter.splitBody.induct generalizing r with
  | case1 body h4 size hsize =>
    rename_i ih
    obtain ⟨r', hnext, hgives⟩ := @nextChild_of_whole SteamID _ _ _ codec _ _ h h4 hsize
    rw [MultiBodyIter.splitBody_of_whole h4 hsize]
    exact .cons hnext (ih hgives)
  | case2 body h4 size =>
    rename_i hsize
    obtain ⟨r', hnext, hgives⟩ := @nextChild_of_cut SteamID _ _ _ codec _ _ h h4 hsize
    obtain ⟨r'', hend⟩ := @nextChild_of_lt SteamID _ _ _ codec _ _ hgives (by simp)
    rw [MultiBodyIter.splitBody_of_cut h4 hsize]
    exact .cons hnext (.nil hend)
  | case3 body h4 =>
    obtain ⟨r', hend⟩ := @nextChild_of_lt SteamID _ _ _ codec _ _ h h4
    rw [MultiBodyIter.splitBody_of_lt h4]
    exact .nil hend

/-! ### Bodies put together from messages -/

/-- Messages, each behind its length. -/
def packBody (bs : List Bytes) : Bytes :=
  bs.flatMap fun b => LittleEndian.u32 (UInt32.ofNat b.length) ++ b

/-- A body that was put together is cut into its parts. -/
theorem splitBody_packBody {bs : List Bytes} (hlen : ∀ b ∈ bs, b.length < 2 ^ 32) :
    MultiBodyIter.splitBody (packBody bs) = (bs, false) := by
  induction bs with
  | nil => exact MultiBodyIter.splitBody_of_lt (by simp [packBody])
  | cons b bs ih =>
    have hpack : packBody (b :: bs) =
        LittleEndian.u32 (UInt32.ofNat b.length) ++ (b ++ packBody bs) := by
      rw [packBody, List.flatMap_cons, List.append_assoc]
      rfl
    have hword : (packBody (b :: bs)).take 4 = LittleEndian.u32 (UInt32.ofNat b.length) := by
      rw [hpack, List.take_left' (LittleEndian.length_u32 _)]
    have hrest : (packBody (b :: bs)).drop 4 = b ++ packBody bs := by
      rw [hpack, List.drop_left' (LittleEndian.length_u32 _)]
    have hsize : LittleEndian.decode (LittleEndian.u32 (UInt32.ofNat b.length)) = b.length := by
      have hlt := hlen b List.mem_cons_self
      rw [LittleEndian.u32, UInt32.toNat_ofNat', Nat.mod_eq_of_lt hlt]
      exact LittleEndian.decode_encode_of_lt (by omega)
    rw [MultiBodyIter.splitBody_of_whole (by rw [hpack]; simp) (by rw [hword, hrest, hsize]; simp),
      hword, hrest, hsize, List.take_left, List.drop_left,
      ih fun b hb => hlen b (List.mem_cons_of_mem _ hb)]

/-- Results that are no panics. -/
theorem exists_map_ofExcept {ε α β : Type} {f : α → Outcome ε β} {xs : List α}
    (h : ∀ x ∈ xs, f x ≠ .panic) :
    ∃ results : List (Except ε β), xs.map f = results.map Outcome.ofExcept := by
  induction xs with
  | nil => exact ⟨[], rfl⟩
  | cons x xs ih =>
    obtain ⟨results, hresults⟩ := ih fun y hy => h y (List.mem_cons_of_mem _ hy)
    cases hx : f x with
    | ok value => exact ⟨.ok value :: results, by simp [hx, hresults, Outcome.ofExcept]⟩
    | err e => exact ⟨.error e :: results, by simp [hx, hresults, Outcome.ofExcept]⟩
    | panic => exact absurd hx (h x List.mem_cons_self)

variable {ζ : Type}

/-- The messages in a body come out in order, those that are malformed as errors, whether the
body was compressed or not. -/
theorem yields_packBody (gz : GzDecoder ζ) (codec : HeaderCodec) (bs : List Bytes)
    (hlen : ∀ b ∈ bs, b.length < 2 ^ 32)
    (hread : ∀ b ∈ bs, (RawNetMessage.read codec b : Outcome _ (RawNetMessage SteamID)) ≠ .panic) :
    ∃ results : List (Except NetworkError (RawNetMessage SteamID)),
      bs.map (RawNetMessage.read codec) = results.map Outcome.ofExcept ∧
      (∀ size : Option UInt32, size = none ∨ size = some 0 →
        Yields (nextChild (MaybeZipReader.reader gz) codec)
          (.ofMulti gz { sizeUnzipped := size, messageBody := some (packBody bs) })
          (results.map Outcome.ofExcept)) ∧
      ∀ (size : UInt32) (z : Bytes), size ≠ 0 → gz.reader.Gives (gz.new z) (packBody bs) →
        Yields (nextChild (MaybeZipReader.reader gz) codec)
          (.ofMulti gz { sizeUnzipped := some size, messageBody := some z })
          (results.map Outcome.ofExcept) := by
  obtain ⟨results, hresults⟩ := exists_map_ofExcept hread
  -- every reader of the body gives its children, and these are the messages
  have hyields : ∀ r : MaybeZipReader ζ, (MaybeZipReader.reader gz).Gives r (packBody bs) →
      Yields (nextChild (MaybeZipReader.reader gz) codec) r (results.map Outcome.ofExcept) := by
    intro r hr
    have hitems := @yields_items SteamID _ _ _ codec _ _ hr
    rw [MultiBodyIter.items, splitBody_packBody hlen, hresults] at hitems
    simpa using hitems
  refine ⟨results, hresults, fun size hsize => ?_, fun size z hsize hz => ?_⟩
  · rcases hsize with rfl | rfl <;> exact hyields _ (MaybeZipReader.gives_raw rfl)
  · have hzipped : (MaybeZipReader.ofMulti gz
        { sizeUnzipped := some size, messageBody := some z }) = .zipped (gz.new z) := if_neg hsize
    rw [hzipped]
    exact hyields _ (MaybeZipReader.gives_zipped hz)

end Children

/-- A decompressor for a single stored block, that gives a byte in every call. -/
def GzDecoder.stored : GzDecoder Cursor where
  -- in front of the block stand its header and that of the stream, behind it the checksum
  new z := ⟨(z.drop 15).take (z.length - 23), 0⟩
  reader :=
    { read cursor n := (.ok (cursor.read (min n 1)).1, (cursor.read (min n 1)).2)
      length_le {cursor n b rest} h := by
        cases h
        exact (List.length_take_le ..).trans (min_le_left ..) }

theorem GzDecoder.gives_stored (cursor : Cursor) :
    GzDecoder.stored.reader.Gives cursor cursor.rest := by
  refine ⟨fun cursor body => cursor.rest = body, rfl, ?_⟩
  rintro cursor _ n rfl hn
  exact ⟨_, _, _, rfl, cursor.rest_eq_read_append (min n 1),
    Cursor.rest_eq_nil_of_read (by omega), rfl⟩

/-- Two bytes that are no message, and the response to a logon: plain, and in a stored block. -/
theorem yields_packBody_two :
    ∃ results : List (Except NetworkError (RawNetMessage UInt64)),
      [[1, 2], [0xbf, 2, 0, 0] ++ List.replicate 32 0].map (RawNetMessage.read HeaderCodec.wire) =
        results.map Outcome.ofExcept ∧
      Yields (nextChild (MaybeZipReader.reader GzDecoder.stored) HeaderCodec.wire)
        (.ofMulti GzDecoder.stored
          { messageBody := some (packBody [[1, 2], [0xbf, 2, 0, 0] ++ List.replicate 32 0]) })
        (results.map Outcome.ofExcept) ∧
      Yields (nextChild (MaybeZipReader.reader GzDecoder.stored) HeaderCodec.wire)
        (.ofMulti GzDecoder.stored
          { sizeUnzipped := some 46
            messageBody := some ([31, 139, 8, 0, 0, 0, 0, 0, 0, 255, 1, 46, 0, 209, 255] ++
              packBody [[1, 2], [0xbf, 2, 0, 0] ++ List.replicate 32 0] ++
              [149, 206, 149, 67, 46, 0, 0, 0]) })
        (results.map Outcome.ofExcept) := by
  obtain ⟨results, hresults, hraw, hzipped⟩ := @yields_packBody UInt64 _ _ GzDecoder.stored
    HeaderCodec.wire [[1, 2], [0xbf, 2, 0, 0] ++ List.replicate 32 0] (by decide) (by decide)
  exact ⟨results, hresults, hraw none (.inl rfl),
    hzipped 46 _ (by decide) (GzDecoder.gives_stored _)⟩

end SteamWire
