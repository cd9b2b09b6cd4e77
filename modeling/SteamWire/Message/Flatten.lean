import SteamWire.Data.Leaves
import SteamWire.Data.Protobuf
import SteamWire.Message.Multi

/-!
# How far multi messages are flattened

A multi message stands for its children, and these may be multi messages in turn, to any
depth; what a stream stands for are the leaves of these trees. `flattenMulti` unpacks every
multi message of its source once, and does not look at the kinds of what comes out; and a
panic of the parser unwinds it. So it flattens a source completely exactly when no multi
message of the source has a child that is another one, or that the parser panics on
(`flattensCompletely_iff`).
-/

namespace SteamWire

variable {SteamID : Type} [SteamIdOps SteamID] (codec : HeaderCodec) (multi : MultiCodec)

/-- What a result of the message stream stands for, if it is a multi message. -/
def unpackMulti : Outcome NetworkError (RawNetMessage SteamID) →
    Option (List (Outcome NetworkError (RawNetMessage SteamID)))
  | .ok next =>
    if next.kind = EMsg.kEMsgMulti.kind then
      match MultiBodyIter.new multi next.data with
      | .error e => some [.err e]
      | .ok reader => some (reader.children codec)
    else none
  | _ => none

/-- Nothing panics, no message that comes out is a multi message, and what comes out are the
leaves of the source. -/
def FlattensCompletely (source : List (Outcome NetworkError (RawNetMessage SteamID))) : Prop :=
  .panic ∉ flattenMulti codec multi source ∧
    (∀ m, .ok m ∈ flattenMulti codec multi source → m.kind ≠ EMsg.kEMsgMulti.kind) ∧
      Leaves (unpackMulti codec multi) source (flattenMulti codec multi source)

variable (SteamID) in
/-- A part of a body that is a multi message itself. -/
def IsMulti (child : Bytes) : Prop :=
  ∃ m : RawNetMessage SteamID, RawNetMessage.read codec child = .ok m ∧
    m.kind = EMsg.kEMsgMulti.kind

variable {codec multi}

theorem unpackMulti_eq_none {item : Outcome NetworkError (RawNetMessage SteamID)} :
    unpackMulti codec multi item = none ↔
      ∀ m, item = .ok m → m.kind ≠ EMsg.kEMsgMulti.kind := by
  cases item with
  | ok m =>
    by_cases hkind : m.kind = EMsg.kEMsgMulti.kind
    · cases hnew : MultiBodyIter.new multi m.data <;> simp [unpackMulti, hkind, hnew]
    · simp [unpackMulti, hkind]
  | err e => simp [unpackMulti]
  | panic => simp [unpackMulti]

/-- Flattening unpacks every item once. -/
theorem flattenOne_eq (item : Outcome NetworkError (RawNetMessage SteamID)) :
    flattenOne codec multi item = (unpackMulti codec multi item).getD [item] := by
  cases item with
  | ok m =>
    by_cases hkind : m.kind = EMsg.kEMsgMulti.kind
    · cases hnew : MultiBodyIter.new multi m.data <;> simp [flattenOne, unpackMulti, hkind, hnew]
    · simp [flattenOne, unpackMulti, hkind]
  | err e => rfl
  | panic => rfl

/-- Flattening a result panics where the result does, and where a child of it does. -/
theorem panic_mem_flattenOne_iff {item : Outcome NetworkError (RawNetMessage SteamID)} :
    .panic ∈ flattenOne codec multi item ↔
      item = .panic ∨ ∃ m reader, item = .ok m ∧ m.kind = EMsg.kEMsgMulti.kind ∧
        MultiBodyIter.new multi m.data = .ok reader ∧
          ∃ child ∈ (MultiBodyIter.splitBody reader.bytes).1,
            (RawNetMessage.read codec child : Outcome _ (RawNetMessage SteamID)) = .panic := by
  cases item with
  | ok m =>
    by_cases hkind : m.kind = EMsg.kEMsgMulti.kind
    · cases hnew : MultiBodyIter.new multi m.data <;>
        simp [flattenOne, hkind, hnew, MultiBodyIter.panic_mem_children_iff]
    · simp [flattenOne, hkind]
  | err e => simp [flattenOne]
  | panic => simp [flattenOne]

/-- A stream that does not panic unpacks every item once. -/
theorem flattenMulti_eq {source : List (Outcome NetworkError (RawNetMessage SteamID))}
    (h : .panic ∉ flattenMulti codec multi source) :
    flattenMulti codec multi source =
      source.flatMap fun item => (unpackMulti codec multi item).getD [item] := by
  rw [flattenMulti, Outcome.panic_mem_upToPanic_iff] at h
  rw [flattenMulti, Outcome.upToPanic_eq_self h, funext flattenOne_eq]

/-- The children of a body that is read without a panic stand for nothing else exactly when
none of its parts is a multi message. -/
theorem forall_unpackMulti_children {reader : MultiBodyIter}
    (hread : ∀ child ∈ (MultiBodyIter.splitBody reader.bytes).1,
      (RawNetMessage.read codec child : Outcome _ (RawNetMessage SteamID)) ≠ .panic) :
    (∀ item ∈ (reader.children codec : List (Outcome _ (RawNetMessage SteamID))),
        unpackMulti codec multi item = none) ↔
      ∀ child ∈ (MultiBodyIter.splitBody reader.bytes).1, ¬ IsMulti SteamID codec child := by
  have hpanic : Outcome.panic ∉ MultiBodyIter.items SteamID codec reader := by
    rw [← Outcome.panic_mem_upToPanic_iff, ← MultiBodyIter.children_eq,
      MultiBodyIter.panic_mem_children_iff]
    rintro ⟨child, hchild, h⟩
    exact hread child hchild h
  rw [MultiBodyIter.children_eq, Outcome.upToPanic_eq_self hpanic]
  simp only [MultiBodyIter.items, unpackMulti_eq_none, List.mem_append, List.mem_map]
  constructor
  · intro h child hchild
    rintro ⟨m, hread, hkind⟩
    exact h _ (.inl ⟨child, hchild, rfl⟩) m hread hkind
  · rintro h item (⟨child, hchild, rfl⟩ | hcut) m hm hkind
    · exact h child hchild ⟨m, hm, hkind⟩
    · -- a child that is cut short is an error
      subst hm
      split at hcut <;> simp at hcut

/-- The parts of a multi message come out, unless something panics. -/
theorem read_mem_flattenMulti {source : List (Outcome NetworkError (RawNetMessage SteamID))}
    {m : RawNetMessage SteamID} {reader : MultiBodyIter} {child : Bytes}
    (hpanic : .panic ∉ flattenMulti codec multi source) (hm : .ok m ∈ source)
    (hkind : m.kind = EMsg.kEMsgMulti.kind) (hnew : MultiBodyIter.new multi m.data = .ok reader)
    (hchild : child ∈ (MultiBodyIter.splitBody reader.bytes).1) :
    RawNetMessage.read codec child ∈ flattenMulti codec multi source := by
  rw [flattenMulti, Outcome.panic_mem_upToPanic_iff] at hpanic
  rw [flattenMulti, Outcome.upToPanic_eq_self hpanic]
  have hchildren : (reader.children codec : List (Outcome _ (RawNetMessage SteamID))) =
      flattenOne codec multi (.ok m) := by
    simp [flattenOne, hkind, hnew]
  refine List.mem_flatMap.mpr ⟨_, hm, ?_⟩
  have hnone : Outcome.panic ∉ (reader.children codec : List (Outcome _ (RawNetMessage SteamID))) :=
    fun h => hpanic (List.mem_flatMap.mpr ⟨_, hm, hchildren ▸ h⟩)
  rw [MultiBodyIter.children_eq, Outcome.panic_mem_upToPanic_iff] at hnone
  rw [← hchildren, MultiBodyIter.children_eq, Outcome.upToPanic_eq_self hnone]
  exact List.mem_append_left _ (List.mem_map_of_mem hchild)

/-- A source is flattened completely exactly when it does not panic itself, and the children of
its multi messages are parsed without a panic and are no multi messages. -/
theorem flattensCompletely_iff (source : List (Outcome NetworkError (RawNetMessage SteamID))) :
    FlattensCompletely codec multi source ↔
      .panic ∉ source ∧
        ∀ m reader, .ok m ∈ source → m.kind = EMsg.kEMsgMulti.kind →
          MultiBodyIter.new multi m.data = .ok reader →
            ∀ child ∈ (MultiBodyIter.splitBody reader.bytes).1,
              (RawNetMessage.read codec child : Outcome _ (RawNetMessage SteamID)) ≠ .panic ∧
                ¬ IsMulti SteamID codec child := by
  -- what panics
  have hpanic : .panic ∈ flattenMulti codec multi source ↔
      ∃ item ∈ source, .panic ∈ flattenOne codec multi item := by
    rw [flattenMulti, Outcome.panic_mem_upToPanic_iff, List.mem_flatMap]
  simp only [panic_mem_flattenOne_iff] at hpanic
  constructor
  · rintro ⟨hreturns, -, hleaves⟩
    rw [flattenMulti_eq hreturns, leaves_flatMap_iff] at hleaves
    refine ⟨fun h => hreturns (hpanic.mpr ⟨_, h, .inl rfl⟩), fun m reader hm hkind hnew => ?_⟩
    have hread : ∀ child ∈ (MultiBodyIter.splitBody reader.bytes).1,
        (RawNetMessage.read codec child : Outcome _ (RawNetMessage SteamID)) ≠ .panic :=
      fun child hchild h =>
        hreturns (hpanic.mpr ⟨_, hm, .inr ⟨m, reader, rfl, hkind, hnew, child, hchild, h⟩⟩)
    have hunpack : unpackMulti codec multi (.ok m) = some (reader.children codec) := by
      simp [unpackMulti, hkind, hnew]
    have hflat := (forall_unpackMulti_children hread).mp (hleaves _ hm _ hunpack)
    exact fun child hchild => ⟨hread child hchild, hflat child hchild⟩
  · rintro ⟨hsource, h⟩
    have hreturns : .panic ∉ flattenMulti codec multi source := by
      rw [hpanic]
      rintro ⟨item, hitem, rfl | ⟨m, reader, rfl, hkind, hnew, child, hchild, hread⟩⟩
      · exact hsource hitem
      · exact (h m reader hitem hkind hnew child hchild).1 hread
    have hleaves : Leaves (unpackMulti codec multi) source (flattenMulti codec multi source) := by
      rw [flattenMulti_eq hreturns, leaves_flatMap_iff]
      intro item hitem children hunpack
      cases item with
      | ok m =>
        by_cases hkind : m.kind = EMsg.kEMsgMulti.kind
        · cases hnew : MultiBodyIter.new multi m.data with
          | error e =>
            -- the error stands in the place of a malformed message
            simp only [unpackMulti, hkind, hnew, if_true, Option.some.injEq] at hunpack
            subst hunpack
            simp [unpackMulti_eq_none]
          | ok reader =>
            simp only [unpackMulti, hkind, hnew, if_true, Option.some.injEq] at hunpack
            subst hunpack
            have hchildren := h m reader hitem hkind hnew
            exact (forall_unpackMulti_children fun child hchild => (hchildren child hchild).1).mpr
              fun child hchild => (hchildren child hchild).2
        · simp [unpackMulti, hkind] at hunpack
      | err e => cases hunpack
      | panic => cases hunpack
    exact ⟨hreturns, fun m hm => unpackMulti_eq_none.mp (hleaves.unpack_eq_none hm) m rfl, hleaves⟩

/-! ### A nested multi message -/

/-- Take one record into a multi message. -/
def CMsgMulti.merge (m : CMsgMulti) (r : Protobuf.Record) : Option CMsgMulti :=
  match r.number, r.value with
  | 1, .varint x => some { m with sizeUnzipped := some x.toUInt32 }
  | 2, .bytes b => some { m with messageBody := some b }
  | 1, _ | 2, _ => none
  | _, _ => some m

/-- The wire format of multi messages, without a decompressor. -/
def MultiCodec.wire : MultiCodec where
  parse b :=
    match (Protobuf.parse b).bind fun records => records.foldlM CMsgMulti.merge {} with
    | some m => .ok m
    | none => .error .decode
  gunzip bytes := { bytes }

/-- A multi message whose one child is an empty multi message, which comes out as it is. -/
theorem not_flattensCompletely_nested :
    ¬ FlattensCompletely HeaderCodec.wire MultiCodec.wire
      [(RawNetMessage.read HeaderCodec.wire ([1, 0, 0, 0] ++ List.replicate 32 0 ++
        [0x12, 40, 36, 0, 0, 0, 1, 0, 0, 0] ++ List.replicate 32 0) :
          Outcome NetworkError (RawNetMessage UInt64))] := by
  rintro ⟨hreturns, hkinds, -⟩
  -- the message, and its child, as they are parsed
  have houter : ∃ m : RawNetMessage UInt64, RawNetMessage.read HeaderCodec.wire
      ([1, 0, 0, 0] ++ List.replicate 32 0 ++ [0x12, 40, 36, 0, 0, 0, 1, 0, 0, 0] ++
        List.replicate 32 0) = .ok m ∧ m.kind = EMsg.kEMsgMulti.kind ∧
      MultiBodyIter.new MultiCodec.wire m.data =
        .ok ⟨[36, 0, 0, 0, 1, 0, 0, 0] ++ List.replicate 32 0, none⟩ := ⟨_, rfl, rfl, rfl⟩
  have hchild : ∃ m : RawNetMessage UInt64, RawNetMessage.read HeaderCodec.wire
      ([1, 0, 0, 0] ++ List.replicate 32 0) = .ok m ∧ m.kind = EMsg.kEMsgMulti.kind :=
    ⟨_, rfl, rfl⟩
  obtain ⟨m, hread, hkind, hnew⟩ := houter
  obtain ⟨child, hreadChild, hkindChild⟩ := hchild
  refine hkinds child ?_ hkindChild
  rw [hread] at hreturns ⊢
  rw [← hreadChild]
  refine read_mem_flattenMulti hreturns List.mem_cons_self hkind hnew ?_
  rw [MultiBodyIter.splitBody_of_whole (by decide) (by decide)]
  exact List.mem_cons_self

end SteamWire
