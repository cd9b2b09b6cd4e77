import SteamWire.Data.Protobuf

/-!
# The protobuf message header

`CMsgProtoBufHeader` with the fields the connection reads or writes, and the two
functions the connection calls on it. The code generator behind them is not part
of the repository, so they are a parameter; `HeaderCodec.Lawful` is what the
connection relies on. `HeaderCodec.wire` is the wire format of these fields,
written out, and it is lawful.
-/

namespace SteamWire

/-- The header fields the connection uses. -/
structure CMsgProtoBufHeader where
  steamid : Option UInt64 := none
  clientSessionid : Option Int32 := none
  routingAppid : Option UInt32 := none
  jobidSource : Option UInt64 := none
  jobidTarget : Option UInt64 := none
  targetJobName : Option String := none
  eresult : Option Int32 := none
  realm : Option UInt32 := none
  deriving DecidableEq, Repr

/-- `encode_to_vec` and `decode` of the header message. -/
structure HeaderCodec where
  encode : CMsgProtoBufHeader → Bytes
  decode : Bytes → Option CMsgProtoBufHeader

namespace HeaderCodec

/-- `encoded_len`. -/
def encodedLen (codec : HeaderCodec) (header : CMsgProtoBufHeader) : Nat :=
  (codec.encode header).length

/-- Decoding inverts encoding, and an empty buffer is a header without fields. -/
structure Lawful (codec : HeaderCodec) : Prop where
  decode_encode : ∀ header, (codec.encode header).length < 2 ^ 32 →
    codec.decode (codec.encode header) = some header
  decode_nil : codec.decode [] = some {}

/-- Only the job name can make a header too long for its length field. -/
def FitsWithoutName (codec : HeaderCodec) : Prop :=
  ∀ header, header.targetJobName = none → codec.encodedLen header < 2 ^ 32

end HeaderCodec

/-! ### The wire format of the header -/

namespace CMsgProtoBufHeader

open Protobuf

/-- The records of a header, in the order of the field numbers. Signed values are
sign-extended to 64 bits. -/
def records (h : CMsgProtoBufHeader) : List Record :=
  (h.steamid.map fun x => ⟨1, .fixed64 x⟩).toList ++
  (h.clientSessionid.map fun x => ⟨2, .varint x.toInt64.toUInt64⟩).toList ++
  (h.routingAppid.map fun x => ⟨3, .varint x.toUInt64⟩).toList ++
  (h.jobidSource.map fun x => ⟨10, .fixed64 x⟩).toList ++
  (h.jobidTarget.map fun x => ⟨11, .fixed64 x⟩).toList ++
  (h.targetJobName.map fun x => ⟨12, .bytes x.toByteArray.data.toList⟩).toList ++
  (h.eresult.map fun x => ⟨13, .varint x.toInt64.toUInt64⟩).toList ++
  (h.realm.map fun x => ⟨32, .varint x.toUInt64⟩).toList

/-- Take one record into the header: the last value of a field wins, a known field of
another wire type and a name that is not UTF-8 are errors, other fields are skipped. -/
def merge (h : CMsgProtoBufHeader) (r : Record) : Option CMsgProtoBufHeader :=
  match r.number, r.value with
  | 1, .fixed64 x => some { h with steamid := some x }
  | 2, .varint x => some { h with clientSessionid := some x.toInt64.toInt32 }
  | 3, .varint x => some { h with routingAppid := some x.toUInt32 }
  | 10, .fixed64 x => some { h with jobidSource := some x }
  | 11, .fixed64 x => some { h with jobidTarget := some x }
  | 12, .bytes b => (String.fromUTF8? ⟨b.toArray⟩).map fun x => { h with targetJobName := some x }
  | 13, .varint x => some { h with eresult := some x.toInt64.toInt32 }
  | 32, .varint x => some { h with realm := some x.toUInt32 }
  | 1, _ | 2, _ | 3, _ | 10, _ | 11, _ | 12, _ | 13, _ | 32, _ => none
  | _, _ => some h

private theorem fromUTF8?_toList (x : String) :
    String.fromUTF8? ⟨x.toByteArray.data.toList.toArray⟩ = some x := by
  rw [Array.toArray_toList, String.fromUTF8?, dif_pos x.isValidUTF8]
  rfl

/-- Merging the records of a header into an empty one gives the header. -/
theorem foldlM_merge_records (h : CMsgProtoBufHeader) :
    h.records.foldlM merge {} = some h := by
  obtain ⟨steamid, session, appid, source, target, name, eresult, realm⟩ := h
  simp only [records, List.foldlM_append, Option.bind_eq_bind]
  rw [foldlM_optionalField merge _ _ (fun h o => { h with steamid := o }) fun _ _ => rfl,
    Option.bind_some,
    foldlM_optionalField merge _ _ (fun h o => { h with clientSessionid := o })
      fun _ _ => by simp [merge], Option.bind_some,
    foldlM_optionalField merge _ _ (fun h o => { h with routingAppid := o })
      fun _ _ => by simp [merge], Option.bind_some,
    foldlM_optionalField merge _ _ (fun h o => { h with jobidSource := o }) fun _ _ => rfl,
    Option.bind_some,
    foldlM_optionalField merge _ _ (fun h o => { h with jobidTarget := o }) fun _ _ => rfl,
    Option.bind_some,
    foldlM_optionalField merge _ _ (fun h o => { h with targetJobName := o })
      fun _ _ => by simp only [merge, fromUTF8?_toList, Option.map_some], Option.bind_some,
    foldlM_optionalField merge _ _ (fun h o => { h with eresult := o })
      fun _ _ => by simp [merge], Option.bind_some,
    foldlM_optionalField merge _ _ (fun h o => { h with realm := o }) fun _ _ => by simp [merge]]
  all_goals rfl

/-- The records of a header are well formed when its name fits a length prefix. -/
theorem wellFormed_of_mem_records {h : CMsgProtoBufHeader}
    (hname : ∀ x, h.targetJobName = some x → x.toByteArray.data.toList.length < 2 ^ 64)
    {r : Record} (hr : r ∈ h.records) : r.WellFormed := by
  simp only [records, List.mem_append] at hr
  rcases hr with ((((((hr | hr) | hr) | hr) | hr) | hr) | hr) | hr <;>
    obtain ⟨x, hx, rfl⟩ := exists_of_mem_optionalField hr <;>
    refine ⟨by simp, by simp, fun b hb => ?_⟩ <;>
    cases hb
  exact hname x hx

/-- The name of a header is part of its encoding. -/
theorem length_name_le {h : CMsgProtoBufHeader} {x : String} (hx : h.targetJobName = some x) :
    x.toByteArray.data.toList.length ≤ (write h.records).length := by
  have hmem : (⟨12, .bytes x.toByteArray.data.toList⟩ : Record) ∈ h.records := by
    simp [records, hx]
  exact (length_le_length_write_bytes _ _).trans (length_write_le_of_mem hmem)

theorem value_ne_bytes_of_mem_records {h : CMsgProtoBufHeader} (hname : h.targetJobName = none)
    {r : Record} (hr : r ∈ h.records) (b : Bytes) : r.value ≠ .bytes b := by
  simp only [records, hname, List.mem_append] at hr
  rcases hr with ((((((hr | hr) | hr) | hr) | hr) | hr) | hr) | hr <;>
    obtain ⟨x, hx, rfl⟩ := exists_of_mem_optionalField hr <;> simp at hx ⊢

theorem length_records_le (h : CMsgProtoBufHeader) : h.records.length ≤ 8 := by
  have hfield : ∀ {α : Type} (o : Option α) (record : α → Record),
      (o.map record).toList.length ≤ 1 := by
    intro α o record
    cases o <;> simp
  simp only [records, List.length_append]
  have hsteamid := hfield h.steamid fun x => ⟨1, .fixed64 x⟩
  have hsession := hfield h.clientSessionid fun x => ⟨2, .varint x.toInt64.toUInt64⟩
  have happid := hfield h.routingAppid fun x => ⟨3, .varint x.toUInt64⟩
  have hsource := hfield h.jobidSource fun x => ⟨10, .fixed64 x⟩
  have htarget := hfield h.jobidTarget fun x => ⟨11, .fixed64 x⟩
  have hname := hfield h.targetJobName fun x => ⟨12, .bytes x.toByteArray.data.toList⟩
  have hresult := hfield h.eresult fun x => ⟨13, .varint x.toInt64.toUInt64⟩
  have hrealm := hfield h.realm fun x => ⟨32, .varint x.toUInt64⟩
  omega

end CMsgProtoBufHeader

/-- The codec of the header's wire format. -/
def HeaderCodec.wire : HeaderCodec where
  encode h := Protobuf.write h.records
  decode b := (Protobuf.parse b).bind fun records => records.foldlM CMsgProtoBufHeader.merge {}

theorem HeaderCodec.wire_lawful : HeaderCodec.wire.Lawful where
  decode_encode h hlen := by
    have hname : ∀ x, h.targetJobName = some x → x.toByteArray.data.toList.length < 2 ^ 64 :=
      fun x hx => (CMsgProtoBufHeader.length_name_le hx).trans_lt (hlen.trans (by decide))
    have hparse := Protobuf.parse_write fun r hr =>
      CMsgProtoBufHeader.wellFormed_of_mem_records hname hr
    simp only [wire, hparse, Option.bind_some]
    exact h.foldlM_merge_records
  decode_nil := rfl

theorem HeaderCodec.wire_fitsWithoutName : HeaderCodec.wire.FitsWithoutName := by
  intro header hname
  have hlen := Protobuf.length_write_le fun r hr =>
    CMsgProtoBufHeader.value_ne_bytes_of_mem_records hname hr
  have hcount := header.length_records_le
  exact hlen.trans_lt (by omega)

end SteamWire
