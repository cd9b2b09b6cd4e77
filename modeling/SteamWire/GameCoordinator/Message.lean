import SteamWire.Data.Protobuf
import SteamWire.Message.Body

/-!
# Messages of game coordinators

A game coordinator sends and receives messages of its own kinds, which travel as the
payload of an envelope between the client and the network. The code generator behind the
envelope is not part of the repository, so its two functions are a parameter;
`GcCodec.wire` is the wire format of the fields the connection uses, and it is lawful.
-/

namespace SteamWire

/-- The envelope. -/
structure CMsgGcClient where
  appid : Option UInt32 := none
  msgtype : Option UInt32 := none
  payload : Option Bytes := none
  deriving DecidableEq, Repr

/-- `encode_to_vec` and `parse` of the envelope. -/
structure GcCodec where
  encode : CMsgGcClient → Bytes
  parse : Bytes → Except ProtoError CMsgGcClient

/-- Parsing inverts encoding, of everything that fits into memory. -/
def GcCodec.Lawful (gc : GcCodec) : Prop :=
  ∀ data, (gc.encode data).length < 2 ^ 64 → gc.parse (gc.encode data) = .ok data

variable {SteamID : Type}

/-- `ClientToGcMessage`, as it is encoded. -/
def clientToGcMessage (gc : GcCodec) (data : CMsgGcClient) : EncodableMessage SteamID where
  writeBody := .ok (gc.encode data)
  encodeSize := (gc.encode data).length

/-- `ClientFromGcMessage`, as it is parsed. -/
def clientFromGcMessage (gc : GcCodec) : BodyReader SteamID CMsgGcClient where
  kind := EMsg.kEMsgClientFromGc.kind
  readBody data _ := (gc.parse data).mapError fun e => .malformedBody EMsg.kEMsgClientFromGc.kind (.proto e)

/-! ### The wire format of the envelope -/

namespace CMsgGcClient

open Protobuf

def records (data : CMsgGcClient) : List Record :=
  (data.appid.map fun x => ⟨1, .varint x.toUInt64⟩).toList ++
  (data.msgtype.map fun x => ⟨2, .varint x.toUInt64⟩).toList ++
  (data.payload.map fun x => ⟨3, .bytes x⟩).toList

/-- Take one record into the envelope. -/
def merge (data : CMsgGcClient) (r : Record) : Option CMsgGcClient :=
  match r.number, r.value with
  | 1, .varint x => some { data with appid := some x.toUInt32 }
  | 2, .varint x => some { data with msgtype := some x.toUInt32 }
  | 3, .bytes b => some { data with payload := some b }
  | 1, _ | 2, _ | 3, _ => none
  | _, _ => some data

/-- Merging the records of an envelope into an empty one gives the envelope. -/
theorem foldlM_merge_records (data : CMsgGcClient) : data.records.foldlM merge {} = some data := by
  obtain ⟨appid, msgtype, payload⟩ := data
  simp only [records, List.foldlM_append, Option.bind_eq_bind]
  rw [foldlM_optionalField merge _ _ (fun data o => { data with appid := o })
      fun _ _ => by simp [merge], Option.bind_some,
    foldlM_optionalField merge _ _ (fun data o => { data with msgtype := o })
      fun _ _ => by simp [merge], Option.bind_some,
    foldlM_optionalField merge _ _ (fun data o => { data with payload := o }) fun _ _ => rfl]
  all_goals rfl

/-- The records of an envelope are well formed when the payload fits a length prefix. -/
theorem wellFormed_of_mem_records {data : CMsgGcClient}
    (hpayload : ∀ b, data.payload = some b → b.length < 2 ^ 64) {r : Record}
    (hr : r ∈ data.records) : r.WellFormed := by
  simp only [records, List.mem_append] at hr
  rcases hr with (hr | hr) | hr <;> obtain ⟨x, hx, rfl⟩ := exists_of_mem_optionalField hr <;>
    refine ⟨by simp, by simp, fun b hb => ?_⟩ <;> cases hb
  exact hpayload x hx

/-- The payload is part of the encoding. -/
theorem length_payload_le {data : CMsgGcClient} {b : Bytes} (hb : data.payload = some b) :
    b.length ≤ (write data.records).length := by
  have hmem : (⟨3, .bytes b⟩ : Record) ∈ data.records := by
    simp [records, hb]
  exact (length_le_length_write_bytes _ _).trans (length_write_le_of_mem hmem)

end CMsgGcClient

/-- The codec of the envelope's wire format. -/
def GcCodec.wire : GcCodec where
  encode data := Protobuf.write data.records
  parse b :=
    match (Protobuf.parse b).bind fun records => records.foldlM CMsgGcClient.merge {} with
    | some data => .ok data
    | none => .error .decode

theorem GcCodec.wire_lawful : GcCodec.wire.Lawful := by
  intro data hlen
  have hpayload : ∀ b, data.payload = some b → b.length < 2 ^ 64 :=
    fun b hb => (CMsgGcClient.length_payload_le hb).trans_lt hlen
  have hparse := Protobuf.parse_write fun r hr =>
    CMsgGcClient.wellFormed_of_mem_records hpayload hr
  simp only [wire, hparse, Option.bind_some, data.foldlM_merge_records]

end SteamWire
