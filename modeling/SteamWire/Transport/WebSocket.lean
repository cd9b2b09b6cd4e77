import Mathlib.Data.List.Induction
import SteamWire.Connection.Feed

/-!
# The WebSocket transport

The stream of a WebSocket yields its control frames next to the binary ones, and the
transport passes the data of every frame on. So a control frame is read as a message of the
network: it may be dispatched as one, and it may end the filter task. `transparent_iff` says
which control frames make no difference: those whose data is rejected, or holds nothing but
rejected messages, and those that come after the end of the task.
-/

namespace SteamWire

/-- The frame that closes a WebSocket. -/
structure CloseFrame where
  code : UInt16
  reason : String
  deriving DecidableEq, Repr

/-- A message of a WebSocket, as its stream yields them. -/
inductive WsMessage where
  | text (data : String)
  | binary (data : Bytes)
  | ping (data : Bytes)
  | pong (data : Bytes)
  | close (frame : Option CloseFrame)
  deriving DecidableEq, Repr

namespace WsMessage

def isBinary : WsMessage → Bool
  | .binary _ => true
  | _ => false

section Transparent

variable {SteamID : Type} [SteamIdOps SteamID] (shard : JobId → Nat) (codec : HeaderCodec)
  (multi : MultiCodec) (intoData : WsMessage → Bytes)

variable (SteamID) in
/-- What the connection receives of the frames of its WebSocket. -/
def received (frames : List WsMessage) : List (Outcome NetworkError (RawNetMessage SteamID)) :=
  incoming codec multi (frames.map fun frame => .ok (intoData frame))

variable (SteamID) in
/-- At every point of a sequence of frames, the task has dispatched what it would have
dispatched of the binary frames alone, it has ended if it would have ended, and the filter can
be in the states it could be in. -/
def Transparent (frames : List WsMessage) : Prop :=
  ∀ pre, pre <+: frames →
    receive (received SteamID codec multi intoData pre) =
        receive (received SteamID codec multi intoData (pre.filter isBinary)) ∧
      ∀ v f, MessageFilter.Reaches shard (received SteamID codec multi intoData pre) v f ↔
        MessageFilter.Reaches shard
          (received SteamID codec multi intoData (pre.filter isBinary)) v f

variable (SteamID) in
/-- The control frames that the task gets to are ignored. -/
def IgnoresControl (frames : List WsMessage) : Prop :=
  ∀ pre frame, pre ++ [frame] <+: frames → frame.isBinary = false →
    (∀ before ∈ pre, ¬ FatalFrame SteamID codec multi (intoData before)) →
      IgnoredFrame SteamID codec multi (intoData frame)

variable {shard codec multi intoData} {frames pre : List WsMessage} {frame : WsMessage}

/-- The task gets to a frame behind others if these do not end it. -/
theorem receive_received_append_singleton :
    receive (received SteamID codec multi intoData (pre ++ [frame])) =
      let before := receive (received SteamID codec multi intoData pre)
      let result : List (RawNetMessage SteamID) × TaskStatus :=
        receive (flattenOne codec multi (RawNetMessage.read codec (intoData frame)))
      if before.2 = .running then (before.1 ++ result.1, result.2) else before := by
  rw [received, List.map_append, List.map_singleton, receive_incoming_append_singleton]
  rfl

/-- The task waits for more frames if none of these was fatal. -/
theorem receive_received_running_iff :
    (receive (received SteamID codec multi intoData frames)).2 = .running ↔
      ∀ frame ∈ frames, ¬ FatalFrame SteamID codec multi (intoData frame) := by
  have h := @forall_not_endsTask_incoming_iff SteamID _ codec multi (frames.map intoData)
  rw [List.map_map, List.forall_mem_map] at h
  rw [receive_running_iff]
  exact h

/-- A frame that changes nothing about what a waiting task receives is ignored. -/
theorem ignoredFrame_of_receive_eq
    (hrun : (receive (received SteamID codec multi intoData pre)).2 = .running)
    (h : receive (received SteamID codec multi intoData (pre ++ [frame])) =
      receive (received SteamID codec multi intoData pre)) :
    IgnoredFrame SteamID codec multi (intoData frame) := by
  rw [receive_received_append_singleton] at h
  dsimp only at h
  rw [if_pos hrun] at h
  obtain ⟨hmessages, hstatus⟩ := Prod.mk.inj h
  rw [← forall_skipped_flattenOne_iff, ← receive_eq_nil_iff]
  exact Prod.ext (List.append_right_eq_self.mp hmessages) (hstatus.trans hrun)

/-- When control frames are ignored, the task receives of a sequence what it receives of its
binary frames. -/
theorem IgnoresControl.receive_eq (h : IgnoresControl SteamID codec multi intoData frames) :
    receive (received SteamID codec multi intoData frames) =
      receive (received SteamID codec multi intoData (frames.filter isBinary)) := by
  induction frames using List.reverseRecOn with
  | nil => rfl
  | append_singleton pre frame ih =>
    have hpre := ih fun pre' frame' hle => h pre' frame' (hle.trans (List.prefix_append ..))
    cases hbinary : frame.isBinary with
    | true =>
      have hfilter : (pre ++ [frame]).filter isBinary = pre.filter isBinary ++ [frame] := by
        simp [hbinary]
      rw [hfilter, receive_received_append_singleton, receive_received_append_singleton, hpre]
    | false =>
      have hfilter : (pre ++ [frame]).filter isBinary = pre.filter isBinary := by
        simp [hbinary]
      rw [hfilter, ← hpre, receive_received_append_singleton]
      dsimp only
      split_ifs with hrun
      · -- the task gets to the control frame, and skips what comes of it
        have hignored := h pre frame (List.prefix_refl _) hbinary
          (receive_received_running_iff.mp hrun)
        rw [(receive_eq_nil_iff _).mpr (forall_skipped_flattenOne_iff _ |>.mpr hignored),
          List.append_nil, ← hrun]
      · rfl

/-- Control frames are transparent exactly when those that the task gets to are ignored. -/
theorem transparent_iff (frames : List WsMessage) :
    Transparent SteamID shard codec multi intoData frames ↔
      IgnoresControl SteamID codec multi intoData frames := by
  constructor
  · intro h pre frame hle hcontrol hpre
    have hrun := receive_received_running_iff.mpr hpre
    have hfilter : (pre ++ [frame]).filter isBinary = pre.filter isBinary := by
      simp [hcontrol]
    -- neither of the two prefixes differs from its binary frames, and these are the same
    have hlong := (h _ hle).1
    have hshort := (h pre ((List.prefix_append ..).trans hle)).1
    rw [hfilter, ← hshort] at hlong
    exact ignoredFrame_of_receive_eq hrun hlong
  · intro h pre hle
    have hreceive := IgnoresControl.receive_eq fun pre' frame' hle' =>
      h pre' frame' (hle'.trans hle)
    exact ⟨hreceive, MessageFilter.reaches_iff_of_receive_eq hreceive⟩

end Transparent

/-- `into_data`. -/
def intoData : WsMessage → Bytes
  | .text data => data.toUTF8.data.toList
  | .binary data | .ping data | .pong data => data
  | .close none => []
  | .close (some frame) => frame.reason.toUTF8.data.toList

/-- A ping with four bytes ends the task. -/
theorem not_transparent_ping :
    ¬ Transparent UInt64 (fun _ => 0) HeaderCodec.wire MultiCodec.reject intoData
      [.ping [1, 2, 3, 4]] :=
  fun h => absurd (congrArg Prod.snd (h _ (List.prefix_refl _)).1) (by decide)

end WsMessage

end SteamWire
