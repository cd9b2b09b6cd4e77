import SteamWire.Message.Multi

/-!
# The receive pipeline

What the filter task does with the results of a connection's receive pipeline: it
dispatches messages, skips errors of the decoding, and stops at errors of the
transport. The two are told apart by the variant of the error alone, and a short read
inside a message has the variant of a transport error.
`receivesAll_iff` names the frames that stop the task.
-/

namespace SteamWire

/-- The errors the filter task takes for a disconnected transport. -/
def NetworkError.stopsTask : NetworkError → Bool
  | .ws _ | .io _ | .eof => true
  | _ => false

/-- Where the filter task is after a number of results. -/
inductive TaskStatus where
  | running
  | stopped
  | panicked
  deriving DecidableEq, Repr

section Receive

variable {SteamID : Type}

/-- The loop of the filter task: the messages it dispatches, and where it is then. -/
def receive : List (Outcome NetworkError (RawNetMessage SteamID)) →
    List (RawNetMessage SteamID) × TaskStatus
  | [] => ([], .running)
  | .ok message :: source => (message :: (receive source).1, (receive source).2)
  | .err e :: source => if e.stopsTask then ([], .stopped) else receive source
  | .panic :: _ => ([], .panicked)

/-- The messages among some results. -/
def okMessages (source : List (Outcome NetworkError (RawNetMessage SteamID))) :
    List (RawNetMessage SteamID) :=
  source.filterMap fun
    | .ok message => some message
    | _ => none

/-- The results that end the task. -/
def EndsTask : Outcome NetworkError (RawNetMessage SteamID) → Prop
  | .ok _ => False
  | .err e => e.stopsTask = true
  | .panic => True

instance : DecidablePred (EndsTask : Outcome NetworkError (RawNetMessage SteamID) → Prop) := by
  intro item
  unfold EndsTask
  split <;> infer_instance

/-- The results that the task skips. -/
def Skipped : Outcome NetworkError (RawNetMessage SteamID) → Prop
  | .err e => e.stopsTask = false
  | _ => False

/-- The task gets to the second part of a source if the first does not end it. -/
theorem receive_append (source source' : List (Outcome NetworkError (RawNetMessage SteamID))) :
    receive (source ++ source') =
      if (receive source).2 = .running then
        ((receive source).1 ++ (receive source').1, (receive source').2)
      else receive source := by
  induction source with
  | nil => simp [receive]
  | cons item source ih =>
    cases item with
    | ok message =>
      by_cases hrun : (receive source).2 = .running <;> simp [receive, ih, hrun]
    | panic => simp [receive]
    | err e =>
      cases hstop : e.stopsTask with
      | true => simp [receive, hstop]
      | false => simpa [receive, hstop] using ih

/-- The task gets no further than to a panic. -/
theorem receive_upToPanic (source : List (Outcome NetworkError (RawNetMessage SteamID))) :
    receive (Outcome.upToPanic source) = receive source := by
  induction source with
  | nil => rfl
  | cons item source ih =>
    cases item with
    | panic => rfl
    | ok message => rw [Outcome.upToPanic_cons (by simp), receive, receive, ih]
    | err e => rw [Outcome.upToPanic_cons (by simp), receive, receive, ih]

/-- The task is left waiting by sources without a result that ends it. -/
theorem receive_running_iff (source : List (Outcome NetworkError (RawNetMessage SteamID))) :
    (receive source).2 = .running ↔ ∀ item ∈ source, ¬ EndsTask item := by
  induction source with
  | nil => simp [receive]
  | cons item source ih =>
    rw [List.forall_mem_cons, ← ih]
    cases item with
    | ok message => simp [receive, EndsTask]
    | panic => simp [receive, EndsTask]
    | err e => cases hstop : e.stopsTask <;> simp [receive, EndsTask, hstop]

/-- The task is left as it was by sources that it skips. -/
theorem receive_eq_nil_iff (source : List (Outcome NetworkError (RawNetMessage SteamID))) :
    receive source = ([], .running) ↔ ∀ item ∈ source, Skipped item := by
  induction source with
  | nil => simp [receive]
  | cons item source ih =>
    rw [List.forall_mem_cons, ← ih]
    cases item with
    | ok message => simp [receive, Skipped]
    | panic => simp [receive, Skipped]
    | err e => cases hstop : e.stopsTask <;> simp [receive, Skipped, hstop]

/-- The task dispatches every message, and waits for more, unless one of the results
ends it. -/
theorem receive_eq_iff (source : List (Outcome NetworkError (RawNetMessage SteamID))) :
    ((receive source).1 = okMessages source ∧ (receive source).2 = .running) ↔
      ∀ item ∈ source, ¬ EndsTask item := by
  induction source with
  | nil => simp [receive, okMessages]
  | cons item source ih =>
    rw [List.forall_mem_cons, ← ih]
    cases item with
    | ok message => simp [receive, okMessages, EndsTask]
    | panic => simp [receive, EndsTask]
    | err e =>
      cases hstop : e.stopsTask with
      | true => simp [receive, EndsTask, hstop]
      | false => simp [receive, okMessages, EndsTask, hstop]

end Receive

section Frames

variable {SteamID : Type} [SteamIdOps SteamID] (codec : HeaderCodec) (multi : MultiCodec)

/-- The results a connection makes of the frames of its transport. -/
def incoming (frames : List (Except NetworkError Bytes)) :
    List (Outcome NetworkError (RawNetMessage SteamID)) :=
  flattenMulti codec multi
    (frames.map fun res => (Outcome.ofExcept res).bind (RawNetMessage.read codec))

variable (SteamID) in
/-- Of a transport that does not fail, every message is dispatched and the task stays. -/
def ReceivesAll (frames : List Bytes) : Prop :=
  let source : List (Outcome NetworkError (RawNetMessage SteamID)) :=
    incoming codec multi (frames.map .ok)
  (receive source).1 = okMessages source ∧ (receive source).2 = .running

/-- A message that ends inside the fixed part of its header, or whose protobuf header is
overrun. -/
def FatalMessage (b : Bytes) : Prop :=
  RawNetMessage.HeaderCut b ∨ RawNetMessage.HeaderOverrun codec b

/-- A body with a child that is cut short, or with one that is fatal itself. -/
def FatalBody (body : Bytes) : Prop :=
  (MultiBodyIter.splitBody body).2 = true ∨
    ∃ child ∈ (MultiBodyIter.splitBody body).1, FatalMessage codec child

variable (SteamID) in
/-- A fatal message, or a multi message with a fatal body. -/
def FatalFrame (b : Bytes) : Prop :=
  FatalMessage codec b ∨
    ∃ (m : RawNetMessage SteamID) (reader : MultiBodyIter),
      RawNetMessage.read codec b = .ok m ∧ m.kind = EMsg.kEMsgMulti.kind ∧
        MultiBodyIter.new multi m.data = .ok reader ∧ FatalBody codec reader.bytes

variable {codec multi}

/-- The task gets to a frame behind others if these do not end it. -/
theorem receive_incoming_append_singleton (frames : List (Except NetworkError Bytes)) (b : Bytes) :
    receive (incoming codec multi (frames ++ [.ok b]) : List (Outcome _ (RawNetMessage SteamID))) =
      let before : List (RawNetMessage SteamID) × TaskStatus :=
        receive (incoming codec multi frames)
      let result := receive (flattenOne codec multi (RawNetMessage.read codec b))
      if before.2 = .running then (before.1 ++ result.1, result.2) else before := by
  simp only [incoming, flattenMulti, receive_upToPanic, List.map_append, List.flatMap_append,
    receive_append, List.map_singleton, List.flatMap_singleton, Outcome.ofExcept_ok,
    Outcome.bind_ok]

/-- Parsing a message ends the task exactly for the fatal ones: other malformed messages are
reported as such. -/
theorem endsTask_read_iff (b : Bytes) :
    EndsTask (RawNetMessage.read codec b : Outcome _ (RawNetMessage SteamID)) ↔
      FatalMessage codec b := by
  by_cases hcut : RawNetMessage.HeaderCut b
  · rw [RawNetMessage.read_of_headerCut hcut]
    exact ⟨fun _ => .inl hcut, fun _ => rfl⟩
  by_cases hover : RawNetMessage.HeaderOverrun codec b
  · rw [RawNetMessage.read_of_headerOverrun hover]
    exact ⟨fun _ => .inr hover, fun _ => trivial⟩
  -- what is left is parsed, or reported as an invalid header, at which the task goes on
  have hnot : ¬ FatalMessage codec b := not_or.mpr ⟨hcut, hover⟩
  rcases @RawNetMessage.read_of_not_headerCut SteamID _ codec b hcut hover with ⟨m, hm⟩ | hm
  · rw [hm]
    exact ⟨False.elim, fun h => absurd h hnot⟩
  · rw [hm]
    exact ⟨fun h => absurd h Bool.false_ne_true, fun h => absurd h hnot⟩

/-- Reading the children of a body ends the task exactly for the fatal ones. -/
theorem exists_endsTask_children_iff (reader : MultiBodyIter) :
    (∃ item ∈ (reader.children codec : List (Outcome _ (RawNetMessage SteamID))), EndsTask item) ↔
      FatalBody codec reader.bytes := by
  -- a panic ends the task itself, so it does not matter what it hides
  have hcut := @Outcome.forall_mem_upToPanic _ _ (MultiBodyIter.items SteamID codec reader)
    (¬ EndsTask ·) (not_not.mpr trivial)
  rw [← not_iff_not, not_exists, MultiBodyIter.children_eq]
  simp only [not_and]
  rw [hcut, MultiBodyIter.items, FatalBody]
  cases (MultiBodyIter.splitBody reader.bytes).2 with
  | true =>
    refine iff_of_false (fun h => h _ (List.mem_append_right _ List.mem_cons_self) rfl) ?_
    exact not_not.mpr (.inl rfl)
  | false =>
    simp [endsTask_read_iff]

/-- A frame ends the task exactly when it is fatal. -/
theorem exists_endsTask_flattenOne_iff (b : Bytes) :
    (∃ item ∈ flattenOne codec multi
        (RawNetMessage.read codec b : Outcome _ (RawNetMessage SteamID)), EndsTask item) ↔
      FatalFrame SteamID codec multi b := by
  have hread := @endsTask_read_iff SteamID _ codec b
  cases hres : (RawNetMessage.read codec b : Outcome _ (RawNetMessage SteamID)) with
  | panic => simp [flattenOne, FatalFrame, ← hread, hres]
  | err e => simp [flattenOne, FatalFrame, ← hread, hres]
  | ok m =>
    have hfatal : ¬ FatalMessage codec b := by
      rw [← hread, hres]
      exact not_false
    by_cases hkind : m.kind = EMsg.kEMsgMulti.kind
    · cases hnew : MultiBodyIter.new multi m.data with
      | error e =>
        obtain ⟨error, rfl⟩ := MultiBodyIter.new_eq_error hnew
        have hstop : ¬ EndsTask (.err (.malformedBody EMsg.kEMsgMulti.kind (.proto error)) :
            Outcome NetworkError (RawNetMessage SteamID)) := Bool.false_ne_true
        simp [flattenOne, FatalFrame, hfatal, hkind, hnew, hres, hstop]
      | ok reader =>
        simp [flattenOne, FatalFrame, hfatal, hkind, hnew, hres, exists_endsTask_children_iff]
    · simp [flattenOne, FatalFrame, hfatal, hkind, hres, EndsTask]

variable (SteamID codec) in
/-- A message that is malformed, but not so that it ends the task. -/
def RejectedMessage (b : Bytes) : Prop :=
  (RawNetMessage.read codec b : Outcome _ (RawNetMessage SteamID)) = .err .invalidHeader

variable (SteamID codec multi) in
/-- A rejected message, or a multi message that cannot be opened, or that holds nothing but
rejected messages. -/
def IgnoredFrame (b : Bytes) : Prop :=
  RejectedMessage SteamID codec b ∨
    ∃ m : RawNetMessage SteamID, RawNetMessage.read codec b = .ok m ∧
      m.kind = EMsg.kEMsgMulti.kind ∧
      ∀ reader, MultiBodyIter.new multi m.data = .ok reader →
        (MultiBodyIter.splitBody reader.bytes).2 = false ∧
          ∀ child ∈ (MultiBodyIter.splitBody reader.bytes).1, RejectedMessage SteamID codec child

/-- Parsing a message is skipped exactly for the rejected ones. -/
theorem skipped_read_iff (b : Bytes) :
    Skipped (RawNetMessage.read codec b : Outcome _ (RawNetMessage SteamID)) ↔
      RejectedMessage SteamID codec b := by
  constructor
  · intro h
    by_cases hcut : RawNetMessage.HeaderCut b
    · rw [RawNetMessage.read_of_headerCut hcut] at h
      cases h
    by_cases hover : RawNetMessage.HeaderOverrun codec b
    · rw [RawNetMessage.read_of_headerOverrun hover] at h
      exact h.elim
    rcases @RawNetMessage.read_of_not_headerCut SteamID _ codec b hcut hover with ⟨m, hm⟩ | hm
    · rw [hm] at h
      exact h.elim
    · exact hm
  · intro h
    rw [RejectedMessage] at h
    rw [h]
    rfl

/-- What comes of a frame is skipped exactly when it is an ignored one. -/
theorem forall_skipped_flattenOne_iff (b : Bytes) :
    (∀ item ∈ flattenOne codec multi
        (RawNetMessage.read codec b : Outcome _ (RawNetMessage SteamID)), Skipped item) ↔
      IgnoredFrame SteamID codec multi b := by
  have hread := @skipped_read_iff SteamID _ codec b
  cases hres : (RawNetMessage.read codec b : Outcome _ (RawNetMessage SteamID)) with
  | panic => simp [flattenOne, IgnoredFrame, ← hread, hres]
  | err e => simp [flattenOne, IgnoredFrame, ← hread, hres]
  | ok m =>
    have hrejected : ¬ RejectedMessage SteamID codec b := by
      rw [← hread, hres]
      exact not_false
    by_cases hkind : m.kind = EMsg.kEMsgMulti.kind
    · cases hnew : MultiBodyIter.new multi m.data with
      | error e =>
        obtain ⟨error, rfl⟩ := MultiBodyIter.new_eq_error hnew
        have hskip : Skipped (.err (.malformedBody EMsg.kEMsgMulti.kind (.proto error)) :
            Outcome NetworkError (RawNetMessage SteamID)) := rfl
        simp [flattenOne, IgnoredFrame, hrejected, hkind, hnew, hres, hskip]
      | ok reader =>
        have hcut : ¬ Skipped (.err (.io (reader.failure.getD .unexpectedEof)) :
            Outcome NetworkError (RawNetMessage SteamID)) := Bool.noConfusion
        have hpanic : ¬ Skipped (.panic : Outcome NetworkError (RawNetMessage SteamID)) := id
        cases hsplit : (MultiBodyIter.splitBody reader.bytes).2 <;>
          simp [flattenOne, IgnoredFrame, hrejected, hkind, hnew, hres, MultiBodyIter.children_eq,
            Outcome.forall_mem_upToPanic hpanic, MultiBodyIter.items, hsplit, skipped_read_iff,
            hcut]
    · simp [flattenOne, IgnoredFrame, hrejected, hkind, hres, Skipped]

/-- Some frames leave the task waiting exactly when none of them is fatal. -/
theorem forall_not_endsTask_incoming_iff (frames : List Bytes) :
    (∀ item ∈ (incoming codec multi (frames.map .ok) : List (Outcome _ (RawNetMessage SteamID))),
        ¬ EndsTask item) ↔ ∀ b ∈ frames, ¬ FatalFrame SteamID codec multi b := by
  rw [incoming, flattenMulti, Outcome.forall_mem_upToPanic (not_not.mpr trivial)]
  simp only [← exists_endsTask_flattenOne_iff, List.mem_flatMap, List.mem_map, not_exists, not_and]
  constructor
  · intro h b hb item hitem
    exact h item ⟨_, ⟨_, ⟨b, hb, rfl⟩, rfl⟩, hitem⟩
  · rintro h item ⟨_, ⟨_, ⟨b, hb, rfl⟩, rfl⟩, hitem⟩
    exact h b hb item hitem

/-- The receive side survives a run of frames exactly when none of them is fatal. -/
theorem receivesAll_iff (frames : List Bytes) :
    ReceivesAll SteamID codec multi frames ↔
      ∀ b ∈ frames, ¬ FatalFrame SteamID codec multi b := by
  rw [ReceivesAll, receive_eq_iff]
  exact forall_not_endsTask_incoming_iff frames

end Frames

/-- A decoder that knows no multi message. -/
def MultiCodec.reject : MultiCodec where
  parse _ := .error .decode
  gunzip bytes := { bytes }

/-- Four bytes of a protobuf message stop the task before the message behind them. -/
theorem not_receivesAll_short_header :
    ¬ ReceivesAll UInt64 HeaderCodec.wire MultiCodec.reject
      [[0xbf, 2, 0, 0x80], [0xbf, 2, 0, 0] ++ List.replicate 32 0] :=
  fun h => absurd h.2 (by decide)

end SteamWire
