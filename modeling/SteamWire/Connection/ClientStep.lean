import SteamWire.Connection.Client

/-!
# What a step of a connection can do

The inversion of the steps of a connection: a new call, a result of the receive
pipeline, a step of another user of the filter or of the task, or one step of one call
(`CallSteps`), which takes at most one step of the filter (`CallSteps.filter_cases`).
-/

namespace SteamWire

open Semantics

namespace Client

variable {SteamID : Type} {shard : JobId → Nat} {s t : Client SteamID} {f g : MessageFilter SteamID}
  {a : Action SteamID} {i j : Nat} {call call' : Call}

/-- The actions that end the wait of a call without a response. -/
def Action.Closes : Action SteamID → Prop
  | .sendFailed _ _ | .timeout _ | .closed _ | .cancel _ => True
  | _ => False

/-- The steps of a call, with what they do to the filter. -/
inductive CallSteps (f : MessageFilter SteamID) (call : Call) :
    Action SteamID → Call → MessageFilter SteamID → Prop
  | register {i : Nat} {g : MessageFilter SteamID} (hphase : call.phase = .drawn)
      (hreg : f.Registers call.origin g) :
      CallSteps f call (.register i) { call with chan := f.nextChan, phase := .registered } g
  | transmit {i : Nat} (hphase : call.phase = .registered) :
      CallSteps f call (.transmit i) { call with sent := true } f
  | sendOk {i : Nat} (hphase : call.phase = .registered) :
      CallSteps f call (.sendOk i) { call with phase := .waiting } f
  | receive {i : Nat} {item : Item SteamID} {taken : Nat} (hphase : call.phase = .waiting)
      (hitem : item ∈ (f.channels call.chan).inbox)
      (htaken : (f.channels call.chan).taken ≤ taken) :
      CallSteps f call (.receive i)
        { call with phase := call.afterResponse (call.respond item.message) }
        (f.setChannel call.chan { f.channels call.chan with taken := taken })
  | close {a : Action SteamID} {exit : Exit} (ha : a.Closes) (hphase : call.phase.IsSuspended)
      (hexit : exit ≠ .returned none) :
      CallSteps f call a { call with phase := .closing exit } f
  | resume {i : Nat} {completed : Bool} (hphase : call.phase = .yielding completed) :
      CallSteps f call (.resume i)
        { call with phase := if completed then .completing else .waiting } f
  | complete {i : Nat} (hphase : call.phase = .completing) :
      CallSteps f call (.complete i) { call with phase := .closing (.returned none) }
        (f.completeJobIdMulti call.id)
  | finish {i : Nat} {exit : Exit} (hphase : call.phase = .closing exit) :
      CallSteps f call (.finish i) { call with phase := .finished exit }
        (f.dropReceiver call.chan)

/-- The steps of a connection. -/
inductive StepsTo (s : Client SteamID) : Action SteamID → Client SteamID → Prop
  | draw {kind : CallKind} {parse : Bytes → Except MessageBodyError Bool} {thread : Nat} :
      StepsTo s (.draw kind parse thread)
        { s with
          jobId := s.jobId + 1
          calls := s.calls ++ [{ kind, parse, thread, id := s.nextJobId }] }
  | source {res : Option (Outcome NetworkError (RawNetMessage SteamID))}
      {g : MessageFilter SteamID} (h : s.filter.StepsTo (.next res) g) :
      StepsTo s (.source res) { s with filter := g }
  | filter {b : MessageFilter.Action SteamID} {g : MessageFilter SteamID}
      (hpermits : s.Permits b) (h : s.filter.StepsTo b g) :
      StepsTo s (.filter b) { s with filter := g }
  | call {a : Action SteamID} {i : Nat} {call call' : Call} {g : MessageFilter SteamID}
      (ha : a.call = some i) (hcall : s.calls[i]? = some call)
      (h : CallSteps s.filter call a call' g) : StepsTo s a (s.update i call' g)

/-- A registration makes the channel of its call. -/
private theorem registers_of_step (h : f.step shard call.registration = some g) :
    f.Registers call.origin g := by
  have hsteps := MessageFilter.stepsTo_of_step h
  have horigin : (call.registration : MessageFilter.Action SteamID).origin = some call.origin := by
    unfold Call.registration Call.origin
    split <;> rfl
  rcases hsteps.nextChan_eq with ⟨-, hnone⟩ | ⟨-, o, ho, hreg⟩
  · rw [horigin] at hnone
    cases hnone
  · rw [horigin, Option.some.injEq] at ho
    exact ho ▸ hreg

/-- Every step of a call is one of these. -/
theorem callSteps_of_callStep (h : s.callStep shard call a = some (call', g)) :
    CallSteps s.filter call a call' g := by
  cases a with
  | register i =>
    obtain ⟨hphase, hmap⟩ := Option.ite_none_right_eq_some.mp h
    obtain ⟨filter, hfilter, heq⟩ := Option.map_eq_some_iff.mp hmap
    cases heq
    exact .register hphase (registers_of_step hfilter)
  | transmit i =>
    obtain ⟨hphase, heq⟩ := Option.ite_none_right_eq_some.mp h
    cases heq
    exact .transmit hphase
  | sendOk i =>
    obtain ⟨hphase, heq⟩ := Option.ite_none_right_eq_some.mp h
    cases heq
    exact .sendOk hphase.1
  | sendFailed i error =>
    obtain ⟨hphase, heq⟩ := Option.ite_none_right_eq_some.mp h
    cases heq
    exact .close trivial (by rw [hphase.1]; trivial) (by simp)
  | receive i =>
    obtain ⟨hphase, hmap⟩ := Option.ite_none_right_eq_some.mp h
    obtain ⟨⟨item, filter⟩, hrecv, heq⟩ := Option.map_eq_some_iff.mp hmap
    cases heq
    obtain ⟨hmem, taken, htaken, rfl⟩ := MessageFilter.of_recv_eq_some hrecv
    exact .receive hphase.1 hmem htaken
  | timeout i =>
    obtain ⟨hphase, heq⟩ := Option.ite_none_right_eq_some.mp h
    cases heq
    exact .close trivial (by rw [hphase.1]; trivial) (by simp)
  | closed i =>
    obtain ⟨hphase, heq⟩ := Option.ite_none_right_eq_some.mp h
    cases heq
    exact .close trivial (by rw [hphase.1]; trivial) (by simp)
  | cancel i =>
    obtain ⟨hphase, heq⟩ := Option.ite_none_right_eq_some.mp h
    cases heq
    exact .close trivial hphase.1 (by simp)
  | resume i =>
    simp only [callStep] at h
    split at h
    · rename_i hphase
      obtain ⟨-, heq⟩ := Option.ite_none_right_eq_some.mp h
      cases heq
      exact .resume hphase
    · cases h
  | complete i =>
    obtain ⟨hphase, hmap⟩ := Option.ite_none_right_eq_some.mp h
    obtain ⟨filter, hfilter, heq⟩ := Option.map_eq_some_iff.mp hmap
    cases heq
    obtain ⟨-, hfilter⟩ := Option.ite_none_left_eq_some.mp hfilter
    cases hfilter
    exact .complete hphase
  | finish i =>
    simp only [callStep] at h
    split at h
    · rename_i hphase
      cases h
      exact .finish hphase
    · cases h
  | draw => cases h
  | source => cases h
  | filter => cases h

/-- An action of a call is a step of that call. -/
theorem step_eq_of_call (ha : a.call = some i) :
    s.step shard a = s.calls[i]?.bind fun call =>
      (s.callStep shard call a).map fun next => s.update i next.1 next.2 := by
  cases a with
  | draw | source | filter => cases ha
  | _ =>
    obtain rfl := Option.some.inj ha
    rfl

/-- A step of a call, as the code takes it. -/
theorem exists_callStep_of_step (h : s.step shard a = some t) (ha : a.call = some i) :
    ∃ call call' g, s.calls[i]? = some call ∧ s.callStep shard call a = some (call', g) ∧
      t = s.update i call' g := by
  rw [step_eq_of_call ha] at h
  obtain ⟨call, hcall, hmap⟩ := Option.bind_eq_some_iff.mp h
  obtain ⟨⟨call', g⟩, hstep, rfl⟩ := Option.map_eq_some_iff.mp hmap
  exact ⟨call, call', g, hcall, hstep, rfl⟩

/-- Every step of a connection is one of these. -/
theorem stepsTo_of_step (h : s.step shard a = some t) : StepsTo s a t := by
  cases a with
  | draw kind parse thread =>
    obtain ⟨-, heq⟩ := Option.ite_none_right_eq_some.mp h
    cases heq
    exact .draw
  | source res =>
    obtain ⟨filter, hfilter, rfl⟩ := Option.map_eq_some_iff.mp h
    exact .source (MessageFilter.stepsTo_of_step hfilter)
  | filter b =>
    obtain ⟨hpermits, hmap⟩ := Option.ite_none_right_eq_some.mp h
    obtain ⟨filter, hfilter, rfl⟩ := Option.map_eq_some_iff.mp hmap
    exact .filter hpermits (MessageFilter.stepsTo_of_step hfilter)
  | _ =>
    obtain ⟨call, call', g, hget, hstep, rfl⟩ := exists_callStep_of_step h rfl
    exact .call rfl hget (callSteps_of_callStep hstep)

/-- The task takes its steps on a connection. -/
theorem step_dispatch (h : s.filter.dispatch = some g) :
    s.step shard (.filter .dispatch) = some { s with filter := g } := by
  have hpermits : s.Permits .dispatch := trivial
  simp only [step, if_pos hpermits, MessageFilter.step, h, Option.map_some]

/-- What a call's step does to the filter: nothing, its registration, taking back the
registration of a multi job, or reading or dropping its own receiver. -/
theorem CallSteps.filter_cases (h : CallSteps f call a call' g) :
    g = f ∨ ∃ b, f.StepsTo b g ∧
      (call.phase = .drawn ∧ b.origin = some call.origin ∧ f.Registers call.origin g ∨
        call.phase ≠ .drawn ∧ b.origin = none ∧
          (b = .completeJobIdMulti call.id ∨ b = .recv call.chan ∨ b = .dropReceiver call.chan)) := by
  cases h with
  | register hphase hreg =>
    have horigin : (call.registration : MessageFilter.Action SteamID).origin = some call.origin := by
      unfold Call.registration Call.origin
      split <;> rfl
    exact .inr ⟨_, .register horigin hreg, .inl ⟨hphase, horigin, hreg⟩⟩
  | receive hphase hitem htaken =>
    exact .inr ⟨_, .recv (List.ne_nil_of_mem hitem) htaken, .inr ⟨by simp [hphase], rfl, .inr (.inl rfl)⟩⟩
  | complete hphase => exact .inr ⟨_, .complete, .inr ⟨by simp [hphase], rfl, .inl rfl⟩⟩
  | finish hphase => exact .inr ⟨_, .drop, .inr ⟨by simp [hphase], rfl, .inr (.inr rfl)⟩⟩
  | _ => exact .inl rfl

end Client

end SteamWire
