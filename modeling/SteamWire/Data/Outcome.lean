import SteamWire.Data.LittleEndian

/-!
# Outcomes of code that may panic

A call that returns a `Result` ends in a value, in an error, or in a panic that
unwinds the task it runs in. `split` is the one panicking buffer operation the
message parser relies on.
-/

namespace SteamWire

section Except

variable {ε ε' α β : Type*}

/-- A call that ends in a value goes on from one. -/
theorem bind_eq_ok_iff {ε α β : Type} {x : Except ε α} {f : α → Except ε β} {b : β} :
    (x >>= f) = .ok b ↔ ∃ a, x = .ok a ∧ f a = .ok b := by
  cases x with
  | error e => exact ⟨nofun, nofun⟩
  | ok a =>
    constructor
    · exact fun h => ⟨a, rfl, h⟩
    · rintro ⟨a', ha, h⟩
      exact Except.ok.inj ha ▸ h

/-- A call fails where it starts, or where it goes on. -/
theorem bind_eq_error_iff {ε α β : Type} {x : Except ε α} {f : α → Except ε β} {e : ε} :
    (x >>= f) = .error e ↔ x = .error e ∨ ∃ a, x = .ok a ∧ f a = .error e := by
  cases x with
  | error e' =>
    constructor
    · exact fun h => .inl (congrArg _ (Except.error.inj h))
    · rintro (h | ⟨a, ha, -⟩)
      · exact congrArg _ (Except.error.inj h)
      · cases ha
  | ok a =>
    constructor
    · exact fun h => .inr ⟨a, rfl, h⟩
    · rintro (h | ⟨a', ha, h⟩)
      · cases h
      · exact Except.ok.inj ha ▸ h

theorem mapError_eq_error_iff {f : ε → ε'} {x : Except ε α} {e : ε'} :
    x.mapError f = .error e ↔ ∃ e', x = .error e' ∧ f e' = e := by
  cases x with
  | error e' =>
    constructor
    · exact fun h => ⟨e', rfl, Except.error.inj h⟩
    · rintro ⟨e'', he, rfl⟩
      exact congrArg _ (congrArg f (Except.error.inj he))
  | ok a => exact ⟨nofun, fun h => nomatch h.choose_spec.1⟩

theorem mapError_eq_ok_iff {f : ε → ε'} {x : Except ε α} {a : α} :
    x.mapError f = .ok a ↔ x = .ok a := by
  cases x with
  | error e => exact ⟨nofun, nofun⟩
  | ok a' => exact ⟨fun h => congrArg _ (Except.ok.inj h), fun h => congrArg _ (Except.ok.inj h)⟩

/-- `Option::ok_or`. -/
theorem elim_eq_ok_iff {x : Option α} {e : ε} {a : α} :
    x.elim (.error e) Except.ok = .ok a ↔ x = some a := by
  cases x with
  | none =>
    constructor <;> intro h <;> cases h
  | some b =>
    exact ⟨fun h => congrArg some (Except.ok.inj h), fun h => congrArg _ (Option.some.inj h)⟩

/-- A loop whose steps either fail, or go on in one way whatever came before. -/
theorem foldlM_eq_ok_iff {ε α β : Type} {f : β → α → Except ε β} {ok : α → Prop}
    {next : β → α → β} (hf : ∀ b a b', f b a = .ok b' ↔ ok a ∧ b' = next b a) {l : List α}
    {b b' : β} : l.foldlM f b = .ok b' ↔ (∀ a ∈ l, ok a) ∧ b' = l.foldl next b := by
  induction l generalizing b with
  | nil =>
    rw [List.foldlM_nil, List.foldl_nil]
    exact ⟨fun h => ⟨nofun, (Except.ok.inj h).symm⟩, fun h => congrArg _ h.2.symm⟩
  | cons a l ih =>
    rw [List.foldlM_cons, bind_eq_ok_iff, List.foldl_cons, List.forall_mem_cons]
    constructor
    · rintro ⟨b₁, ha, hrest⟩
      obtain ⟨hok, rfl⟩ := (hf b a b₁).mp ha
      exact ⟨⟨hok, (ih.mp hrest).1⟩, (ih.mp hrest).2⟩
    · rintro ⟨⟨hok, hall⟩, rfl⟩
      exact ⟨_, (hf b a _).mpr ⟨hok, rfl⟩, ih.mpr ⟨hall, rfl⟩⟩

end Except

/-- How a call ends: `Ok`, `Err`, or a panic. -/
inductive Outcome (ε α : Type*) where
  | ok (value : α)
  | err (error : ε)
  | panic
  deriving DecidableEq, Repr

namespace Outcome

variable {ε α β : Type*}

/-- A call that does not panic. -/
def ofExcept : Except ε α → Outcome ε α
  | .ok a => .ok a
  | .error e => .err e

/-- Go on with the value of a call that returned `Ok`. -/
def bind : Outcome ε α → (α → Outcome ε β) → Outcome ε β
  | .ok a, f => f a
  | .err e, _ => .err e
  | .panic, _ => .panic

@[simp] theorem bind_ok (a : α) (f : α → Outcome ε β) : (ok a : Outcome ε α).bind f = f a := rfl

@[simp] theorem ofExcept_ok (a : α) : (ofExcept (.ok a) : Outcome ε α) = ok a := rfl

/-! ### Outcomes one behind the other -/

/-- What is got of calls that are made one behind the other: a panic unwinds the caller, so
the calls behind it are never made. -/
def upToPanic : List (Outcome ε α) → List (Outcome ε α)
  | [] => []
  | .panic :: _ => [.panic]
  | item :: rest => item :: upToPanic rest

variable {l l' : List (Outcome ε α)} {item : Outcome ε α}

/-- A call that returns is followed by the next ones. -/
theorem upToPanic_cons (h : item ≠ .panic) : upToPanic (item :: l) = item :: upToPanic l := by
  cases item with
  | panic => exact absurd rfl h
  | _ => rfl

theorem upToPanic_cons_panic : upToPanic (.panic :: l) = [.panic] := rfl

/-- Calls that all return are all made. -/
theorem upToPanic_eq_self (h : .panic ∉ l) : upToPanic l = l := by
  induction l with
  | nil => rfl
  | cons item l ih =>
    rw [List.mem_cons, not_or] at h
    rw [upToPanic_cons (Ne.symm h.1), ih h.2]

/-- What is said of all outcomes, and is not said of a panic, is said of those up to the
first panic. -/
theorem forall_mem_upToPanic {p : Outcome ε α → Prop} (hp : ¬ p .panic) :
    (∀ item ∈ upToPanic l, p item) ↔ ∀ item ∈ l, p item := by
  induction l with
  | nil => exact Iff.rfl
  | cons item l ih =>
    by_cases hpanic : item = .panic
    · subst hpanic
      rw [upToPanic_cons_panic, List.forall_mem_cons, List.forall_mem_cons]
      exact iff_of_false (fun h => hp h.1) (fun h => hp h.1)
    · rw [upToPanic_cons hpanic, List.forall_mem_cons, List.forall_mem_cons, ih]

/-- A panic that is there is reached, or another one before it. -/
theorem panic_mem_upToPanic_iff : .panic ∈ upToPanic l ↔ .panic ∈ l := by
  have h := @forall_mem_upToPanic ε α l (· ≠ .panic) (not_not.mpr rfl)
  rw [← not_iff_not]
  constructor
  · exact fun hno hmem => h.mp (fun item hitem => ne_of_mem_of_not_mem hitem hno) _ hmem rfl
  · exact fun hno hmem => h.mpr (fun item hitem => ne_of_mem_of_not_mem hitem hno) _ hmem rfl

/-- Behind calls that all return, the next ones are made. -/
theorem upToPanic_append (h : .panic ∉ l) : upToPanic (l ++ l') = l ++ upToPanic l' := by
  induction l with
  | nil => rfl
  | cons item l ih =>
    rw [List.mem_cons, not_or] at h
    rw [List.cons_append, upToPanic_cons (Ne.symm h.1), ih h.2, List.cons_append]

/-- Outcomes without a panic in or before them are got. -/
theorem prefix_upToPanic (h : l <+: l') (hl : .panic ∉ l) : l <+: upToPanic l' := by
  obtain ⟨rest, rfl⟩ := h
  rw [upToPanic_append hl]
  exact List.prefix_append ..

/-- Behind a panic it does not matter what calls there would be. -/
theorem upToPanic_eq_of_prefix (h : l <+: l') (hl : .panic ∈ l) : upToPanic l = upToPanic l' := by
  obtain ⟨rest, rfl⟩ := h
  induction l with
  | nil => cases hl
  | cons item l ih =>
    by_cases hpanic : item = .panic
    · subst hpanic
      rfl
    · have hmem := (List.mem_cons.mp hl).resolve_left (Ne.symm hpanic)
      rw [List.cons_append, upToPanic_cons hpanic, upToPanic_cons hpanic, ih hmem]

/-- Nothing is behind the first panic. -/
theorem upToPanic_upToPanic : upToPanic (upToPanic l) = upToPanic l := by
  induction l with
  | nil => rfl
  | cons item l ih =>
    by_cases hpanic : item = .panic
    · subst hpanic
      rfl
    · rw [upToPanic_cons hpanic, upToPanic_cons hpanic, ih]

end Outcome

/-- `BytesMut::split_to`: cut off the first `n` bytes. Panics past the end. -/
def splitTo {ε : Type*} (b : Bytes) (n : Nat) : Outcome ε (Bytes × Bytes) :=
  if n ≤ b.length then .ok (b.take n, b.drop n) else .panic

theorem splitTo_of_le {ε : Type*} {b : Bytes} {n : Nat} (h : n ≤ b.length) :
    (splitTo b n : Outcome ε _) = .ok (b.take n, b.drop n) := if_pos h

theorem splitTo_eq_panic {ε : Type*} {b : Bytes} {n : Nat} :
    (splitTo b n : Outcome ε _) = .panic ↔ b.length < n := by
  simp [splitTo]

end SteamWire
