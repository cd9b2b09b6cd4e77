import SteamWire.Semantics.Run

/-!
# Races

Contenders complete in some order, and races between them are polled. A race of two polls
the left one first. The result of the one that completes first is the result of the race if
it is final; else it is dropped, and the race goes on as the other one. Races are nested.

`RaceTree.mem_leaves_of_finishes` and `RaceTree.final_of_finishes` are what all orders have in
common. Without a final result every contender can be the one that wins
(`RaceTree.finishes_of_mem_leaves`).
-/

namespace SteamWire.Semantics

/-- Nested races between contenders. -/
inductive RaceTree (ι : Type*) where
  | leaf (i : ι)
  | race (left right : RaceTree ι)

namespace RaceTree

variable {ι α : Type*}

/-- The contenders. -/
def leaves : RaceTree ι → List ι
  | leaf i => [i]
  | race left right => left.leaves ++ right.leaves

/-- The same races with the sides of some of them exchanged. -/
inductive Mirrors : RaceTree ι → RaceTree ι → Prop
  | leaf (i : ι) : Mirrors (leaf i) (leaf i)
  | keep {l r l' r' : RaceTree ι} (hl : Mirrors l l') (hr : Mirrors r r') :
      Mirrors (race l r) (race l' r')
  | swap {l r l' r' : RaceTree ι} (hl : Mirrors l l') (hr : Mirrors r r') :
      Mirrors (race l r) (race r' l')

/-- Mirrored races have the same contenders. -/
theorem Mirrors.leaves_perm {t t' : RaceTree ι} (h : Mirrors t t') : t.leaves.Perm t'.leaves := by
  induction h with
  | leaf i => exact .refl _
  | keep _ _ ihl ihr => exact ihl.append ihr
  | swap _ _ ihl ihr => exact (ihl.append ihr).trans List.perm_append_comm

variable (final : α → Prop) [DecidablePred final] (answer : ι → α)

/-- Poll the races, given which contenders have completed: what is left of them, or the
result. -/
def poll (completed : ι → Bool) : RaceTree ι → RaceTree ι ⊕ α
  | leaf i => if completed i then .inr (answer i) else .inl (leaf i)
  | race left right =>
    match poll completed left with
    | .inr a => if final a then .inr a else poll completed right
    | .inl left =>
      match poll completed right with
      -- the left one was polled just now
      | .inr b => if final b then .inr b else .inl left
      | .inl right => .inl (race left right)

/-- Races under way: which contenders have completed, and what the last poll gave. -/
structure State (ι α : Type*) where
  completed : ι → Bool
  task : RaceTree ι ⊕ α

/-- What can happen: a contender completes, or the races are polled. -/
inductive Action (ι : Type*) where
  | complete (i : ι)
  | poll

variable [DecidableEq ι]

def step (s : State ι α) : Action ι → Option (State ι α)
  | .complete i => some { s with completed := Function.update s.completed i true }
  | .poll =>
    match s.task with
    | .inl t => some { s with task := t.poll final answer s.completed }
    | .inr _ => none

/-- Nobody has completed. -/
def start (t : RaceTree ι) : State ι α := ⟨fun _ => false, .inl t⟩

/-- In some order of completions and polls the races end with this result. -/
def Finishes (t : RaceTree ι) (a : α) : Prop :=
  ∃ w s, run (step final answer) t.start w = some s ∧ s.task = .inr a

/-! ### The results -/

omit [DecidablePred final] [DecidableEq ι] in
/-- What the races may give, whatever the order. -/
inductive MayGive (final : α → Prop) (answer : ι → α) : RaceTree ι → α → Prop
  | leaf (i : ι) : MayGive final answer (leaf i) (answer i)
  | left {l r : RaceTree ι} {a : α} (hl : MayGive final answer l a) (ha : final a) :
      MayGive final answer (race l r) a
  | right {l r : RaceTree ι} {b : α} (hr : MayGive final answer r b) (hb : final b) :
      MayGive final answer (race l r) b
  | leftLast {l r : RaceTree ι} {a b : α} (hr : MayGive final answer r b) (hb : ¬ final b)
      (hl : MayGive final answer l a) : MayGive final answer (race l r) a
  | rightLast {l r : RaceTree ι} {a b : α} (hl : MayGive final answer l a) (ha : ¬ final a)
      (hr : MayGive final answer r b) : MayGive final answer (race l r) b

section Results

variable {final answer} {completed : ι → Bool} {t t' : RaceTree ι} {a : α}

omit [DecidablePred final] [DecidableEq ι] in
/-- A result is the answer of a contender. -/
theorem MayGive.mem_leaves (h : MayGive final answer t a) : ∃ i ∈ t.leaves, answer i = a := by
  induction h with
  | leaf i => exact ⟨i, List.mem_singleton_self i, rfl⟩
  | left _ _ ih | leftLast _ _ _ _ ih =>
    obtain ⟨i, hi, hanswer⟩ := ih
    exact ⟨i, List.mem_append_left _ hi, hanswer⟩
  | right _ _ ih | rightLast _ _ _ _ ih =>
    obtain ⟨i, hi, hanswer⟩ := ih
    exact ⟨i, List.mem_append_right _ hi, hanswer⟩

omit [DecidablePred final] [DecidableEq ι] in
/-- A contender with a final answer makes the result final. -/
theorem MayGive.final_of_mem_leaves (h : MayGive final answer t a)
    (hfinal : ∃ i ∈ t.leaves, final (answer i)) : final a := by
  obtain ⟨i, hi, hanswer⟩ := hfinal
  induction h with
  | leaf j => rwa [← List.mem_singleton.mp hi]
  | left _ ha => exact ha
  | right _ hb => exact hb
  | leftLast _ hb _ ihr ihl =>
    rcases List.mem_append.mp hi with hl | hr
    · exact ihl hl
    · exact absurd (ihr hr) hb
  | rightLast _ ha _ ihl ihr =>
    rcases List.mem_append.mp hi with hl | hr
    · exact absurd (ihl hl) ha
    · exact ihr hr

omit [DecidablePred final] [DecidableEq ι] in
/-- What may still come of races under way, or came of them. -/
def MayEnd (final : α → Prop) (answer : ι → α) : RaceTree ι ⊕ α → α → Prop
  | .inl t => MayGive final answer t
  | .inr b => (· = b)

omit [DecidableEq ι] in
/-- What may come of a poll might have come of the races before it. -/
theorem mayGive_of_poll (h : MayEnd final answer (t.poll final answer completed) a) :
    MayGive final answer t a := by
  induction t generalizing a with
  | leaf i =>
    rw [poll] at h
    split_ifs at h
    · exact h ▸ .leaf i
    · exact h
  | race l r ihl ihr =>
    rw [poll] at h
    cases hl : l.poll final answer completed with
    | inr b =>
      rw [hl] at h ihl
      dsimp only at h
      split_ifs at h with hb
      · exact h ▸ .left (ihl rfl) hb
      · exact .rightLast (ihl rfl) hb (ihr h)
    | inl l' =>
      rw [hl] at h ihl
      cases hr : r.poll final answer completed with
      | inr b =>
        rw [hr] at h ihr
        dsimp only at h
        split_ifs at h with hb
        · exact h ▸ .right (ihr rfl) hb
        · exact .leftLast (ihr rfl) hb (ihl h)
      | inl r' =>
        rw [hr] at h ihr
        -- both sides go on, and each ends as it might have ended before the poll
        cases h with
        | left hl ha => exact .left (ihl hl) ha
        | right hr hb => exact .right (ihr hr) hb
        | leftLast hr hb hl => exact .leftLast (ihr hr) hb (ihl hl)
        | rightLast hl ha hr => exact .rightLast (ihl hl) ha (ihr hr)

/-- The result of every order is one that the races may give. -/
theorem mayGive_of_finishes (h : Finishes final answer t a) : MayGive final answer t a := by
  obtain ⟨w, s, hrun, hs⟩ := h
  have hstep : ∀ s act u, (∀ a, MayEnd final answer s.task a → MayGive final answer t a) →
      step final answer s act = some u →
        ∀ a, MayEnd final answer u.task a → MayGive final answer t a := by
    intro s act u hs h a ha
    cases act with
    | complete i =>
      cases h
      exact hs a ha
    | poll =>
      rw [step] at h
      split at h
      · rename_i left hleft
        cases h
        exact hs a (hleft ▸ mayGive_of_poll ha)
      · cases h
  have hstart : ∀ a, MayEnd final answer t.start.task a → MayGive final answer t a := fun _ h => h
  exact run_invariant hstep hstart hrun a (by rw [hs]; rfl)

/-- The result is the answer of a contender. -/
theorem mem_leaves_of_finishes (h : Finishes final answer t a) : ∃ i ∈ t.leaves, answer i = a :=
  (mayGive_of_finishes h).mem_leaves

/-- A contender with a final answer makes the result final. -/
theorem final_of_finishes (h : Finishes final answer t a)
    (hfinal : ∃ i ∈ t.leaves, final (answer i)) : final a :=
  (mayGive_of_finishes h).final_of_mem_leaves hfinal

end Results

/-! ### Winning last -/

section Last

variable {final answer} {completed : ι → Bool} {t : RaceTree ι} {j : ι}

omit [DecidableEq ι] in
/-- When everyone has completed there is a result. -/
theorem exists_poll_eq_inr (h : ∀ i ∈ t.leaves, completed i = true) :
    ∃ a, t.poll final answer completed = .inr a := by
  induction t with
  | leaf i => exact ⟨answer i, if_pos (h i (List.mem_singleton_self i))⟩
  | race l r ihl ihr =>
    obtain ⟨a, hl⟩ := ihl fun i hi => h i (List.mem_append_left _ hi)
    obtain ⟨b, hr⟩ := ihr fun i hi => h i (List.mem_append_right _ hi)
    rw [poll, hl]
    dsimp only
    split_ifs
    · exact ⟨a, rfl⟩
    · exact ⟨b, hr⟩

omit [DecidableEq ι] in
/-- As long as one contender is missing, and no answer of the others is final, only that one is
left. -/
theorem exists_poll_eq_inl (hnone : ∀ i ∈ t.leaves, ¬ final (answer i)) (hj : j ∈ t.leaves)
    (hothers : ∀ i ∈ t.leaves, i ≠ j → completed i = true) (hmissing : completed j = false) :
    ∃ t', t.poll final answer completed = .inl t' ∧ ∀ i ∈ t'.leaves, i = j := by
  induction t with
  | leaf i =>
    obtain rfl := List.mem_singleton.mp hj
    exact ⟨leaf j, if_neg (by simp [hmissing]), fun i hi => List.mem_singleton.mp hi⟩
  | race l r ihl ihr =>
    have hnone' := List.forall_mem_append.mp hnone
    have hothers' := List.forall_mem_append.mp hothers
    -- a side without `j` has a result, which is not final
    have hdone : ∀ s : RaceTree ι, (∀ i ∈ s.leaves, ¬ final (answer i)) →
        (∀ i ∈ s.leaves, i ≠ j → completed i = true) → j ∉ s.leaves →
          ∃ a, s.poll final answer completed = .inr a ∧ ¬ final a := by
      intro s hnone hothers hj
      obtain ⟨a, ha⟩ := @exists_poll_eq_inr ι α final _ answer completed s
        fun i hi => hothers i hi fun heq => hj (heq ▸ hi)
      have hmay : MayGive final answer s a :=
        @mayGive_of_poll ι α final _ answer completed s a (by rw [ha]; rfl)
      obtain ⟨i, hi, rfl⟩ := hmay.mem_leaves
      exact ⟨_, ha, hnone i hi⟩
    by_cases hl : j ∈ l.leaves
    · obtain ⟨l', hl', hleft⟩ := ihl hnone'.1 hl hothers'.1
      by_cases hr : j ∈ r.leaves
      · obtain ⟨r', hr', hright⟩ := ihr hnone'.2 hr hothers'.2
        refine ⟨race l' r', by rw [poll, hl', hr'], List.forall_mem_append.mpr ⟨hleft, hright⟩⟩
      · obtain ⟨b, hb, hfinal⟩ := hdone r hnone'.2 hothers'.2 hr
        refine ⟨l', ?_, hleft⟩
        rw [poll, hl', hb]
        exact if_neg hfinal
    · obtain ⟨a, ha, hfinal⟩ := hdone l hnone'.1 hothers'.1 hl
      obtain ⟨r', hr', hright⟩ := ihr hnone'.2 ((List.mem_append.mp hj).resolve_left hl) hothers'.2
      refine ⟨r', ?_, hright⟩
      rw [poll, ha]
      exact (if_neg hfinal).trans hr'

/-- Contenders complete one after another. -/
theorem run_complete (is : List ι) (s : State ι α) :
    ∃ s', run (step final answer) s (is.map .complete) = some s' ∧ s'.task = s.task ∧
      ∀ i, s'.completed i = (s.completed i || decide (i ∈ is)) := by
  induction is generalizing s with
  | nil => exact ⟨s, rfl, rfl, fun i => by simp⟩
  | cons k is ih =>
    obtain ⟨s', hrun, htask, hcompleted⟩ :=
      ih { s with completed := Function.update s.completed k true }
    refine ⟨s', hrun, htask, fun i => ?_⟩
    rw [hcompleted]
    by_cases hi : i = k
    · simp [hi]
    · simp [hi]

/-- Where no answer is final, every contender can be the last, and its answer the result. -/
theorem finishes_of_mem_leaves (hnone : ∀ i ∈ t.leaves, ¬ final (answer i)) (hj : j ∈ t.leaves) :
    Finishes final answer t (answer j) := by
  obtain ⟨s, hrun, htask, hcompleted⟩ :=
    @run_complete ι α final _ answer _ (t.leaves.filter (· ≠ j)) t.start
  have hothers : ∀ i ∈ t.leaves, i ≠ j → s.completed i = true := by
    intro i hi hne
    simp [hcompleted, hi, hne]
  have hmissing : s.completed j = false := by simp [hcompleted, start]
  obtain ⟨t', ht', hleft⟩ := @exists_poll_eq_inl ι α final _ answer s.completed t j hnone hj hothers
    hmissing
  obtain ⟨a, ha⟩ := @exists_poll_eq_inr ι α final _ answer (Function.update s.completed j true) t'
    fun i hi => by rw [hleft i hi, Function.update_self]
  -- the others complete and are polled, and then the last one
  have hfinishes : run (step final answer) t.start
      ((t.leaves.filter (· ≠ j)).map .complete ++ [.poll, .complete j, .poll]) =
        some ⟨Function.update s.completed j true, .inr a⟩ := by
    rw [run_append, hrun, Option.bind_some]
    simp only [run, step, htask, start, ht', ha, Option.bind_some]
  have hresult : Finishes final answer t a := ⟨_, _, hfinishes, rfl⟩
  have hmay : MayGive final answer t' a :=
    @mayGive_of_poll ι α final _ answer (Function.update s.completed j true) t' a (by rw [ha]; rfl)
  obtain ⟨i, hi, rfl⟩ := hmay.mem_leaves
  rwa [hleft i hi] at hresult

end Last

end RaceTree

end SteamWire.Semantics
