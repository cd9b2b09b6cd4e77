import SteamWire.Semantics.Race
import SteamWire.Session.Error

/-!
# Confirming a login

Handlers take the confirmations that the service allows and say what to do. Combined
handlers are asked in parallel, and the first result that asks for something is taken.
A handler that needs nothing done and one that supports no confirmation both lose to the
other, so the answer of the first is lost when the second is the last to answer
(`losesNoAnswer_iff`).
-/

namespace SteamWire

open Semantics

structure SteamGuardToken where
  code : String
  deriving DecidableEq, Repr

/-- What to do to confirm the login. -/
inductive ConfirmationAction where
  | guardToken (token : SteamGuardToken) (tokenType : GuardTokenType)
  | none
  | abort
  deriving DecidableEq, Repr

/-- `handle_confirmation` of a handler: `none` if it supports none of the allowed
confirmations. -/
abbrev AuthConfirmationHandler := List ConfirmationMethod → Option ConfirmationAction

/-- Make the code from the shared secret. -/
def sharedSecretAuthConfirmationHandler (sharedSecret : String) (totp : String → Option String) :
    AuthConfirmationHandler := fun allowedConfirmations =>
  allowedConfirmations.findSome? fun method =>
    method.tokenType.bind fun tokenType =>
      (totp sharedSecret).map fun token => .guardToken ⟨token⟩ tokenType

/-- Wait for the user to confirm the login in the app. -/
def deviceConfirmationHandler : AuthConfirmationHandler := fun allowedConfirmations =>
  allowedConfirmations.findSome? fun method =>
    if method.methodClass = .confirmation then some .none else none

/-- The results that `EitherConfirmationHandler` does not drop. -/
def IsDecisive : Option ConfirmationAction → Prop
  | none | some .none => False
  | _ => True

instance : DecidablePred IsDecisive := by
  intro res
  unfold IsDecisive
  split <;> infer_instance

theorem not_isDecisive_none : ¬ IsDecisive none := id

/-- Handlers combined with `or`. -/
abbrev EitherConfirmationHandler (ι : Type*) := RaceTree ι

/-- `AuthConfirmationHandler::or`. -/
def EitherConfirmationHandler.or {ι : Type*} (left right : EitherConfirmationHandler ι) :
    EitherConfirmationHandler ι := .race left right

/-- `StartedAuth::action_required`. -/
def actionRequired (allowedConfirmations : List ConfirmationMethod) : Bool :=
  allowedConfirmations.any fun method =>
    method.confirmationType.getD 0 ≠ EAuthSessionGuardType.kEAuthSessionGuardTypeNone.value

/-- What `login` does with the result of the handler: it submits a code, goes on waiting for the
tokens, or fails. -/
def onConfirmation (allowedConfirmations : List ConfirmationMethod) :
    Option ConfirmationAction → Except ConnectionError (Option (SteamGuardToken × GuardTokenType))
  | some (.guardToken token tokenType) => .ok (some (token, tokenType))
  | some .none => .ok none
  | some .abort => .error .aborted
  | none =>
    -- a login that needs nothing goes on without an answer
    if actionRequired allowedConfirmations then
      .error (.unsupportedConfirmationAction allowedConfirmations)
    else .ok none

/-- A login is failed for want of support only without a result. -/
theorem onConfirmation_ne_unsupported {allowed : List ConfirmationMethod}
    {res : Option ConfirmationAction} (h : res ≠ none) :
    onConfirmation allowed res ≠ .error (.unsupportedConfirmationAction allowed) := by
  cases res with
  | none => exact absurd rfl h
  | some action => cases action <;> nofun

section Combined

variable {ι : Type*} [DecidableEq ι] (handler : ι → AuthConfirmationHandler)
  (allowed : List ConfirmationMethod) (t : EitherConfirmationHandler ι)

/-- In some order of completion the combined handlers give this result. -/
abbrev HandlesConfirmation (res : Option ConfirmationAction) : Prop :=
  t.Finishes IsDecisive (fun i => handler i allowed) res

/-- No answer of a handler is lost, in whatever order they complete and on whatever side they
stand. -/
structure LosesNoAnswer : Prop where
  none : HandlesConfirmation handler allowed t none → ∀ i ∈ t.leaves, handler i allowed = none
  mem_leaves : ∀ res, HandlesConfirmation handler allowed t res →
    ∃ i ∈ t.leaves, handler i allowed = res
  decisive : ∀ res, HandlesConfirmation handler allowed t res →
    (∃ i ∈ t.leaves, IsDecisive (handler i allowed)) → IsDecisive res
  order : ∀ t', t.Mirrors t' → ∀ res res', HandlesConfirmation handler allowed t res →
    HandlesConfirmation handler allowed t' res' → (res = .none ↔ res' = .none)
  supported : ∀ res, HandlesConfirmation handler allowed t res →
    (∃ i ∈ t.leaves, handler i allowed ≠ .none) →
      onConfirmation allowed res ≠ .error (.unsupportedConfirmationAction allowed)

variable {handler allowed t}

/-- Whether there is a result is settled by the handlers, when they agree on it or one of them
is decisive. -/
theorem eq_none_iff_of_handlesConfirmation {res : Option ConfirmationAction}
    (hsettled : (∃ i ∈ t.leaves, IsDecisive (handler i allowed)) ∨
      (∀ i ∈ t.leaves, handler i allowed = none) ∨ ∀ i ∈ t.leaves, handler i allowed ≠ none)
    (h : HandlesConfirmation handler allowed t res) :
    res = none ↔ ∀ i ∈ t.leaves, handler i allowed = none := by
  obtain ⟨i, hi, hres⟩ := RaceTree.mem_leaves_of_finishes h
  rcases hsettled with hfinal | hall | hsome
  · have hdecisive := RaceTree.final_of_finishes h hfinal
    obtain ⟨j, hj, hanswer⟩ := hfinal
    constructor
    · rintro rfl
      exact absurd hdecisive not_isDecisive_none
    · intro hall
      rw [hall j hj] at hanswer
      exact absurd hanswer not_isDecisive_none
  · exact ⟨fun _ => hall, fun _ => hres ▸ hall i hi⟩
  · exact ⟨fun hnone => absurd (hres.trans hnone) (hsome i hi), fun hall => hres ▸ hall i hi⟩

/-- Combining handlers loses no answer if and only if one of them is decisive, or all of them
support a confirmation, or none of them does. -/
theorem losesNoAnswer_iff (handler : ι → AuthConfirmationHandler)
    (allowed : List ConfirmationMethod) (t : EitherConfirmationHandler ι) :
    LosesNoAnswer handler allowed t ↔
      (∃ i ∈ t.leaves, IsDecisive (handler i allowed)) ∨
        (∀ i ∈ t.leaves, handler i allowed = none) ∨ ∀ i ∈ t.leaves, handler i allowed ≠ none := by
  constructor
  · intro h
    by_contra hmixed
    simp only [not_or, not_exists, not_and, not_forall, not_not] at hmixed
    obtain ⟨hfinal, ⟨i, hi, hsome⟩, j, hj, hnone⟩ := hmixed
    -- the handler without support may be the last to answer
    have hlast := RaceTree.finishes_of_mem_leaves hfinal hj
    rw [hnone] at hlast
    exact hsome (h.none hlast i hi)
  · intro hsettled
    have hiff := fun res => @eq_none_iff_of_handlesConfirmation ι _ handler allowed t res hsettled
    refine ⟨fun h => (hiff _ h).mp rfl, fun res h => RaceTree.mem_leaves_of_finishes h,
      fun res h => RaceTree.final_of_finishes h, fun t' hmirrors res res' h h' => ?_,
      fun res h hsome => onConfirmation_ne_unsupported fun hnone => ?_⟩
    · have hmem : ∀ i, i ∈ t.leaves ↔ i ∈ t'.leaves := fun i => hmirrors.leaves_perm.mem_iff
      simp only [hmem] at hsettled hiff
      rw [hiff res h, eq_none_iff_of_handlesConfirmation hsettled h']
    · obtain ⟨i, hi, hi'⟩ := hsome
      exact hi' ((hiff res h).mp hnone i hi)

end Combined

/-! ### A login that only the app can confirm -/

section Examples

/-- Confirm in the app. -/
def deviceConfirmation : ConfirmationMethod where
  confirmationType := some 4

/-- The app, and a shared secret. -/
def appOrSecret : Bool → AuthConfirmationHandler
  | false => deviceConfirmationHandler
  | true => sharedSecretAuthConfirmationHandler "c2VjcmV0" fun _ => some "2B4K7"

/-- The handler for the app on the left, both answer at once, and the login fails. -/
theorem not_losesNoAnswer_appOrSecret :
    onConfirmation [deviceConfirmation] (appOrSecret false [deviceConfirmation]) = .ok none ∧
      HandlesConfirmation appOrSecret [deviceConfirmation] (.or (.leaf false) (.leaf true)) none ∧
      onConfirmation [deviceConfirmation] none =
        .error (.unsupportedConfirmationAction [deviceConfirmation]) ∧
      ¬ LosesNoAnswer appOrSecret [deviceConfirmation] (.or (.leaf false) (.leaf true)) := by
  have hnone : HandlesConfirmation appOrSecret [deviceConfirmation] (.or (.leaf false) (.leaf true))
      none := ⟨[.complete false, .complete true, .poll], _, rfl, rfl⟩
  refine ⟨by decide, hnone, by decide, fun h => ?_⟩
  exact absurd (h.none hnone false (by decide)) (by decide)

end Examples

end SteamWire
