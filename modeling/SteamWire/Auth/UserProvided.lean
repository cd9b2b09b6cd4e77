import SteamWire.Auth.Confirmation
import SteamWire.Data.Outcome
import SteamWire.Data.Str

/-!
# Codes that the user types

The handler asks for the code of the first method that has one, and reads a line. It trims the
line by cutting it to the length that trimming would leave: what is cut off is at the end, also
if the whitespace is in front (`typesTrimmedLine_iff`).
-/

namespace SteamWire

open Str

/-- The prompt for a method. -/
def ConfirmationMethod.prompt (method : ConfirmationMethod) : String :=
  s!"{method.confirmationTypeText}: {method.confirmationDetails}"

/-- `UserProvidedAuthConfirmationHandler::handle_confirmation`, with the text that the user
enters: what it writes to the output, and how it ends. -/
def userProvidedAuthConfirmationHandler (input : String) :
    List ConfirmationMethod → String × Outcome Empty (Option ConfirmationAction)
  | [] => ("", .ok none)
  | method :: methods =>
    match method.tokenType with
    | none => userProvidedAuthConfirmationHandler input methods
    | some tokenType =>
      let buff := readLine input.toList
      (method.prompt,
        match truncate (byteLen (trim buff)) buff with
        | none => .panic
        | some buff =>
          .ok (some (if buff = [] then .abort else .guardToken ⟨String.ofList buff⟩ tokenType)))

/-- The action for a line that the user enters. -/
def lineAction (line : List Char) (tokenType : GuardTokenType) : ConfirmationAction :=
  if line.all isWhitespace then .abort
  else .guardToken ⟨String.ofList (trim line)⟩ tokenType

/-- The handler takes the trimmed line for the code of the first method that has one. -/
def TypesTrimmedLine (input : String) (allowedConfirmations : List ConfirmationMethod) : Prop :=
  (userProvidedAuthConfirmationHandler input allowedConfirmations).2 =
    .ok ((allowedConfirmations.findSome? ConfirmationMethod.tokenType).map
      (lineAction (readLine input.toList)))

instance (input : String) (allowedConfirmations : List ConfirmationMethod) :
    Decidable (TypesTrimmedLine input allowedConfirmations) :=
  inferInstanceAs (Decidable (_ = _))

variable {input : String} {allowedConfirmations : List ConfirmationMethod}

/-- The handler goes by the first method with a code. -/
theorem userProvidedAuthConfirmationHandler_eq :
    (userProvidedAuthConfirmationHandler input allowedConfirmations).2 =
      match allowedConfirmations.findSome? ConfirmationMethod.tokenType with
      | none => .ok none
      | some tokenType =>
        match truncate (byteLen (trim (readLine input.toList))) (readLine input.toList) with
        | none => .panic
        | some buff =>
          .ok (some (if buff = [] then .abort else .guardToken ⟨String.ofList buff⟩ tokenType)) := by
  induction allowedConfirmations with
  | nil => rfl
  | cons method methods ih =>
    rw [userProvidedAuthConfirmationHandler, List.findSome?_cons]
    cases method.tokenType with
    | none => exact ih
    | some tokenType => rfl

/-- The trimmed line is taken unless the line starts with whitespace and is not blank. -/
theorem typesTrimmedLine_iff :
    TypesTrimmedLine input allowedConfirmations ↔
      (∀ method ∈ allowedConfirmations, method.tokenType = none) ∨
        (∀ c ∈ readLine input.toList, isWhitespace c) ∨
          ∀ c ∈ (readLine input.toList).head?, isWhitespace c = false := by
  rw [TypesTrimmedLine, userProvidedAuthConfirmationHandler_eq, ← truncate_byteLen_trim_eq_iff,
    ← List.findSome?_eq_none_iff]
  generalize readLine input.toList = line
  cases allowedConfirmations.findSome? ConfirmationMethod.tokenType with
  | none => simp
  | some tokenType =>
    constructor
    · intro h
      by_cases hblank : ∀ c ∈ line, isWhitespace c
      · exact .inr (truncate_byteLen_trim_eq_iff.mpr (.inl hblank))
      · -- the code that is sent is the trimmed line, so that is what the buffer was cut to
        have haction : lineAction line tokenType = .guardToken ⟨String.ofList (trim line)⟩ tokenType :=
          if_neg fun hall => hblank (List.all_eq_true.mp hall)
        cases hbuff : truncate (byteLen (trim line)) line with
        | none => simp [hbuff] at h
        | some buff =>
          simp only [hbuff, Option.map_some, haction, Outcome.ok.injEq, Option.some.injEq] at h
          split_ifs at h
          obtain ⟨hcode, -⟩ := ConfirmationAction.guardToken.inj h
          rw [String.ofList_injective (SteamGuardToken.mk.inj hcode)]
          exact .inr rfl
    · rintro (h | h)
      · cases h
      · have hblank : trim line = [] ↔ ∀ c ∈ line, isWhitespace c := trim_eq_nil_iff
        simp only [h, hblank, lineAction, Option.map_some, List.all_eq_true]

/-- A code with a space in front of it. -/
def spacedCode : String := " 2B4K7\n"

def emailCode : ConfirmationMethod := { confirmationType := some 2 }

/-- A space in front of the code costs its last character. -/
theorem not_typesTrimmedLine_spacedCode : ¬ TypesTrimmedLine spacedCode [emailCode] := by
  decide

end SteamWire
