import CoinLedger.QueryError

/-!
# Answers in steps

An answer in two steps has a value when both of them do (`bind_eq_ok`), and otherwise it is the
first error (`bind_eq_error`).
-/

set_option autoImplicit false

namespace CoinLedger.Answer

variable {α β : Type}

/-- Two answers in a row have a value when the first has one and the second one goes on from it. -/
theorem bind_eq_ok {answer : Answer α} {next : α → Answer β} {value : β} :
    answer >>= next = .ok value ↔ ∃ first, answer = .ok first ∧ next first = .ok value := by
  cases answer with
  | error error => exact ⟨nofun, fun ⟨_, impossible, _⟩ => nomatch impossible⟩
  | ok first =>
      constructor
      · intro goes
        exact ⟨first, rfl, goes⟩
      · rintro ⟨_, same, goes⟩
        cases same
        exact goes

/-- Two answers in a row are an error when one of them is. -/
theorem bind_eq_error {answer : Answer α} {next : α → Answer β}
    {error : QueryError} (fails : answer >>= next = .error error) :
    answer = .error error ∨ ∃ first, answer = .ok first ∧ next first = .error error := by
  cases answer with
  | error fault =>
      cases fails
      exact .inl rfl
  | ok first => exact .inr ⟨first, rfl, fails⟩

theorem eq_ok_of_toOption {answer : Answer α} {value : α}
    (found : answer.toOption = some value) : answer = .ok value := by
  cases answer <;> cases found
  rfl

theorem map_eq_ok {answer : Answer α} {next : α → β} {value : β} :
    answer.map next = .ok value ↔ ∃ first, answer = .ok first ∧ next first = value := by
  cases answer with
  | error error => exact ⟨nofun, fun ⟨_, impossible, _⟩ => nomatch impossible⟩
  | ok first =>
      constructor
      · intro same
        exact ⟨first, rfl, Except.ok.inj same⟩
      · rintro ⟨_, same, goes⟩
        cases same
        exact congrArg Except.ok goes

/-- The error of an answer without a value. -/
def error? : Answer α → Option QueryError
  | .ok _ => none
  | .error error => some error

/-- Whether the query was stopped. -/
def isStopped : Answer α → Bool
  | .error .stopped => true
  | _ => false

theorem eq_stopped_of_isStopped {answer : Answer α} (stops : answer.isStopped = true) :
    answer = .error .stopped := by
  unfold isStopped at stops
  split at stops
  · rfl
  · cases stops

/-- The value, unless there is an error. -/
def valueUnless (error : Option QueryError) (value : α) : Answer α :=
  match error with
  | none => .ok value
  | some error => .error error

end CoinLedger.Answer
