import CoinLedger.Text.Blank

/-!
# Trimming a padded text

Blanks in front of a text and behind it do not matter to trimming, and a text without blanks is what
trimming leaves of it with any blanks around it (`trim_padded`).
-/

set_option autoImplicit false

namespace CoinLedger.Text

theorem trimLeft_append {before : List Char}
    (blank : ∀ character ∈ before, isBlank character = true) (text : List Char) :
    trimLeft (before ++ text) = trimLeft text :=
  List.dropWhile_append_of_pos blank

theorem trimRight_append {after : List Char}
    (blank : ∀ character ∈ after, isBlank character = true) (text : List Char) :
    trimRight (text ++ after) = trimRight text := by
  rw [trimRight, trimRight, List.reverse_append,
    List.dropWhile_append_of_pos (by simpa using blank)]

theorem trimLeft_of_printed {text : List Char}
    (printed : ∀ character ∈ text, isBlank character = false) : trimLeft text = text := by
  cases text with
  | nil => rfl
  | cons first rest =>
      have kept : ¬ isBlank first = true := by simp [printed first List.mem_cons_self]
      rw [trimLeft, List.dropWhile_cons_of_neg kept]

theorem trimRight_of_printed {text : List Char}
    (printed : ∀ character ∈ text, isBlank character = false) : trimRight text = text := by
  have reversed : trimLeft text.reverse = text.reverse :=
    trimLeft_of_printed (by simpa using printed)
  rw [trimRight, ← trimLeft, reversed, List.reverse_reverse]

/-- **Trimming leaves a text without blanks as it is, whatever blanks surround it.** -/
theorem trim_padded {before text after : List Char}
    (blankBefore : ∀ character ∈ before, isBlank character = true)
    (blankAfter : ∀ character ∈ after, isBlank character = true)
    (printed : ∀ character ∈ text, isBlank character = false) :
    trim (before ++ text ++ after) = text := by
  rw [trim, List.append_assoc, trimLeft_append blankBefore]
  cases text with
  | nil =>
      have nothing : trimLeft after = [] := by
        rw [← List.append_nil after, trimLeft_append blankAfter, trimLeft, List.dropWhile_nil]
      rw [List.nil_append, nothing]
      rfl
  | cons first rest =>
      -- The text stops the trimming at its first character, so the blanks behind it stay until
      -- the other end is trimmed.
      have kept : ¬ isBlank first = true := by simp [printed first List.mem_cons_self]
      have stopped : trimLeft (first :: rest ++ after) = first :: rest ++ after := by
        rw [trimLeft, List.cons_append, List.dropWhile_cons_of_neg kept]
      rw [stopped, trimRight_append blankAfter, trimRight_of_printed printed]

end CoinLedger.Text
