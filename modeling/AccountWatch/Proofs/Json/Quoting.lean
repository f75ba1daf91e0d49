import AccountWatch.Json.Reader
import AccountWatch.Json.Writer
import Mathlib.Tactic.SplitIfs

/-! Quoted text is read back: whatever a character is written as is read as that character. -/
namespace AccountWatch.Json

theorem controlQuad : ∀ n < 32, hexQuad? '0' '0' (hexDigit (n / 16)) (hexDigit (n % 16)) = some n := by
  decide

theorem escapedReads (c : Char) (done rest : List Char) :
    readString done (escaped c ++ rest) = readString (c :: done) rest := by
  unfold escaped
  split_ifs with quote backslash backspace tab line feed carriage control
  · subst quote; rfl
  · subst backslash; rfl
  · subst backspace; rfl
  · subst tab; rfl
  · subst line; rfl
  · subst feed; rfl
  · subst carriage; rfl
  · have quad := controlQuad c.toNat control
    have low : isLow c.toNat = false := by simp [isLow]; omega
    have high : isHigh c.toNat = false := by simp [isHigh]; omega
    simp only [List.cons_append, List.nil_append]
    rw [readString.eq_def]
    simp [simpleEscape?, quad, low, high]
  · rw [List.singleton_append, readString.eq_def]
    simp [quote, backslash, control]

theorem readStringReads (s done rest : List Char) :
    readString done (s.flatMap escaped ++ '"' :: rest) = .ok (done.reverse ++ s, rest) := by
  induction s generalizing done with
  | nil =>
    rw [List.flatMap_nil, List.nil_append, List.append_nil, readString.eq_def]
    rfl
  | cons c s ih => simp [escapedReads, ih]

theorem readTextReads (s : String) (rest : List Char) :
    readText (s.toList.flatMap escaped ++ '"' :: rest) = .ok (s, rest) := by
  unfold readText
  rw [readStringReads]
  simp [Except.map]

end AccountWatch.Json
