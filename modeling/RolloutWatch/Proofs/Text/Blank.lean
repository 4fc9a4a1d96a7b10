import RolloutWatch.Text.Blank
import Mathlib.Data.List.TakeWhile

/-!
Blank texts. Trimming takes white space away and nothing else, so what is left of a text is
blank only if the text is, and then nothing is left of it.
-/

namespace RolloutWatch.Blank

theorem all_dropWhile (p : Char → Bool) (text : List Char) :
    (text.dropWhile p).all p = text.all p := by
  induction text with
  | nil => rfl
  | cons c rest ih =>
      cases space : p c with
      | true => rw [List.dropWhile_cons_of_pos space, ih, List.all_cons, space, Bool.true_and]
      | false => rw [List.dropWhile_cons_of_neg (by rw [space]; exact Bool.false_ne_true)]

theorem all_trim (text : List Char) : (trim text).all isSpace = text.all isSpace := by
  unfold trim trimEnd trimStart
  rw [List.all_reverse, all_dropWhile, List.all_reverse, all_dropWhile]

theorem trim_eq_nil_iff {text : List Char} : trim text = [] ↔ text.all isSpace = true := by
  constructor
  · intro nothing
    rw [← all_trim, nothing]
    rfl
  · intro blank
    unfold trim trimEnd
    rw [List.reverse_eq_nil_iff, List.dropWhile_eq_nil_iff, ← List.all_eq_true, List.all_reverse]
    unfold trimStart
    rw [all_dropWhile, blank]

theorem isBlank_ofList (text : List Char) : isBlank (String.ofList text) = text.all isSpace := by
  unfold isBlank
  rw [String.toList_ofList]

end RolloutWatch.Blank
