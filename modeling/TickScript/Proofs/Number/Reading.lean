/-
Which texts read as floats. A text that starts with a digit has no sign
and is no word, so whether it reads is for its digits, its point and its
exponent to say.
-/
import Mathlib.Data.List.TakeWhile
import TickScript.Number.Reading

namespace TickScript.Number

variable {c : Char} {cs : List Char}

theorem splitSign_of_isDigit (h : c.isDigit) : splitSign (c :: cs) = (false, c :: cs) := by
  unfold splitSign
  split
  next heq =>
    cases heq
    simp at h
  next heq =>
    cases heq
    simp at h
  next => rfl

/-- Text that writes digits, a point and an exponent reads as a float. -/
theorem isSome_readFloat? (hdigit : c.isDigit) (h : (scientific? (c :: cs)).isSome) :
    (readFloat? (String.ofList (c :: cs))).isSome := by
  obtain ⟨sci, hsci⟩ := Option.isSome_iff_exists.1 h
  simp only [readFloat?, String.toList_ofList, splitSign_of_isDigit hdigit, hsci]
  split
  next => rfl
  next => split <;> rfl

/-- A digit followed by no point reads as digits and an exponent. -/
theorem isSome_scientific?_whole (hdigit : c.isDigit)
    (hpoint : (cs.dropWhile Char.isDigit).head? ≠ some '.')
    (hexp : (exponent? (cs.dropWhile Char.isDigit)).isSome) :
    (scientific? (c :: cs)).isSome := by
  obtain ⟨e, he⟩ := Option.isSome_iff_exists.1 hexp
  unfold scientific?
  simp only [List.takeWhile_cons_of_pos hdigit, List.dropWhile_cons_of_pos hdigit]
  split
  next more heq => simp [heq] at hpoint
  next => simp [he]

/-- A digit followed by digits, or by digits with a point among them or
after them, reads as these digits. -/
theorem isSome_scientific?_places (hdigit : c.isDigit) {more : List Char}
    (hpoint : cs.dropWhile Char.isDigit = '.' :: more) (hmore : more.all Char.isDigit) :
    (scientific? (c :: cs)).isSome := by
  have hrest : more.dropWhile Char.isDigit = [] :=
    List.dropWhile_eq_nil_iff.2 (List.all_eq_true.1 hmore)
  unfold scientific?
  simp only [List.takeWhile_cons_of_pos hdigit, List.dropWhile_cons_of_pos hdigit, hpoint, hrest]
  simp [exponent?]

/-- Digits alone are the number they write. -/
theorem scientific?_digits (hdigit : c.isDigit) (hall : cs.all Char.isDigit) :
    scientific? (c :: cs) = some ⟨c :: cs, 0⟩ := by
  have hdigits : ∀ d ∈ c :: cs, d.isDigit := by simpa [hdigit] using hall
  have hwhole : (c :: cs).takeWhile Char.isDigit = c :: cs := List.takeWhile_eq_self_iff.2 hdigits
  have hrest : (c :: cs).dropWhile Char.isDigit = [] := List.dropWhile_eq_nil_iff.2 hdigits
  simp [scientific?, hwhole, hrest, exponent?]

end TickScript.Number
