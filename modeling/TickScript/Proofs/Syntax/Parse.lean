/-
What parsing a text accepts: exactly the texts whose lexemes the grammar
derives, each with one tree. The integer literals of a text are runs of
digits, and such a run reads as a script integer exactly if the number
it writes is one.
-/
import TickScript.Proofs.Syntax.Grammar
import TickScript.Proofs.Syntax.Lexemes

namespace TickScript

-- ============================================================== literals

namespace Lexer

/-- Only a whole part goes on as one, and then with a digit. -/
theorem NumberPart.step_whole {part : NumberPart} {c kept : Char} {rest : List Char}
    (h : part.step c rest = some (kept, .whole)) : part = .whole ∧ kept.isDigit := by
  unfold NumberPart.step at h
  split at h
  next hdigit =>
    simp only [Option.some.injEq, Prod.mk.injEq] at h
    obtain ⟨rfl, hpart⟩ := h
    refine ⟨?_, hdigit⟩
    split at hpart
    next => cases hpart
    next => exact hpart
  next =>
    split at h
    next => simp at h
    next =>
      split at h
      next => simp at h
      next => split at h <;> simp at h

/-- A number that ends before any point or exponent is all digits. -/
theorem isDigit_of_number_whole (cs : List Char) :
    ∀ (part : NumberPart), (number part cs).2 = .whole →
      part = .whole ∧ (number part cs).1.all Char.isDigit := by
  induction cs with
  | nil => intro part h; exact ⟨h, rfl⟩
  | cons c cs ih =>
      intro part h
      unfold number at h ⊢
      split
      next kept next hstep =>
        rw [hstep] at h
        obtain ⟨rfl, hmore⟩ := ih next h
        obtain ⟨hpart, hkept⟩ := NumberPart.step_whole hstep
        exact ⟨hpart, by simp [hkept, hmore]⟩
      next hstep =>
        rw [hstep] at h
        exact ⟨h, rfl⟩

/-- A number keeps the digit or the point that it starts with. -/
theorem number_ne_nil {c : Char} {cs : List Char} (h : c.isDigit || c == '.') :
    (number .whole (c :: cs)).1 ≠ [] := by
  obtain ⟨next, hstart⟩ := number_start h cs
  simp [hstart]

/-- A word is never taken for an integer. -/
theorem ofWord_ne_integer (word digits : String) : Token.ofWord word ≠ .integer digits := by
  unfold Token.ofWord
  split <;> nofun

theorem ofPair?_ne_integer (c d : Char) (digits : String) :
    Token.ofPair? c d ≠ some (.integer digits) := by
  unfold Token.ofPair?
  split <;> nofun

theorem ofChar_ne_integer (c : Char) (digits : String) : Token.ofChar c ≠ .integer digits := by
  unfold Token.ofChar
  split <;> nofun

/-- The text of an integer token is a run of digits. -/
theorem isDigit_of_scan_integer {c : Char} {cs : List Char} {digits : String} {more : Nat}
    (h : scan c cs = (.integer digits, more)) :
    digits.toList ≠ [] ∧ digits.toList.all Char.isDigit := by
  unfold scan at h
  split at h
  next hstart =>
    simp only [Prod.mk.injEq] at h
    obtain ⟨h, -⟩ := h
    split at h
    next hwhole =>
      cases h
      rw [String.toList_ofList]
      exact ⟨number_ne_nil hstart, (isDigit_of_number_whole _ _ hwhole).2⟩
    next => cases h
  next =>
    split at h
    next => exact absurd (congrArg Prod.fst h) (ofWord_ne_integer _ _)
    next =>
      split at h
      next token hpair =>
        obtain ⟨c', -, hpair⟩ := Option.bind_eq_some_iff.1 hpair
        exact absurd (hpair.trans (congrArg (some ·.1) h)) (ofPair?_ne_integer _ _ _)
      next => exact absurd (congrArg Prod.fst h) (ofChar_ne_integer _ _)

/-- An integer token anywhere in text is a run of digits. -/
theorem isDigit_of_lexFrom (cs : List Char) : ∀ (pos skip : Nat) {span : Span} {digits : String},
    ⟨span, .integer digits⟩ ∈ lexFrom pos skip cs →
      digits.toList ≠ [] ∧ digits.toList.all Char.isDigit := by
  induction cs with
  | nil => intro pos skip _ _ h; simp [lexFrom] at h
  | cons c cs ih =>
      intro pos skip span digits h
      cases skip with
      | succ skip => exact ih _ _ h
      | zero =>
          unfold lexFrom at h
          split at h
          next => exact ih _ _ h
          next =>
            rcases List.mem_cons.1 h with heq | h
            · have hscan : scan c cs = (.integer digits, (scan c cs).2) :=
                Prod.ext (congrArg Lexeme.token heq).symm rfl
              exact isDigit_of_scan_integer hscan
            · exact ih _ _ h

end Lexer

namespace Number

/-- A script integer is the one equal to a number in range. -/
theorem fit?_eq_some_iff {i : Int} {n : Int64} : fit? i = some n ↔ n.toInt = i := by
  have hfits : Fits n.toInt := by
    have hle := n.le_toInt
    have hlt := n.toInt_lt
    exact ⟨by unfold least; omega, by unfold greatest; omega⟩
  unfold fit?
  constructor
  · intro h
    split at h
    next hi =>
      cases h
      obtain ⟨hle, hlt⟩ := hi
      unfold least at hle
      unfold greatest at hlt
      exact Int64.toInt_ofInt_of_le (by omega) (by omega)
    next => cases h
  · rintro rfl
    rw [if_pos hfits, Int64.ofInt_toInt]

/-- A run of digits reads as the script integer equal to the number it
writes. -/
theorem readInt?_digits {digits : String} (hne : digits.toList ≠ [])
    (hdigits : digits.toList.all Char.isDigit) {n : Int64} :
    readInt? digits = some n ↔ n.toInt = digitsValue digits.toList := by
  have hsign : splitSign digits.toList = (false, digits.toList) := by
    unfold splitSign
    split
    next h => simp [h] at hdigits
    next h => simp [h] at hdigits
    next => rfl
  have hnatural : natural? digits.toList = some (digitsValue digits.toList) :=
    if_pos ⟨hne, hdigits⟩
  simp only [readInt?, hsign, hnatural, Option.bind_eq_bind, Option.bind_some]
  exact fit?_eq_some_iff

end Number

-- =============================================================== parsing

/-- Parsing a text succeeds exactly if the grammar derives its lexemes,
with the tree of the derivation, which is the only one. Where the text
has an integer literal, the literal reads exactly if the number it
writes is a script integer. -/
theorem parse_eq_ok_iff_derives (s : String) :
    (∀ t, parse s = .ok t ↔ Derives 1 (lex s) t)
      ∧ (∀ t t', Derives 1 (lex s) t → Derives 1 (lex s) t' → t = t')
      ∧ (∀ span digits, ⟨span, .integer digits⟩ ∈ lex s → ∀ n : Int64,
          Number.readInt? digits = some n ↔ n.toInt = Number.digitsValue digits.toList) := by
  refine ⟨fun t => ofLexemes_eq_ok_iff, fun t t' h h' => ?_, fun span digits h n => ?_⟩
  · have heq := (ofLexemes_eq_ok_iff.2 h).symm.trans (ofLexemes_eq_ok_iff.2 h')
    exact Except.ok.inj heq
  · obtain ⟨hne, hdigits⟩ := Lexer.isDigit_of_lexFrom _ _ _ h
    exact Number.readInt?_digits hne hdigits

end TickScript
