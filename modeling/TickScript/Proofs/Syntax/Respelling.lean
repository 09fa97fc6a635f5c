/-
Writing tokens out and reading them back.

`respell` writes the tokens of a text each in its one spelling, with a space
between any two, and so brings text into a normal form: the tokens are those
of the text, writing them out again changes nothing, and parsing comes to the
same outcome but for the places in it.

# Reading back

Tokens end at gaps, so text is lexed part by part where there are spaces
(`tokens_intercalate`), and it is enough that the spelling of every token
that lexing can produce reads as that token (`tokens_spelling`). What has a
single spelling is spelled as it stood in the text. Numbers have their
exponent letter changed, but are read the same (`Lexer.number_kept`), and the
spellings of operators and truth values are a table.

# Parsing without places

The parser hands places on and never looks at them. `placeless` wipes them
out of lexemes, terms and faults, and the parser does the same thing before
and after (`Parser.placelessAt`).
-/
import TickScript.Proofs.Except
import TickScript.Proofs.Syntax.Lexemes
import TickScript.Term.Parser

namespace TickScript

-- ============================================================ vocabulary

/-- The tokens of text, without their places. -/
def tokens (s : String) : List Token := (lex s).map Lexeme.token

/-- The tokens of text written out with spaces between them. -/
def respell (s : String) : String := " ".intercalate ((tokens s).map Token.spelling)

/-- The fault with no place. -/
def Fault.placeless (f : Fault) : Fault := { f with span := Span.nowhere }

/-- The lexeme with no place. -/
def Lexeme.placeless (l : Lexeme) : Lexeme := { l with span := Span.nowhere }

namespace Term

mutual

/-- The term with no places. -/
def placeless : Term → Term
  | int _ n => int Span.nowhere n
  | float _ x => float Span.nowhere x
  | bool _ b => bool Span.nowhere b
  | var _ name => var Span.nowhere name
  | call _ name args => call Span.nowhere name (placelessAll args)
  | unary _ op arg => unary Span.nowhere op (placeless arg)
  | binary _ op lhs rhs => binary Span.nowhere op (placeless lhs) (placeless rhs)

/-- The terms with no places. -/
def placelessAll : List Term → List Term
  | [] => []
  | t :: ts => placeless t :: placelessAll ts

end

end Term

/-- An outcome without places: those of a result are wiped by `f`. -/
def wiped {α : Type} (f : α → α) : Except Fault α → Except Fault α
  | .ok a => .ok (f a)
  | .error fault => .error fault.placeless

/-- The outcome of parsing without places. -/
def Parser.placeless (x : Except Fault Term) : Except Fault Term := wiped Term.placeless x

-- ========================================================== reading back

namespace Lexer

variable {c g : Char} {cs more : List Char} {token : Token}

/-- Gaps come between what is before them and what is after. -/
theorem lexFrom_append_gap (hg : isGap g) (rest : List Char) (cs : List Char) :
    ∀ pos skip : Nat, skip ≤ cs.length → lexFrom pos skip (cs ++ g :: rest)
      = lexFrom pos skip cs ++ lexFrom (pos + cs.length + 1) 0 rest := by
  induction cs with
  | nil =>
      intro pos skip hskip
      obtain rfl := Nat.le_zero.1 hskip
      simp [lexFrom, hg]
  | cons c cs ih =>
      intro pos skip hskip
      have hplace : pos + (c :: cs).length + 1 = pos + 1 + cs.length + 1 := by
        rw [List.length_cons]
        omega
      rw [List.cons_append, hplace]
      cases skip with
      | succ skip => exact ih (pos + 1) skip (Nat.le_of_succ_le_succ hskip)
      | zero =>
          rw [lexFrom, lexFrom]
          split
          next => exact ih (pos + 1) 0 (Nat.zero_le _)
          next =>
            rw [scan_append_gap hg]
            exact congrArg (_ :: ·) (ih (pos + 1) _ (scan_length_le c cs))

/-- Which tokens there are does not hang on where the text starts. -/
theorem tokens_lexFrom (cs : List Char) : ∀ pos pos' skip : Nat,
    (lexFrom pos skip cs).map Lexeme.token = (lexFrom pos' skip cs).map Lexeme.token := by
  induction cs with
  | nil => intro pos pos' skip; simp [lexFrom]
  | cons c cs ih =>
      intro pos pos' skip
      cases skip with
      | succ skip => exact ih _ _ _
      | zero =>
          rw [lexFrom, lexFrom]
          split
          next => exact ih _ _ _
          next => exact congrArg (_ :: ·) (ih _ _ _)

/-- Characters that a token covers whole are that one token. -/
theorem tokens_of_scan (hc : isGap c = false) (h : scan c more = (token, more.length)) :
    tokens (String.ofList (c :: more)) = [token] := by
  rw [tokens, lex, String.toList_ofList, lexFrom_token hc h]
  rfl

/-- The digits that a number keeps read as the number. -/
theorem tokens_number (hc : isGap c = false) (hdigit : c.isDigit || c == '.') (cs : List Char) :
    tokens (String.ofList (number .whole (c :: cs)).1)
      = [numberToken (number .whole (c :: cs)).1 (number .whole (c :: cs)).2] := by
  obtain ⟨next, hstart⟩ := number_start hdigit cs
  have hkept := number_kept (c :: cs) .whole
  rw [hstart] at hkept ⊢
  refine tokens_of_scan hc ?_
  rw [scan_number hdigit, hkept]
  rfl

/-- A number is spelled as its digits, whole or not. -/
theorem spelling_numberToken (digits : List Char) (part : NumberPart) :
    (numberToken digits part).spelling = String.ofList digits := by
  unfold numberToken
  split <;> rfl

end Lexer

/-- Parts with a space between them are lexed part by part. -/
theorem tokens_append (s s' : String) : tokens (s ++ " " ++ s') = tokens s ++ tokens s' := by
  have hchars : (s ++ " " ++ s').toList = s.toList ++ ' ' :: s'.toList := by simp
  unfold tokens lex
  rw [hchars, Lexer.lexFrom_append_gap rfl _ _ _ _ (Nat.zero_le _), List.map_append]
  exact congrArg (_ ++ ·) (Lexer.tokens_lexFrom _ _ _ _)

/-- The tokens of text are those of its parts. -/
theorem tokens_intercalate : ∀ parts : List String,
    tokens (" ".intercalate parts) = parts.flatMap tokens
  | [] => by
      rw [String.intercalate_nil]
      rfl
  | [s] => by simp
  | s :: s' :: parts => by
      rw [String.intercalate_cons_cons, tokens_append, tokens_intercalate (s' :: parts)]
      rfl

/-- Each operator has one spelling, which reads as it. -/
theorem tokens_operator (op : Operator) : tokens op.spelling = [.operator op] := by
  cases op <;> rfl

theorem Token.ofPair?_operator {c d : Char} {token : Token} (h : ofPair? c d = some token) :
    ∃ op, token = .operator op := by
  unfold ofPair? at h
  split at h
  all_goals cases h
  all_goals exact ⟨_, rfl⟩

/-- One character is a separator or an operator, or it is unknown. -/
theorem Token.ofChar_cases (c : Char) :
    ofChar c = unknown c ∨ tokens (ofChar c).spelling = [ofChar c] := by
  unfold ofChar
  split
  all_goals first | exact .inr rfl | exact .inl rfl

/-- A word is a name, or one of a few words with a spelling of their own. -/
theorem Token.ofWord_cases (word : String) :
    ofWord word = ident word ∨ tokens (ofWord word).spelling = [ofWord word] := by
  unfold ofWord
  split
  all_goals first | exact .inr rfl | exact .inl rfl

/-- The spelling of a token reads as the token. -/
theorem tokens_spelling {c : Char} {more : List Char} {token : Token} (hc : Lexer.isGap c = false)
    (h : Lexer.scan c more = (token, more.length)) : tokens token.spelling = [token] := by
  have hwhole := Lexer.tokens_of_scan hc h
  by_cases hdigit : c.isDigit || c == '.'
  · rw [Lexer.scan_number hdigit] at h
    obtain ⟨rfl, -⟩ := Prod.mk.inj h
    rw [Lexer.spelling_numberToken]
    exact Lexer.tokens_number hc hdigit more
  by_cases hword : Lexer.isWordStart c
  · rw [Lexer.scan_word hword] at h
    obtain ⟨rfl, hlength⟩ := Prod.mk.inj h
    rw [(List.takeWhile_prefix _).eq_of_length hlength] at hwhole ⊢
    rcases Token.ofWord_cases (String.ofList (c :: more)) with hident | hspelled
    · rw [hident] at hwhole ⊢
      exact hwhole
    · exact hspelled
  rw [Lexer.scan_symbol hdigit hword] at h
  cases hpair : more.head? >>= Token.ofPair? c with
  | some token =>
      obtain ⟨d, -, hoperator⟩ := Option.bind_eq_some_iff.1 hpair
      obtain ⟨op, rfl⟩ := Token.ofPair?_operator hoperator
      rw [hpair] at h
      obtain ⟨rfl, -⟩ := Prod.mk.inj h
      exact tokens_operator op
  | none =>
      rw [hpair] at h
      obtain ⟨rfl, hlength⟩ := Prod.mk.inj h
      rcases Token.ofChar_cases c with hunknown | hspelled
      · obtain rfl := List.eq_nil_of_length_eq_zero hlength.symm
        rw [hunknown] at hwhole ⊢
        exact hwhole
      · exact hspelled

/-- Writing tokens out keeps them. -/
theorem tokens_respell (s : String) : tokens (respell s) = tokens s := by
  have hspelled : ∀ l ∈ lex s, tokens l.token.spelling = [l.token] := by
    intro l hl
    obtain ⟨_, _, _, _, -, hc, hscan, -⟩ := (reads_lex s).stands l hl
    exact tokens_spelling hc hscan
  calc tokens (respell s)
      = (lex s).flatMap fun l => tokens l.token.spelling := by
        rw [respell, tokens_intercalate, tokens, List.map_map, List.flatMap_map]
        rfl
    _ = (lex s).flatMap fun l => [l.token] := by
        rw [List.flatMap_def, List.flatMap_def, List.map_congr_left hspelled]
    _ = tokens s := List.map_eq_flatMap.symm

/-- Texts with the same tokens are written out alike. -/
theorem respell_congr {s s' : String} (h : tokens s = tokens s') : respell s = respell s' := by
  rw [respell, respell, h]

-- ======================================================== without places

/-- Steps that do the same without places do so one after the other. -/
theorem wiped_bind {α β : Type} {f : α → α} {g : β → β} {x : Except Fault α}
    {k k' : α → Except Fault β} (hk : ∀ a, k' (f a) = wiped g (k a)) :
    (wiped f x >>= k') = wiped g (x >>= k) := by
  cases x with
  | error fault => rfl
  | ok a => exact hk a

namespace Parser

/-- Where the parser stands, with no places. -/
def Cursor.placeless (cur : Cursor) : Cursor :=
  ⟨Span.nowhere, cur.rest.map Lexeme.placeless⟩

/-- What a part of the parser gives, with no places. -/
abbrev wipedTerm : Except Fault (Term × Cursor) → Except Fault (Term × Cursor) :=
  wiped fun r => (r.1.placeless, r.2.placeless)

/-- What the parser of arguments gives, with no places. -/
abbrev wipedTerms : Except Fault (List Term × Cursor) → Except Fault (List Term × Cursor) :=
  wiped fun r => (Term.placelessAll r.1, r.2.placeless)

/-- At a depth the parser does the same with places and without. -/
structure PlacelessAt (depth : Nat) : Prop where
  operand : ∀ cur, operand depth cur.placeless = wipedTerm (operand depth cur)
  climb : ∀ floor cur, climb depth floor cur.placeless = wipedTerm (climb depth floor cur)
  extend : ∀ floor lhs cur, extend depth floor lhs.placeless cur.placeless
    = wipedTerm (extend depth floor lhs cur)
  callArguments : ∀ cur, callArguments depth cur.placeless = wipedTerms (callArguments depth cur)
  moreArguments : ∀ cur, moreArguments depth cur.placeless = wipedTerms (moreArguments depth cur)

theorem placelessAt_zero : PlacelessAt 0 where
  operand _ := rfl
  climb _ _ := rfl
  extend _ _ _ := rfl
  callArguments _ := rfl
  moreArguments _ := rfl

theorem integerTerm_placeless (span : Span) (digits : String) (cur : Cursor) :
    (integerTerm Span.nowhere digits).map (fun t => (t, cur.placeless))
      = wipedTerm ((integerTerm span digits).map fun t => (t, cur)) := by
  unfold integerTerm
  split <;> rfl

theorem floatTerm_placeless (span : Span) (digits : String) (cur : Cursor) :
    (floatTerm Span.nowhere digits).map (fun t => (t, cur.placeless))
      = wipedTerm ((floatTerm span digits).map fun t => (t, cur)) := by
  unfold floatTerm
  split <;> rfl

section

variable {depth : Nat} (ih : PlacelessAt depth)

include ih

/-- An operand goes by the first token, whatever place that has. -/
theorem operand_placeless (cur : Cursor) :
    operand (depth + 1) cur.placeless = wipedTerm (operand (depth + 1) cur) := by
  obtain ⟨last, rest⟩ := cur
  cases rest with
  | nil => rfl
  | cons l rest =>
      obtain ⟨span, token⟩ := l
      have hclimb := fun floor => ih.climb floor ⟨span, rest⟩
      cases token with
      | leftParen =>
          show (climb depth 0 (Cursor.placeless ⟨span, rest⟩) >>= _) = _
          rw [hclimb]
          refine wiped_bind fun r => ?_
          obtain ⟨t, last, rest⟩ := r
          cases rest with
          | nil => rfl
          | cons l rest =>
              obtain ⟨span, token⟩ := l
              cases token <;> rfl
      | ident name =>
          cases rest with
          | nil => rfl
          | cons l rest =>
              obtain ⟨paren, token⟩ := l
              cases token with
              | leftParen =>
                  show (callArguments depth (Cursor.placeless ⟨paren, rest⟩) >>= _) = _
                  rw [ih.callArguments]
                  exact wiped_bind fun _ => rfl
              | _ => rfl
      | operator op =>
          cases op with
          | minus | not =>
              show (climb depth unaryFloor (Cursor.placeless ⟨span, rest⟩) >>= _) = _
              rw [hclimb]
              exact wiped_bind fun _ => rfl
          | plus => exact hclimb unaryFloor
          | _ => rfl
      | integer digits => exact integerTerm_placeless span digits ⟨span, rest⟩
      | float digits => exact floatTerm_placeless span digits ⟨span, rest⟩
      | bool _ | unknown _ | rightParen | comma => rfl

/-- The parts of a climb are placeless each. -/
theorem climb_placeless (floor : Nat) (cur : Cursor) :
    climb (depth + 1) floor cur.placeless = wipedTerm (climb (depth + 1) floor cur) := by
  rw [climb, climb, ih.operand]
  exact wiped_bind fun r => ih.extend floor r.1 r.2

/-- The loop goes by the operators, and a node takes its place from its
operands. -/
theorem extend_placeless (floor : Nat) (lhs : Term) (cur : Cursor) :
    extend (depth + 1) floor lhs.placeless cur.placeless
      = wipedTerm (extend (depth + 1) floor lhs cur) := by
  obtain ⟨last, rest⟩ := cur
  cases rest with
  | nil => rfl
  | cons l rest =>
      obtain ⟨span, token⟩ := l
      cases token with
      | operator op =>
          simp only [extend, Cursor.placeless, List.map_cons, Lexeme.placeless]
          cases op.binary? with
          | none => rfl
          | some binding =>
              obtain ⟨node, tightness⟩ := binding
              simp only
              split
              next =>
                show (climb depth tightness (Cursor.placeless ⟨span, rest⟩) >>= _) = _
                rw [ih.climb]
                exact wiped_bind fun r => ih.extend floor (.binary span node lhs r.1) r.2
              next => rfl
      | _ => rfl

theorem callArguments_placeless (cur : Cursor) :
    callArguments (depth + 1) cur.placeless = wipedTerms (callArguments (depth + 1) cur) := by
  have hmore := ih.moreArguments cur
  obtain ⟨last, rest⟩ := cur
  cases rest with
  | nil => exact hmore
  | cons l rest =>
      obtain ⟨span, token⟩ := l
      cases token with
      | rightParen => rfl
      | _ => exact hmore

/-- Arguments are read to the bracket in both. -/
theorem moreArguments_placeless (cur : Cursor) :
    moreArguments (depth + 1) cur.placeless = wipedTerms (moreArguments (depth + 1) cur) := by
  rw [moreArguments, moreArguments, ih.climb]
  refine wiped_bind fun r => ?_
  obtain ⟨arg, last, rest⟩ := r
  cases rest with
  | nil => rfl
  | cons l rest =>
      obtain ⟨span, token⟩ := l
      cases token with
      | comma =>
          show (moreArguments depth (Cursor.placeless ⟨span, rest⟩) >>= _) = _
          rw [ih.moreArguments]
          exact wiped_bind fun _ => rfl
      | _ => rfl

end

/-- The parser does the same with places and without. -/
theorem placelessAt : ∀ depth, PlacelessAt depth
  | 0 => placelessAt_zero
  | depth + 1 =>
      { operand := operand_placeless (placelessAt depth)
        climb := climb_placeless (placelessAt depth)
        extend := extend_placeless (placelessAt depth)
        callArguments := callArguments_placeless (placelessAt depth)
        moreArguments := moreArguments_placeless (placelessAt depth) }

/-- Parsing lexemes without places comes to the outcome without places. -/
theorem ofLexemes_placeless (ls : List Lexeme) :
    ofLexemes (ls.map Lexeme.placeless) = placeless (ofLexemes ls) := by
  have hclimb := (placelessAt (2 * ls.length + 2)).climb 0 ⟨Span.nowhere, ls⟩
  rw [ofLexemes, ofLexemes, List.length_map]
  show (climb (2 * ls.length + 2) 0 (Cursor.placeless ⟨Span.nowhere, ls⟩) >>= _) = _
  rw [hclimb]
  refine wiped_bind fun r => ?_
  obtain ⟨t, last, rest⟩ := r
  cases rest <;> rfl

end Parser

/-- The outcome of parsing hangs on the tokens of the text alone, but for its
places. -/
theorem parse_congr {s s' : String} (h : tokens s = tokens s') :
    Parser.placeless (parse s) = Parser.placeless (parse s') := by
  have hplaceless : ∀ s, (lex s).map Lexeme.placeless = (tokens s).map (Lexeme.mk Span.nowhere) :=
    fun s => by rw [tokens, List.map_map]; rfl
  rw [parse, parse, ← Parser.ofLexemes_placeless, ← Parser.ofLexemes_placeless, hplaceless,
    hplaceless, h]

/-- The tokens of text, written out with spaces between them, read as the same
tokens. So writing text out is idempotent, and parsing what is written comes
to the outcome of parsing the text, the same term or the same fault, but for
the places in it. -/
theorem respell_reads_back (s : String) :
    tokens (respell s) = tokens s
      ∧ respell (respell s) = respell s
      ∧ Parser.placeless (parse (respell s)) = Parser.placeless (parse s) :=
  ⟨tokens_respell s, respell_congr (tokens_respell s), parse_congr (tokens_respell s)⟩

example : respell "a<>1e5or(TRUE)" = "a != 1E5 || ( true )" := by decide

end TickScript
