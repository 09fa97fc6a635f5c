/-
Names in expressions. Declarations and expressions each have a rule of
their own for what a name is, and the two do not agree: a declaration
takes any word of letters, digits and underscores that is no literal, no
instruction and not `this`, while an expression reads a word that starts
with a digit as a number and a word after it, and `and`, `or` and `not`
in any case as operators.

The main statement says exactly which declared names an expression
reads. These compile to a single parameter, the variable of the name,
and give its current value; all others are refused as invalid
expressions.

# Reading a name

A word that starts like an identifier is one lexeme (`lex_word`). A word
that starts with a digit is exactly two (`lex_digit`): the number cannot
take the whole word, since then the word would be a literal and no name
(`isLiteral_of_number`), and what it leaves starts like an identifier.
-/
import TickScript.Formula
import TickScript.Name
import TickScript.Proofs.Number.Reading
import TickScript.Proofs.Syntax.Grammar
import TickScript.Proofs.Syntax.Lexemes

namespace TickScript

-- ============================================================ vocabulary

/-- The words that expressions know as operators. -/
def operatorWords : List String := ["and", "or", "not"]

/-- Whether expressions take a name for something else: for a number and
a word, or for an operator. -/
def Name.isMisread (word : String) : Bool :=
  word.toList.head?.any Char.isDigit || operatorWords.contains (Text.lower word)

/-- The token of a number literal. -/
inductive Token.IsNumber : Token → Prop where
  | integer (digits : String) : IsNumber (.integer digits)
  | float (digits : String) : IsNumber (.float digits)

/-- What a checked name is. -/
theorem Name.check_eq_ok {s : String} {name : Name} (h : check s = .ok name) :
    name.name ≠ "" ∧ isLiteral name.name = false ∧ name.name.toList.all isNameChar := by
  unfold check at h
  split at h
  next word readonly _ =>
    split at h
    next => cases h
    next hempty =>
      split at h
      next => cases h
      next hliteral =>
        iterate 2
          split at h
          next => cases h
        split at h
        next hchars =>
          cases h
          exact ⟨hempty, by simpa using hliteral, hchars⟩
        next => cases h

-- =============================================================== lexemes

namespace Lexer

variable {c : Char} {cs : List Char} {pos : Nat}

/-- A word that starts like an identifier is one lexeme. -/
theorem lexFrom_word (hstart : isWordStart c) (hword : cs.all isWordChar) :
    lexFrom pos 0 (c :: cs) =
      [⟨⟨pos, pos + 1 + cs.length⟩, Token.ofWord (String.ofList (c :: cs))⟩] := by
  have htake : cs.takeWhile isWordChar = cs :=
    List.takeWhile_eq_self_iff.2 (List.all_eq_true.1 hword)
  have hgap : isGap c = false := isGap_of_isWordChar (isWordStart_iff.1 hstart).1
  exact lexFrom_token hgap (by rw [scan_word hstart, htake]) pos

-- =============================================================== numbers

/-- A number stops before a character that is no digit. -/
theorem isDigit_after_number (cs : List Char) : ∀ (part : NumberPart) {d : Char} {ds : List Char},
    cs.drop (number part cs).1.length = d :: ds → d.isDigit = false := by
  induction cs with
  | nil => intro part d ds h; simp at h
  | cons c cs ih =>
      intro part d ds h
      unfold number at h
      split at h
      next kept next hstep => exact ih next (by simpa using h)
      next hstep =>
        obtain ⟨rfl, rfl⟩ : c = d ∧ cs = ds := by simpa using h
        cases hdigit : c.isDigit with
        | false => rfl
        | true => simp [NumberPart.step, hdigit] at hstep

/-- The digits of an exponent, where no sign stands. -/
theorem isDigit_of_number_exponent (cs : List Char) : ∀ {part : NumberPart},
    part = .exponentSign ∨ part = .exponent → cs.all isWordChar →
      (number part cs).1.length = cs.length → cs.all Char.isDigit := by
  induction cs with
  | nil => intro _ _ _ _; rfl
  | cons c cs ih =>
      intro part hpart hword h
      obtain ⟨hc, hword⟩ : isWordChar c ∧ cs.all isWordChar := by simpa using hword
      have hsign : isSign c = false := by
        have : c ≠ '+' := by rintro rfl; simp [isWordChar] at hc
        have : c ≠ '-' := by rintro rfl; simp [isWordChar] at hc
        simp [isSign, *]
      have hstep : part.step c cs =
          if c.isDigit then some (c, .exponent) else none := by
        rcases hpart with rfl | rfl <;> simp [NumberPart.step, hsign]
      by_cases hdigit : c.isDigit
      · rw [if_pos hdigit] at hstep
        simp only [number, hstep, List.length_cons, Nat.add_right_cancel_iff] at h
        simp [hdigit, ih (.inr rfl) hword h]
      · rw [if_neg hdigit] at hstep
        simp [number, hstep] at h

/-- A word that is all number ends in an exponent, or in nothing. -/
theorem isSome_exponent?_of_number (cs : List Char) : cs.all isWordChar →
    (number .whole cs).1.length = cs.length →
      (Number.exponent? (cs.dropWhile Char.isDigit)).isSome := by
  induction cs with
  | nil => intro _ _; rfl
  | cons c cs ih =>
      intro hword h
      obtain ⟨hc, hword⟩ : isWordChar c ∧ cs.all isWordChar := by simpa using hword
      have hdot : c ≠ '.' := by rintro rfl; simp [isWordChar] at hc
      by_cases hdigit : c.isDigit
      · have hstep : NumberPart.whole.step c cs = some (c, .whole) := by
          simp [NumberPart.step, hdigit]
        simp only [number, hstep, List.length_cons, Nat.add_right_cancel_iff] at h
        rw [List.dropWhile_cons_of_pos hdigit]
        exact ih hword h
      · rw [List.dropWhile_cons_of_neg hdigit]
        by_cases hexp : (c = 'e' ∨ c = 'E') ∧ exponentFollows cs
        · have hstep : NumberPart.whole.step c cs = some ('E', .exponentSign) := by
            simp [NumberPart.step, hdigit, hdot, hexp]
          simp only [number, hstep, List.length_cons, Nat.add_right_cancel_iff] at h
          have hall := isDigit_of_number_exponent cs (.inl rfl) hword h
          obtain ⟨d, ds, rfl⟩ : ∃ d ds, cs = d :: ds := by
            cases cs with
            | nil => simp [exponentFollows] at hexp
            | cons d ds => exact ⟨d, ds, rfl⟩
          have hd : d.isDigit := by simp at hall; exact hall.1
          have hnatural : Number.natural? (d :: ds) = some (Number.digitsValue (d :: ds)) :=
            if_pos ⟨by simp, hall⟩
          rw [Number.exponent?, if_pos hexp.1, Number.splitSign_of_isDigit hd]
          simp [hnatural]
        · have hstep : NumberPart.whole.step c cs = none := by
            simp only [NumberPart.step, hdigit, hdot]
            simp [hexp]
          simp [number, hstep] at h

/-- A word that the lexer reads as one number is a literal. -/
theorem isLiteral_of_number (hdigit : c.isDigit) (hword : cs.all isWordChar)
    (h : (number .whole (c :: cs)).1.length = (c :: cs).length) :
    Name.isLiteral (String.ofList (c :: cs)) := by
  have hstep : NumberPart.whole.step c cs = some (c, .whole) := by
    simp [NumberPart.step, hdigit]
  simp only [number, hstep, List.length_cons, Nat.add_right_cancel_iff] at h
  have hpoint : (cs.dropWhile Char.isDigit).head? ≠ some '.' := by
    intro hhead
    have hmem : '.' ∈ cs := (List.dropWhile_sublist _).subset (List.mem_of_head? hhead)
    have := List.all_eq_true.1 hword _ hmem
    simp [isWordChar] at this
  have hsci := Number.isSome_scientific?_whole hdigit hpoint
    (isSome_exponent?_of_number cs hword h)
  rw [Name.isLiteral, Number.isSome_readFloat? hdigit hsci]
  rfl

/-- A name that starts with no digit is one word. -/
theorem lex_word (hdigit : c.isDigit = false) (hword : (c :: cs).all isWordChar) :
    ∃ span, lex (String.ofList (c :: cs)) = [⟨span, Token.ofWord (String.ofList (c :: cs))⟩] := by
  obtain ⟨hc, hcs⟩ : isWordChar c ∧ cs.all isWordChar := by simpa using hword
  have hstart : isWordStart c := by
    refine isWordStart_iff.2 ⟨hc, ?_⟩
    intro hdot
    obtain rfl : c = '.' := by simpa [hdigit] using hdot
    simp [isWordChar] at hc
  rw [lex, String.toList_ofList]
  exact ⟨_, lexFrom_word hstart hcs⟩

/-- A name that starts with a digit is a number and a word. -/
theorem lex_digit (hdigit : c.isDigit) (hword : cs.all isWordChar)
    (hliteral : Name.isLiteral (String.ofList (c :: cs)) = false) :
    ∃ span token span' word, token.IsNumber
      ∧ lex (String.ofList (c :: cs)) = [⟨span, token⟩, ⟨span', Token.ofWord word⟩] := by
  have hstep : NumberPart.whole.step c cs = some (c, .whole) := by
    simp [NumberPart.step, hdigit]
  have hlength : (number .whole (c :: cs)).1.length = (number .whole cs).1.length + 1 := by
    simp [number, hstep]
  obtain ⟨d, ds, hrest⟩ : ∃ d ds, cs.drop (number .whole cs).1.length = d :: ds := by
    cases hdrop : cs.drop (number .whole cs).1.length with
    | cons d ds => exact ⟨d, ds, rfl⟩
    | nil =>
        have hle := number_length_le cs .whole
        have hge := List.drop_eq_nil_iff.1 hdrop
        rw [isLiteral_of_number hdigit hword (by rw [hlength, List.length_cons]; omega)] at hliteral
        cases hliteral
  have hall : ∀ x ∈ d :: ds, isWordChar x := fun x hx =>
    List.all_eq_true.1 hword x (List.mem_of_mem_drop (hrest ▸ hx))
  have hstart : isWordStart d := by
    have hd := isDigit_after_number cs .whole hrest
    have hchar := hall d List.mem_cons_self
    refine isWordStart_iff.2 ⟨hchar, ?_⟩
    rintro hdot
    obtain rfl : d = '.' := by simpa [hd] using hdot
    simp [isWordChar] at hchar
  have hmore : ds.all isWordChar := List.all_eq_true.2 fun x hx => hall x (.tail _ hx)
  have hgap : isGap c = false := by
    have : c ≠ ' ' := by rintro rfl; simp at hdigit
    have : c ≠ '\t' := by rintro rfl; simp at hdigit
    simp [isGap, *]
  have hscan : (scan c cs).2 = (number .whole cs).1.length := by
    simp [scan, hdigit, hlength]
  have hlex : lex (String.ofList (c :: cs)) =
      ⟨⟨0, 0 + 1 + (scan c cs).2⟩, (scan c cs).1⟩ :: lexFrom (0 + 1) (scan c cs).2 cs := by
    rw [lex, String.toList_ofList, lexFrom, if_neg (by simp [hgap])]
  have htoken : (scan c cs).1.IsNumber := by
    simp only [scan, hdigit, Bool.true_or, if_true]
    split
    · exact .integer _
    · exact .float _
  rw [lexFrom_skip, hscan, hrest, lexFrom_word hstart hmore] at hlex
  exact ⟨_, _, _, _, htoken, hlex⟩

end Lexer

-- =============================================================== parsing

/-- A single identifier is a variable. -/
theorem parse_ident {s name : String} {span : Span} (h : lex s = [⟨span, .ident name⟩]) :
    parse s = .ok (.var span name) := by
  rw [parse, h]
  rfl

/-- No expression is a number and one lexeme after it. -/
theorem Derives.not_isNumber {level : Nat} {ls : List Lexeme} {t : Term} {a b : Lexeme} :
    Derives level ls t → ls = [a, b] → ¬a.token.IsNumber
  | .tighter inner, h => inner.not_isNumber h
  | .binary _ _ left right, h => by
      -- The operands have a lexeme each, so the operator is a third.
      obtain ⟨_, more, rfl, -⟩ := left.head
      obtain ⟨_, more', rfl, -⟩ := right.head
      have hlength := congrArg List.length h
      simp only [List.length_append, List.length_cons, List.length_nil] at hlength
      omega
  | .negate _, h | .plus _, h | .not _, h | .parens .., h => by
      obtain ⟨rfl, -⟩ := List.cons.inj h
      nofun
  | .emptyCall .., h | .call .., h | .var, h | .int _, h | .float _, h | .bool, h => by
      simp at h

/-- No expression is an operator alone. -/
theorem Derives.ne_operator {level : Nat} {ls : List Lexeme} {t : Term} {span : Span}
    {op : Operator} : Derives level ls t → ls ≠ [⟨span, .operator op⟩]
  | .tighter inner => inner.ne_operator
  | .binary _ _ left _ => by
      obtain ⟨_, more, rfl, -⟩ := left.head
      simp
  | .negate inner | .plus inner | .not inner => by
      obtain ⟨_, more, rfl, -⟩ := inner.head
      simp
  | .parens .. | .emptyCall .. | .call .. | .var | .int _ | .float _ | .bool => by
      simp

variable {word : String}

theorem Token.ofWord_of_operatorWords (h : operatorWords.contains (Text.lower word)) :
    ∃ op, Token.ofWord word = .operator op := by
  have hmem : Text.lower word ∈ operatorWords := by simpa using h
  simp only [operatorWords, List.mem_cons, List.not_mem_nil, or_false] at hmem
  unfold Token.ofWord
  rcases hmem with h | h | h <;> rw [h] <;> exact ⟨_, rfl⟩

theorem Token.ofWord_of_not_misread (hliteral : Name.isLiteral word = false)
    (h : operatorWords.contains (Text.lower word) = false) : Token.ofWord word = .ident word := by
  have hwords : Text.lower word ∉ operatorWords := by simpa using h
  simp only [Name.isLiteral, Text.sameWord, Bool.or_eq_false_iff, beq_eq_false_iff_ne] at hliteral
  obtain ⟨⟨-, htrue⟩, hfalse⟩ := hliteral
  replace htrue : Text.lower word ≠ "true" := htrue
  replace hfalse : Text.lower word ≠ "false" := hfalse
  unfold Token.ofWord
  split <;> simp_all [operatorWords]

/-- A misread name is no expression. -/
theorem parse_misread {c : Char} {cs : List Char} (hchars : (c :: cs).all Name.isNameChar)
    (hliteral : Name.isLiteral (String.ofList (c :: cs)) = false)
    (h : Name.isMisread (String.ofList (c :: cs))) (t : Term) :
    parse (String.ofList (c :: cs)) ≠ .ok t := by
  intro hparse
  have hderives := ofLexemes_eq_ok_iff.1 hparse
  by_cases hdigit : c.isDigit
  · obtain ⟨_, hcs⟩ : Name.isNameChar c ∧ cs.all Name.isNameChar := by simpa using hchars
    obtain ⟨_, _, _, _, htoken, hlex⟩ := Lexer.lex_digit hdigit hcs hliteral
    exact hderives.not_isNumber hlex htoken
  · obtain ⟨_, hlex⟩ := Lexer.lex_word (by simpa using hdigit) hchars
    have hwords : operatorWords.contains (Text.lower (String.ofList (c :: cs))) := by
      rw [Name.isMisread, String.toList_ofList] at h
      simpa [hdigit] using h
    obtain ⟨op, hop⟩ := Token.ofWord_of_operatorWords hwords
    exact hderives.ne_operator (hop ▸ hlex)

/-- Any other name is a variable. -/
theorem parse_not_misread {c : Char} {cs : List Char} (hchars : (c :: cs).all Name.isNameChar)
    (hliteral : Name.isLiteral (String.ofList (c :: cs)) = false)
    (h : Name.isMisread (String.ofList (c :: cs)) = false) :
    ∃ span, parse (String.ofList (c :: cs)) = .ok (.var span (String.ofList (c :: cs))) := by
  rw [Name.isMisread, String.toList_ofList, Bool.or_eq_false_iff] at h
  obtain ⟨hdigit, hwords⟩ := h
  obtain ⟨span, hlex⟩ := Lexer.lex_word hdigit hchars
  rw [Token.ofWord_of_not_misread hliteral hwords] at hlex
  exact ⟨span, parse_ident hlex⟩

-- ============================================================ evaluation

namespace Formula

/-- The formula of a bare variable. -/
theorem compile_var {source : String} {span : Span} {vars : Storage} {id : VarId}
    (hparse : parse source = .ok (.var span source)) (hid : vars.id? source = some id) :
    compile source vars = .ok { source, code := [.push 0], params := [(source, id)] } := by
  have hparams : (Term.var span source).parameters = [source] := rfl
  have hresolve : resolve source vars [source] = .ok [(source, id)] := by
    simp [resolve, Storage.id, hid, Except.map]
  have hcode : (Term.var span source).generate [source] = .ok [.push 0] := by
    simp [Term.generate, Generate.term, Generate.finish, Stack.push, Stack.empty, Stack.withLimit,
      Stack.depth, Stack.pop]
  simp only [compile, hparse, hparams, hresolve, hcode, ok_bind]

/-- A bare variable evaluates to its value, if expressions see the value
as it is. -/
theorem evaluate_push {source name : String} {vars : Storage} {id : VarId} {v : Variable}
    {w : Value} (hvar : vars.get? id = some v) (hvalue : v.value = some w)
    (hkind : (Kind.of w).isValue) (alive : Handle → Bool) (draws : Draws) :
    evaluate { source, code := [.push 0], params := [(name, id)] } vars alive draws
      = .ok (w, draws) := by
  have hplain : w.scalar = w ∧ v.isNull alive = false := by
    unfold Variable.isNull
    rw [hvalue]
    cases w with
    | entity h =>
        cases hentity : h.kind <;> simp [Kind.of, Kind.ofEntity, hentity, Kind.isValue] at hkind
    | line n => cases hkind
    | _ => exact ⟨rfl, rfl⟩
  obtain ⟨hscalar, hnull⟩ := hplain
  have hpresent : v.present? alive = some w := by
    rw [Variable.present?, if_neg (by simp [hnull]), hvalue]
  have hbind : bind vars alive [(name, id)] = .ok [w] := by
    simp [bind, Storage.get, hvar, hpresent, hscalar, Except.map]
  rw [evaluate, hbind]
  rfl

/-- Text that is no expression is refused as such. -/
theorem compile_of_parse_error {source : String} (vars : Storage)
    (h : ∀ t, parse source ≠ .ok t) :
    ∃ fault, compile source vars = .error fault ∧ fault.cause = .invalidExpression := by
  cases hparse : parse source with
  | ok t => exact absurd hparse (h t)
  | error fault =>
      rw [compile, hparse]
      exact ⟨_, rfl, rfl⟩

end Formula

/-- A declared name that expressions do not misread compiles to a formula
of one parameter, the variable of that name, and evaluates to whatever
value of a plain kind the variable holds at the time. A name that they
do misread is refused as an invalid expression. -/
theorem compile_declared_name {s : String} {name : Name} {vars : Storage} {id : VarId}
    (hcheck : Name.check s = .ok name) (hid : vars.id? name.name = some id) :
    (Name.isMisread name.name = false → ∃ f, Formula.compile name.name vars = .ok f
        ∧ f.params = [(name.name, id)]
        ∧ ∀ (now : Storage) (v : Variable) (w : Value), now.get? id = some v → v.kind.isValue →
            v.value = some w → Kind.of w = v.kind →
              ∀ alive draws, f.evaluate now alive draws = .ok (w, draws))
      ∧ (Name.isMisread name.name → ∃ fault, Formula.compile name.name vars = .error fault
          ∧ fault.cause = .invalidExpression) := by
  obtain ⟨hne, hliteral, hchars⟩ := Name.check_eq_ok hcheck
  generalize name.name = word at hid hne hliteral hchars
  obtain ⟨cs, rfl⟩ : ∃ cs, word = String.ofList cs := ⟨_, String.ofList_toList.symm⟩
  rw [String.toList_ofList] at hchars
  cases cs with
  | nil => exact absurd rfl hne
  | cons c cs =>
      constructor
      · intro h
        obtain ⟨span, hparse⟩ := parse_not_misread hchars hliteral h
        refine ⟨_, Formula.compile_var hparse hid, rfl, ?_⟩
        intro now v w hvar hkind hvalue hof alive draws
        exact Formula.evaluate_push hvar hvalue (hof ▸ hkind) alive draws
      · intro h
        exact Formula.compile_of_parse_error vars (parse_misread hchars hliteral h)

/-- A storage whose one variable is an integer with the name. -/
def Storage.counting (name : String) : Storage :=
  ⟨[{ Variable.empty name .int false with value := some (.int 7) }], 8⟩

theorem compile_declared_count : Name.check "count" = .ok ⟨"count", false⟩
    ∧ Name.isMisread "count" = false
    ∧ ∃ f, Formula.compile "count" (.counting "count") = .ok f ∧ f.params = [("count", 0)]
        ∧ f.evaluate (.counting "count") (fun _ => true) ⟨0⟩ = .ok (.int 7, ⟨0⟩) := by
  have hcheck : Name.check "count" = .ok ⟨"count", false⟩ := rfl
  have hread : Name.isMisread "count" = false := rfl
  have hid : (Storage.counting "count").id? "count" = some 0 := rfl
  obtain ⟨f, hcompile, hparams, hevaluate⟩ := (compile_declared_name hcheck hid).1 hread
  exact ⟨hcheck, hread, f, hcompile, hparams, hevaluate _ _ _ rfl rfl rfl rfl _ _⟩

/-- The name `1a` can be declared, and no expression reads it. -/
theorem compile_digit_name_refused : Name.check "1a" = .ok ⟨"1a", false⟩
    ∧ (Storage.counting "1a").id? "1a" = some 0
    ∧ ((Storage.counting "1a").get? 0).map (fun v => (v.kind, v.value)) = some (.int, some (.int 7))
    ∧ Formula.compile "1a" (.counting "1a")
        = .error ⟨.invalidExpression, none, ⟨1, 2⟩, "1a UNEXPECTED a"⟩ :=
  ⟨rfl, rfl, rfl, rfl⟩

end TickScript
