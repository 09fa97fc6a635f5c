/-
What lexing does with text: it loses nothing. The spans of lexemes are
non-empty and follow one another within the text, whatever stands outside
them is a space or a tab, and the text of a lexeme, lexed alone, is that
one token again.

# The course of the lexer

`Reads pos cs ls` says how the characters `cs`, from position `pos` on, come
apart into the lexemes `ls`: gaps are passed over, and where a token starts,
`scan` takes the characters it covers. Everything about spans is read off
this relation, by induction over it.

# Tokens stand alone

A scan looks ahead, three characters far at an exponent and without bound
along a word. Still what it looks at beyond its token never changes the
token: cutting the text off after the token (`scan_alone`) or putting a gap
there (`scan_append_gap`) leaves the token as it is. For numbers both come
down to the lookahead of exponents, which wants a character that the number
then goes on to take.
-/
import TickScript.Token.Lexer

namespace TickScript

namespace Span

/-- Whether the span covers the character at a position. -/
def Covers (span : Span) (i : Nat) : Prop := span.start ≤ i ∧ i < span.stop

/-- The text under a span. -/
def slice (span : Span) (s : String) : String :=
  String.ofList ((s.toList.drop span.start).take (span.stop - span.start))

/-- The span moved to the start of text. -/
def atStart (span : Span) : Span := ⟨0, span.stop - span.start⟩

end Span

namespace Lexer

variable {c g : Char} {cs rest : List Char} {part : NumberPart} {token : Token}

-- ================================================================= gaps

theorem isGap_iff : isGap c ↔ c = ' ' ∨ c = '\t' := by
  simp [isGap]

theorem isGap_of_isWordChar (h : isWordChar c) : isGap c = false := by
  have : c ≠ ' ' := by rintro rfl; simp [isWordChar] at h
  have : c ≠ '\t' := by rintro rfl; simp [isWordChar] at h
  simp [isGap, *]

/-- A gap starts no token and is part of none. -/
theorem gap_facts (h : isGap g) :
    g.isDigit = false ∧ g ≠ '.' ∧ g ≠ 'e' ∧ g ≠ 'E' ∧ isSign g = false ∧ isWordChar g = false
      ∧ ∀ c, Token.ofPair? c g = none := by
  rcases isGap_iff.1 h with rfl | rfl
  all_goals
    refine ⟨rfl, by decide, by decide, by decide, rfl, rfl, fun c => ?_⟩
    unfold Token.ofPair?
    split <;> simp_all

theorem step_gap (h : isGap g) (part : NumberPart) (rest : List Char) :
    part.step g rest = none := by
  obtain ⟨hdigit, hpoint, he, hE, hsign, -⟩ := gap_facts h
  simp [NumberPart.step, hdigit, hpoint, he, hE, hsign]

-- ============================================================== numbers

theorem number_length_le (cs : List Char) : ∀ part : NumberPart,
    (number part cs).1.length ≤ cs.length := by
  induction cs with
  | nil => intro part; exact Nat.le_refl 0
  | cons c cs ih =>
      intro part
      unfold number
      split
      next kept next _ => exact Nat.succ_le_succ (ih next)
      next => exact Nat.zero_le _

/-- A number that takes nothing ends where it began. -/
theorem number_of_length_eq_zero (h : (number part cs).1.length = 0) :
    number part cs = ([], part) := by
  cases cs with
  | nil => rfl
  | cons c cs =>
      unfold number at h ⊢
      split
      next hstep => simp [hstep] at h
      next => rfl

/-- A step is told by its character alone, but for the start of an exponent,
which takes a look at what follows and no more than that. -/
theorem step_cases {kept : Char} {next : NumberPart} (h : part.step c cs = some (kept, next)) :
    (kept = c ∧ ∀ ds, part.step c ds = some (kept, next))
      ∨ (kept = 'E' ∧ next = .exponentSign ∧ exponentFollows cs
          ∧ ∀ ds, exponentFollows ds → part.step c ds = some (kept, next)
            ∧ part.step kept ds = some (kept, next)) := by
  unfold NumberPart.step at h
  split at h
  next hdigit =>
    cases h
    exact .inl ⟨rfl, fun ds => if_pos hdigit⟩
  next hdigit =>
    split at h
    next hpoint =>
      cases h
      exact .inl ⟨rfl, fun ds => by rw [NumberPart.step, if_neg hdigit, if_pos hpoint]⟩
    next hpoint =>
      split at h
      next hexp =>
        cases h
        obtain ⟨hletter, hpart, hfollows⟩ := hexp
        refine .inr ⟨rfl, rfl, hfollows, fun ds hds => ⟨?_, ?_⟩⟩
        · rw [NumberPart.step, if_neg hdigit, if_neg hpoint, if_pos ⟨hletter, hpart, hds⟩]
        · rw [NumberPart.step, if_neg (by decide), if_neg (by simp), if_pos ⟨.inr rfl, hpart, hds⟩]
      next hexp =>
        split at h
        next hsign =>
          cases h
          obtain ⟨hsign, rfl⟩ := hsign
          refine .inl ⟨rfl, fun ds => ?_⟩
          rw [NumberPart.step, if_neg hdigit, if_neg hpoint, if_neg (by simp), if_pos ⟨hsign, rfl⟩]
        next => cases h

/-- In an exponent all that is taken is kept. -/
theorem number_prefix (cs : List Char) : ∀ {part : NumberPart},
    part = .exponentSign ∨ part = .exponent → (number part cs).1 <+: cs := by
  induction cs with
  | nil => intro part _; exact List.nil_prefix
  | cons c cs ih =>
      intro part hpart
      unfold number
      split
      next kept next hstep =>
        have hnext : kept = c ∧ next = .exponent := by
          rcases hpart with rfl | rfl
          all_goals
            simp only [NumberPart.step] at hstep
            grind
        obtain ⟨rfl, rfl⟩ := hnext
        exact (List.prefix_cons_inj kept).2 (ih (.inr rfl))
      next => exact List.nil_prefix

theorem exponentFollows_digit (hdigit : c.isDigit) (cs : List Char) : exponentFollows (c :: cs) := by
  cases cs <;> simp [exponentFollows, hdigit]

/-- What makes an exponent is taken into the number. -/
theorem exponentFollows_number (h : exponentFollows cs) :
    exponentFollows (number .exponentSign cs).1 := by
  match cs with
  | [] => cases h
  | [d] =>
      have hdigit : d.isDigit := h
      simp [number, NumberPart.step, hdigit, exponentFollows]
  | c :: d :: ds =>
      by_cases hc : c.isDigit
      · have hstep : NumberPart.exponentSign.step c (d :: ds) = some (c, .exponent) := if_pos hc
        rw [number, hstep]
        exact exponentFollows_digit hc _
      · obtain ⟨hsign, hd⟩ : isSign c ∧ d.isDigit := by simpa [exponentFollows, hc] using h
        have hpoint : c ≠ '.' := by rintro rfl; cases hsign
        have hstep : NumberPart.exponentSign.step c (d :: ds) = some (c, .exponent) := by
          simp [NumberPart.step, hc, hpoint, hsign]
        have hstep' : NumberPart.exponent.step d ds = some (d, .exponent) := if_pos hd
        simp [number, hstep, hstep', exponentFollows, hsign, hd]

/-- A number does not hang on what follows it. -/
theorem number_alone (rest : List Char) (cs : List Char) : ∀ part : NumberPart,
    (number part (cs ++ rest)).1.length = cs.length → number part (cs ++ rest) = number part cs := by
  induction cs with
  | nil => intro part h; exact number_of_length_eq_zero h
  | cons c cs ih =>
      intro part h
      rw [List.cons_append, number] at h ⊢
      split at h
      next kept next hstep =>
        have hnumber := ih next (by simpa using h)
        have halone : part.step c cs = some (kept, next) := by
          rcases step_cases hstep with ⟨-, hany⟩ | ⟨-, rfl, hfollows, hexp⟩
          · exact hany cs
          · -- The number takes all of `cs`, so what makes the exponent is in there.
            obtain ⟨more, hmore⟩ := number_prefix (cs ++ rest) (.inl rfl)
            obtain ⟨htaken, -⟩ := List.append_inj hmore (by simpa using h)
            exact (hexp cs (htaken ▸ exponentFollows_number hfollows)).1
        simp only [number, halone, hnumber]
      next => cases h

/-- Numbers end at gaps. -/
theorem number_append_gap (hg : isGap g) (rest : List Char) (cs : List Char) : ∀ part : NumberPart,
    number part (cs ++ g :: rest) = number part cs := by
  have hfollows : ∀ cs, exponentFollows (cs ++ g :: rest) = exponentFollows cs := by
    obtain ⟨hdigit, -, -, -, hsign, -⟩ := gap_facts hg
    intro cs
    match cs with
    | [] => cases rest <;> simp [exponentFollows, hdigit, hsign]
    | [c] => simp [exponentFollows, hdigit]
    | c :: d :: ds => simp [exponentFollows]
  induction cs with
  | nil => intro part; simp [number, step_gap hg]
  | cons c cs ih =>
      intro part
      have hstep : part.step c (cs ++ g :: rest) = part.step c cs := by
        unfold NumberPart.step
        rw [hfollows]
      rw [List.cons_append, number, number, hstep]
      split
      next kept next _ => rw [ih next]
      next => rfl

/-- No gap is part of a number. -/
theorem isGap_of_number (cs : List Char) : ∀ part : NumberPart,
    (number part cs).1.length = cs.length → ∀ d ∈ cs, isGap d = false := by
  induction cs with
  | nil => intro part _ d hd; cases hd
  | cons c cs ih =>
      intro part h d hd
      rw [number] at h
      split at h
      next kept next hstep =>
        rcases List.mem_cons.1 hd with rfl | hd
        · cases hgap : isGap d with
          | false => rfl
          | true => rw [step_gap hgap] at hstep; cases hstep
        · exact ih next (by simpa using h) d hd
      next => cases h

/-- A number as it is kept reads as it does. -/
theorem number_kept (cs : List Char) : ∀ part : NumberPart,
    number part (number part cs).1 = number part cs := by
  induction cs with
  | nil => intro part; rfl
  | cons c cs ih =>
      intro part
      rw [number]
      split
      next kept next hstep =>
        have hkept : part.step kept (number next cs).1 = some (kept, next) := by
          rcases step_cases hstep with ⟨rfl, hany⟩ | ⟨-, rfl, hfollows, hexp⟩
          · exact hany _
          · exact (hexp _ (exponentFollows_number hfollows)).2
        simp only [number, hkept, ih next]
      next => rfl

-- =============================================================== tokens

theorem isWordStart_iff : isWordStart c ↔ isWordChar c ∧ ¬(c.isDigit || c == '.') := by
  by_cases hdot : c = '.'
  · subst hdot
    decide
  by_cases hbar : c = '_'
  · subst hbar
    decide
  have halpha : c.isAlpha → ¬c.isDigit := by
    have hletter : c.isAlpha
        = (decide (65 ≤ c.val ∧ c.val ≤ 90) || (97 ≤ c.val && c.val ≤ 122)) := rfl
    have hdigit : c.isDigit = (48 ≤ c.val && c.val ≤ 57) := rfl
    rw [hletter, hdigit]
    grind
  simp [isWordStart, isWordChar, Char.isAlphanum, hdot, hbar]
  grind

/-- The token of a number. -/
def numberToken (digits : List Char) (part : NumberPart) : Token :=
  if part = .whole then .integer (String.ofList digits) else .float (String.ofList digits)

/-- A number takes its first character. -/
theorem number_start (h : c.isDigit || c == '.') (cs : List Char) :
    ∃ next, number .whole (c :: cs) = (c :: (number next cs).1, (number next cs).2) := by
  have hstep : ∃ next, NumberPart.whole.step c cs = some (c, next) := by
    cases hdigit : c.isDigit with
    | true => exact ⟨_, if_pos hdigit⟩
    | false =>
        have hpoint : c = '.' := by simpa [hdigit] using h
        exact ⟨.places, by simp [NumberPart.step, hpoint]⟩
  obtain ⟨next, hstep⟩ := hstep
  exact ⟨next, by rw [number, hstep]⟩

theorem scan_number (h : c.isDigit || c == '.') (cs : List Char) :
    scan c cs = (numberToken (number .whole (c :: cs)).1 (number .whole (c :: cs)).2,
      (number .whole (c :: cs)).1.length - 1) :=
  if_pos h

theorem scan_word (h : isWordStart c) (cs : List Char) :
    scan c cs = (Token.ofWord (String.ofList (c :: cs.takeWhile isWordChar)),
      (cs.takeWhile isWordChar).length) := by
  rw [scan, if_neg (isWordStart_iff.1 h).2, if_pos h]

theorem scan_symbol (hdigit : ¬(c.isDigit || c == '.')) (hword : ¬isWordStart c) (cs : List Char) :
    scan c cs = (((cs.head? >>= Token.ofPair? c).map (·, 1)).getD (Token.ofChar c, 0)) := by
  rw [scan, if_neg hdigit, if_neg hword]
  cases cs.head? >>= Token.ofPair? c <;> rfl

/-- A token covers no more than there is. -/
theorem scan_length_le (c : Char) (cs : List Char) : (scan c cs).2 ≤ cs.length := by
  by_cases hdigit : c.isDigit || c == '.'
  · have hle := number_length_le (c :: cs) .whole
    rw [scan_number hdigit]
    simp only [List.length_cons] at hle ⊢
    omega
  by_cases hword : isWordStart c
  · rw [scan_word hword]
    exact (List.takeWhile_sublist _).length_le
  rw [scan_symbol hdigit hword]
  cases cs with
  | nil => exact Nat.le_refl 0
  | cons d ds =>
      show ((Option.map (·, 1) (Token.ofPair? c d)).getD (Token.ofChar c, 0)).2 ≤ ds.length + 1
      cases Token.ofPair? c d with
      | none => exact Nat.zero_le _
      | some token => exact Nat.succ_le_succ (Nat.zero_le _)

/-- An identifier is the text that it covers. -/
theorem scan_ident {name : String} (h : scan c cs = (.ident name, cs.length)) :
    name = String.ofList (c :: cs) := by
  by_cases hdigit : c.isDigit || c == '.'
  · rw [scan_number hdigit] at h
    have htoken := congrArg Prod.fst h
    unfold numberToken at htoken
    split at htoken <;> cases htoken
  by_cases hword : isWordStart c
  · rw [scan_word hword] at h
    obtain ⟨htoken, hlength⟩ := Prod.mk.inj h
    rw [(List.takeWhile_prefix _).eq_of_length hlength] at htoken
    unfold Token.ofWord at htoken
    split at htoken
    all_goals cases htoken
    rfl
  rw [scan_symbol hdigit hword] at h
  cases hpair : cs.head? >>= Token.ofPair? c with
  | some token =>
      obtain ⟨d, -, hoperator⟩ := Option.bind_eq_some_iff.1 hpair
      rw [hpair] at h
      obtain ⟨rfl, -⟩ := Prod.mk.inj h
      unfold Token.ofPair? at hoperator
      split at hoperator <;> cases hoperator
  | none =>
      rw [hpair] at h
      have htoken : Token.ofChar c = .ident name := congrArg Prod.fst h
      unfold Token.ofChar at htoken
      split at htoken <;> cases htoken

/-- What is taken for as long as a condition holds, if that is all. -/
theorem takeWhile_of_length {p : Char → Bool}
    (h : ((cs ++ rest).takeWhile p).length = cs.length) :
    (cs ++ rest).takeWhile p = cs ∧ ∀ d ∈ cs, p d := by
  obtain ⟨more, hmore⟩ := List.takeWhile_prefix (l := cs ++ rest) p
  obtain ⟨htaken, -⟩ := List.append_inj hmore h
  have hall : ((cs ++ rest).takeWhile p).all p := List.all_takeWhile
  rw [htaken] at hall
  exact ⟨htaken, List.all_eq_true.1 hall⟩

/-- A token does not hang on what follows it. -/
theorem scan_alone (h : scan c (cs ++ rest) = (token, cs.length)) :
    scan c cs = (token, cs.length) := by
  by_cases hdigit : c.isDigit || c == '.'
  · obtain ⟨next, hstart⟩ := number_start hdigit (cs ++ rest)
    rw [scan_number hdigit] at h ⊢
    have hlength : (number .whole (c :: cs ++ rest)).1.length = (c :: cs).length := by
      have hmore := congrArg Prod.snd h
      rw [hstart] at hmore
      rw [List.cons_append, hstart]
      simpa using hmore
    rw [← List.cons_append, number_alone rest (c :: cs) .whole hlength] at h
    exact h
  by_cases hword : isWordStart c
  · rw [scan_word hword] at h ⊢
    obtain ⟨htaken, hall⟩ := takeWhile_of_length (congrArg Prod.snd h)
    have halone : (cs ++ []).takeWhile isWordChar = cs ++ [].takeWhile isWordChar :=
      List.takeWhile_append_of_pos hall
    rw [List.takeWhile_nil, List.append_nil] at halone
    rw [halone]
    rwa [htaken] at h
  rw [scan_symbol hdigit hword] at h ⊢
  cases cs with
  | cons d ds => exact h
  | nil =>
      cases hpair : rest.head? >>= Token.ofPair? c with
      | none => simpa [hpair] using h
      | some token => simp [hpair] at h

/-- Tokens end at gaps. -/
theorem scan_append_gap (hg : isGap g) (c : Char) (cs rest : List Char) :
    scan c (cs ++ g :: rest) = scan c cs := by
  obtain ⟨-, -, -, -, -, hchar, hpair⟩ := gap_facts hg
  by_cases hdigit : c.isDigit || c == '.'
  · rw [scan_number hdigit, scan_number hdigit, ← List.cons_append, number_append_gap hg]
  by_cases hword : isWordStart c
  · rw [scan_word hword, scan_word hword]
    have htake : (cs ++ g :: rest).takeWhile isWordChar = cs.takeWhile isWordChar := by
      rw [List.takeWhile_append, List.takeWhile_cons_of_neg (by simp [hchar])]
      split
      next hlength => rw [List.append_nil, (List.takeWhile_prefix _).eq_of_length hlength]
      next => rfl
    rw [htake]
  rw [scan_symbol hdigit hword, scan_symbol hdigit hword]
  cases cs with
  | nil => simp [hpair]
  | cons d ds => rfl

/-- No gap is part of a token. -/
theorem isGap_of_scan (hc : isGap c = false) (h : scan c cs = (token, cs.length)) :
    ∀ d ∈ c :: cs, isGap d = false := by
  by_cases hdigit : c.isDigit || c == '.'
  · obtain ⟨next, hstart⟩ := number_start hdigit cs
    rw [scan_number hdigit, hstart] at h
    refine isGap_of_number (c :: cs) .whole ?_
    have hlength := congrArg Prod.snd h
    rw [hstart]
    simpa using hlength
  refine List.forall_mem_cons.2 ⟨hc, fun d hd => ?_⟩
  by_cases hword : isWordStart c
  · rw [scan_word hword] at h
    have htaken : cs.takeWhile isWordChar = cs :=
      (List.takeWhile_prefix _).eq_of_length (congrArg Prod.snd h)
    rw [← htaken] at hd
    exact isGap_of_isWordChar (List.all_eq_true.1 List.all_takeWhile d hd)
  rw [scan_symbol hdigit hword] at h
  cases cs with
  | nil => cases hd
  | cons e es =>
      cases hgap : isGap d with
      | false => rfl
      | true =>
          -- The second character of a pair is the only other one.
          obtain ⟨-, -, -, -, -, -, hpair⟩ := gap_facts hgap
          have hlength := congrArg Prod.snd h
          cases hfound : Token.ofPair? c e with
          | none => simp [hfound] at hlength
          | some token =>
              obtain rfl : es = [] := by simpa [hfound] using hlength
              obtain rfl : d = e := by simpa using hd
              rw [hpair c] at hfound
              cases hfound

-- =============================================================== lexing

/-- How characters from a position on come apart into lexemes. -/
inductive Reads : (pos : Nat) → List Char → List Lexeme → Prop where
  | done {pos : Nat} : Reads pos [] []
  | gap {pos : Nat} {c : Char} {cs : List Char} {ls : List Lexeme} (blank : isGap c)
      (more : Reads (pos + 1) cs ls) : Reads pos (c :: cs) ls
  | token {pos : Nat} {c : Char} {cs rest : List Char} {token : Token} {ls : List Lexeme}
      (starts : isGap c = false) (scanned : scan c (cs ++ rest) = (token, cs.length))
      (more : Reads (pos + 1 + cs.length) rest ls) :
      Reads pos (c :: cs ++ rest) (⟨⟨pos, pos + 1 + cs.length⟩, token⟩ :: ls)

/-- Lexing is such a reading of what the tokens already read leave. -/
theorem reads_lexFrom (cs : List Char) : ∀ pos skip : Nat, skip ≤ cs.length →
    Reads (pos + skip) (cs.drop skip) (lexFrom pos skip cs) := by
  induction cs with
  | nil => intro pos skip _; simpa [lexFrom] using Reads.done
  | cons c cs ih =>
      intro pos skip hskip
      cases skip with
      | succ skip =>
          rw [lexFrom, List.drop_succ_cons, ← Nat.add_assoc, Nat.add_right_comm]
          exact ih (pos + 1) skip (Nat.le_of_succ_le_succ hskip)
      | zero =>
          rw [lexFrom]
          split
          next hgap => exact .gap hgap (ih (pos + 1) 0 (Nat.zero_le _))
          next hgap =>
            have hle := scan_length_le c cs
            have hscan : scan c (cs.take (scan c cs).2 ++ cs.drop (scan c cs).2)
                = ((scan c cs).1, (cs.take (scan c cs).2).length) := by
              rw [List.take_append_drop, List.length_take_of_le hle]
            have hmore : Reads (pos + 1 + (cs.take (scan c cs).2).length) (cs.drop (scan c cs).2)
                (lexFrom (pos + 1) (scan c cs).2 cs) := by
              rw [List.length_take_of_le hle]
              exact ih (pos + 1) (scan c cs).2 hle
            have htoken := Reads.token (Bool.eq_false_iff.2 hgap) hscan hmore
            rw [List.cons_append, List.take_append_drop, List.length_take_of_le hle] at htoken
            exact htoken

/-- Characters of a token already read are passed over. -/
theorem lexFrom_skip (cs : List Char) : ∀ pos skip : Nat,
    lexFrom pos skip cs = lexFrom (pos + skip) 0 (cs.drop skip) := by
  induction cs with
  | nil => intro pos skip; simp [lexFrom]
  | cons c cs ih =>
      intro pos skip
      cases skip with
      | zero => rfl
      | succ skip =>
          rw [lexFrom, ih, List.drop_succ_cons]
          congr 1
          omega

/-- Characters that a token covers whole are that one lexeme. -/
theorem lexFrom_token (hc : isGap c = false) (h : scan c cs = (token, cs.length)) (pos : Nat) :
    lexFrom pos 0 (c :: cs) = [⟨⟨pos, pos + 1 + cs.length⟩, token⟩] := by
  rw [lexFrom, if_neg (by simp [hc]), h]
  show _ :: lexFrom (pos + 1) cs.length cs = _
  rw [lexFrom_skip, List.drop_length]
  rfl

namespace Reads

variable {pos : Nat} {ls : List Lexeme}

/-- Lexemes have their places within the characters read. -/
theorem bounds (h : Reads pos cs ls) : ∀ l ∈ ls,
    pos ≤ l.span.start ∧ l.span.start < l.span.stop ∧ l.span.stop ≤ pos + cs.length := by
  induction h with
  | done => simp
  | gap _ _ ih =>
      intro l hl
      have := ih l hl
      rw [List.length_cons]
      omega
  | token _ _ _ ih =>
      intro l hl
      simp only [List.cons_append, List.length_cons, List.length_append]
      rcases List.mem_cons.1 hl with rfl | hl
      · simp only
        omega
      · have := ih l hl
        omega

/-- There are no more lexemes than characters. -/
theorem length_le (h : Reads pos cs ls) : ls.length ≤ cs.length := by
  induction h with
  | done => exact Nat.le_refl 0
  | gap _ _ ih => exact Nat.le_succ_of_le ih
  | token _ _ _ ih =>
      simp only [List.cons_append, List.length_cons, List.length_append]
      omega

/-- Lexemes follow one another. -/
theorem ordered (h : Reads pos cs ls) : ls.Pairwise fun a b => a.span.stop ≤ b.span.start := by
  induction h with
  | done => exact .nil
  | gap _ _ ih => exact ih
  | token _ _ more ih => exact .cons (fun l hl => (more.bounds l hl).1) ih

/-- What starts before a lexeme stops before it. -/
theorem stop_le (h : Reads pos cs ls) : ∀ l ∈ ls, ∀ l' ∈ ls, l'.span.start < l.span.start →
    l'.span.stop ≤ l.span.start := by
  induction h with
  | done => simp
  | gap _ _ ih => exact ih
  | token _ _ more ih =>
      intro l hl l' hl' hlt
      rcases List.mem_cons.1 hl with rfl | hl
      · rcases List.mem_cons.1 hl' with rfl | hl'
        · omega
        · have := (more.bounds l' hl').1
          simp only at hlt
          omega
      · rcases List.mem_cons.1 hl' with rfl | hl'
        · exact (more.bounds l hl).1
        · exact ih l hl l' hl' hlt

/-- A lexeme stands in the characters read: what is before it, its text, and
what comes after, which the text does not hang on. -/
theorem stands (h : Reads pos cs ls) : ∀ l ∈ ls, ∃ before c more after,
    cs = before ++ (c :: more) ++ after ∧ isGap c = false ∧ scan c more = (l.token, more.length)
      ∧ l.span = ⟨pos + before.length, pos + before.length + (c :: more).length⟩ := by
  induction h with
  | done => simp
  | @gap pos d cs ls _ _ ih =>
      intro l hl
      obtain ⟨before, c, more, after, rfl, hc, hscan, hspan⟩ := ih l hl
      refine ⟨d :: before, c, more, after, rfl, hc, hscan, hspan.trans ?_⟩
      simp only [List.length_cons, Span.mk.injEq]
      omega
  | @token pos d ds rest token ls starts scanned _ ih =>
      intro l hl
      rcases List.mem_cons.1 hl with rfl | hl
      · refine ⟨[], d, ds, rest, rfl, starts, scan_alone scanned, ?_⟩
        simp only [List.length_cons, List.length_nil, Span.mk.injEq]
        omega
      · obtain ⟨before, c, more, after, rfl, hc, hscan, hspan⟩ := ih l hl
        refine ⟨d :: ds ++ before, c, more, after, by simp, hc, hscan, hspan.trans ?_⟩
        simp only [List.length_cons, List.length_append, Span.mk.injEq]
        omega

/-- The characters that lexemes cover are those that are no gaps. -/
theorem covers_iff (h : Reads pos cs ls) : ∀ i (hi : i < cs.length),
    (∃ l ∈ ls, l.span.Covers (pos + i)) ↔ isGap cs[i] = false := by
  induction h with
  | done => intro i hi; cases hi
  | @gap pos c cs ls blank more ih =>
      intro i hi
      cases i with
      | zero =>
          -- Lexemes come after the gap.
          have hafter : ¬∃ l ∈ ls, l.span.Covers (pos + 0) := by
            rintro ⟨l, hl, hcovers⟩
            have hstart := (more.bounds l hl).1
            have := hcovers.1
            omega
          exact iff_of_false hafter (by simp [blank])
      | succ i =>
          rw [← Nat.add_assoc, Nat.add_right_comm]
          exact ih i (by simpa using hi)
  | @token pos c cs rest token ls starts scanned more ih =>
      intro i hi
      rcases Nat.lt_or_ge i (c :: cs).length with hin | hout
      · have hgap : isGap ((c :: cs ++ rest)[i]) = false := by
          rw [List.getElem_append_left hin]
          exact isGap_of_scan starts (scan_alone scanned) _ (List.getElem_mem hin)
        refine iff_of_true ⟨_, List.mem_cons_self, ?_⟩ hgap
        rw [List.length_cons] at hin
        exact ⟨Nat.le_add_right .., by simp only; omega⟩
      · have hrest := ih (i - (c :: cs).length) (by rw [List.length_append] at hi; omega)
        rw [List.getElem_append_right hout, ← hrest]
        have hplace : pos + 1 + cs.length + (i - (c :: cs).length) = pos + i := by
          rw [List.length_cons] at hout ⊢
          omega
        rw [hplace]
        constructor
        · rintro ⟨l, hl, hcovers⟩
          rcases List.mem_cons.1 hl with rfl | hl
          · have hlt := hcovers.2
            rw [List.length_cons] at hout
            simp only at hlt
            omega
          · exact ⟨l, hl, hcovers⟩
        · rintro ⟨l, hl, hcovers⟩
          exact ⟨l, List.mem_cons_of_mem _ hl, hcovers⟩

end Reads

end Lexer

theorem reads_lex (s : String) : Lexer.Reads 0 s.toList (lex s) :=
  Lexer.reads_lexFrom s.toList 0 0 (Nat.zero_le _)

/-- A lexeme's text, lexed alone, is that lexeme. -/
theorem lex_slice {s : String} {l : Lexeme} (hl : l ∈ lex s) :
    lex (l.span.slice s) = [⟨l.span.atStart, l.token⟩] := by
  obtain ⟨before, c, more, after, hs, hc, hscan, hspan⟩ := (reads_lex s).stands l hl
  have hslice : l.span.slice s = String.ofList (c :: more) := by
    rw [Span.slice, hspan, hs]
    simp [List.append_assoc]
  rw [hslice, lex, String.toList_ofList, Lexer.lexFrom_token hc hscan, hspan]
  simp [Span.atStart, Nat.add_comm]

/-- Lexing loses nothing. It comes to an end with no more lexemes than there
are characters; every lexeme covers some characters of the text, and starts no
earlier than the one before it stops; the characters outside all of them are
exactly the spaces and tabs; and the text of a lexeme, lexed alone, is that one
token. -/
theorem lex_loses_nothing (s : String) :
    (lex s).length ≤ s.length
      ∧ (∀ l ∈ lex s, l.span.start < l.span.stop ∧ l.span.stop ≤ s.length)
      ∧ (lex s).Pairwise (fun a b => a.span.stop ≤ b.span.start)
      ∧ (∀ i (hi : i < s.toList.length), (∀ l ∈ lex s, ¬l.span.Covers i) ↔
          s.toList[i] = ' ' ∨ s.toList[i] = '\t')
      ∧ ∀ l ∈ lex s, lex (l.span.slice s) = [⟨l.span.atStart, l.token⟩] := by
  have hreads := reads_lex s
  refine ⟨String.length_toList ▸ hreads.length_le, fun l hl => ?_, hreads.ordered,
    fun i hi => ?_, fun l hl => lex_slice hl⟩
  · obtain ⟨-, hlt, hle⟩ := hreads.bounds l hl
    exact ⟨hlt, by rwa [Nat.zero_add, String.length_toList] at hle⟩
  · have hcovers := hreads.covers_iff i hi
    rw [Nat.zero_add] at hcovers
    rw [← Lexer.isGap_iff, ← Bool.not_eq_false, ← hcovers]
    simp

example : lex "2e+x" = [⟨⟨0, 1⟩, .integer "2"⟩, ⟨⟨1, 2⟩, .ident "e"⟩,
    ⟨⟨2, 3⟩, .operator .plus⟩, ⟨⟨3, 4⟩, .ident "x"⟩] := by decide

end TickScript
