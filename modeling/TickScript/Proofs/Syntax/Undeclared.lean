/-
Undeclared variables in expressions.

An expression with a variable that is not declared is refused with the first
such variable's name. Where the fault puts it is found by looking for the name
in the text, not by the variable's lexeme, and so it is not always right: the
name can stand earlier in the text as part of something else. `abs(s)` has
an `s` in the name of its function.

The main statement says exactly when the place is right, which is when no
lexeme before the variable has the name starting in it. Words that contain the
name do, and so does a function of that name.

# Variables in text and tree

A variable is an identifier that no opening parenthesis follows
(`occurrences`). Those of the lexemes are those of the tree, in the same order
and with the same places (`Derives.occurrences_eq`), so the first name that is
lacking is the same in both, and the first place of the name, too.
-/
import TickScript.Formula
import TickScript.Proofs.Code.Acceptance
import TickScript.Proofs.Syntax.Grammar
import TickScript.Proofs.Syntax.Lexemes

namespace TickScript

-- ============================================================ vocabulary

/-- Whether the arguments of a call come next. -/
def opensArguments : List Lexeme → Bool
  | ⟨_, .leftParen⟩ :: _ => true
  | _ => false

/-- The variables among lexemes with their places: the identifiers but those
that arguments follow. -/
def occurrences : List Lexeme → List (String × Span)
  | [] => []
  | ⟨span, token⟩ :: rest =>
    match token with
    | .ident name =>
      if opensArguments rest then occurrences rest else (name, span) :: occurrences rest
    | _ => occurrences rest

namespace Term

mutual

/-- The variables of a term with their places, from left to right. -/
def occurrences : Term → List (String × Span)
  | int .. | float .. | bool .. => []
  | var span name => [(name, span)]
  | call _ _ args => occurrencesAll args
  | unary _ _ arg => occurrences arg
  | binary _ _ lhs rhs => occurrences lhs ++ occurrences rhs

/-- The variables of terms with their places. -/
def occurrencesAll : List Term → List (String × Span)
  | [] => []
  | t :: ts => occurrences t ++ occurrencesAll ts

end

end Term

/-- Whether text stands in other text from a position on. -/
def Text.StandsAt (s word : String) (i : Nat) : Prop := word.toList <+: s.toList.drop i

-- ============================================================== lexemes

variable {ls rs : List Lexeme} {name : String} {span : Span}

theorem mem_of_mem_occurrences : ∀ {ls : List Lexeme}, (name, span) ∈ occurrences ls →
    ⟨span, .ident name⟩ ∈ ls
  | [], h => by cases h
  | ⟨span', token⟩ :: rest, h => by
      unfold occurrences at h
      split at h
      next =>
        split at h
        next => exact List.mem_cons_of_mem _ (mem_of_mem_occurrences h)
        next =>
          rcases List.mem_cons.1 h with heq | h
          · cases heq
            exact List.mem_cons_self
          · exact List.mem_cons_of_mem _ (mem_of_mem_occurrences h)
      next => exact List.mem_cons_of_mem _ (mem_of_mem_occurrences h)

theorem occurrences_append (hrs : opensArguments rs = false) : ∀ ls : List Lexeme,
    occurrences (ls ++ rs) = occurrences ls ++ occurrences rs
  | [] => rfl
  | ⟨span, token⟩ :: ls => by
      have ih := occurrences_append hrs ls
      have hopens : opensArguments (ls ++ rs) = opensArguments ls := by
        cases ls with
        | nil => exact hrs
        | cons l ls =>
            obtain ⟨_, token⟩ := l
            cases token <;> rfl
      cases token with
      | ident name =>
          simp only [List.cons_append, occurrences, hopens, ih]
          split <;> rfl
      | _ => exact ih

mutual

/-- The variables of lexemes are those of their tree. -/
theorem Derives.occurrences_eq {level : Nat} : {ls : List Lexeme} → {t : Term} →
    Derives level ls t → t.occurrences = occurrences ls
  | _, _, .tighter inner => inner.occurrences_eq
  | _, _, .binary _ _ left right => by
      rw [Term.occurrences, left.occurrences_eq, right.occurrences_eq, occurrences_append rfl]
      rfl
  | _, _, .negate inner | _, _, .plus inner | _, _, .not inner => inner.occurrences_eq
  | _, _, .parens _ _ inner => by
      rw [inner.occurrences_eq]
      exact ((occurrences_append rfl _).trans (List.append_nil _)).symm
  | _, _, .call _ _ inner => by
      rw [Term.occurrences, inner.occurrences_eq]
      exact ((occurrences_append rfl _).trans (List.append_nil _)).symm
  | _, _, .var | _, _, .emptyCall .. | _, _, .int _ | _, _, .float _ | _, _, .bool => rfl

theorem DerivesList.occurrences_eq : {ls : List Lexeme} → {ts : List Term} →
    DerivesList ls ts → Term.occurrencesAll ts = occurrences ls
  | _, _, .one inner => by
      rw [Term.occurrencesAll, inner.occurrences_eq]
      exact List.append_nil _
  | _, _, .more _ first rest => by
      rw [Term.occurrencesAll, first.occurrences_eq, rest.occurrences_eq, occurrences_append rfl]
      rfl

end

-- ================================================================= names

namespace Term

mutual

/-- The names collected are those of the variables. -/
theorem collect_eq : ∀ (t : Term) (names : List String),
    t.collect names = (t.occurrences.map Prod.fst).foldl addName names
  | .int .., _ | .float .., _ | .bool .., _ | .var .., _ => rfl
  | .call _ _ args, names => collectAll_eq args names
  | .unary _ _ arg, names => collect_eq arg names
  | .binary _ _ lhs rhs, names => by
      rw [collect, collect_eq lhs, collect_eq rhs, occurrences, List.map_append, List.foldl_append]

theorem collectAll_eq : ∀ (ts : List Term) (names : List String),
    collectAll names ts = ((occurrencesAll ts).map Prod.fst).foldl addName names
  | [], _ => rfl
  | t :: ts, names => by
      rw [collectAll, collect_eq t, collectAll_eq ts, occurrencesAll, List.map_append,
        List.foldl_append]

end

/-- The first name of some sort is the same with repetitions and without. -/
theorem find?_foldl_addName (p : String → Bool) : ∀ (names sofar : List String),
    (names.foldl addName sofar).find? p = (sofar ++ names).find? p
  | [], sofar => by rw [List.append_nil]; rfl
  | name :: names, sofar => by
      rw [List.foldl_cons, find?_foldl_addName p names]
      unfold addName
      split
      next hmem =>
        rw [List.find?_append, List.find?_append, List.find?_cons]
        split
        next hname =>
          obtain ⟨first, hfirst⟩ := Option.isSome_iff_exists.1 (List.find?_isSome.2 ⟨name, hmem, hname⟩)
          rw [hfirst]
          rfl
        next => rfl
      next => rw [List.append_assoc]; rfl

/-- The first parameter of some sort is the name of the first variable of that
sort. -/
theorem find?_parameters (t : Term) (p : String → Bool) :
    t.parameters.find? p = (t.occurrences.find? fun o => p o.1).map Prod.fst := by
  rw [parameters, collect_eq, find?_foldl_addName, List.nil_append, List.find?_map]
  rfl

end Term

-- ================================================================= places

namespace Text

variable {s word : String} {i : Nat}

/-- A word is found where it stands and nowhere before. -/
theorem findChars_eq_some {needle : List Char} : ∀ {hay : List Char} {i : Nat},
    findChars needle hay = some i → needle <+: hay.drop i ∧ ∀ j < i, ¬needle <+: hay.drop j
  | [], i, h => by
      unfold findChars at h
      split at h
      next hempty =>
        cases h
        rw [List.isEmpty_iff.1 hempty]
        exact ⟨List.nil_prefix, fun j hj => absurd hj (Nat.not_lt_zero j)⟩
      next => cases h
  | c :: cs, i, h => by
      unfold findChars at h
      split at h
      next hhere =>
        cases h
        exact ⟨List.isPrefixOf_iff_prefix.1 hhere, fun j hj => absurd hj (Nat.not_lt_zero j)⟩
      next hhere =>
        obtain ⟨k, hk, rfl⟩ := Option.map_eq_some_iff.1 h
        obtain ⟨hstands, hbefore⟩ := findChars_eq_some hk
        refine ⟨hstands, fun j hj => ?_⟩
        cases j with
        | zero => exact fun hprefix => hhere (List.isPrefixOf_iff_prefix.2 hprefix)
        | succ j => exact hbefore j (Nat.lt_of_succ_lt_succ hj)

/-- A word that stands somewhere is found, there or before. -/
theorem exists_findChars {needle : List Char} : ∀ {hay : List Char} {i : Nat},
    needle <+: hay.drop i → ∃ k ≤ i, findChars needle hay = some k
  | [], i, h => by
      rw [List.drop_nil] at h
      refine ⟨0, Nat.zero_le i, ?_⟩
      rw [List.prefix_nil.1 h]
      rfl
  | c :: cs, i, h => by
      by_cases hhere : needle.isPrefixOf (c :: cs)
      · exact ⟨0, Nat.zero_le i, by rw [findChars, if_pos hhere]⟩
      cases i with
      | zero => exact absurd (List.isPrefixOf_iff_prefix.2 h) hhere
      | succ i =>
          obtain ⟨k, hk, hfound⟩ := @exists_findChars needle cs i h
          exact ⟨k + 1, Nat.succ_le_succ hk, by rw [findChars, if_neg hhere, hfound]; rfl⟩

end Text

namespace Formula

variable {source : String} {vars : Storage} {fault : Fault}

/-- Resolving fails at the first name that is lacking. -/
theorem resolve_eq_error : ∀ {names : List String}, resolve source vars names = .error fault →
    ∃ name, names.find? (fun name => !vars.contains name) = some name
      ∧ fault = (Storage.undefined name).inSpan (spanOf source name)
  | [], h => by cases h
  | name :: names, h => by
      unfold resolve Storage.id at h
      cases hid : vars.id? name with
      | none =>
          have hlacks : (!vars.contains name) = true := by simp [Storage.contains, hid]
          simp only [hid] at h
          cases h
          exact ⟨name, List.find?_cons_of_pos hlacks, rfl⟩
      | some id =>
          have hhas : ¬(!vars.contains name) = true := by simp [Storage.contains, hid]
          simp only [hid] at h
          obtain ⟨other, hother, hfault⟩ := resolve_eq_error (map_eq_error.1 h)
          refine ⟨other, ?_, hfault⟩
          rw [List.find?_cons_of_neg (p := fun name => !vars.contains name) hhas]
          exact hother

/-- A fault of an undeclared variable comes from resolving. -/
theorem compile_eq_undefined {t : Term} (hparse : parse source = .ok t)
    (h : compile source vars = .error fault) (hcause : fault.cause = .undefinedVariable) :
    resolve source vars t.parameters = .error fault := by
  rw [compile, hparse] at h
  rcases bind_eq_error.1 h with h | ⟨params, -, h⟩
  · exact h
  rcases bind_eq_error.1 h with h | ⟨code, -, h⟩
  · cases t.generate_refused h with
    | unknown _ _ _ cause | miscounted _ _ _ cause | tooDeep _ cause =>
        cases hcause.symm.trans cause
  · cases h

end Formula

/-- The text of an identifier is its name. -/
theorem standsAt_ident {s : String} (h : ⟨span, .ident name⟩ ∈ lex s) :
    span = ⟨span.start, span.start + name.length⟩ ∧ Text.StandsAt s name span.start
      ∧ ∃ c cs, name.toList = c :: cs ∧ Lexer.isGap c = false := by
  obtain ⟨before, c, more, after, hs, hc, hscan, hspan⟩ := (reads_lex s).stands _ h
  obtain rfl := Lexer.scan_ident hscan
  obtain rfl : span = _ := hspan
  refine ⟨?_, ?_, c, more, String.toList_ofList, hc⟩
  · rw [String.length_ofList]
  · rw [Text.StandsAt, String.toList_ofList, hs, List.append_assoc, Nat.zero_add, List.drop_left]
    exact List.prefix_append ..

/-- If text has a word at a place before a lexeme, then it has it at a place in
an earlier lexeme. -/
theorem covered_of_standsAt {s : String} {l : Lexeme} {i : Nat} (hl : l ∈ lex s)
    (hstands : Text.StandsAt s name i) (hi : i < l.span.start) {c : Char} {cs : List Char}
    (hname : name.toList = c :: cs) (hc : Lexer.isGap c = false) :
    ∃ l' ∈ lex s, l'.span.stop ≤ l.span.start ∧ l'.span.Covers i := by
  obtain ⟨rest, hrest⟩ := hstands
  have hhead : s.toList[i]? = some c := by
    rw [← List.head?_drop, ← hrest, hname]
    rfl
  obtain ⟨hlt, hchar⟩ := List.getElem?_eq_some_iff.1 hhead
  obtain ⟨l', hl', hcovers⟩ := ((reads_lex s).covers_iff i hlt).2 (hchar ▸ hc)
  rw [Nat.zero_add] at hcovers
  exact ⟨l', hl', (reads_lex s).stop_le l hl l' hl' (Nat.lt_of_le_of_lt hcovers.1 hi), hcovers⟩

/-- The first entry with a name of some sort is the first of its name. -/
theorem lookup_of_find? {os : List (String × Span)} {p : String → Bool}
    (h : os.find? (fun o => p o.1) = some (name, span)) : os.lookup name = some span := by
  obtain ⟨hname, before, after, hos, hbefore⟩ := List.find?_eq_some_iff_append.1 h
  refine List.lookup_eq_some_iff.2 ⟨before, after, hos, fun o ho => ?_⟩
  refine bne_iff_ne.2 fun heq => ?_
  have hother := hbefore o ho
  rw [← heq, show p name = true from hname] at hother
  cases hother

/-- What is reported of an undeclared variable.

If an expression is refused for a variable that is not declared, then the name
reported is the first of its parameters that the storage lacks, which is the
name of the first variable in the text that is not declared. The place reported
is the first one where the name stands in the text. This is the place that the
first variable of that name has if and only if the name stands nowhere in an
earlier lexeme. -/
theorem compile_undeclared {source : String} {t : Term} {vars : Storage} {fault : Fault}
    (hparse : parse source = .ok t) (hfault : Formula.compile source vars = .error fault)
    (hcause : fault.cause = .undefinedVariable) :
    ∃ name start span, t.parameters.find? (fun name => !vars.contains name) = some name
      ∧ fault = ⟨.undefinedVariable, none, ⟨start, start + name.length⟩, name⟩
      ∧ Text.StandsAt source name start ∧ (∀ i < start, ¬Text.StandsAt source name i)
      ∧ (occurrences (lex source)).find? (fun o => !vars.contains o.1) = some (name, span)
      ∧ (occurrences (lex source)).lookup name = some span
      ∧ (fault.span = span ↔ ∀ l ∈ lex source, l.span.stop ≤ span.start →
          ∀ i, l.span.Covers i → ¬Text.StandsAt source name i) := by
  have hresolve := Formula.compile_eq_undefined hparse hfault hcause
  obtain ⟨name, hname, rfl⟩ := Formula.resolve_eq_error hresolve
  have hvariables : t.occurrences = occurrences (lex source) :=
    (ofLexemes_eq_ok_iff.1 hparse).occurrences_eq
  obtain ⟨span, hfirst⟩ : ∃ span,
      (occurrences (lex source)).find? (fun o => !vars.contains o.1) = some (name, span) := by
    have hlacking := hname
    rw [Term.find?_parameters, hvariables] at hlacking
    obtain ⟨o, hfirst, rfl⟩ := Option.map_eq_some_iff.1 hlacking
    exact ⟨o.2, hfirst⟩
  have hident : ⟨span, .ident name⟩ ∈ lex source :=
    mem_of_mem_occurrences (List.mem_of_find?_eq_some hfirst)
  obtain ⟨hshape, hstands, c, cs, hchars, hc⟩ := standsAt_ident hident
  -- The name stands at the variable, so the search ends there or before.
  obtain ⟨start, hle, hfound⟩ := Text.exists_findChars hstands
  obtain ⟨hhere, hbefore⟩ := Text.findChars_eq_some hfound
  have hplace : (Storage.undefined name).inSpan (Formula.spanOf source name)
      = ⟨.undefinedVariable, none, ⟨start, start + name.length⟩, name⟩ := by
    rw [Formula.spanOf, hfound]
    rfl
  have hspan : (occurrences (lex source)).lookup name = some span :=
    lookup_of_find? (p := fun name => !vars.contains name) hfirst
  refine ⟨name, start, span, hname, hplace, hhere, hbefore, hfirst, hspan, ?_⟩
  rw [hplace]
  constructor
  · rintro rfl l - hstop i hcovers
    exact hbefore i (Nat.lt_of_lt_of_le hcovers.2 hstop)
  · intro hnowhere
    obtain rfl : start = span.start := by
      rcases Nat.lt_or_eq_of_le hle with hlt | heq
      · obtain ⟨l, hl, hstop, hcovers⟩ := covered_of_standsAt hident hhere hlt hchars hc
        exact absurd hhere (hnowhere l hl hstop start hcovers)
      · exact heq
    exact hshape.symm

theorem compile_undeclared_sum :
    parse "n + k" = .ok (.binary ⟨2, 3⟩ .add (.var ⟨0, 1⟩ "n") (.var ⟨4, 5⟩ "k"))
      ∧ ∃ fault, Formula.compile "n + k" ⟨[.zeroed "n" .int false], 8⟩ = .error fault
        ∧ fault.cause = .undefinedVariable ∧ fault.span = ⟨4, 5⟩
        ∧ ∃ name span, (occurrences (lex "n + k")).lookup name = some span
          ∧ fault.detail = name
          ∧ (fault.span = span ↔ ∀ l ∈ lex "n + k", l.span.stop ≤ span.start →
              ∀ i, l.span.Covers i → ¬Text.StandsAt "n + k" name i) := by
  have hparse : parse "n + k"
      = .ok (.binary ⟨2, 3⟩ .add (.var ⟨0, 1⟩ "n") (.var ⟨4, 5⟩ "k")) := rfl
  have hfault : Formula.compile "n + k" ⟨[.zeroed "n" .int false], 8⟩
      = .error ⟨.undefinedVariable, none, ⟨4, 5⟩, "k"⟩ := rfl
  obtain ⟨name, start, span, -, heq, -, -, -, hspan, hright⟩ := compile_undeclared hparse hfault rfl
  exact ⟨hparse, _, hfault, rfl, rfl, name, span, hspan, congrArg Fault.detail heq, hright⟩

/-- The search finds the name in the name of a function. -/
theorem compile_misplaced : Formula.compile "abs(s)" (.empty 8)
      = .error ⟨.undefinedVariable, none, ⟨2, 3⟩, "s"⟩
    ∧ (occurrences (lex "abs(s)")).lookup "s" = some ⟨4, 5⟩ := ⟨rfl, rfl⟩

end TickScript
