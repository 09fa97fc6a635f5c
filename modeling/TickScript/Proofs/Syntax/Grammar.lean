/-
The grammar of expressions, and that parsing decides it.

# The grammar

Binary operators stand on six levels, each with the levels above it as
its operands; all of them group to the left:

    E1 ::= E1 or E2 | E2
    E2 ::= E2 and E3 | E3
    E3 ::= E3 (== | !=) E4 | E4
    E4 ::= E4 (< | <= | > | >=) E5 | E5
    E5 ::= E5 (+ | -) E6 | E6
    E6 ::= E6 (* | / | %) E7 | E7
    E7 ::= - E7 | + E7 | not E7 | E8
    E8 ::= ( E1 ) | name | name ( ) | name ( E1 , ... , E1 ) | literal

`Derives level lexemes term` says that the lexemes are an expression of
the level and that `term` is its tree. Unary plus leaves no node, and a
number literal is one only if its text reads as a number in range.

# The proof

Soundness follows the parser, by induction on its depth: `climb floor`
reads an expression of the level above `floor`, and stops in front of an
operator that is no tighter than `floor`. The loop in `extend` keeps a
left operand on a level that no operator to come can rise above, which
is what lets every operator found take it as its left operand.

Completeness follows the derivation. Reading the lexemes of an
expression brings the loop to its tree (`Derives.reaches`), whatever
comes after them, so long as that is no operator of a tighter level.
Both the tree and the depth left are tracked; the depth that parsing
starts with is enough.
-/
import TickScript.Proofs.Except
import TickScript.Term.Parser

namespace TickScript

-- =============================================================== grammar

/-- The operators that join expressions on each level. -/
inductive Joins : (level : Nat) → Operator → BinaryOp → Prop where
  | or : Joins 1 .or .or
  | and : Joins 2 .and .and
  | equal : Joins 3 .equal .equal
  | notEqual : Joins 3 .notEqual .notEqual
  | less : Joins 4 .less .less
  | lessEqual : Joins 4 .lessEqual .lessEqual
  | greater : Joins 4 .greater .greater
  | greaterEqual : Joins 4 .greaterEqual .greaterEqual
  | add : Joins 5 .plus .add
  | subtract : Joins 5 .minus .subtract
  | multiply : Joins 6 .times .multiply
  | divide : Joins 6 .divide .divide
  | modulus : Joins 6 .modulus .modulus

mutual

/-- The lexemes are an expression of the level, and the term is its
tree. -/
inductive Derives : (level : Nat) → List Lexeme → Term → Prop where
  | tighter {level ls t} (inner : Derives (level + 1) ls t) : Derives level ls t
  | binary {level ls rs op node lhs rhs} (span : Span) (joins : Joins level op node)
      (left : Derives level ls lhs) (right : Derives (level + 1) rs rhs) :
      Derives level (ls ++ ⟨span, .operator op⟩ :: rs) (.binary span node lhs rhs)
  | negate {ls span t} (inner : Derives 7 ls t) :
      Derives 7 (⟨span, .operator .minus⟩ :: ls) (.unary span .negate t)
  | plus {ls span t} (inner : Derives 7 ls t) :
      Derives 7 (⟨span, .operator .plus⟩ :: ls) t
  | not {ls span t} (inner : Derives 7 ls t) :
      Derives 7 (⟨span, .operator .not⟩ :: ls) (.unary span .not t)
  | parens {ls t} (opening closing : Span) (inner : Derives 1 ls t) :
      Derives 8 (⟨opening, .leftParen⟩ :: (ls ++ [⟨closing, .rightParen⟩])) t
  | var {span name} : Derives 8 [⟨span, .ident name⟩] (.var span name)
  | emptyCall {span name} (opening closing : Span) :
      Derives 8 [⟨span, .ident name⟩, ⟨opening, .leftParen⟩, ⟨closing, .rightParen⟩]
        (.call span name [])
  | call {ls span name args} (opening closing : Span) (inner : DerivesList ls args) :
      Derives 8
        (⟨span, .ident name⟩ :: ⟨opening, .leftParen⟩ :: (ls ++ [⟨closing, .rightParen⟩]))
        (.call span name args)
  | int {span digits n} (reads : Number.readInt? digits = some n) :
      Derives 8 [⟨span, .integer digits⟩] (.int span n)
  | float {span digits x} (reads : Number.readFloat? digits = some x) :
      Derives 8 [⟨span, .float digits⟩] (.float span x)
  | bool {span b} : Derives 8 [⟨span, .bool b⟩] (.bool span b)

/-- The lexemes are expressions with commas between them, and the terms
are their trees. -/
inductive DerivesList : List Lexeme → List Term → Prop where
  | one {ls t} (inner : Derives 1 ls t) : DerivesList ls [t]
  | more {ls rs t ts} (span : Span) (first : Derives 1 ls t) (rest : DerivesList rs ts) :
      DerivesList (ls ++ ⟨span, .comma⟩ :: rs) (t :: ts)

end

/-- The operators of the grammar are those the parser knows. -/
theorem joins_iff {level : Nat} {op : Operator} {node : BinaryOp} :
    Joins level op node ↔ op.binary? = some (node, level) := by
  constructor
  · rintro ⟨⟩ <;> rfl
  · intro h
    cases op <;> cases h <;> constructor

/-- The six levels are all there are for binary operators. -/
theorem Joins.level_le {level : Nat} {op : Operator} {node : BinaryOp}
    (h : Joins level op node) : level ≤ 6 := by
  cases h <;> decide

/-- What stands on a tighter level stands on a looser one. -/
theorem Derives.loosen {level : Nat} {ls : List Lexeme} {t : Term} (h : Derives level ls t) :
    ∀ {looser : Nat}, looser ≤ level → Derives looser ls t := by
  induction level with
  | zero =>
      intro looser hle
      obtain rfl := Nat.le_zero.1 hle
      exact h
  | succ level ih =>
      intro looser hle
      rcases Nat.lt_or_ge level looser with hlt | hge
      · obtain rfl : looser = level + 1 := by omega
        exact h
      · exact ih (.tighter h) hge

/-- An expression starts with something other than a closing
parenthesis. -/
theorem Derives.head {level : Nat} : {ls : List Lexeme} → {t : Term} → Derives level ls t →
    ∃ first more, ls = first :: more ∧ first.token ≠ .rightParen
  | _, _, .tighter inner => inner.head
  | _, _, .binary _ _ left _ => by
      obtain ⟨first, more, rfl, hfirst⟩ := left.head
      exact ⟨first, _, rfl, hfirst⟩
  | _, _, .negate _ | _, _, .plus _ | _, _, .not _ => ⟨_, _, rfl, nofun⟩
  | _, _, .parens .. | _, _, .var | _, _, .emptyCall .. | _, _, .call .. => ⟨_, _, rfl, nofun⟩
  | _, _, .int _ | _, _, .float _ | _, _, .bool => ⟨_, _, rfl, nofun⟩

/-- Arguments start as the first of them does. -/
theorem DerivesList.head : {ls : List Lexeme} → {args : List Term} → DerivesList ls args →
    ∃ first more, ls = first :: more ∧ first.token ≠ .rightParen
  | _, _, .one inner => inner.head
  | _, _, .more _ first _ => by
      obtain ⟨lexeme, more, rfl, hlexeme⟩ := first.head
      exact ⟨lexeme, _, rfl, hlexeme⟩

/-- The lexemes do not go on with an operator tighter than the level. -/
structure Stops (level : Nat) (ls : List Lexeme) : Prop where
  le : ∀ {span op rest node tightness}, ls = ⟨span, .operator op⟩ :: rest →
    Joins tightness op node → tightness ≤ level

/-- What stops a level stops any tighter one. -/
theorem Stops.mono {level level' : Nat} {ls : List Lexeme} (h : Stops level ls)
    (hle : level ≤ level') : Stops level' ls :=
  ⟨fun hls hjoins => Nat.le_trans (h.le hls hjoins) hle⟩

/-- No operator is tighter than a unary one. -/
theorem stops_unary {level : Nat} (hlevel : 6 ≤ level) (ls : List Lexeme) : Stops level ls :=
  ⟨fun _ hjoins => Nat.le_trans hjoins.level_le hlevel⟩

namespace Parser

-- ============================================================= soundness

/-- Whatever the parser reads at a depth the grammar derives. -/
structure SoundAt (depth : Nat) : Prop where
  operand : ∀ {cur cur' : Cursor} {t : Term}, operand depth cur = .ok (t, cur') →
    ∃ ls, cur.rest = ls ++ cur'.rest ∧ Derives 7 ls t
  climb : ∀ {floor : Nat} {cur cur' : Cursor} {t : Term}, climb depth floor cur = .ok (t, cur') →
    ∃ ls, cur.rest = ls ++ cur'.rest ∧ Derives (min (floor + 1) 7) ls t
      ∧ Stops floor cur'.rest
  extend : ∀ {floor level : Nat} {cur cur' : Cursor} {lhs t : Term} {ls : List Lexeme},
    extend depth floor lhs cur = .ok (t, cur') → Derives level ls lhs →
    min (floor + 1) 7 ≤ level → Stops level cur.rest →
    ∃ more, cur.rest = more ++ cur'.rest ∧ Derives (min (floor + 1) 7) (ls ++ more) t
      ∧ Stops floor cur'.rest
  callArguments : ∀ {cur cur' : Cursor} {args : List Term},
    callArguments depth cur = .ok (args, cur') →
    ∃ ls closing, cur.rest = ls ++ ⟨closing, .rightParen⟩ :: cur'.rest
      ∧ (ls = [] ∧ args = [] ∨ DerivesList ls args)
  moreArguments : ∀ {cur cur' : Cursor} {args : List Term},
    moreArguments depth cur = .ok (args, cur') →
    ∃ ls closing, cur.rest = ls ++ ⟨closing, .rightParen⟩ :: cur'.rest
      ∧ DerivesList ls args

theorem soundAt_zero : SoundAt 0 where
  operand h := by cases h
  climb h := by cases h
  extend h := by cases h
  callArguments h := by cases h
  moreArguments h := by cases h

section

variable {depth : Nat} (ih : SoundAt depth) {cur cur' : Cursor} {t : Term} {args : List Term}

include ih

/-- An operand is read by its first token: a literal, a name, a call, a unary
operator, or what is in parentheses. -/
theorem operand_sound (h : operand (depth + 1) cur = .ok (t, cur')) :
    ∃ ls, cur.rest = ls ++ cur'.rest ∧ Derives 7 ls t := by
  obtain ⟨last, rest⟩ := cur
  simp only [operand] at h
  split at h
  next => cases h
  next span token rest =>
    split at h
    next =>
      -- parentheses
      obtain ⟨⟨t', cur₁⟩, hclimb, h⟩ := bind_eq_ok.1 h
      obtain ⟨ls, hls, hderives, -⟩ := ih.climb hclimb
      split at h
      next closing rest' hrest =>
        cases h
        refine ⟨_, ?_, .tighter (.parens span closing hderives)⟩
        simp only at hls hrest
        simp [hls, hrest]
      next => cases h
      next => cases h
    next =>
      obtain ⟨⟨t', cur₁⟩, hclimb, h⟩ := bind_eq_ok.1 h
      obtain ⟨ls, hls, hderives, -⟩ := ih.climb hclimb
      cases h
      exact ⟨_, congrArg _ hls, .negate hderives⟩
    next =>
      obtain ⟨ls, hls, hderives, -⟩ := ih.climb h
      exact ⟨_, congrArg _ hls, .plus hderives⟩
    next =>
      obtain ⟨⟨t', cur₁⟩, hclimb, h⟩ := bind_eq_ok.1 h
      obtain ⟨ls, hls, hderives, -⟩ := ih.climb hclimb
      cases h
      exact ⟨_, congrArg _ hls, .not hderives⟩
    next name =>
      split at h
      next opening rest' =>
        obtain ⟨⟨args, cur₁⟩, hargs, h⟩ := bind_eq_ok.1 h
        obtain ⟨ls, closing, hls, hlist⟩ := ih.callArguments hargs
        cases h
        simp only at hls
        rcases hlist with ⟨rfl, rfl⟩ | hlist
        · exact ⟨_, by simp [hls], .tighter (.emptyCall opening closing)⟩
        · exact ⟨_, by simp [hls], .tighter (.call opening closing hlist)⟩
      next =>
        cases h
        exact ⟨_, rfl, .tighter .var⟩
    next digits =>
      obtain ⟨t', ht', h⟩ := map_eq_ok.1 h
      cases h
      unfold integerTerm at ht'
      split at ht'
      next n hn =>
        cases ht'
        exact ⟨_, rfl, .tighter (.int hn)⟩
      next => cases ht'
    next digits =>
      obtain ⟨t', ht', h⟩ := map_eq_ok.1 h
      cases h
      unfold floatTerm at ht'
      split at ht'
      next x hx =>
        cases ht'
        exact ⟨_, rfl, .tighter (.float hx)⟩
      next => cases ht'
    next =>
      cases h
      exact ⟨_, rfl, .tighter .bool⟩
    next => cases h

/-- An operand is read, and the loop takes what comes after it. -/
theorem climb_sound {floor : Nat} (h : climb (depth + 1) floor cur = .ok (t, cur')) :
    ∃ ls, cur.rest = ls ++ cur'.rest ∧ Derives (min (floor + 1) 7) ls t
      ∧ Stops floor cur'.rest := by
  obtain ⟨⟨lhs, cur₁⟩, hoperand, h⟩ := bind_eq_ok.1 h
  obtain ⟨ls, hls, hderives⟩ := ih.operand hoperand
  obtain ⟨more, hmore, hderives', hstops⟩ :=
    ih.extend h hderives (Nat.min_le_right ..) (stops_unary (by decide) _)
  exact ⟨ls ++ more, by rw [hls, hmore, List.append_assoc], hderives', hstops⟩

/-- The loop goes on while the next operator is tighter than the floor, with
all that was read as its left operand. -/
theorem extend_sound {floor level : Nat} {lhs : Term} {ls : List Lexeme}
    (h : extend (depth + 1) floor lhs cur = .ok (t, cur')) (hlhs : Derives level ls lhs)
    (hlevel : min (floor + 1) 7 ≤ level) (hstops : Stops level cur.rest) :
    ∃ more, cur.rest = more ++ cur'.rest ∧ Derives (min (floor + 1) 7) (ls ++ more) t
      ∧ Stops floor cur'.rest := by
  have hdone : ∀ {cur : Cursor}, Stops floor cur.rest →
      ∃ more, cur.rest = more ++ cur.rest ∧ Derives (min (floor + 1) 7) (ls ++ more) lhs
        ∧ Stops floor cur.rest := fun hfloor =>
    ⟨[], rfl, by rw [List.append_nil]; exact hlhs.loosen hlevel, hfloor⟩
  simp only [extend] at h
  split at h
  next span op rest hrest =>
    split at h
    next node tightness hop =>
      have hjoins := joins_iff.2 hop
      split at h
      next hfloor =>
        -- the operator takes all that was read as its left operand
        obtain ⟨⟨rhs, cur₁⟩, hclimb, h⟩ := bind_eq_ok.1 h
        obtain ⟨rs, hrs, hrhs, hstops₁⟩ := ih.climb hclimb
        have htight := hjoins.level_le
        rw [Nat.min_eq_left (by omega)] at hrhs
        have hbinary := Derives.binary span hjoins (hlhs.loosen (hstops.le hrest hjoins)) hrhs
        obtain ⟨more, hmore, hderives, hstops'⟩ := ih.extend h hbinary (by omega) hstops₁
        refine ⟨⟨span, .operator op⟩ :: rs ++ more, ?_, ?_, hstops'⟩
        · simp only at hrs hmore
          simp [hrest, hrs, hmore]
        · simpa using hderives
      next hfloor =>
        cases h
        refine hdone ⟨fun hls hjoins' => ?_⟩
        cases hrest.symm.trans hls
        cases hop.symm.trans (joins_iff.1 hjoins')
        omega
    next hop =>
      cases h
      refine hdone ⟨fun hls hjoins' => ?_⟩
      cases hrest.symm.trans hls
      cases hop.symm.trans (joins_iff.1 hjoins')
  next hrest =>
    cases h
    exact hdone ⟨fun hls _ => absurd hls (hrest _ _ _)⟩

/-- A call has no arguments, or a list of them up to the bracket. -/
theorem callArguments_sound (h : callArguments (depth + 1) cur = .ok (args, cur')) :
    ∃ ls closing, cur.rest = ls ++ ⟨closing, .rightParen⟩ :: cur'.rest
      ∧ (ls = [] ∧ args = [] ∨ DerivesList ls args) := by
  simp only [callArguments] at h
  split at h
  next span rest hrest =>
    cases h
    exact ⟨[], span, hrest, .inl ⟨rfl, rfl⟩⟩
  next =>
    obtain ⟨ls, closing, hls, hlist⟩ := ih.moreArguments h
    exact ⟨ls, closing, hls, .inr hlist⟩

/-- After each argument there is a comma or the end of the list. -/
theorem moreArguments_sound (h : moreArguments (depth + 1) cur = .ok (args, cur')) :
    ∃ ls closing, cur.rest = ls ++ ⟨closing, .rightParen⟩ :: cur'.rest
      ∧ DerivesList ls args := by
  obtain ⟨⟨arg, cur₁⟩, hclimb, h⟩ := bind_eq_ok.1 h
  obtain ⟨ls, hls, hderives, -⟩ := ih.climb hclimb
  simp only at h hls
  split at h
  next closing rest hrest =>
    cases h
    exact ⟨ls, closing, by rw [hls, hrest], .one hderives⟩
  next span rest hrest =>
    obtain ⟨⟨args', cur₂⟩, hmore, h⟩ := bind_eq_ok.1 h
    obtain ⟨rs, closing, hrs, hlist⟩ := ih.moreArguments hmore
    cases h
    simp only at hrs
    exact ⟨_, closing, by simp [hls, hrest, hrs], .more span hderives hlist⟩
  next => cases h
  next => cases h

end

/-- Whatever the parser reads the grammar derives. -/
theorem soundAt : ∀ depth, SoundAt depth
  | 0 => soundAt_zero
  | depth + 1 =>
      { operand := operand_sound (soundAt depth)
        climb := climb_sound (soundAt depth)
        extend := extend_sound (soundAt depth)
        callArguments := callArguments_sound (soundAt depth)
        moreArguments := moreArguments_sound (soundAt depth) }

end Parser

-- ========================================================== completeness

open TickScript.Parser

/-- What may come after an expression of the level: no tighter operator,
and no opening parenthesis, which would make a call of a name. -/
structure Follows (level : Nat) (rest : List Lexeme) : Prop where
  stops : Stops level rest
  noCall : ∀ {span more}, rest ≠ ⟨span, .leftParen⟩ :: more

/-- What may follow a level may follow any tighter one. -/
theorem Follows.mono {level level' : Nat} {rest : List Lexeme} (h : Follows level rest)
    (hle : level ≤ level') : Follows level' rest :=
  ⟨h.stops.mono hle, h.noCall⟩

theorem follows_nil {level : Nat} : Follows level [] := ⟨⟨nofun⟩, nofun⟩

theorem follows_rightParen {level : Nat} {span : Span} {rest : List Lexeme} :
    Follows level (⟨span, .rightParen⟩ :: rest) := ⟨⟨nofun⟩, nofun⟩

theorem follows_comma {level : Nat} {span : Span} {rest : List Lexeme} :
    Follows level (⟨span, .comma⟩ :: rest) := ⟨⟨nofun⟩, nofun⟩

/-- An operator may follow the operands that it joins. -/
theorem follows_operator {level : Nat} {span : Span} {op : Operator} {node : BinaryOp}
    {rest : List Lexeme} (h : Joins level op node) :
    Follows level (⟨span, .operator op⟩ :: rest) := by
  refine ⟨⟨fun hls hjoins => ?_⟩, nofun⟩
  cases hls
  cases (joins_iff.1 h).symm.trans (joins_iff.1 hjoins)
  exact Nat.le_refl _

section

variable {depth floor level : Nat} {last : Span} {ls rest : List Lexeme} {t : Term}

/-- The loop ends where no tighter operator comes. -/
theorem extend_of_stops (hstops : Stops floor rest) :
    extend (depth + 1) floor t ⟨last, rest⟩ = .ok (t, ⟨last, rest⟩) := by
  simp only [extend]
  split
  next span op rest' =>
    split
    next node tightness hop =>
      have := hstops.le rfl (joins_iff.2 hop)
      rw [if_neg (by omega)]
    next => rfl
  next => rfl

/-- Reading the lexemes brings the loop to the tree, with depth left. -/
def Reaches (ls : List Lexeme) (t : Term) (depth floor : Nat) (last : Span)
    (rest : List Lexeme) : Prop :=
  ∃ depth' last', depth + 1 ≤ depth' + 2 * ls.length
    ∧ climb depth floor ⟨last, ls ++ rest⟩ = extend depth' floor t ⟨last', rest⟩

/-- What brings the loop to a tree is read as that tree, if the loop then
stops. -/
theorem Reaches.climb_eq (h : Reaches ls t depth floor last rest)
    (hdepth : 2 * ls.length ≤ depth) (hstops : Stops floor rest) :
    ∃ last', climb depth floor ⟨last, ls ++ rest⟩ = .ok (t, ⟨last', rest⟩) := by
  obtain ⟨depth', last', hle, heq⟩ := h
  obtain ⟨d, rfl⟩ : ∃ d, depth' = d + 1 := ⟨depth' - 1, by omega⟩
  exact ⟨last', heq.trans (extend_of_stops hstops)⟩

/-- An operand is read in one go. -/
theorem reaches_of_operand {last' : Span} (hls : ls ≠ [])
    (h : operand depth ⟨last, ls ++ rest⟩ = .ok (t, ⟨last', rest⟩)) :
    Reaches ls t (depth + 1) floor last rest := by
  have := List.length_pos_iff.2 hls
  refine ⟨depth, last', by omega, ?_⟩
  rw [climb, h]
  rfl

/-- An operand of one lexeme. -/
theorem reaches_of_lexeme {lexeme : Lexeme} {last' : Span}
    (h : ∀ d, operand (d + 1) ⟨last, lexeme :: rest⟩ = .ok (t, ⟨last', rest⟩))
    (hdepth : 2 ≤ depth) : Reaches [lexeme] t depth floor last rest := by
  obtain ⟨d, rfl⟩ : ∃ d, depth = d + 1 + 1 := ⟨depth - 2, by omega⟩
  exact reaches_of_operand (List.cons_ne_nil _ _) (h d)

/-- A unary operator in front of its operand. -/
theorem reaches_unary {span : Span} {token : Token} (node : Term → Term)
    (hinner : ∀ {depth last}, 2 * ls.length ≤ depth → Reaches ls t depth unaryFloor last rest)
    (hoperand : ∀ d, operand (d + 1) ⟨last, ⟨span, token⟩ :: (ls ++ rest)⟩
      = (climb d unaryFloor ⟨span, ls ++ rest⟩).map fun r => (node r.1, r.2))
    (hdepth : 2 * (ls.length + 1) ≤ depth) :
    Reaches (⟨span, token⟩ :: ls) (node t) depth floor last rest := by
  obtain ⟨d, rfl⟩ : ∃ d, depth = d + 1 + 1 := ⟨depth - 2, by omega⟩
  have hroom : 2 * ls.length ≤ d := by omega
  obtain ⟨last', h⟩ := (hinner hroom).climb_eq hroom (stops_unary (by decide) rest)
  have hread : operand (d + 1) ⟨last, (⟨span, token⟩ :: ls) ++ rest⟩
      = .ok (node t, ⟨last', rest⟩) := by
    rw [List.cons_append, hoperand, h]
    rfl
  exact reaches_of_operand (List.cons_ne_nil _ _) hread

end

mutual

/-- The parser reads an expression of the grammar, whatever follows. -/
theorem Derives.reaches {level : Nat} : {ls : List Lexeme} → {t : Term} → Derives level ls t →
    ∀ {depth floor : Nat} {last : Span} {rest : List Lexeme}, min (floor + 1) 7 ≤ level →
    Follows level rest → 2 * ls.length ≤ depth → Reaches ls t depth floor last rest
  | _, _, .tighter inner, _, _, _, _, hlevel, hfollows, hdepth =>
      inner.reaches (by omega) (hfollows.mono (Nat.le_succ _)) hdepth
  | _, _, @Derives.binary _ ls rs op node lhs rhs span joins left right, depth, floor, last, rest,
      hlevel, hfollows, hdepth => by
      have htight := joins.level_le
      simp only [List.length_append, List.length_cons] at hdepth
      -- the loop stands before the operator, which takes what was read
      have hleft : Reaches ls lhs depth floor last (⟨span, .operator op⟩ :: (rs ++ rest)) :=
        left.reaches hlevel (follows_operator joins) (by omega)
      obtain ⟨depth₁, last₁, hdepth₁, hclimb⟩ := hleft
      obtain ⟨d, rfl⟩ : ∃ d, depth₁ = d + 1 := ⟨depth₁ - 1, by omega⟩
      have hright : Reaches rs rhs d level span rest :=
        right.reaches (by omega) (hfollows.mono (Nat.le_succ _)) (by omega)
      obtain ⟨last₂, hrhs⟩ := hright.climb_eq (by omega) hfollows.stops
      refine ⟨d, last₂, ?_, ?_⟩
      · simp only [List.length_append, List.length_cons]
        omega
      · rw [List.append_assoc, List.cons_append, hclimb, extend]
        simp only [joins_iff.1 joins]
        rw [if_pos (by omega), hrhs]
        rfl
  | _, _, .negate inner, _, _, _, _, _, hfollows, hdepth =>
      reaches_unary (.unary _ .negate) (inner.reaches (by decide) hfollows)
        (fun _ => by simp [operand, bind_ok]) hdepth
  | _, _, .plus inner, _, _, _, _, _, hfollows, hdepth =>
      reaches_unary id (inner.reaches (by decide) hfollows)
        (fun d => by
          simp only [operand]
          cases climb d unaryFloor _ <;> rfl) hdepth
  | _, _, .not inner, _, _, _, _, _, hfollows, hdepth =>
      reaches_unary (.unary _ .not) (inner.reaches (by decide) hfollows)
        (fun _ => by simp [operand, bind_ok]) hdepth
  | _, _, @Derives.parens ls t opening closing inner, depth, _, last, rest, _, _, hdepth => by
      simp only [List.length_cons, List.length_append] at hdepth
      obtain ⟨d, rfl⟩ : ∃ d, depth = d + 1 + 1 := ⟨depth - 2, by omega⟩
      have hroom : 2 * ls.length ≤ d := by omega
      have hinner : Reaches ls t d 0 opening (⟨closing, .rightParen⟩ :: rest) :=
        inner.reaches (by decide) follows_rightParen hroom
      obtain ⟨last', h⟩ := hinner.climb_eq hroom follows_rightParen.stops
      have hread : operand (d + 1)
          ⟨last, (⟨opening, .leftParen⟩ :: (ls ++ [⟨closing, .rightParen⟩])) ++ rest⟩
            = .ok (t, ⟨closing, rest⟩) := by
        simp [operand, h]
      exact reaches_of_operand (List.cons_ne_nil _ _) hread
  | _, _, @Derives.var span name, _, _, last, rest, _, hfollows, hdepth => by
      have hread : ∀ d, operand (d + 1) ⟨last, ⟨span, .ident name⟩ :: rest⟩
          = .ok (.var span name, ⟨span, rest⟩) := by
        intro d
        simp only [operand]
        split
        next => exact absurd rfl hfollows.noCall
        next => rfl
      exact reaches_of_lexeme hread hdepth
  | _, _, .emptyCall opening closing, depth, _, _, _, _, _, hdepth => by
      simp only [List.length_cons] at hdepth
      obtain ⟨d, rfl⟩ : ∃ d, depth = d + 1 + 1 + 1 := ⟨depth - 3, by omega⟩
      exact reaches_of_operand (List.cons_ne_nil _ _) rfl
  | _, _, @Derives.call ls span name args opening closing inner, depth, _, last, rest, _, _,
      hdepth => by
      simp only [List.length_cons, List.length_append] at hdepth
      obtain ⟨d, rfl⟩ : ∃ d, depth = d + 1 + 1 + 1 := ⟨depth - 3, by omega⟩
      have hargs : moreArguments d ⟨opening, ls ++ ⟨closing, .rightParen⟩ :: rest⟩
          = .ok (args, ⟨closing, rest⟩) := inner.moreArguments_eq (by omega)
      have hcall : callArguments (d + 1) ⟨opening, ls ++ ⟨closing, .rightParen⟩ :: rest⟩
          = .ok (args, ⟨closing, rest⟩) := by
        obtain ⟨first, more, rfl, hfirst⟩ := inner.head
        rw [← hargs, callArguments]
        split
        next heq =>
          cases heq
          exact absurd rfl hfirst
        next => rfl
      have hread : operand (d + 1 + 1)
          ⟨last, (⟨span, .ident name⟩ :: ⟨opening, .leftParen⟩
            :: (ls ++ [⟨closing, .rightParen⟩])) ++ rest⟩
            = .ok (.call span name args, ⟨closing, rest⟩) := by
        simp [operand, hcall]
      exact reaches_of_operand (List.cons_ne_nil _ _) hread
  | _, _, .int reads, _, _, _, _, _, _, hdepth =>
      reaches_of_lexeme (fun _ => by simp [operand, integerTerm, reads, Except.map]; rfl) hdepth
  | _, _, .float reads, _, _, _, _, _, _, hdepth =>
      reaches_of_lexeme (fun _ => by simp [operand, floatTerm, reads, Except.map]; rfl) hdepth
  | _, _, .bool, _, _, _, _, _, _, hdepth => reaches_of_lexeme (fun _ => rfl) hdepth

/-- The parser reads the arguments of a call. -/
theorem DerivesList.moreArguments_eq : {ls : List Lexeme} → {args : List Term} →
    DerivesList ls args → ∀ {depth : Nat} {last closing : Span} {rest : List Lexeme},
    2 * ls.length + 1 ≤ depth →
    moreArguments depth ⟨last, ls ++ ⟨closing, .rightParen⟩ :: rest⟩
      = .ok (args, ⟨closing, rest⟩)
  | ls, [t], .one inner, depth, last, closing, rest, hdepth => by
      obtain ⟨d, rfl⟩ : ∃ d, depth = d + 1 := ⟨depth - 1, by omega⟩
      have hroom : 2 * ls.length ≤ d := by omega
      have hinner : Reaches ls t d 0 last (⟨closing, .rightParen⟩ :: rest) :=
        inner.reaches (by decide) follows_rightParen hroom
      obtain ⟨last', h⟩ := hinner.climb_eq hroom follows_rightParen.stops
      simp [moreArguments, h]
  | _, _, @DerivesList.more ls rs t ts span first more, depth, last, closing, rest, hdepth => by
      simp only [List.length_append, List.length_cons] at hdepth
      obtain ⟨d, rfl⟩ : ∃ d, depth = d + 1 := ⟨depth - 1, by omega⟩
      have hroom : 2 * ls.length ≤ d := by omega
      have hfirst : Reaches ls t d 0 last
          (⟨span, .comma⟩ :: (rs ++ ⟨closing, .rightParen⟩ :: rest)) :=
        first.reaches (by decide) follows_comma hroom
      obtain ⟨last', h⟩ := hfirst.climb_eq hroom follows_comma.stops
      have hmore : moreArguments d ⟨span, rs ++ ⟨closing, .rightParen⟩ :: rest⟩
          = .ok (ts, ⟨closing, rest⟩) := more.moreArguments_eq (by omega)
      simp [moreArguments, h, hmore]

end

-- =============================================================== parsing

/-- Parsing lexemes decides the grammar. -/
theorem ofLexemes_eq_ok_iff {ls : List Lexeme} {t : Term} :
    ofLexemes ls = .ok t ↔ Derives 1 ls t := by
  constructor
  · intro h
    obtain ⟨⟨t', cur⟩, hclimb, h⟩ := bind_eq_ok.1 h
    obtain ⟨ls', hls, hderives, -⟩ := (soundAt _).climb hclimb
    simp only at h hls
    split at h
    next hrest =>
      cases h
      rw [hrest, List.append_nil] at hls
      exact hls ▸ hderives
    next => cases h
  · intro h
    have hreaches : Reaches ls t (2 * ls.length + 2) 0 Span.nowhere [] :=
      h.reaches (by decide) follows_nil (by omega)
    obtain ⟨last', hclimb⟩ := hreaches.climb_eq (by omega) follows_nil.stops
    rw [List.append_nil] at hclimb
    simp [ofLexemes, hclimb]

end TickScript
