/-
Call lines read back.

A call is written in one way (`Call.text`), and the parser accepts what is
written and next to nothing else: a single space may follow a call that
names no return variable. So a line has at most one reading, and a call has
one text.

# Places

Whether a comma divides arguments, a space is allowed and a bracket closes
the arguments depends on what comes before: on how many brackets are open
and on whether quotes are. That is a `Place`. The arguments start at the
outermost one, with their own bracket open. `Scans p cs` says of the text of
an argument, from the place that it starts at, that it leads back to the
outermost place, never leaves the brackets and divides nothing.

# Reading

The reader of arguments passes over such text character by character and is
then at the outermost place, where either a comma and a space come next, or
the bracket that closes (`readArgs_append`). Conversely, whatever it takes
for an argument is such text (`readArgs_eq_ok`). Both are inductions on the
text with the place general; that the places are those of the reader is the
content of one step, at the outermost place (`readArgs_outermost`) and away
from it (`readArgs_nested`).
-/
import TickScript.Call
import TickScript.Proofs.Except

namespace TickScript

namespace Call

-- ================================================================ places

/-- Where a reader of arguments is: how many brackets are open, and whether
it is inside quotes. -/
structure Place where
  depth : Nat
  quoted : Bool
deriving DecidableEq

namespace Place

/-- Inside the bracket of the arguments and no other. -/
def outermost : Place := ⟨1, false⟩

/-- After the bracket that closes the arguments. -/
def outside : Place := ⟨0, false⟩

/-- The place after a character. Brackets inside quotes do not count. -/
def after (p : Place) (c : Char) : Place :=
  if c = '"' then { p with quoted := !p.quoted }
  else if p.quoted then p
  else if c = '(' then { p with depth := p.depth + 1 }
  else if c = ')' then { p with depth := p.depth - 1 }
  else p

/-- The place after text. -/
def reach (p : Place) (cs : List Char) : Place := cs.foldl after p

/-- The reader's state at a place. -/
def state (p : Place) : ArgState := ⟨p.depth, p.quoted, false⟩

@[simp]
theorem state_depth (p : Place) : p.state.depth = p.depth := rfl

@[simp]
theorem state_quoted (p : Place) : p.state.quoted = p.quoted := rfl

@[simp]
theorem state_comma (p : Place) : p.state.comma = false := rfl

end Place

open Place (outermost outside)

/-- Scanned from a place, the text ends at the outermost place, is never
outside the brackets, and has no space or comma at the outermost place. -/
structure Scans (p : Place) (cs : List Char) : Prop where
  ends : p.reach cs = outermost
  inside : ∀ before, before <+: cs → p.reach before ≠ outside
  undivided : ∀ before c after, cs = before ++ c :: after → p.reach before = outermost →
    c ≠ ' ' ∧ c ≠ ','

/-- A call that can be written on a line. -/
structure WellFormed (c : Call) : Prop where
  instruction_ne : c.instruction ≠ ""
  instruction : ∀ x ∈ c.instruction.toList, x ≠ ' ' ∧ x ≠ '(' ∧ x ≠ ')'
  instruction_start : ∀ x, c.instruction.toList.head? = some x → x ≠ '#' ∧ x ≠ '"'
  name_ne : c.name ≠ ""
  name : ∀ x ∈ c.name.toList, x ≠ ' ' ∧ x ≠ '('
  arg_ne : ∀ arg ∈ c.args, arg ≠ ""
  args : ∀ arg ∈ c.args, Scans outermost arg.toList
  ret_ne : ∀ ret, c.ret = some ret → ret ≠ ""
  ret : ∀ ret, c.ret = some ret → ∀ x ∈ ret.toList, x ≠ ' ' ∧ x ≠ '(' ∧ x ≠ ')' ∧ x ≠ '"'

-- ============================================================== scanning

variable {p : Place} {c : Char} {cs : List Char} {pos : Nat}

theorem scans_nil : Scans p [] ↔ p = outermost := by
  constructor
  · intro h
    exact h.ends
  · rintro rfl
    refine ⟨rfl, fun before hbefore => ?_, fun before c after heq => ?_⟩
    · rw [List.prefix_nil.1 hbefore]
      decide
    · cases before <;> cases heq

/-- Text is scanned character by character. -/
theorem scans_cons : Scans p (c :: cs) ↔
    p ≠ outside ∧ (p = outermost → c ≠ ' ' ∧ c ≠ ',') ∧ Scans (p.after c) cs := by
  constructor
  · intro h
    refine ⟨h.inside [] List.nil_prefix, h.undivided [] c cs rfl, h.ends, ?_, ?_⟩
    · intro before hbefore
      exact h.inside (c :: before) (List.cons_prefix_cons.2 ⟨rfl, hbefore⟩)
    · rintro before d after rfl
      exact h.undivided (c :: before) d after rfl
  · rintro ⟨hinside, hundivided, h⟩
    refine ⟨h.ends, ?_, ?_⟩
    · intro before hbefore
      cases before with
      | nil => exact hinside
      | cons d before =>
          obtain ⟨rfl, htail⟩ := List.cons_prefix_cons.1 hbefore
          exact h.inside before htail
    · intro before d after heq
      cases before with
      | nil =>
          cases heq
          exact hundivided
      | cons e before =>
          cases heq
          exact h.undivided before d after rfl

/-- Text that is scanned starts inside the brackets. -/
theorem Scans.ne_outside (h : Scans p cs) : p ≠ outside := h.inside [] List.nil_prefix

-- ============================================================= arguments

/-- Away from the outermost place, commas and spaces are part of the
argument. -/
theorem nested_of_ne (hp : 0 < p.depth) (hne : p ≠ outermost) : p.state.nested := by
  obtain ⟨depth, quoted⟩ := p
  show (decide (1 < depth) || quoted) = true
  cases quoted with
  | true => simp
  | false =>
      have hdepth : depth ≠ 1 := fun heq => hne (by rw [heq]; rfl)
      have hpos : 0 < depth := hp
      have hlt : 1 < depth := by omega
      simp [hlt]

/-- Away from the outermost place, every character is part of the
argument. -/
theorem readArgs_nested (hp : 0 < p.depth) (hne : p ≠ outermost) :
    readArgs pos p.state (c :: cs)
      = (readArgs (pos + 1) (p.after c).state cs).map (prepend c) := by
  have hnested : p.state.nested := nested_of_ne hp hne
  rw [readArgs]
  by_cases hspace : c = ' '
  · simp [hspace, hnested, Place.after]
  by_cases hquote : c = '"'
  · simp [hquote, Place.after, Place.state]
  by_cases hdivide : c = ','
  · simp [hdivide, hnested, Place.after]
  by_cases hquoted : p.quoted = true
  · simp [hspace, hquote, hdivide, Place.after, hquoted]
  by_cases hopen : c = '('
  · simp [hopen, Place.after, Place.state, hquoted]
  by_cases hclose : c = ')'
  · have hdepth : ¬ p.depth ≤ 1 := by
      intro hle
      apply hne
      obtain ⟨depth, quoted⟩ := p
      simp only [Bool.not_eq_true] at hp hle hquoted
      rw [hquoted, show depth = 1 by omega]
      rfl
    simp [hclose, Place.after, Place.state, hquoted, hdepth]
  simp [hspace, hquote, hdivide, hopen, hclose, Place.after]

/-- At the outermost place a comma ends an argument, a bracket closes the
arguments, and a space has no business. -/
theorem readArgs_outermost :
    readArgs pos outermost.state (c :: cs) =
      if c = ' ' then .error (unexpected pos "SPACE")
      else if c = ',' then readArgs (pos + 1) { outermost.state with comma := true } cs
      else if c = ')' then .ok ([[]], ⟨pos + 1, cs⟩)
      else (readArgs (pos + 1) (outermost.after c).state cs).map (prepend c) := by
  have hnested : outermost.state.nested = false := rfl
  have hquoted : outermost.quoted = false := rfl
  have hdepth : outermost.depth = 1 := rfl
  rw [readArgs]
  by_cases hspace : c = ' '
  · simp [hspace, hnested]
  by_cases hquote : c = '"'
  · simp [hquote, Place.after, Place.state]
  by_cases hdivide : c = ','
  · simp [hdivide, hnested]
  by_cases hopen : c = '('
  · simp [hopen, hquoted, Place.after, Place.state]
  by_cases hclose : c = ')'
  · simp [hclose, hquoted, hdepth]
  simp [hspace, hquote, hdivide, hopen, hclose, Place.after]

/-- After a comma comes a space, and then the next argument. -/
theorem readArgs_comma :
    readArgs pos { outermost.state with comma := true } (c :: cs) =
      if c = ' ' then
        (readArgs (pos + 1) outermost.state cs).map fun r => ([] :: r.1, r.2)
      else .error (spaceExpected pos) := by
  have hnested : ({ outermost.state with comma := true } : ArgState).nested = false := rfl
  rw [readArgs]
  by_cases hspace : c = ' '
  · simp only [hspace, hnested, if_true]
    exact bind_ok _ _
  · simp [hspace]

-- ======================================================= arguments, read

/-- A place inside the brackets is followed by another one, unless the
arguments end there. -/
theorem Place.after_depth_pos (hp : 0 < p.depth) (hend : p = outermost → c ≠ ')') :
    0 < (p.after c).depth := by
  obtain ⟨depth, quoted⟩ := p
  simp only at hp
  unfold Place.after
  split
  · exact hp
  split
  · exact hp
  split
  · exact Nat.succ_pos depth
  split
  next hquoted _ hclose =>
    have hdepth : depth ≠ 1 := by
      rintro rfl
      refine hend ?_ hclose
      simpa [outermost] using hquoted
    show 0 < depth - 1
    omega
  next => exact hp

/-- What the reader takes for the first argument scans, and a comma and a
space come after it, or the bracket that closes. -/
theorem readArgs_eq_ok : ∀ {cs : List Char} {p : Place} {pos : Nat} {args : List (List Char)}
    {rest : Rest}, 0 < p.depth → readArgs pos p.state cs = .ok (args, rest) →
    ∃ arg more tail, args = arg :: more ∧ cs = arg ++ tail ∧ Scans p arg
      ∧ ((more = [] ∧ tail = ')' :: rest.chars)
        ∨ ∃ pos' tail', tail = ',' :: ' ' :: tail'
            ∧ readArgs pos' outermost.state tail' = .ok (more, rest))
  | [], p, pos, args, rest, hp, h => by cases h
  | c :: cs, p, pos, args, rest, hp, h => by
      -- the character is part of the argument, and the reader goes on after it
      have hpart : (p = outermost → c ≠ ' ' ∧ c ≠ ',') → (p = outermost → c ≠ ')') →
          (readArgs (pos + 1) (p.after c).state cs).map (prepend c) = .ok (args, rest) →
          ∃ arg more tail, args = arg :: more ∧ c :: cs = arg ++ tail ∧ Scans p arg
            ∧ ((more = [] ∧ tail = ')' :: rest.chars)
              ∨ ∃ pos' tail', tail = ',' :: ' ' :: tail'
                  ∧ readArgs pos' outermost.state tail' = .ok (more, rest)) := by
        intro hundivided hend h
        obtain ⟨⟨args', rest'⟩, hread, heq⟩ := map_eq_ok.1 h
        obtain ⟨arg, more, tail, rfl, rfl, hscans, hnext⟩ :=
          readArgs_eq_ok (Place.after_depth_pos hp hend) hread
        cases heq
        refine ⟨c :: arg, more, tail, rfl, rfl, scans_cons.2 ⟨?_, hundivided, hscans⟩, hnext⟩
        rintro rfl
        cases hp
      by_cases hout : p = outermost
      · subst hout
        rw [readArgs_outermost] at h
        split at h
        next => cases h
        next hspace =>
          split at h
          next hdivide =>
            subst hdivide
            cases cs with
            | nil => cases h
            | cons d cs =>
                rw [readArgs_comma] at h
                split at h
                next hspace' =>
                  subst hspace'
                  obtain ⟨⟨more, rest'⟩, hread, heq⟩ := map_eq_ok.1 h
                  cases heq
                  exact ⟨[], more, _, rfl, rfl, scans_nil.2 rfl, .inr ⟨_, cs, rfl, hread⟩⟩
                next => cases h
          next hdivide =>
            split at h
            next hclose =>
              subst hclose
              cases h
              exact ⟨[], [], _, rfl, rfl, scans_nil.2 rfl, .inl ⟨rfl, rfl⟩⟩
            next hclose => exact hpart (fun _ => ⟨hspace, hdivide⟩) (fun _ => hclose) h
      · rw [readArgs_nested hp hout] at h
        exact hpart (fun heq => absurd heq hout) (fun heq => absurd heq hout) h

/-- The comma and the space between arguments. -/
def divider : List Char := [',', ' ']

/-- What is read for arguments is their text. -/
theorem eq_of_readArgs : ∀ {args : List (List Char)} {cs : List Char} {pos : Nat} {rest : Rest},
    readArgs pos outermost.state cs = .ok (args, rest) →
    args ≠ [] ∧ (∀ arg ∈ args, Scans outermost arg)
      ∧ cs = divider.intercalate args ++ ')' :: rest.chars
  | [], cs, pos, rest, h => by
      obtain ⟨arg, more, tail, heq, -⟩ := readArgs_eq_ok Nat.one_pos h
      cases heq
  | arg :: more, cs, pos, rest, h => by
      obtain ⟨arg', more', tail, heq, rfl, hscans, hnext⟩ := readArgs_eq_ok Nat.one_pos h
      cases heq
      refine ⟨List.cons_ne_nil _ _, ?_⟩
      rcases hnext with ⟨rfl, rfl⟩ | ⟨pos', tail', rfl, hread⟩
      · exact ⟨by simpa using hscans, by simp⟩
      · obtain ⟨hne, hmore, rfl⟩ := eq_of_readArgs hread
        refine ⟨fun a ha => ?_, ?_⟩
        · rcases List.mem_cons.1 ha with rfl | ha
          · exact hscans
          · exact hmore a ha
        · obtain ⟨next, more, rfl⟩ := List.exists_cons_of_ne_nil hne
          simp [List.intercalate_cons_cons, divider]

-- ==================================================== arguments, written

/-- Text that scans starts inside the brackets. -/
theorem Scans.depth_pos : ∀ {cs : List Char} {p : Place}, Scans p cs → 0 < p.depth
  | [], p, h => by
      rw [scans_nil.1 h]
      exact Nat.one_pos
  | c :: cs, p, h => by
      obtain ⟨hinside, -, hrest⟩ := scans_cons.1 h
      obtain ⟨depth, quoted⟩ := p
      cases quoted with
      | false =>
          refine Nat.pos_of_ne_zero ?_
          rintro rfl
          exact hinside rfl
      | true =>
          -- brackets inside quotes do not count
          have hdepth : (Place.after ⟨depth, true⟩ c).depth = depth := by
            unfold Place.after
            split <;> rfl
          have hpos := hrest.depth_pos
          rw [hdepth] at hpos
          exact hpos

theorem foldr_prepend (arg more : List Char) (args : List (List Char)) (rest : Rest) :
    arg.foldr prepend (more :: args, rest) = ((arg ++ more) :: args, rest) := by
  induction arg with
  | nil => rfl
  | cons c arg ih =>
      rw [List.foldr_cons, ih]
      rfl

/-- Text that scans is passed over as part of one argument. -/
theorem readArgs_append : ∀ {arg : List Char} {p : Place} {pos : Nat} (tail : List Char),
    Scans p arg → readArgs pos p.state (arg ++ tail)
      = (readArgs (pos + arg.length) outermost.state tail).map (arg.foldr prepend)
  | [], p, pos, tail, h => by
      rw [scans_nil.1 h]
      exact (congrFun Except.map_id _).symm
  | c :: arg, p, pos, tail, h => by
      obtain ⟨-, hundivided, hrest⟩ := scans_cons.1 h
      have hstep : readArgs pos p.state (c :: (arg ++ tail))
          = (readArgs (pos + 1) (p.after c).state (arg ++ tail)).map (prepend c) := by
        by_cases hout : p = outermost
        · subst hout
          obtain ⟨hspace, hdivide⟩ := hundivided rfl
          have hclose : c ≠ ')' := by
            rintro rfl
            exact hrest.ne_outside rfl
          rw [readArgs_outermost, if_neg hspace, if_neg hdivide, if_neg hclose]
        · exact readArgs_nested h.depth_pos hout
      rw [List.cons_append, hstep, readArgs_append tail hrest, map_map, List.length_cons,
        Nat.add_right_comm, Nat.add_assoc]
      rfl

/-- Arguments are read off their text. -/
theorem readArgs_text : ∀ {args : List (List Char)} (pos : Nat) (cs : List Char), args ≠ [] →
    (∀ arg ∈ args, Scans outermost arg) →
    ∃ pos', readArgs pos outermost.state (divider.intercalate args ++ ')' :: cs)
      = .ok (args, ⟨pos', cs⟩)
  | [], pos, cs, hne, _ => absurd rfl hne
  | [arg], pos, cs, _, hargs => by
      refine ⟨pos + arg.length + 1, ?_⟩
      rw [List.intercalate_singleton, readArgs_append _ (hargs arg List.mem_cons_self),
        readArgs_outermost]
      simp [Except.map, foldr_prepend]
  | arg :: next :: args, pos, cs, _, hargs => by
      obtain ⟨pos', hread⟩ := readArgs_text (pos + arg.length + 1 + 1) cs
        (List.cons_ne_nil next args) fun a ha => hargs a (List.mem_cons_of_mem arg ha)
      have htext : divider.intercalate (arg :: next :: args) ++ ')' :: cs
          = arg ++ ',' :: ' ' :: (divider.intercalate (next :: args) ++ ')' :: cs) := by
        simp [List.intercalate_cons_cons, divider]
      refine ⟨pos', ?_⟩
      rw [htext, readArgs_append _ (hargs arg List.mem_cons_self), readArgs_outermost,
        if_neg (by decide), if_pos rfl, readArgs_comma, if_pos rfl, hread]
      simp [Except.map, foldr_prepend]

-- ================================================================= words

variable {word : List Char} {rest : Rest}

/-- What is read for the instruction ends with a space, or the line ends
there. -/
theorem eq_of_readInstruction : ∀ {cs word : List Char} {pos : Nat},
    readInstruction pos cs = .ok (word, rest) →
    (∀ x ∈ word, x ≠ ' ' ∧ x ≠ '(' ∧ x ≠ ')')
      ∧ (rest.chars = [] ∨ cs = word ++ ' ' :: rest.chars)
  | [], word, pos, h => by
      cases h
      exact ⟨by simp, .inl rfl⟩
  | c :: cs, word, pos, h => by
      unfold readInstruction at h
      split at h
      next hspace =>
        cases h
        exact ⟨by simp, .inr (by rw [hspace]; rfl)⟩
      next hspace =>
        split at h
        next => cases h
        next hbracket =>
          obtain ⟨⟨more, rest'⟩, hread, h⟩ := bind_eq_ok.1 h
          cases h
          obtain ⟨hmore, hnext⟩ := eq_of_readInstruction hread
          refine ⟨fun x hx => ?_, hnext.imp_right (congrArg (c :: ·))⟩
          rcases List.mem_cons.1 hx with rfl | hx
          · exact ⟨hspace, not_or.1 hbracket⟩
          · exact hmore x hx

theorem readInstruction_append : ∀ {word : List Char} (pos : Nat) (cs : List Char),
    (∀ x ∈ word, x ≠ ' ' ∧ x ≠ '(' ∧ x ≠ ')') →
    ∃ pos', readInstruction pos (word ++ ' ' :: cs) = .ok (word, ⟨pos', cs⟩)
  | [], pos, cs, _ => ⟨pos + 1, rfl⟩
  | c :: word, pos, cs, h => by
      obtain ⟨hspace, hbracket⟩ := h c List.mem_cons_self
      obtain ⟨pos', hread⟩ := readInstruction_append (pos + 1) cs fun x hx =>
        h x (List.mem_cons_of_mem c hx)
      refine ⟨pos', ?_⟩
      rw [List.cons_append, readInstruction, if_neg hspace, if_neg (not_or.2 hbracket), hread]
      rfl

/-- What is read for the name ends with a bracket, or the line ends
there. -/
theorem eq_of_readName : ∀ {cs word : List Char} {pos : Nat},
    readName pos cs = .ok (word, rest) →
    (∀ x ∈ word, x ≠ ' ' ∧ x ≠ '(') ∧ (rest.chars = [] ∨ cs = word ++ '(' :: rest.chars)
  | [], word, pos, h => by
      cases h
      exact ⟨by simp, .inl rfl⟩
  | c :: cs, word, pos, h => by
      unfold readName at h
      split at h
      next hopen =>
        cases h
        exact ⟨by simp, .inr (by rw [hopen]; rfl)⟩
      next hopen =>
        split at h
        next => cases h
        next hspace =>
          obtain ⟨⟨more, rest'⟩, hread, h⟩ := bind_eq_ok.1 h
          cases h
          obtain ⟨hmore, hnext⟩ := eq_of_readName hread
          refine ⟨fun x hx => ?_, hnext.imp_right (congrArg (c :: ·))⟩
          rcases List.mem_cons.1 hx with rfl | hx
          · exact ⟨hspace, hopen⟩
          · exact hmore x hx

theorem readName_append : ∀ {word : List Char} (pos : Nat) (cs : List Char),
    (∀ x ∈ word, x ≠ ' ' ∧ x ≠ '(') →
    ∃ pos', readName pos (word ++ '(' :: cs) = .ok (word, ⟨pos', cs⟩)
  | [], pos, cs, _ => ⟨pos + 1, rfl⟩
  | c :: word, pos, cs, h => by
      obtain ⟨hspace, hopen⟩ := h c List.mem_cons_self
      obtain ⟨pos', hread⟩ := readName_append (pos + 1) cs fun x hx =>
        h x (List.mem_cons_of_mem c hx)
      refine ⟨pos', ?_⟩
      rw [List.cons_append, readName, if_neg hopen, if_neg hspace, hread]
      rfl

/-- A word at the end of a line is read as it stands. -/
theorem readWord_eq_ok_iff : ∀ {cs word : List Char} {pos : Nat},
    readWord pos cs = .ok word ↔
      word = cs ∧ ∀ x ∈ cs, x ≠ ' ' ∧ x ≠ '(' ∧ x ≠ ')' ∧ x ≠ '"'
  | [], word, pos => by simp [readWord, eq_comm]
  | c :: cs, word, pos => by
      rw [readWord, List.forall_mem_cons]
      split
      next hbad => 
        refine ⟨nofun, ?_⟩
        rintro ⟨-, hgood, -⟩
        simp_all
      next hgood =>
        simp only [not_or] at hgood
        rw [map_eq_ok]
        constructor
        · rintro ⟨more, hread, rfl⟩
          obtain ⟨rfl, hcs⟩ := readWord_eq_ok_iff.1 hread
          exact ⟨rfl, hgood, hcs⟩
        · rintro ⟨rfl, -, hcs⟩
          exact ⟨cs, readWord_eq_ok_iff.2 ⟨rfl, hcs⟩, rfl⟩

/-- The end of a line names a return variable, or none with a space at
most. -/
theorem readReturn_eq_ok_iff {ret : Option String} : readReturn rest = .ok ret ↔
    (ret = none ∧ (rest.chars = [] ∨ rest.chars = [' ']))
      ∨ ∃ name, ret = some name ∧ name ≠ "" ∧ rest.chars = ' ' :: name.toList
          ∧ ∀ x ∈ name.toList, x ≠ ' ' ∧ x ≠ '(' ∧ x ≠ ')' ∧ x ≠ '"' := by
  constructor
  · intro h
    unfold readReturn at h
    split at h
    next hend =>
      cases h
      exact .inl ⟨rfl, .inl hend⟩
    next c cs hchars =>
      split at h
      next hspace =>
        obtain ⟨word, hread, hret⟩ := bind_eq_ok.1 h
        obtain ⟨rfl, hword⟩ := readWord_eq_ok_iff.1 hread
        cases hret
        rw [hchars, hspace]
        split
        next hempty => exact .inl ⟨rfl, .inr (by rw [hempty])⟩
        next hne =>
          refine .inr ⟨String.ofList word, rfl, ?_, by rw [String.toList_ofList], ?_⟩
          · exact fun heq => hne (String.ofList_eq_empty_iff.1 heq)
          · rw [String.toList_ofList]
            exact hword
      next => cases h
  · rintro (⟨rfl, hend | hend⟩ | ⟨name, rfl, hne, hchars, hname⟩)
    · unfold readReturn
      rw [hend]
    · unfold readReturn
      rw [hend]
      rfl
    · unfold readReturn
      have hread : readWord (rest.pos + 1) name.toList = .ok name.toList :=
        readWord_eq_ok_iff.2 ⟨rfl, hname⟩
      have hword : name.toList ≠ [] := fun heq => hne (String.toList_eq_nil_iff.1 heq)
      simp [hchars, hread, hword]

-- ================================================================= lines

/-- The pieces between the dividers: there is one even if there are no
arguments. -/
def pieces (args : List String) : List (List Char) :=
  if args = [] then [[]] else args.map String.toList

theorem pieces_ne_nil (args : List String) : pieces args ≠ [] := by
  unfold pieces
  split
  · exact List.cons_ne_nil _ _
  · simpa

theorem intercalate_pieces (args : List String) :
    divider.intercalate (pieces args) = divider.intercalate (args.map String.toList) := by
  unfold pieces
  split
  next h => rw [h]; rfl
  next => rfl

/-- What is read for pieces is the pieces of the arguments. -/
theorem pieces_map_ofList {args : List (List Char)} (hne : args ≠ []) :
    pieces ((if args = [[]] then [] else args).map String.ofList) = args := by
  split
  next h => rw [h]; rfl
  next =>
    have hmap : args.map String.ofList ≠ [] := by simpa using hne
    rw [pieces, if_neg hmap, List.map_map]
    simp [Function.comp_def]

/-- Pieces stand for the arguments, none of which is empty. -/
theorem map_ofList_pieces {args : List String} (hargs : "" ∉ args) :
    [] ∉ (if pieces args = [[]] then [] else pieces args)
      ∧ (if pieces args = [[]] then [] else pieces args).map String.ofList = args := by
  by_cases hempty : args = []
  · subst hempty
    exact ⟨by simp [pieces], rfl⟩
  · have hpieces : pieces args = args.map String.toList := if_neg hempty
    have hno : [] ∉ args.map String.toList := by
      intro hmem
      obtain ⟨arg, harg, hnil⟩ := List.mem_map.1 hmem
      rw [String.toList_eq_nil_iff.1 hnil] at harg
      exact hargs harg
    have hne : args.map String.toList ≠ [[]] := by
      intro heq
      rw [heq] at hno
      exact hno List.mem_cons_self
    rw [hpieces, if_neg hne, List.map_map]
    exact ⟨hno, by simp [Function.comp_def]⟩

/-- The return variable at the end of a line. -/
def ending : Option String → List Char
  | some ret => ' ' :: ret.toList
  | none => []

/-- The text of a call up to the bracket that closes the arguments. -/
def front (c : Call) (chars : List Char) : List Char :=
  c.instruction.toList ++ ' ' :: (c.name.toList
    ++ '(' :: (divider.intercalate (pieces c.args) ++ ')' :: chars))

theorem front_append (c : Call) (chars more : List Char) :
    c.front (chars ++ more) = c.front chars ++ more := by
  simp [front]

/-- The text of a call, part by part. -/
theorem toList_text (c : Call) : c.text.toList = c.front (ending c.ret) := by
  rw [front, intercalate_pieces]
  unfold text ending
  cases c.ret <;> simp [String.toList_intercalate, divider]

/-- The parts of a line that is read, one after the other. -/
theorem parse_eq_ok {s : String} {c : Call} (h : parse s = .ok c) :
    ∃ first cs instruction rest₁ name rest₂ args rest₃, s.toList = first :: cs
      ∧ first ≠ '#' ∧ first ≠ ' ' ∧ first ≠ '"'
      ∧ readInstruction 0 s.toList = .ok (instruction, rest₁)
      ∧ readName rest₁.pos rest₁.chars = .ok (name, rest₂) ∧ name ≠ []
      ∧ readArgs rest₂.pos outermost.state rest₂.chars = .ok (args, rest₃)
      ∧ readReturn rest₃ = .ok c.ret
      ∧ [] ∉ (if args = [[]] then [] else args)
      ∧ c.instruction = String.ofList instruction ∧ c.name = String.ofList name
      ∧ c.args = (if args = [[]] then [] else args).map String.ofList := by
  unfold parse parseChars at h
  split at h
  next => cases h
  next first cs hs =>
    split at h
    next => cases h
    next hcomment =>
      split at h
      next => cases h
      next hfirst =>
        obtain ⟨⟨instruction, rest₁⟩, hinstruction, h⟩ := bind_eq_ok.1 h
        obtain ⟨⟨name, rest₂⟩, hname, h⟩ := bind_eq_ok.1 h
        obtain ⟨⟨args, rest₃⟩, hargs, h⟩ := bind_eq_ok.1 h
        obtain ⟨ret, hret, h⟩ := bind_eq_ok.1 h
        simp only at hname hargs h
        generalize hread : (if args = [[]] then [] else args) = read at h
        split at h
        next => cases h
        next hname_ne =>
          split at h
          next => cases h
          next hargs_ne =>
            simp only [not_or] at hfirst
            cases h
            subst hread
            exact ⟨first, cs, instruction, rest₁, name, rest₂, args, rest₃, hs, hcomment, hfirst.1,
              hfirst.2.2.2, hinstruction, hname, hname_ne, hargs, hret, hargs_ne, rfl, rfl, rfl⟩

/-- A line that is read is the text of a well-formed call, up to what
comes after the arguments. -/
theorem front_of_parse {s : String} {c : Call} (h : parse s = .ok c) :
    c.WellFormed ∧ ∃ rest, s.toList = c.front rest.chars ∧ readReturn rest = .ok c.ret := by
  obtain ⟨first, cs, instruction, rest₁, name, rest₂, args, rest₃, hs, hcomment, hspace, hquote,
    hinstruction, hname, hname_ne, hargs, hret, hargs_ne, hc₁, hc₂, hc₃⟩ := parse_eq_ok h
  obtain ⟨hpieces, hscans, hchars₂⟩ := eq_of_readArgs hargs
  obtain ⟨hname_chars, hchars₁⟩ := eq_of_readName hname
  obtain ⟨hinstruction_chars, hchars⟩ := eq_of_readInstruction hinstruction
  -- a line that ends too early has no bracket to close the arguments
  replace hchars₁ : rest₁.chars = name ++ '(' :: rest₂.chars :=
    hchars₁.resolve_left (by simp [hchars₂])
  replace hchars : s.toList = instruction ++ ' ' :: rest₁.chars :=
    hchars.resolve_left (by simp [hchars₁])
  obtain ⟨more, rfl⟩ : ∃ more, instruction = first :: more := by
    rw [hs] at hchars
    cases instruction with
    | nil =>
        cases hchars
        exact absurd rfl hspace
    | cons x more =>
        cases hchars
        exact ⟨more, rfl⟩
  have hread : ∀ arg ∈ (if args = [[]] then [] else args), Scans outermost arg := by
    split
    · simp
    · exact hscans
  have hret_cases := readReturn_eq_ok_iff.1 hret
  refine ⟨⟨?_, ?_, ?_, ?_, ?_, ?_, ?_, ?_, ?_⟩, rest₃, ?_, hret⟩
  · rw [hc₁]
    exact fun heq => List.cons_ne_nil _ _ (String.ofList_eq_empty_iff.1 heq)
  · rw [hc₁, String.toList_ofList]
    exact hinstruction_chars
  · intro x hx
    rw [hc₁, String.toList_ofList] at hx
    cases hx
    exact ⟨hcomment, hquote⟩
  · rw [hc₂]
    exact fun heq => hname_ne (String.ofList_eq_empty_iff.1 heq)
  · rw [hc₂, String.toList_ofList]
    exact hname_chars
  · rintro arg harg rfl
    rw [hc₃] at harg
    obtain ⟨a, ha, heq⟩ := List.mem_map.1 harg
    rw [String.ofList_eq_empty_iff.1 heq] at ha
    exact hargs_ne ha
  · intro arg harg
    rw [hc₃] at harg
    obtain ⟨a, ha, rfl⟩ := List.mem_map.1 harg
    rw [String.toList_ofList]
    exact hread a ha
  · intro ret heq
    rcases hret_cases with ⟨hnone, -⟩ | ⟨name', hsome, hne, -⟩
    · rw [hnone] at heq
      cases heq
    · rw [hsome] at heq
      cases heq
      exact hne
  · intro ret heq
    rcases hret_cases with ⟨hnone, -⟩ | ⟨name', hsome, -, -, hgood⟩
    · rw [hnone] at heq
      cases heq
    · rw [hsome] at heq
      cases heq
      exact hgood
  · rw [hchars, hchars₁, hchars₂, front, hc₁, hc₂, hc₃, pieces_map_ofList hpieces,
      String.toList_ofList, String.toList_ofList]

/-- The text of a well-formed call is read, if what comes after the
arguments is. -/
theorem parse_of_front {s : String} {c : Call} {chars : List Char} (hc : c.WellFormed)
    (hs : s.toList = c.front chars) (hret : ∀ pos, readReturn ⟨pos, chars⟩ = .ok c.ret) :
    parse s = .ok c := by
  have hno : "" ∉ c.args := fun hmem => hc.arg_ne "" hmem rfl
  obtain ⟨hno_pieces, hpieces⟩ := map_ofList_pieces hno
  have hscans : ∀ arg ∈ pieces c.args, Scans outermost arg := by
    unfold pieces
    split
    · simp [scans_nil]
    · simpa using hc.args
  obtain ⟨first, more, hfirst⟩ : ∃ first more, c.instruction.toList = first :: more :=
    List.exists_cons_of_ne_nil fun heq => hc.instruction_ne (String.toList_eq_nil_iff.1 heq)
  obtain ⟨hcomment, hquote⟩ := hc.instruction_start first (by rw [hfirst]; rfl)
  obtain ⟨hspace, hopen, hclose⟩ := hc.instruction first (by rw [hfirst]; exact List.mem_cons_self)
  obtain ⟨pos₁, hinstruction⟩ := readInstruction_append 0 (c.name.toList
    ++ '(' :: (divider.intercalate (pieces c.args) ++ ')' :: chars)) hc.instruction
  obtain ⟨pos₂, hname⟩ := readName_append pos₁ (divider.intercalate (pieces c.args) ++ ')' :: chars)
    hc.name
  obtain ⟨pos₃, hargs⟩ := readArgs_text pos₂ chars (pieces_ne_nil c.args) hscans
  have hname_ne : c.name.toList ≠ [] := fun heq => hc.name_ne (String.toList_eq_nil_iff.1 heq)
  have hbad : ¬ (first = ' ' ∨ first = '(' ∨ first = ')' ∨ first = '"') := by
    simp [hspace, hopen, hclose, hquote]
  rw [hfirst, List.cons_append] at hinstruction
  rw [parse, hs, front, hfirst, List.cons_append, parseChars]
  change readArgs pos₂ ⟨1, false, false⟩ _ = _ at hargs
  simp only [if_neg hcomment, if_neg hbad, hinstruction, ok_bind, hname, hargs, hret pos₃,
    if_neg hname_ne, if_neg hno_pieces, hpieces]
  rw [← hfirst, String.ofList_toList, String.ofList_toList]

/-- A line is read as a call just if it is the text of the call, which is
well formed; a call without a return variable may be followed by a
space. -/
theorem parse_eq_ok_iff_text (s : String) (c : Call) :
    parse s = .ok c ↔ c.WellFormed ∧ (s = c.text ∨ c.ret = none ∧ s = c.text ++ " ") := by
  constructor
  · intro h
    obtain ⟨hc, rest, hs, hret⟩ := front_of_parse h
    refine ⟨hc, ?_⟩
    rcases readReturn_eq_ok_iff.1 hret with ⟨hnone, hend | hend⟩ | ⟨name, hsome, -, hend, -⟩
    · left
      rw [← String.toList_inj, hs, hend, toList_text, hnone]
      rfl
    · right
      rw [← String.toList_inj, hs, hend, String.toList_append, toList_text, hnone]
      exact ⟨rfl, front_append c [] [' ']⟩
    · left
      rw [← String.toList_inj, hs, hend, toList_text, hsome]
      rfl
  · rintro ⟨hc, rfl | ⟨hnone, rfl⟩⟩
    · refine parse_of_front hc (toList_text c) fun pos => readReturn_eq_ok_iff.2 ?_
      cases hret : c.ret with
      | none => exact .inl ⟨rfl, .inl rfl⟩
      | some name => exact .inr ⟨name, rfl, hc.ret_ne name hret, rfl, hc.ret name hret⟩
    · have hs : (c.text ++ " ").toList = c.front [' '] := by
        rw [String.toList_append, toList_text, hnone]
        exact (front_append c [] [' ']).symm
      exact parse_of_front hc hs fun pos => readReturn_eq_ok_iff.2 (.inl ⟨hnone, .inr rfl⟩)

-- Commas, spaces and brackets in quotes or in inner brackets are not read.
example : (parse "console push(\"a, (b\", f(1, 2)) x").toOption
    = some ⟨"console", "push", ["\"a, (b\"", "f(1, 2)"], some "x"⟩ := by
  decide +kernel

end Call

end TickScript
