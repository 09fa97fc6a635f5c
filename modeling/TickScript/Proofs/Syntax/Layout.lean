/-
The layout of a source.

A source is lines of text with line ends between them, and what it says is
its lines that are no comments, without the blanks around them
(`Line.ofSource`). So there are two ways to edit it that change nothing:
putting in a line that holds nothing or a comment, and changing the blanks
around a line. `Line.Restyle` is one such edit, and any number of them, made
or taken back, leave the lines that the source has (`Line.ofSource_restyle`).

A source is cut at every line end, so its lines are those of its parts
(`Line.ofSource_intercalate`). That leaves a single line to look at.
-/
import Mathlib.Logic.Relation
import TickScript.Line

namespace TickScript

-- ============================================================== trimming

namespace Text

variable {p : Char → Bool} {left right cs : List Char}

/-- Blanks in front are trimmed. -/
theorem trimBoth_append_left (h : ∀ c ∈ left, p c) : trimBoth p (left ++ cs) = trimBoth p cs := by
  rw [trimBoth, List.dropWhile_append_of_pos h]
  rfl

/-- Blanks at the end are dropped. -/
theorem dropEnd_append (h : ∀ c ∈ right, p c) : dropEnd p (cs ++ right) = dropEnd p cs := by
  have hreverse : ∀ c ∈ right.reverse, p c := fun c hc => h c (List.mem_reverse.1 hc)
  rw [dropEnd, List.reverse_append, List.dropWhile_append_of_pos hreverse]
  rfl

/-- A character that is kept keeps what is before it. -/
theorem dropEnd_cons {c : Char} (hc : p c = false) : dropEnd p (c :: cs) = c :: dropEnd p cs := by
  unfold dropEnd
  rw [List.reverse_cons, List.dropWhile_append]
  split
  next hempty =>
    have hcs : cs.reverse.dropWhile p = [] := List.isEmpty_iff.1 hempty
    simp [hcs, hc]
  next => simp

/-- So blanks at the end are trimmed, whatever is before them. -/
theorem trimBoth_append_right (h : ∀ c ∈ right, p c) :
    trimBoth p (cs ++ right) = trimBoth p cs := by
  unfold trimBoth
  rw [List.dropWhile_append]
  split
  next hempty =>
    have hcs : cs.dropWhile p = [] := List.isEmpty_iff.1 hempty
    have hright : right.dropWhile p = [] := by
      rw [← List.append_nil right, List.dropWhile_append_of_pos h]
      rfl
    rw [hcs, hright]
  next => exact dropEnd_append h

-- =============================================================== cutting

/-- Text has at least one piece, which may be empty. -/
theorem splitChars_ne_nil (sep : Char) : ∀ cs : List Char, splitChars sep cs ≠ []
  | [] => by simp [splitChars]
  | c :: cs => by
      unfold splitChars
      split
      next => simp
      next => split <;> simp

/-- Text without a separator is one piece. -/
theorem splitChars_of_notMem {sep : Char} : ∀ {cs : List Char}, sep ∉ cs →
    splitChars sep cs = [cs]
  | [], _ => rfl
  | c :: cs, h => by
      have hc : c ≠ sep := fun heq => h (heq ▸ List.mem_cons_self)
      have hcs : sep ∉ cs := fun hmem => h (List.mem_cons_of_mem c hmem)
      rw [splitChars, if_neg hc, splitChars_of_notMem hcs]

/-- A separator is always cut at. -/
theorem splitChars_append (sep : Char) (rest : List Char) : ∀ cs : List Char,
    splitChars sep (cs ++ sep :: rest) = splitChars sep cs ++ splitChars sep rest
  | [] => by simp [splitChars]
  | c :: cs => by
      have ih := splitChars_append sep rest cs
      by_cases hc : c = sep
      · simp only [List.cons_append, splitChars, if_pos hc, ih]
      · obtain ⟨piece, pieces, hpieces⟩ := List.exists_cons_of_ne_nil (splitChars_ne_nil sep cs)
        simp only [List.cons_append, splitChars, if_neg hc, ih, hpieces]

end Text

namespace Line

-- ================================================================= lines

/-- Blanks that may stand around a line. -/
def IsBlank (s : String) : Prop := ∀ c ∈ s.toList, c = ' ' ∨ c = '\t' ∨ c = '\r'

/-- One line of text that holds nothing or a comment. -/
def IsRemark (s : String) : Prop :=
  '\n' ∉ s.toList ∧ ∃ blank body, s = blank ++ body ∧ IsBlank blank
    ∧ (body = "" ∨ body.toList.head? = some '#')

/-- An edit of the lines of a source that changes nothing they say. -/
inductive Restyle : List String → List String → Prop where
  /-- A line that holds nothing or a comment is put in. -/
  | remark {s : String} (before after : List String) (remark : IsRemark s) :
      Restyle (before ++ after) (before ++ s :: after)
  /-- The blanks around a line are changed. -/
  | margins {text left right left' right' : String} (before after : List String)
      (oneLine : '\n' ∉ text.toList) (left_blank : IsBlank left) (right_blank : IsBlank right)
      (left_blank' : IsBlank left') (right_blank' : IsBlank right') :
      Restyle (before ++ (left ++ text ++ right) :: after)
        (before ++ (left' ++ text ++ right') :: after)

variable {s text left right : String}

theorem IsBlank.isMargin (h : IsBlank s) : ∀ c ∈ s.toList, isMargin c := by
  intro c hc
  rcases h c hc with rfl | rfl | rfl <;> rfl

theorem IsBlank.newline_notMem (h : IsBlank s) : '\n' ∉ s.toList := by
  intro hmem
  rcases h '\n' hmem with heq | heq | heq <;> cases heq

/-- A line is what is between its blanks. -/
theorem ofText_margins (hleft : IsBlank left) (hright : IsBlank right) :
    ofText (left ++ text ++ right) = ofText text := by
  unfold ofText
  rw [String.toList_append, String.toList_append, Text.trimBoth_append_right hright.isMargin,
    Text.trimBoth_append_left hleft.isMargin]

/-- A remark is a comment once the blanks are off. -/
theorem isComment_remark (h : IsRemark s) : (ofText s).isComment := by
  obtain ⟨-, blank, body, rfl, hblank, hbody⟩ := h
  unfold ofText isComment
  rw [String.toList_append, Text.trimBoth_append_left hblank.isMargin]
  rcases hbody with rfl | hbody
  · rfl
  · obtain ⟨rest, hrest⟩ := List.head?_eq_some_iff.1 hbody
    have htrimmed : Text.trimBoth isMargin ('#' :: rest) = '#' :: Text.dropEnd isMargin rest :=
      Text.dropEnd_cons rfl
    rw [hrest, htrimmed, String.toList_ofList]
    rfl

-- =============================================================== sources

/-- One line of text has one line, or none if it is a comment. -/
theorem ofSource_line (h : '\n' ∉ s.toList) :
    ofSource s = [ofText s].filter fun l => !l.isComment := by
  simp [ofSource, Text.split, Text.splitChars_of_notMem h]

/-- A line end parts a source into two. -/
theorem ofSource_append (s rest : String) :
    ofSource (s ++ "\n" ++ rest) = ofSource s ++ ofSource rest := by
  have hcut : Text.split '\n' (s ++ "\n" ++ rest) = Text.split '\n' s ++ Text.split '\n' rest := by
    unfold Text.split
    rw [← List.map_append, ← Text.splitChars_append]
    simp
  rw [ofSource, hcut, List.map_append, List.filter_append]
  rfl

/-- The lines of a source are those of its parts. -/
theorem ofSource_intercalate : ∀ parts : List String,
    ofSource ("\n".intercalate parts) = parts.flatMap ofSource
  | [] => by
      rw [String.intercalate_nil]
      decide
  | [s] => by simp
  | s :: t :: parts => by
      rw [String.intercalate_cons_cons, ofSource_append, ofSource_intercalate (t :: parts)]
      rfl

theorem ofSource_remark (h : IsRemark s) : ofSource s = [] := by
  rw [ofSource_line h.1]
  simp [isComment_remark h]

theorem ofSource_margins (htext : '\n' ∉ text.toList) (hleft : IsBlank left)
    (hright : IsBlank right) : ofSource (left ++ text ++ right) = ofSource text := by
  have hline : '\n' ∉ (left ++ text ++ right).toList := by
    simp [htext, hleft.newline_notMem, hright.newline_notMem]
  rw [ofSource_line hline, ofSource_line htext, ofText_margins hleft hright]

/-- An edit of the parts of a source leaves their lines together. -/
theorem flatMap_restyle {parts parts' : List String} (h : Restyle parts parts') :
    parts.flatMap ofSource = parts'.flatMap ofSource := by
  cases h with
  | remark before after remark => simp [ofSource_remark remark]
  | margins before after oneLine left_blank right_blank left_blank' right_blank' =>
      simp only [List.flatMap_append, List.flatMap_cons,
        ofSource_margins oneLine left_blank right_blank,
        ofSource_margins oneLine left_blank' right_blank']

/-- Restyling a source leaves its lines. -/
theorem ofSource_restyle {parts parts' : List String} (h : Relation.EqvGen Restyle parts parts') :
    ofSource ("\n".intercalate parts) = ofSource ("\n".intercalate parts') := by
  rw [ofSource_intercalate, ofSource_intercalate]
  induction h with
  | rel parts parts' h => exact flatMap_restyle h
  | refl parts => rfl
  | symm parts parts' _ ih => exact ih.symm
  | trans parts parts' parts'' _ _ ih ih' => exact ih.trans ih'

end Line

end TickScript
