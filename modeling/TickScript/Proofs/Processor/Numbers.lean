/-
Taking a row of numbers. A script that is given several numbers in one
piece of text takes them one at a time, and what stands between them does
not matter as long as it is there and is no digit.

A number is found by its digits: what is in front of the first digit is
passed over, and the run of digits ends at the first character that is no
digit. So two numbers are kept apart by any text without digits that is not
empty, and the last number of the row may stand at the end of the text.

# Words

A `Numeral` is a number as it is written, with the text behind it. `row`
puts numerals together, `remainder` is the text behind the last of them.
-/
import TickScript.Proofs.Processor.Intake

namespace TickScript

-- ================================================================== text

/-- A number in a text: how many zeros are written before it, its value,
and the text behind it. -/
structure Numeral where
  zeros : Nat
  value : Nat
  after : String

namespace Numeral

/-- The number in decimal. -/
def digits (w : Numeral) : List Char := List.replicate w.zeros '0' ++ Nat.toDigits 10 w.value

/-- Text with numbers in it, from what stands before the first one. -/
def row (before : String) : List Numeral → String
  | [] => before
  | w :: ws => before ++ String.ofList w.digits ++ row w.after ws

/-- What stands behind the last number. -/
def remainder (before : String) : List Numeral → String
  | [] => before
  | w :: ws => remainder w.after ws

end Numeral

/-- Text that no number can be found in. -/
def Digitless (text : String) : Prop := ∀ c ∈ text.toList, ¬c.isDigit

namespace Numeral

/-- The digits of a number write it. -/
theorem digitsValue_digits (w : Numeral) : Number.digitsValue w.digits = w.value := by
  have hzeros : ∀ z, (List.replicate z '0').foldl
      (fun n c => 10 * n + Number.digitValue c) 0 = 0 := by
    intro z
    induction z with
    | zero => rfl
    | succ z ih => exact ih
  unfold Number.digitsValue digits
  rw [List.foldl_append, hzeros]
  exact Nat.ofDigitChars_toDigits (by decide) (by decide)

theorem isDigit_of_mem_digits {w : Numeral} {c : Char} (h : c ∈ w.digits) : c.isDigit := by
  rcases List.mem_append.1 h with hzero | hdigit
  · rw [List.eq_of_mem_replicate hzero]
    rfl
  · exact Nat.isDigit_of_mem_toDigits (by decide) (by decide) hdigit

/-- Even zero is written with a digit. -/
theorem digits_ne_nil (w : Numeral) : w.digits ≠ [] := by
  simp [digits, Nat.toDigits_ne_nil]

/-- A text that a row goes on with does not start with a digit. -/
theorem head_row {before : String} {ws : List Numeral} (hbefore : Digitless before)
    (hapart : ws ≠ [] → before ≠ "") :
    ∀ c ∈ (row before ws).toList.head?, ¬c.isDigit := by
  intro c hc
  cases ws with
  | nil => exact hbefore c (List.mem_of_mem_head? hc)
  | cons w ws =>
      have hne : before.toList ≠ [] := fun h => hapart nofun (String.toList_eq_nil_iff.1 h)
      obtain ⟨first, more, hfirst⟩ := List.exists_cons_of_ne_nil hne
      simp only [row, String.toList_append, hfirst, List.cons_append, List.head?_cons,
        Option.mem_some_iff] at hc
      subst hc
      exact hbefore first (by simp [hfirst])

end Numeral

-- =============================================================== finding

namespace Scene

variable {ds rest : List Char}

/-- A run of digits is taken up to where it ends. -/
theorem digitRun_append (hds : ∀ c ∈ ds, c.isDigit) (hrest : ∀ c ∈ rest.head?, ¬c.isDigit) :
    digitRun false (ds ++ rest) = (ds, rest) := by
  induction ds with
  | nil =>
      cases rest with
      | nil => rfl
      | cons c cs => simp [digitRun, hrest c rfl]
  | cons d ds ih =>
      obtain ⟨hd, hds⟩ := List.forall_mem_cons.1 hds
      simp [digitRun, hd, ih hds]

/-- The number found is the first, with all its digits. -/
theorem findNumber?_append {before : List Char} (hbefore : ∀ c ∈ before, ¬c.isDigit)
    (hne : ds ≠ []) (hds : ∀ c ∈ ds, c.isDigit) (hrest : ∀ c ∈ rest.head?, ¬c.isDigit) :
    findNumber? false (before ++ ds ++ rest) = some (ds, rest) := by
  have hstart : (before ++ ds ++ rest).dropWhile (fun c => !c.isDigit) = ds ++ rest := by
    rw [List.append_assoc, List.dropWhile_append_of_pos (by simpa using hbefore)]
    obtain ⟨d, more, rfl⟩ := List.exists_cons_of_ne_nil hne
    exact List.dropWhile_cons_of_neg (by simp [hds d List.mem_cons_self])
  unfold findNumber?
  rw [hstart]
  split
  next h => exact absurd (List.append_eq_nil_iff.1 h).1 hne
  next => rw [digitRun_append hds hrest]

/-- Without digits, no number is found. -/
theorem findNumber?_digitless {point : Bool} {input : List Char}
    (h : ∀ c ∈ input, ¬c.isDigit) : findNumber? point input = none := by
  unfold findNumber?
  rw [List.dropWhile_eq_nil_iff.2 (by simpa using h)]

-- ================================================================ taking

variable {s : Scene} {id : VarId}

/-- The script integer that a variable holds. -/
def Holds (s : Scene) (id : VarId) (i : Int) : Prop :=
  ∃ n : Int64, (s.proc.vars.get? id).bind Variable.value = some (.int n) ∧ n.toInt = i

/-- A number that an integer variable can hold is taken into it, and what
is behind the number is left. -/
theorem popNumber_int {digits rest : List Char} (hkind : s.proc.vars.kinds[id]? = some .int)
    (hfind : findNumber? false s.proc.input.toList = some (digits, rest))
    (hfits : Number.Fits (Number.digitsValue digits)) :
    ∃ s', s.popNumber id = .ok s' ∧ s'.Holds id (Number.digitsValue digits)
      ∧ s'.proc.input = String.ofList rest ∧ s'.proc.vars.kinds = s.proc.vars.kinds := by
  obtain ⟨hlt, -⟩ := List.getElem?_eq_some_iff.1 hkind
  obtain ⟨var, hvar, -, hkind'⟩ := Storage.get_of_lt hlt
  have hint : var.kind = .int := Option.some.inj (hkind'.symm.trans hkind)
  obtain ⟨n, hread⟩ : ∃ n, Number.readInt? (String.ofList digits) = some n := by
    rw [readInt?_found hfind, Number.fit?, if_pos hfits]
    exact ⟨_, rfl⟩
  have hn : n.toInt = Number.digitsValue digits := by
    rw [readInt?_found hfind] at hread
    exact Number.fit?_eq_some_iff.1 hread
  obtain ⟨s₁, hstore⟩ := store_plain (v := .int n) hvar hint.symm rfl
  have hassign : s.assign id (.int n) = .ok s₁ := by
    simp only [assign, Storage.get_eq_ok_iff.2 hvar, ok_bind, hint]
    exact hstore
  have hvalue : numberValue (String.ofList digits) = .ok (.int n) := by
    rw [numberValue, hread]
  refine ⟨{ s₁ with proc := { s₁.proc with input := String.ofList rest } }, ?_, ?_, rfl, ?_⟩
  · rw [popNumber_eq_bind hvar (by simpa [hint] using hfind), hvalue, ok_bind, hassign]
    rfl
  · obtain ⟨_, hget, -, -, rfl⟩ := store_eq_ok hstore
    obtain ⟨hlt, -⟩ := List.getElem?_eq_some_iff.1 hget
    exact ⟨n, by simp [Storage.put, Storage.get?, hlt], hn⟩
  · obtain ⟨_, hget, -, -, rfl⟩ := store_eq_ok hstore
    exact Storage.kinds_put hget rfl

/-- Where there is no number, none is taken. -/
theorem popNumber_digitless (hkind : s.proc.vars.kinds[id]? = some .int)
    (h : Digitless s.proc.input) :
    s.popNumber id
      = .error (.bare (if s.proc.input = "" then .inputEmpty else .numberNotFound)) := by
  obtain ⟨hlt, -⟩ := List.getElem?_eq_some_iff.1 hkind
  obtain ⟨var, hvar, -, -⟩ := Storage.get_of_lt hlt
  unfold popNumber
  split
  next => rfl
  next => simp only [Storage.get_eq_ok_iff.2 hvar, ok_bind, findNumber?_digitless h]

/-- Numbers taken into integer variables one after the other. -/
inductive Pops : Scene → List (VarId × Nat) → Scene → Prop
  | done {s : Scene} : Pops s [] s
  | pop {s s₁ s' : Scene} {id : VarId} {n : Nat} {more : List (VarId × Nat)}
      (executed : (Instruction.console (.pop (.number id))).execute s = .ok (.next, s₁))
      (holds : s₁.Holds id n) (rest : Pops s₁ more s') : Pops s ((id, n) :: more) s'

/-- Taking one number after the other takes a row of them. -/
theorem pops_of_row {before : String} {pops : List (VarId × Numeral)}
    (hinput : s.proc.input = Numeral.row before (pops.map Prod.snd))
    (hbefore : Digitless before)
    (hwords : ∀ p ∈ pops, Number.Fits p.2.value ∧ Digitless p.2.after)
    (hapart : ∀ p ∈ pops.dropLast, p.2.after ≠ "")
    (hints : ∀ p ∈ pops, s.proc.vars.kinds[p.1]? = some .int) :
    ∃ s', Pops s (pops.map fun p => (p.1, p.2.value)) s'
      ∧ s'.proc.input = Numeral.remainder before (pops.map Prod.snd)
      ∧ Digitless s'.proc.input ∧ s'.proc.vars.kinds = s.proc.vars.kinds := by
  induction pops generalizing s before with
  | nil => exact ⟨s, .done, hinput, hinput ▸ hbefore, rfl⟩
  | cons p pops ih =>
      obtain ⟨id, w⟩ := p
      obtain ⟨⟨hfits, hafter⟩, hwords⟩ := List.forall_mem_cons.1 hwords
      obtain ⟨hint, hints⟩ := List.forall_mem_cons.1 hints
      have hnext : pops.map Prod.snd ≠ [] → w.after ≠ "" := by
        intro hne
        obtain ⟨p, more, rfl⟩ := List.exists_cons_of_ne_nil (List.map_eq_nil_iff.not.1 hne)
        exact hapart (id, w) (by simp)
      have hfind : findNumber? false s.proc.input.toList
          = some (w.digits, (Numeral.row w.after (pops.map Prod.snd)).toList) := by
        rw [hinput]
        simp only [List.map_cons, Numeral.row, String.toList_append, String.toList_ofList]
        exact findNumber?_append hbefore w.digits_ne_nil
          (fun _ => Numeral.isDigit_of_mem_digits) (Numeral.head_row hafter hnext)
      obtain ⟨s₁, hpop, hholds, hleft, hkinds⟩ :=
        popNumber_int hint hfind (w.digitsValue_digits.symm ▸ hfits)
      rw [w.digitsValue_digits] at hholds
      have hapart' : ∀ p ∈ pops.dropLast, p.2.after ≠ "" := by
        intro p hp
        apply hapart p
        cases pops with
        | nil => cases hp
        | cons q qs => exact List.mem_cons_of_mem _ hp
      obtain ⟨s', hpops, hinput', hdigitless, hkinds'⟩ :=
        ih (hleft.trans String.ofList_toList) hafter hwords hapart'
          (fun p hp => hkinds ▸ hints p hp)
      refine ⟨s', .pop ?_ hholds hpops, hinput', hdigitless, hkinds'.trans hkinds⟩
      simp [Instruction.execute, console, hpop, Except.map]

/-- Taking numbers reads the input in order.

If the input is a row of numbers that are script integers, kept apart by
text without digits, then taking as many numbers into integer variables
gives these numbers in their order and leaves what stands behind the last
one. Taking one more fails, for want of a number or of any input, and the
fault changes neither the input nor the variables. -/
theorem pops_in_order {before : String} {pops : List (VarId × Numeral)}
    (hinput : s.proc.input = Numeral.row before (pops.map Prod.snd))
    (hbefore : Digitless before)
    (hwords : ∀ p ∈ pops, Number.Fits p.2.value ∧ Digitless p.2.after)
    (hapart : ∀ p ∈ pops.dropLast, p.2.after ≠ "")
    (hints : ∀ p ∈ pops, s.proc.vars.kinds[p.1]? = some .int) :
    ∃ s', Pops s (pops.map fun p => (p.1, p.2.value)) s'
      ∧ s'.proc.input = Numeral.remainder before (pops.map Prod.snd)
      ∧ ∀ id, s.proc.vars.kinds[id]? = some .int →
          ∃ fault, (Instruction.console (.pop (.number id))).execute s' = .error fault
            ∧ fault.cause = (if s'.proc.input = "" then .inputEmpty else .numberNotFound)
            ∧ (s'.fail fault).proc.input = s'.proc.input
            ∧ (s'.fail fault).proc.vars = s'.proc.vars := by
  obtain ⟨s', hpops, hleft, hdigitless, hkinds⟩ :=
    pops_of_row hinput hbefore hwords hapart hints
  refine ⟨s', hpops, hleft, fun id hint => ?_⟩
  have hpop := popNumber_digitless (hkinds ▸ hint) hdigitless
  exact ⟨_, map_eq_error.2 hpop, rfl, rfl, rfl⟩

theorem pops_in_order_threeNumbers :
    ∃ s', Pops (supplied "a007, 12é9!") [(0, 7), (0, 12), (0, 9)] s'
      ∧ s'.proc.input = "!"
      ∧ ∃ fault, (Instruction.console (.pop (.number 0))).execute s' = .error fault
          ∧ fault.cause = .numberNotFound ∧ (s'.fail fault).proc.input = "!" := by
  have hinput : (supplied "a007, 12é9!").proc.input = Numeral.row "a"
      ([(0, ⟨2, 7, ", "⟩), (0, ⟨0, 12, "é"⟩), (0, ⟨0, 9, "!"⟩)].map Prod.snd) := by
    decide +kernel
  obtain ⟨s', hpops, hleft, hmore⟩ := pops_in_order hinput (by simp [Digitless])
    (by simp [Digitless]; decide) (by decide) (by decide)
  have hleft' : s'.proc.input = "!" := hleft
  obtain ⟨fault, hfault, hcause, hinput, -⟩ := hmore 0 (by decide)
  refine ⟨s', hpops, hleft', fault, hfault, ?_, hinput.trans hleft'⟩
  rw [hcause, hleft']
  rfl

end Scene

end TickScript
