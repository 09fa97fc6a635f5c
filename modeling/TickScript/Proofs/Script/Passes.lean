/-
The two passes, line by line.

Compiling keeps a queue of labels that wait, marks the lines whose labels
were refused, collects the faults of both passes one after the other and
sorts them in the end. What comes of it can be said of one line after the
other: `labels` binds each label to the next line that is none as soon as it
comes to the label, and `instructions` makes the entry of each line, with
its fault in it if there is one. The passes are shown to do the same
(`compile_eq`).

# What a failure leaves

A line is compiled in place, so a line that fails could leave a variable
declared. None does (`line_atomic`): everything is checked before the one
variable is added, and nothing is checked after that. The same is true of
labels.

# The queue

Labels that wait are bound before anything else is done to the variables, and
all to the same line. So it makes no difference if they are bound at once, to
the line after as many labels as still follow (`FirstPass.finish_drain`). A
queue that is drained as soon as a label enters it is no queue at all, which
is what `labels` makes of it (`firstPass_eq`).

# The faults

The first pass reports the labels, the second all other lines. Together
these are the faults of all entries, in another order
(`SecondPass.foldl_step`). Each is on the line of its entry
(`entries_placed`), so there is one order by lines, that of the entries
(`sortByLine_eq`).
-/
import Mathlib.Data.List.ReduceOption
import Mathlib.Data.List.Sort
import TickScript.Proofs.Script.Places

namespace TickScript

/-- The fault of a line that has one. -/
def lineFault? : Except Fault Instruction → Option Fault
  | .ok _ => none
  | .error fault => some fault

namespace Compiler

open InPlace

variable {l : Line} {vars vars' : Storage} {registry : Registry} {i : Instruction} {fault : Fault}

-- ================================================= what a failure leaves

theorem add_atomic (v : Variable) (vars : Storage) : Atomic Eq (add v) vars := atomic_once _

/-- A declaration checks all of its line before it adds its variable. -/
theorem declare_atomic (l : Line) (vars : Storage) : Atomic Eq (declare l) vars := by
  unfold declare
  split
  next =>
    simp only
    split
    next => exact (Looks.throw _).atomic
    next =>
      refine .after (looks_look _) fun name vars _ => ?_
      refine .after (looks_look _) fun o vars _ => ?_
      exact .before (add_atomic _ vars) fun id => .pure _
  next => exact (Looks.throw _).atomic

/-- So does `create`. -/
theorem create_atomic (registry : Registry) (c : Call) (vars : Storage) :
    Atomic Eq (create registry c) vars := by
  refine .after (looks_look _) fun ⟨first, second⟩ vars _ => ?_
  refine .after (looks_look _) fun _ vars _ => ?_
  refine .after (looks_look _) fun name vars _ => ?_
  refine .after (looks_look _) fun typeName vars _ => ?_
  split
  next =>
    refine .after (looks_look _) fun name vars _ => ?_
    split
    next => exact (Looks.throw _).atomic
    next =>
      split
      next => exact (Looks.throw _).atomic
      next => exact .before (add_atomic _ vars) fun id => .pure _
  next => exact (Looks.throw _).atomic

theorem component_atomic (registry : Registry) (c : Call) (vars : Storage) :
    Atomic Eq (component registry c) vars := by
  unfold component
  split
  next => exact create_atomic registry c vars
  next =>
    split
    next => exact (looks_look _).atomic
    next => exact (Looks.throw _).atomic

/-- A line that fails declares nothing. -/
theorem line_atomic (registry : Registry) (l : Line) (vars : Storage) :
    Atomic Eq (line registry l) vars := by
  unfold line
  split
  next => exact declare_atomic l vars
  next => exact (looks_look _).atomic
  next => exact (looks_look _).atomic
  next =>
    split
    next => exact (Sure.pure _).atomic
    next => exact (Looks.throw _).atomic
  next => exact .after (looks_look _) fun c vars _ => (looks_look _).atomic
  next => exact .after (looks_look _) fun c vars _ => (looks_look _).atomic
  next => exact .after (looks_look _) fun c vars _ => (looks_look _).atomic
  next => exact .after (looks_look _) fun c vars _ => component_atomic registry c vars
  next => exact (Looks.throw _).atomic

/-- Nor does a label that is refused. -/
theorem bindLabel_atomic (l : Line) (target : Nat) (vars : Storage) :
    Atomic Eq (bindLabel l target) vars :=
  .after (looks_look _) fun _ vars _ => add_atomic _ vars

-- ============================================================ first pass

/-- The first pass, from line `index` on, without a queue: declares the
labels, each bound to the next line that is not one, and says which are at
fault. -/
def labels : (index : Nat) → List Line → Storage → List (Option Fault) × Storage
  | _, [], vars => ([], vars)
  | index, l :: ls, vars =>
    if l.isLabel then
      match (bindLabel l (index + 1 + (ls.takeWhile Line.isLabel).length)).run vars with
      | .ok _ vars =>
        let (faults, vars) := labels (index + 1) ls vars
        (none :: faults, vars)
      | .error fault _ =>
        let (faults, vars) := labels (index + 1) ls vars
        (some (fault.atLine (some index)) :: faults, vars)
    else
      let (faults, vars) := labels (index + 1) ls vars
      (none :: faults, vars)

/-- What the first pass does with a line: the fault that it finds, and the
variables that it goes on with. -/
inductive Binding (vars : Storage) (index target : Nat) (l : Line) :
    Option Fault → Storage → Prop where
  | passed (noLabel : l.isLabel = false) : Binding vars index target l none vars
  | bound {id : VarId} {vars' : Storage} (isLabel : l.isLabel)
      (bound : (bindLabel l target).run vars = .ok id vars') :
      Binding vars index target l none vars'
  | refused {fault : Fault} (isLabel : l.isLabel)
      (refused : (bindLabel l target).run vars = .error fault vars) :
      Binding vars index target l (some (fault.atLine (some index))) vars

theorem labels_cons (index : Nat) (l : Line) (ls : List Line) (vars : Storage) :
    ∃ first vars', Binding vars index (index + 1 + (ls.takeWhile Line.isLabel).length) l first vars'
      ∧ labels index (l :: ls) vars
        = (first :: (labels (index + 1) ls vars').1, (labels (index + 1) ls vars').2) := by
  cases hlabel : l.isLabel with
  | false => exact ⟨none, vars, .passed hlabel, by simp [labels, hlabel]⟩
  | true =>
      cases hbind : (bindLabel l (index + 1 + (ls.takeWhile Line.isLabel).length)).run vars with
      | ok id vars' => exact ⟨none, vars', .bound hlabel hbind, by simp [labels, hlabel, hbind]⟩
      | error fault vars' =>
          obtain rfl := bindLabel_atomic _ _ _ _ _ hbind
          exact ⟨_, vars, .refused hlabel hbind, by simp [labels, hlabel, hbind]⟩

theorem length_labels : ∀ {ls : List Line} {index : Nat} {vars : Storage},
    (labels index ls vars).1.length = ls.length
  | [], _, _ => rfl
  | l :: ls, index, vars => by
      obtain ⟨first, vars', -, hlabels⟩ := labels_cons index l ls vars
      rw [hlabels, List.length_cons, List.length_cons, length_labels]

/-- What the first pass reports is why a label was refused, placed on
its line. -/
theorem labels_refused : ∀ {ls : List Line} {index n : Nat} {vars : Storage},
    (labels index ls vars).1[n]? = some (some fault) →
      ∃ sofar l target reason, ls[n]? = some l ∧ l.isLabel
        ∧ (bindLabel l target).run sofar = .error reason sofar
        ∧ fault = reason.atLine (some (index + n))
  | [], _, _, _, h => by cases h
  | l :: ls, index, n, vars, h => by
      obtain ⟨first, vars', hbinding, hlabels⟩ := labels_cons index l ls vars
      rw [hlabels] at h
      cases n with
      | zero =>
          cases h
          cases hbinding with
          | refused isLabel refused => exact ⟨_, l, _, _, rfl, isLabel, refused, rfl⟩
      | succ n =>
          have hindex : index + (n + 1) = index + 1 + n := by omega
          rw [hindex]
          exact labels_refused h

/-- The fault of a label is of compiling, and was on no line before. -/
theorem bindLabel_fault {target : Nat} (h : (bindLabel l target).run vars = .error fault vars') :
    fault.line = none ∧ fault.OfCompiling :=
  bindLabel_refuses vars l target fault (outcome_eq_error_iff.2 ⟨vars', h⟩)

/-- That of another line, too. -/
theorem line_fault (h : (line registry l).run vars = .error fault vars') :
    fault.line = none ∧ fault.OfCompiling :=
  line_refuses vars registry l fault (outcome_eq_error_iff.2 ⟨vars', h⟩)

/-- What is wrong with a label is placed on its line. -/
theorem labels_placed {ls : List Line} {index n : Nat}
    (h : (labels index ls vars).1[n]? = some (some fault)) : fault.line = some (index + n) := by
  obtain ⟨_, _, _, reason, -, -, hreason, rfl⟩ := labels_refused h
  simp [Fault.atLine, (bindLabel_fault hreason).1]

namespace FirstPass

variable {index target : Nat} {p : FirstPass}

-- ============================================================= the queue

/-- Draining leaves no label waiting. -/
theorem drain_pending (target : Nat) (p : FirstPass) : (p.drain target).pending = #[] := by
  unfold drain
  rw [← Array.foldl_toList]
  have hkeep : ∀ (labels : List (Nat × Line)) (p : FirstPass),
      (labels.foldl (settle target) p).pending = p.pending := by
    intro labels
    induction labels with
    | nil => exact fun _ => rfl
    | cons label labels ih =>
        intro p
        rw [List.foldl_cons, ih]
        unfold settle
        split <;> rfl
  exact hkeep _ _

/-- There is nothing to do without labels that wait. -/
theorem drain_of_pending (hp : p.pending = #[]) (target : Nat) : p.drain target = p := by
  unfold drain
  rw [hp]
  cases p
  cases hp
  rfl

/-- The label that has waited least is bound last. -/
theorem drain_push (target : Nat) (p : FirstPass) (label : Nat × Line) :
    { p with pending := p.pending.push label }.drain target
      = settle target (p.drain target) label := by
  simp only [drain, Array.foldl_push]

/-- The first pass, from line `index` on. -/
def finish (index : Nat) (ls : List Line) (p : FirstPass) : FirstPass :=
  ((ls.zipIdx index).foldl step p).drain (index + ls.length)

theorem finish_nil : p.finish index [] = p.drain index := rfl

theorem finish_label {ls : List Line} (hlabel : l.isLabel) :
    p.finish index (l :: ls)
      = { p with pending := p.pending.push (index, l) }.finish (index + 1) ls := by
  simp [finish, step, hlabel, Nat.add_comm, Nat.add_left_comm]

theorem finish_other {ls : List Line} (hlabel : l.isLabel = false) :
    p.finish index (l :: ls) = (p.drain index).finish (index + 1) ls := by
  simp [finish, step, hlabel, Nat.add_comm, Nat.add_left_comm]

/-- Labels that wait may as well be bound at once, to the first line that
is none. -/
theorem finish_drain : ∀ (ls : List Line) (index : Nat) (p : FirstPass),
    p.finish index ls
      = (p.drain (index + (ls.takeWhile Line.isLabel).length)).finish index ls
  | [], index, p => by
      rw [finish_nil, finish_nil, List.takeWhile_nil, List.length_nil, Nat.add_zero,
        drain_of_pending (drain_pending index p)]
  | l :: ls, index, p => by
      cases hlabel : l.isLabel with
      | false =>
          have htarget : index + ((l :: ls).takeWhile Line.isLabel).length = index := by
            simp [hlabel]
          rw [htarget, finish_other hlabel, finish_other hlabel,
            drain_of_pending (drain_pending index p)]
      | true =>
          -- both sides come to the label, and bind it after those that wait
          have htarget : index + ((l :: ls).takeWhile Line.isLabel).length
              = index + 1 + (ls.takeWhile Line.isLabel).length := by
            rw [List.takeWhile_cons_of_pos hlabel, List.length_cons]
            omega
          rw [htarget, finish_label hlabel, finish_label hlabel, finish_drain ls, drain_push,
            finish_drain ls (index + 1) { p.drain _ with pending := _ }, drain_push,
            drain_of_pending (drain_pending _ p)]

/-- With no label waiting, one that is come to is bound at once. -/
theorem finish_cons_label {ls : List Line} (hp : p.pending = #[]) (hlabel : l.isLabel) :
    p.finish index (l :: ls)
      = (settle (index + 1 + (ls.takeWhile Line.isLabel).length) p (index, l)).finish
          (index + 1) ls := by
  rw [finish_label hlabel, finish_drain, drain_push, drain_of_pending hp]

/-- Line by line, the first pass declares what `labels` does, and reports
and marks the lines that it finds at fault. -/
theorem finish_eq : ∀ (ls : List Line) (index : Nat) (p : FirstPass) (before : List Bool),
    p.pending = #[] → before.length = index →
    p.bad.toList = before ++ List.replicate ls.length false →
    (p.finish index ls).vars = (labels index ls p.vars).2
      ∧ (p.finish index ls).bad.toList = before ++ (labels index ls p.vars).1.map Option.isSome
      ∧ (p.finish index ls).faults.toList
        = p.faults.toList ++ (labels index ls p.vars).1.reduceOption
  | [], index, p, before, hp, _, hbad => by
      rw [finish_nil, drain_of_pending hp]
      exact ⟨rfl, hbad, (List.append_nil _).symm⟩
  | l :: ls, index, p, before, hp, hbefore, hbad => by
      rw [List.length_cons, List.replicate_succ] at hbad
      obtain ⟨first, vars', hbinding, hlabels⟩ := labels_cons index l ls p.vars
      rw [hlabels]
      cases hbinding with
      | passed noLabel =>
          rw [finish_other noLabel, drain_of_pending hp]
          obtain ⟨hvars, hmarks, hfaults⟩ := finish_eq ls (index + 1) p (before ++ [false]) hp
            (by simp [hbefore]) (by simp [hbad])
          exact ⟨hvars, by simp [hmarks], by simp [hfaults]⟩
      | bound isLabel bound =>
          rw [finish_cons_label hp isLabel]
          simp only [settle, bound]
          obtain ⟨hvars, hmarks, hfaults⟩ := finish_eq ls (index + 1) { p with vars := vars' }
            (before ++ [false]) hp (by simp [hbefore]) (by simp [hbad])
          exact ⟨hvars, by simp [hmarks], by simp [hfaults]⟩
      | @refused fault isLabel refused =>
          rw [finish_cons_label hp isLabel]
          simp only [settle, refused]
          obtain ⟨hvars, hmarks, hfaults⟩ := finish_eq ls (index + 1)
            { p with
              bad := p.bad.setIfInBounds index true
              faults := p.faults.push (fault.atLine (some index)) }
            (before ++ [true]) hp (by simp [hbefore]) (by simp [hbad, ← hbefore])
          exact ⟨hvars, by simp [hmarks], by simp [hfaults]⟩

end FirstPass

/-- The first pass declares what `labels` does, marks the lines that are at
fault and reports them. -/
theorem firstPass_eq (lines : List Line) (vars : Storage) :
    (firstPass lines vars).vars = (labels 0 lines vars).2
      ∧ (firstPass lines vars).bad.toList = (labels 0 lines vars).1.map Option.isSome
      ∧ (firstPass lines vars).faults.toList = (labels 0 lines vars).1.reduceOption := by
  have hfinish : firstPass lines vars
      = (FirstPass.start lines.length vars).finish 0 lines := by
    rw [firstPass, FirstPass.finish, Nat.zero_add]
  rw [hfinish]
  obtain ⟨hvars, hmarks, hfaults⟩ :=
    FirstPass.finish_eq lines 0 (.start lines.length vars) [] rfl rfl (by simp [FirstPass.start])
  exact ⟨hvars, hmarks, hfaults⟩

-- =========================================================== second pass

/-- The second pass, from line `index` on: makes the entries of the lines.
Each line comes with what the first pass has found wrong with it. -/
def instructions (registry : Registry) :
    (index : Nat) → List (Line × Option Fault) → Storage →
      List (Except Fault Instruction) × Storage
  | _, [], vars => ([], vars)
  | index, (l, labelFault) :: ls, vars =>
    if l.isLabel then
      let entry := match labelFault with
        | none => .ok .label
        | some fault => .error fault
      let (entries, vars) := instructions registry (index + 1) ls vars
      (entry :: entries, vars)
    else
      match (line registry l).run vars with
      | .ok i vars =>
        let (entries, vars) := instructions registry (index + 1) ls vars
        (.ok i :: entries, vars)
      | .error fault _ =>
        let (entries, vars) := instructions registry (index + 1) ls vars
        (.error (fault.atLine (some index)) :: entries, vars)

/-- What the second pass does with a line, given what the first found wrong
with it: the entry that it makes, and the variables that it goes on with. -/
inductive Making (registry : Registry) (vars : Storage) (index : Nat) (l : Line) :
    Option Fault → Except Fault Instruction → Storage → Prop where
  | label (isLabel : l.isLabel) : Making registry vars index l none (.ok .label) vars
  | mislabel {fault : Fault} (isLabel : l.isLabel) :
      Making registry vars index l (some fault) (.error fault) vars
  | compiled {labelFault : Option Fault} {i : Instruction} {vars' : Storage}
      (noLabel : l.isLabel = false) (made : (line registry l).run vars = .ok i vars') :
      Making registry vars index l labelFault (.ok i) vars'
  | refused {labelFault : Option Fault} {fault : Fault} (noLabel : l.isLabel = false)
      (refused : (line registry l).run vars = .error fault vars) :
      Making registry vars index l labelFault (.error (fault.atLine (some index))) vars

theorem instructions_cons (registry : Registry) (index : Nat) (l : Line)
    (labelFault : Option Fault) (ls : List (Line × Option Fault)) (vars : Storage) :
    ∃ first vars', Making registry vars index l labelFault first vars'
      ∧ instructions registry index ((l, labelFault) :: ls) vars
        = (first :: (instructions registry (index + 1) ls vars').1,
          (instructions registry (index + 1) ls vars').2) := by
  cases hlabel : l.isLabel with
  | true =>
      cases labelFault with
      | none => exact ⟨_, vars, .label hlabel, by simp [instructions, hlabel]⟩
      | some fault => exact ⟨_, vars, .mislabel hlabel, by simp [instructions, hlabel]⟩
  | false =>
      cases hline : (line registry l).run vars with
      | ok i vars' => exact ⟨_, vars', .compiled hlabel hline, by simp [instructions, hlabel, hline]⟩
      | error fault vars' =>
          obtain rfl := line_atomic _ _ _ _ _ hline
          exact ⟨_, vars, .refused hlabel hline, by simp [instructions, hlabel, hline]⟩

theorem length_instructions : ∀ {ls : List (Line × Option Fault)} {index : Nat} {vars : Storage},
    (instructions registry index ls vars).1.length = ls.length
  | [], _, _ => rfl
  | (l, labelFault) :: ls, index, vars => by
      obtain ⟨first, vars', -, hall⟩ := instructions_cons registry index l labelFault ls vars
      rw [hall, List.length_cons, List.length_cons, length_instructions]

/-- The fault of an entry is on its line. -/
theorem instructions_placed : ∀ {ls : List (Line × Option Fault)} {index n : Nat} {vars : Storage},
    (∀ k l fault, ls[k]? = some (l, some fault) → fault.line = some (index + k)) →
    (instructions registry index ls vars).1[n]? = some (.error fault) →
    fault.line = some (index + n)
  | [], _, _, _, _, h => by cases h
  | (l, labelFault) :: ls, index, n, vars, hlabels, h => by
      obtain ⟨first, vars', hmaking, hall⟩ := instructions_cons registry index l labelFault ls vars
      rw [hall] at h
      cases n with
      | zero =>
          cases h
          cases hmaking with
          | mislabel isLabel => exact hlabels 0 l fault rfl
          | refused noLabel refused => simp [Fault.atLine, (line_fault refused).1]
      | succ n =>
          have hindex : index + (n + 1) = index + 1 + n := by omega
          rw [hindex]
          refine instructions_placed (fun k l' fault' hl' => ?_) h
          rw [hlabels (k + 1) l' fault' hl', Nat.add_right_comm]
          rfl

/-- Line by line, the second pass makes the entries that `instructions`
does. With the faults of labels, which it does not report again, its faults
are those of the entries. -/
theorem SecondPass.foldl_step (registry : Registry) (bad : Array Bool) :
    ∀ (ls : List (Line × Option Fault)) (index : Nat) (p : SecondPass),
    (∀ k q, ls[k]? = some q → bad.getD (index + k) false = q.2.isSome) →
    (∀ q ∈ ls, q.1.isLabel = false → q.2 = none) →
    let p' := ((ls.map Prod.fst).zipIdx index).foldl (step registry bad) p
    p'.vars = (instructions registry index ls p.vars).2
      ∧ p'.script.toList
        = p.script.toList ++ (instructions registry index ls p.vars).1.map Except.toOption
      ∧ (p'.faults.toList ++ (ls.map Prod.snd).reduceOption).Perm
          (p.faults.toList ++ (instructions registry index ls p.vars).1.filterMap lineFault?)
  | [], index, p, _, _ => ⟨rfl, (List.append_nil _).symm, .refl _⟩
  | (l, labelFault) :: ls, index, p, hbad, hlabels => by
      obtain ⟨first, vars', hmaking, hall⟩ :=
        instructions_cons registry index l labelFault ls p.vars
      have hmark : bad.getD index false = labelFault.isSome := hbad 0 _ rfl
      have hbad' : ∀ k q, ls[k]? = some q → bad.getD (index + 1 + k) false = q.2.isSome := by
        intro k q hq
        rw [← hbad (k + 1) q hq, Nat.add_right_comm]
        rfl
      have hlabels' : ∀ q ∈ ls, q.1.isLabel = false → q.2 = none := fun q hq =>
        hlabels q (List.mem_cons_of_mem _ hq)
      have hrest := fun p => SecondPass.foldl_step registry bad ls (index + 1) p hbad' hlabels'
      simp only [hall, List.map_cons, List.zipIdx_cons, List.foldl_cons]
      cases hmaking with
      | label isLabel =>
          simp only [step, isLabel, if_true, hmark]
          obtain ⟨hvars, hscript, hfaults⟩ := hrest { p with script := p.script.push (some .label) }
          exact ⟨hvars, by simp [hscript, Except.toOption], hfaults⟩
      | @mislabel fault isLabel =>
          simp only [step, isLabel, if_true, hmark]
          obtain ⟨hvars, hscript, hfaults⟩ := hrest { p with script := p.script.push none }
          refine ⟨hvars, by simp [hscript, Except.toOption], ?_⟩
          exact List.perm_middle.trans ((hfaults.cons fault).trans List.perm_middle.symm)
      | compiled noLabel made =>
          obtain rfl : labelFault = none := hlabels _ List.mem_cons_self noLabel
          simp only [step, noLabel, made]
          obtain ⟨hvars, hscript, hfaults⟩ :=
            hrest { p with vars := vars', script := p.script.push (some _) }
          exact ⟨hvars, by simp [hscript, Except.toOption], hfaults⟩
      | @refused _ fault noLabel refused =>
          obtain rfl : labelFault = none := hlabels _ List.mem_cons_self noLabel
          simp only [step, noLabel, refused]
          obtain ⟨hvars, hscript, hfaults⟩ := hrest
            { p with
              script := p.script.push none
              faults := p.faults.push (fault.atLine (some index)) }
          refine ⟨hvars, by simp [hscript, Except.toOption], hfaults.trans ?_⟩
          simp [lineFault?]

-- =============================================================== sorting

/-- Faults can always be put in order. -/
instance noLater_total : Std.Total fun fault fault' : Fault => noLater fault fault' = true := by
  refine ⟨fun fault fault' => ?_⟩
  unfold noLater
  rcases fault.line with _ | n <;> rcases fault'.line with _ | n' <;> simp
  exact Nat.le_total n n'

instance noLater_trans : IsTrans Fault fun fault fault' => noLater fault fault' = true := by
  refine ⟨fun fault fault' fault'' => ?_⟩
  unfold noLater
  rcases fault.line with _ | n <;> rcases fault'.line with _ | n' <;>
    rcases fault''.line with _ | n'' <;> simp
  exact Nat.le_trans

/-- Faults that neither comes before the other of are on one line. -/
theorem line_eq_of_noLater {fault fault' : Fault} (h : noLater fault fault')
    (h' : noLater fault' fault) : fault.line = fault'.line := by
  unfold noLater at h h'
  rcases hline : fault.line with _ | n <;> rcases hline' : fault'.line with _ | n' <;>
    simp [hline, hline'] at h h' ⊢
  exact Nat.le_antisymm h h'

/-- Faults are sorted by insertion. -/
theorem sortByLine_eq_insertionSort (faults : List Fault) :
    sortByLine faults
      = faults.insertionSort fun fault fault' => noLater fault fault' = true := by
  have hinsert : ∀ (fault : Fault) (faults : List Fault), insertByLine fault faults
      = faults.orderedInsert (fun fault fault' => noLater fault fault' = true) fault := by
    intro fault faults
    induction faults with
    | nil => rfl
    | cons fault' faults ih => rw [insertByLine, List.orderedInsert_cons, ih]
  induction faults with
  | nil => rfl
  | cons fault faults ih =>
      rw [List.insertionSort_cons, ← ih, ← hinsert]
      rfl

/-- Two faults of which the first comes no later stay in order: sorting is
stable. -/
theorem sortByLine_stable {faults : List Fault} {fault fault' : Fault}
    (h : noLater fault fault') (hfaults : [fault, fault'].Sublist faults) :
    [fault, fault'].Sublist (sortByLine faults) := by
  rw [sortByLine_eq_insertionSort]
  exact List.pair_sublist_insertionSort h hfaults

/-- Faults on lines of their own have only one order. -/
theorem sortByLine_eq {faults faults' : List Fault} {bad : List Nat}
    (hfaults : faults.Perm faults') (hbad : faults'.map Fault.line = bad.map some)
    (hlt : bad.Pairwise (· < ·)) : sortByLine faults = faults' := by
  have hsorted : faults'.Pairwise fun fault fault' => noLater fault fault' := by
    have hlines : (faults'.map Fault.line).Pairwise fun line line' =>
        ∃ n n', line = some n ∧ line' = some n' ∧ n < n' := by
      rw [hbad, List.pairwise_map]
      exact hlt.imp fun {n n'} hn => ⟨n, n', rfl, rfl, hn⟩
    refine (List.pairwise_map.1 hlines).imp ?_
    rintro fault fault' ⟨n, n', hn, hn', hlt⟩
    simpa [noLater, hn, hn'] using hlt.le
  have hdistinct : (faults'.map Fault.line).Nodup := by
    rw [hbad]
    exact (hlt.imp Nat.ne_of_lt).map _ fun _ _ hne heq => hne (Option.some.inj heq)
  rw [sortByLine_eq_insertionSort]
  have hperm := (List.perm_insertionSort (fun fault fault' => noLater fault fault' = true) faults).trans
    hfaults
  refine List.Perm.eq_of_pairwise ?_ (List.pairwise_insertionSort _ faults) hsorted hperm
  intro fault fault' hmem hmem' h h'
  exact List.inj_on_of_nodup_map hdistinct (hperm.mem_iff.1 hmem) hmem' (line_eq_of_noLater h h')

-- =============================================================== sources

/-- The faults of entries that are placed on their lines, line by line. -/
theorem filterMap_lineFault? : ∀ (entries : List (Except Fault Instruction)) (index : Nat),
    (∀ n fault, entries[n]? = some (.error fault) → fault.line = some (index + n)) →
    (entries.filterMap lineFault?).map Fault.line
      = ((entries.zipIdx index).filter fun (entry, _) => (lineFault? entry).isSome).map
          fun (_, n) => some n
  | [], _, _ => rfl
  | entry :: entries, index, hplaced => by
      have hrest := filterMap_lineFault? entries (index + 1) fun n fault h => by
        rw [hplaced (n + 1) fault h, Nat.add_right_comm]
        rfl
      cases entry with
      | ok i => exact hrest
      | error fault =>
          have hline := hplaced 0 fault rfl
          simp only [lineFault?, List.filterMap_cons, List.map_cons, hrest, hline, List.zipIdx_cons,
            List.filter_cons, Option.isSome_some, if_true, Nat.add_zero]

/-- The lines of a source, each with what the first pass has found wrong
with it. -/
def labelled (source : String) (vars : Storage) : List (Line × Option Fault) :=
  (Line.ofSource source).zip (labels 0 (Line.ofSource source) vars).1

/-- What the lines of a source are compiled to, with the faults of those
that have one. -/
def entries (source : String) (vars : Storage) (registry : Registry) :
    List (Except Fault Instruction) :=
  (instructions registry 0 (labelled source vars) (labels 0 (Line.ofSource source) vars).2).1

theorem length_entries (source : String) (vars : Storage) (registry : Registry) :
    (entries source vars registry).length = (Line.ofSource source).length := by
  simp [entries, labelled, length_instructions, length_labels]

variable {source : String} {n : Nat} {labelFault : Option Fault}

theorem labelled_getElem?_eq_some : (labelled source vars)[n]? = some (l, labelFault) ↔
    (Line.ofSource source)[n]? = some l
      ∧ (labels 0 (Line.ofSource source) vars).1[n]? = some labelFault :=
  List.getElem?_zip_eq_some

theorem labelled_map_fst (source : String) (vars : Storage) :
    (labelled source vars).map Prod.fst = Line.ofSource source :=
  List.map_fst_zip (Nat.le_of_eq length_labels.symm)

/-- The fault of an entry is on its line. -/
theorem entries_placed (h : (entries source vars registry)[n]? = some (.error fault)) :
    fault.line = some n := by
  have hplaced : fault.line = some (0 + n) := by
    refine instructions_placed (fun k l fault hlabel => ?_) h
    exact labels_placed (labelled_getElem?_eq_some.1 hlabel).2
  rwa [Nat.zero_add] at hplaced

/-- The faults of the entries are in order of lines, and are on the lines
that have none but them. -/
theorem entries_report (source : String) (vars : Storage) (registry : Registry) :
    ∃ bad : List Nat,
      ((entries source vars registry).filterMap lineFault?).map Fault.line = bad.map some
      ∧ bad.Pairwise (· < ·)
      ∧ ∀ n, n ∈ bad ↔ ∃ fault, (entries source vars registry)[n]? = some (.error fault) := by
  let bad := (entries source vars registry).zipIdx.filter fun (entry, _) => (lineFault? entry).isSome
  refine ⟨bad.map Prod.snd, ?_, ?_, fun n => ?_⟩
  · have hplaced := filterMap_lineFault? (entries source vars registry) 0
      fun n fault h => by rw [entries_placed h, Nat.zero_add]
    rw [List.map_map]
    exact hplaced
  · have hsub : (bad.map Prod.snd).Sublist (List.range' 0 (entries source vars registry).length) := by
      rw [← List.zipIdx_map_snd]
      exact List.filter_sublist.map Prod.snd
    exact List.Pairwise.sublist hsub List.pairwise_lt_range'
  · simp only [bad, List.mem_map, List.mem_filter, List.mem_zipIdx_iff_getElem?]
    constructor
    · rintro ⟨⟨entry, n'⟩, ⟨hentry, hfault⟩, rfl⟩
      cases entry with
      | ok i => cases hfault
      | error fault => exact ⟨fault, hentry⟩
    · rintro ⟨fault, hfault⟩
      exact ⟨(.error fault, n), ⟨hfault, rfl⟩, rfl⟩

/-- Only labels have a fault from the first pass. -/
theorem labelled_other {q : Line × Option Fault} (hq : q ∈ labelled source vars)
    (hlabel : q.1.isLabel = false) : q.2 = none := by
  obtain ⟨n, hn⟩ := List.mem_iff_getElem?.1 hq
  obtain ⟨hl, hfault⟩ := labelled_getElem?_eq_some.1 hn
  cases hfound : q.2 with
  | none => rfl
  | some fault =>
      rw [hfound] at hfault
      obtain ⟨_, l, _, _, hl', isLabel, -⟩ := labels_refused hfault
      rw [hl] at hl'
      cases hl'
      rw [hlabel] at isLabel
      cases isLabel

/-- What both passes together make of a source: the entries, and their
faults in the order in which they were found. -/
theorem secondPass_firstPass (source : String) (vars : Storage) (registry : Registry) :
    let p := secondPass registry (Line.ofSource source) (firstPass (Line.ofSource source) vars)
    p.vars = (instructions registry 0 (labelled source vars)
        (labels 0 (Line.ofSource source) vars).2).2
      ∧ p.script.toList = (entries source vars registry).map Except.toOption
      ∧ p.faults.toList.Perm ((entries source vars registry).filterMap lineFault?) := by
  obtain ⟨hvars, hmarks, hreported⟩ := firstPass_eq (Line.ofSource source) vars
  have hsnd : (labelled source vars).map Prod.snd = (labels 0 (Line.ofSource source) vars).1 :=
    List.map_snd_zip (Nat.le_of_eq length_labels)
  have hbad : ∀ k q, (labelled source vars)[k]? = some q →
      (firstPass (Line.ofSource source) vars).bad.getD (0 + k) false = q.2.isSome := by
    intro k q hq
    have hfault := (labelled_getElem?_eq_some.1 hq).2
    rw [Nat.zero_add, Array.getD_eq_getD_getElem?, ← Array.getElem?_toList, hmarks,
      List.getElem?_map, hfault]
    rfl
  obtain ⟨hall, hscript, hfaults⟩ := SecondPass.foldl_step registry _
    (labelled source vars) 0 ⟨(firstPass (Line.ofSource source) vars).vars, #[],
      (firstPass (Line.ofSource source) vars).faults⟩ hbad fun q => labelled_other
  simp only [labelled_map_fst, hvars] at hall hscript hfaults
  rw [hsnd, hreported] at hfaults
  unfold secondPass
  rw [hvars]
  -- the second pass starts with the faults of the first
  exact ⟨hall, hscript, (List.perm_append_right_iff _).1 (hfaults.trans List.perm_append_comm)⟩

-- ========================================================== well-formedness

variable {size : Nat}

theorem bindLabel_eq_ok {target : Nat} {id : VarId}
    (h : (bindLabel l target).run vars = .ok id vars') :
    ∃ name, labelName l = .ok name ∧ vars.add (.label name target) = .ok (id, vars') := by
  obtain ⟨name, hname, h⟩ := check_bind_eq_ok.1 h
  exact ⟨name, hname, once_eq_ok.1 h⟩

/-- A label declares a variable that is within the script. -/
theorem bindLabel_grows {target : Nat} {id : VarId}
    (h : (bindLabel l target).run vars = .ok id vars') (htarget : target ≤ size) :
    Storage.Grows size vars vars' := by
  obtain ⟨name, -, hadd⟩ := bindLabel_eq_ok h
  refine Storage.grows_add hadd fun w hw => ?_
  cases hw
  refine ⟨rfl, fun n hn => ?_⟩
  cases hn
  exact htarget

/-- Labels are bound to lines of the script or to its end. -/
theorem labels_grows : ∀ {ls : List Line} {index : Nat} {vars : Storage},
    index + ls.length ≤ size → Storage.Grows size vars (labels index ls vars).2
  | [], _, _, _ => .refl _
  | l :: ls, index, vars, hsize => by
      obtain ⟨first, vars', hbinding, hlabels⟩ := labels_cons index l ls vars
      rw [List.length_cons] at hsize
      rw [hlabels]
      refine .trans ?_ (labels_grows (by omega))
      cases hbinding with
      | passed | refused => exact .refl vars
      | bound _ bound =>
          refine bindLabel_grows bound ?_
          have hle := (List.takeWhile_sublist Line.isLabel (l := ls)).length_le
          omega

/-- The second pass declares fresh variables only, and what it compiles
is well formed among all that are declared in the end. -/
theorem instructions_wellFormed (registry : Registry) :
    ∀ (ls : List (Line × Option Fault)) (index : Nat) {vars : Storage},
    vars.LinesWithin size →
    Storage.Grows size vars (instructions registry index ls vars).2
      ∧ ∀ i, .ok i ∈ (instructions registry index ls vars).1 →
          i.WellFormed (instructions registry index ls vars).2.kinds size
  | [], _, _, _ => ⟨.refl _, by simp [instructions]⟩
  | (l, labelFault) :: ls, index, vars, hlines => by
      obtain ⟨first, vars', hmaking, hall⟩ := instructions_cons registry index l labelFault ls vars
      have hfirst : Storage.Grows size vars vars' ∧ ∀ i, first = .ok i → i.WellFormed vars'.kinds size := by
        cases hmaking with
        | label =>
            refine ⟨.refl vars, fun i hi => ?_⟩
            cases hi
            exact wellFormed_bare rfl rfl rfl rfl
        | compiled _ made =>
            obtain ⟨hwf, hgrows⟩ := line_eq_ok made hlines
            refine ⟨hgrows, fun i hi => ?_⟩
            cases hi
            exact hwf
        | mislabel | refused => exact ⟨.refl vars, nofun⟩
      obtain ⟨hgrows, hrest⟩ := instructions_wellFormed registry ls (index + 1)
        (hfirst.1.linesWithin hlines)
      rw [hall]
      refine ⟨hfirst.1.trans hgrows, fun i hi => ?_⟩
      rcases List.mem_cons.1 hi with hi | hi
      · exact (hfirst.2 i hi.symm).mono hgrows.kinds
      · exact hrest i hi

end Compiler

open Compiler

/-- The passes compile a source line by line. -/
theorem compile_eq (source : String) (vars : Storage) (registry : Registry) :
    compile source vars registry
      = { script := ((entries source vars registry).map Except.toOption).toArray
          faults := (entries source vars registry).filterMap lineFault?
          vars := (instructions registry 0 (labelled source vars)
            (labels 0 (Line.ofSource source) vars).2).2 } := by
  obtain ⟨hvars, hscript, hfaults⟩ := secondPass_firstPass source vars registry
  obtain ⟨bad, hlines, hlt, -⟩ := entries_report source vars registry
  unfold compile
  simp only [hvars, sortByLine_eq hfaults hlines hlt, Compiled.mk.injEq, and_true]
  rw [← hscript]

variable {source : String} {vars : Storage} {registry : Registry}

theorem compile_vars (source : String) (vars : Storage) (registry : Registry) :
    (compile source vars registry).vars = (instructions registry 0 (labelled source vars)
      (labels 0 (Line.ofSource source) vars).2).2 := by
  rw [compile_eq]

/-- The script has an entry for each line. -/
theorem compile_size (source : String) (vars : Storage) (registry : Registry) :
    (compile source vars registry).script.size = (Line.ofSource source).length := by
  rw [compile_eq, List.size_toArray, List.length_map, length_entries]

/-- A compiled source: its instructions are well formed, and it declares
fresh variables only. -/
theorem compile_wellFormed (source : String) {vars : Storage} (registry : Registry)
    (hvars : ∀ size, vars.LinesWithin size) :
    let c := compile source vars registry
    Storage.Grows c.script.size vars c.vars
      ∧ ∀ i, some i ∈ c.script.toList → i.WellFormed c.vars.kinds c.script.size := by
  intro c
  have hsize : c.script.size = (Line.ofSource source).length := compile_size source vars registry
  have hlabels : Storage.Grows c.script.size vars
      (labels 0 (Line.ofSource source) vars).2 :=
    labels_grows (by omega)
  obtain ⟨hgrows, hwf⟩ := instructions_wellFormed registry (labelled source vars) 0
    (hlabels.linesWithin (hvars _))
  have hscript : c.script = ((entries source vars registry).map Except.toOption).toArray :=
    congrArg Compiled.script (compile_eq _ _ _)
  rw [show c.vars = _ from compile_vars source vars registry]
  refine ⟨hlabels.trans hgrows, fun i hi => hwf i ?_⟩
  rw [hscript] at hi
  obtain ⟨entry, hentry, hi⟩ := List.mem_map.1 hi
  rwa [toOption_eq_some.1 hi] at hentry

/-- A source without faults leaves no entry empty. -/
theorem compile_complete (h : (compile source vars registry).faults = []) :
    ∀ entry ∈ (compile source vars registry).script.toList, entry ≠ none := by
  intro entry hentry hnone
  subst hnone
  rw [compile_eq] at h hentry
  obtain ⟨e, he, hnone⟩ := List.mem_map.1 hentry
  cases e with
  | ok i => cases hnone
  | error fault =>
      have hfaults := List.filterMap_eq_nil_iff.1 h _ he
      cases hfaults

end TickScript
