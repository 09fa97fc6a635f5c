/-
The table of variables and its index.

A storage is kept in two structures, the variables in order and an index from
names to places (`Indexed`), or in the variables alone, looked through at every
use of a name (`Storage`). After the same edits these are in step
(`Indexed.InStep`): they hold the same variables, and the index has a place for
a name exactly if the variable there has it. So names are unique, both find
every name at the same place, and the next edit has the same answer in both.

# Places last

An edit gives a variable another value or puts one behind all others. Names,
kinds and the rest of what a variable is without its value (`Storage.shapes`)
only grow at the end, in any number of edits (`Storage.shapes_after`). That is
what operands rest on: the variable that an operand reads is, ever after, the
one it was compiled to read.
-/
import TickScript.Proofs.Processor.Readonly
import TickScript.Variable.Indexed

namespace TickScript

-- ============================================================ vocabulary

/-- Whether an edit declares a variable. -/
def Edit.declares : Edit → Bool
  | .add _ | .tryAdd _ => true
  | _ => false

/-- An operand compiled over the storage from text, in one of the ways there
are. -/
inductive Operand.Compiled (s : Storage) (o : Operand) : Prop where
  | text {text : String} (compiled : ofText text s = .ok o)
  | expression {text : String} (compiled : expression text s = .ok o)
  | character {name : String} (compiled : character name s = .ok o)

/-- Both structures and the storage agree: the same variables, within the same
limit, and an index that has a place for a name exactly if the variable there
has the name. -/
structure Indexed.InStep (t : Indexed) (s : Storage) : Prop where
  vars : t.vars = s.vars
  limit : t.limit = s.limit
  index : ∀ name id, t.index[name]? = some id ↔ (s.get? id).map Variable.name = some name

/-- An addition that failed has a fault to show. -/
theorem Edit.Answer.eq_error_of_added {r : Except Fault VarId} (h : (added r).failed = true) :
    ∃ fault, r = .error fault := by
  cases r with
  | ok => cases h
  | error fault => exact ⟨fault, rfl⟩

theorem Edit.Answer.eq_error_of_stored {r : Except Fault (Option Value)}
    (h : (stored r).failed = true) : ∃ fault, r = .error fault := by
  cases r with
  | ok => cases h
  | error fault => exact ⟨fault, rfl⟩

theorem Edit.Answer.eq_false_of_tried {done : Bool} (h : (tried done).failed = true) :
    done = false := by
  cases done with
  | true => cases h
  | false => rfl

-- ================================================================ places

namespace Storage

variable {s s' : Storage} {id : VarId} {name : String} {v : Variable}

/-- A new variable is behind all others. -/
theorem get?_concat (s : Storage) (v : Variable) (id : VarId) :
    ({ s with vars := s.vars ++ [v] } : Storage).get? id
      = if id = s.vars.length then some v else s.get? id := by
  show (s.vars ++ [v])[id]? = if id = s.vars.length then some v else s.vars[id]?
  split
  next hlast => rw [hlast, List.getElem?_concat_length]
  next hlast =>
    rcases Nat.lt_or_ge id s.vars.length with hlt | hge
    · rw [List.getElem?_append_left hlt]
    · have hover : (s.vars ++ [v]).length ≤ id := by
        rw [List.length_append]
        exact Nat.lt_of_le_of_ne hge (Ne.symm hlast)
      rw [List.getElem?_eq_none hover, List.getElem?_eq_none hge]

/-- Names are kept where a variable is put that has the name of the other. -/
theorem name_put {v' : Variable} (hget : s.get? id = some v) (hname : v'.name = v.name)
    (other : VarId) :
    ((s.put id v').get? other).map Variable.name = (s.get? other).map Variable.name := by
  obtain ⟨hlt, heq⟩ := List.getElem?_eq_some_iff.1 hget
  show ((s.vars.set id v')[other]?).map Variable.name = (s.vars[other]?).map Variable.name
  rw [List.getElem?_set]
  split
  next hsame =>
    subst hsame
    rw [List.getElem?_eq_getElem hlt, heq]
    exact congrArg some hname
  next => rfl

/-- A name is free if no variable has it. -/
theorem contains_eq_false_iff : s.contains name = false ↔
    ∀ id, (s.get? id).map Variable.name ≠ some name := by
  unfold contains id? get?
  rw [Option.isSome_eq_false_iff, Option.isNone_iff_eq_none, List.findIdx?_eq_none_iff]
  constructor
  · intro h id hname
    obtain ⟨v, hget, hname⟩ := Option.map_eq_some_iff.1 hname
    have := h v (List.mem_of_getElem? hget)
    simp [hname] at this
  · intro h v hv
    obtain ⟨id, hget⟩ := List.getElem?_of_mem hv
    have hother : v.name ≠ name := fun heq => h id (by rw [hget]; exact congrArg some heq)
    simpa using hother

end Storage

namespace Indexed

variable {t : Indexed} {fault : Fault}

/-- A variable that is refused leaves no trace, in the index either. -/
theorem add_eq_error {v : Variable} (h : (t.add v).1 = .error fault) : (t.add v).2 = t := by
  unfold add at h ⊢
  split at h
  next htaken => rw [if_pos htaken]
  next hfree =>
    split at h
    next hfull => rw [if_neg hfree, if_pos hfull]
    next => cases h

/-- A value that is refused leaves the variable. -/
theorem set_eq_error {id : VarId} {w : Value} (h : (t.set id w).1 = .error fault) :
    (t.set id w).2 = t := by
  unfold set at h ⊢
  cases hget : t.vars[id]? with
  | none => rfl
  | some v =>
      cases hset : v.set w with
      | ok v' => simp only [hget, hset] at h; cases h
      | error fault => simp only [hset]

/-- What cannot be done leaves variables and index as they are. -/
theorem edit_failed {e : Edit} (h : (t.edit e).1.failed = true) : (t.edit e).2 = t := by
  cases e with
  | add v =>
      obtain ⟨fault, h⟩ := Edit.Answer.eq_error_of_added h
      exact add_eq_error h
  | tryAdd v =>
      have htried : (t.add v).1.isOk = false := Edit.Answer.eq_false_of_tried h
      show (t.add v).2 = t
      cases hadd : (t.add v).1 with
      | ok id => rw [hadd] at htried; cases htried
      | error fault => exact add_eq_error hadd
  | setValue name w =>
      obtain ⟨fault, hset⟩ : ∃ fault, (t.setValue name w).1 = .error fault :=
        Edit.Answer.eq_error_of_stored h
      show (t.setValue name w).2 = t
      unfold setValue at hset ⊢
      cases hindex : t.index[name]? with
      | none => rfl
      | some id =>
          rw [hindex] at hset
          exact set_eq_error hset
  | set id w =>
      obtain ⟨fault, h⟩ := Edit.Answer.eq_error_of_stored h
      exact set_eq_error h
  | clear => cases h

end Indexed

namespace Indexed.InStep

variable {t : Indexed} {s : Storage} {name : String} {id : VarId}

/-- The storage is that of the variables. -/
theorem unique (h : t.InStep s) {s' : Storage} (h' : t.InStep s') : s = s' := by
  have hvars : s.vars = s'.vars := h.vars.symm.trans h'.vars
  have hlimit : s.limit = s'.limit := h.limit.symm.trans h'.limit
  cases s
  cases hvars
  cases hlimit
  rfl

theorem empty (limit : Nat) : (Indexed.empty limit).InStep (Storage.empty limit) where
  vars := rfl
  limit := rfl
  index name id := by simp [Indexed.empty, Storage.empty, Storage.get?]

/-- Both find names at the same place. -/
theorem id?_eq (h : t.InStep s) (name : String) : s.id? name = t.index[name]? := by
  cases hindex : t.index[name]? with
  | none =>
      have hfree : s.contains name = false := by
        refine Storage.contains_eq_false_iff.2 fun id hname => ?_
        rw [(h.index name id).2 hname] at hindex
        cases hindex
      exact Option.isNone_iff_eq_none.1 (Option.isSome_eq_false_iff.1 hfree)
  | some id =>
      obtain ⟨v, hget, hname⟩ := Option.map_eq_some_iff.1 ((h.index name id).1 hindex)
      obtain ⟨hlt, heq⟩ := List.getElem?_eq_some_iff.1 hget
      refine List.findIdx?_eq_some_iff_getElem.2 ⟨hlt, by simpa [heq] using hname, fun j hj => ?_⟩
      -- An earlier variable of the name would have a place of its own in the index.
      have hother : s.vars[j].name ≠ name := by
        intro hsame
        have hname : (s.get? j).map Variable.name = some name := by
          rw [Storage.get?, List.getElem?_eq_getElem (Nat.lt_trans hj hlt)]
          exact congrArg some hsame
        rw [(h.index name j).2 hname] at hindex
        cases hindex
        exact Nat.lt_irrefl _ hj
      simpa using hother

/-- No two variables have the same name. -/
theorem nodup (h : t.InStep s) : s.names.Nodup := by
  have hindex : ∀ i (hi : i < s.names.length), t.index[s.names[i]]? = some i := by
    intro i hi
    refine (h.index _ i).2 ?_
    rw [Storage.get?, ← List.getElem?_map]
    exact List.getElem?_eq_getElem hi
  refine List.pairwise_iff_getElem.2 fun i j hi hj hlt heq => ?_
  have hsame := hindex i hi
  rw [heq, hindex j hj] at hsame
  exact Nat.ne_of_gt hlt (Option.some.inj hsame)

/-- The index knows the names that the variables have. -/
theorem contains_eq (h : t.InStep s) (name : String) : t.index.contains name = s.contains name := by
  rw [Std.HashMap.contains_eq_isSome_getElem?, ← h.id?_eq]
  rfl

/-- Putting a variable of the same name keeps the two in step. -/
theorem put (h : t.InStep s) {v v' : Variable} (hget : s.get? id = some v)
    (hname : v'.name = v.name) :
    ({ t with vars := t.vars.set id v' } : Indexed).InStep (s.put id v') where
  vars := by rw [h.vars]; rfl
  limit := h.limit
  index name other := by rw [Storage.name_put hget hname]; exact h.index name other

/-- A new variable has a new place in the index. -/
theorem concat (h : t.InStep s) {v : Variable} (hnew : s.contains v.name = false) :
    ({ t with
        vars := t.vars ++ [v], index := t.index.insert v.name t.vars.length } : Indexed).InStep
      { s with vars := s.vars ++ [v] } where
  vars := by rw [h.vars]
  limit := h.limit
  index name id := by
    have hfree := Storage.contains_eq_false_iff.1 hnew
    rw [Std.HashMap.getElem?_insert, Storage.get?_concat, h.vars]
    by_cases hname : v.name = name
    · subst hname
      by_cases hid : id = s.vars.length
      · simp [hid]
      · simpa [hid, Ne.symm hid] using hfree id
    · by_cases hid : id = s.vars.length
      · subst hid
        have hnone : t.index[name]? ≠ some s.vars.length := by
          rw [Ne, h.index, Storage.get?, List.getElem?_eq_none (Nat.le_refl _)]
          nofun
        simp [hname, hnone]
      · simpa [hname, hid] using h.index name id

/-- Declaring does the same in both. -/
theorem add (h : t.InStep s) (v : Variable) : (t.add v).1 = (s.settle (s.add v)).1
    ∧ (t.add v).2.InStep (s.settle (s.add v)).2 := by
  unfold Indexed.add Storage.add
  rw [h.contains_eq, h.limit, h.vars]
  cases hnew : s.contains v.name with
  | true => exact ⟨rfl, h⟩
  | false =>
      rw [if_neg Bool.false_ne_true, if_neg Bool.false_ne_true]
      by_cases hfull : s.limit ≤ s.vars.length
      · rw [if_pos hfull, if_neg (Nat.not_lt.2 hfull)]
        exact ⟨rfl, h⟩
      · rw [if_neg hfull, if_pos (Nat.not_le.1 hfull)]
        have hconcat := h.concat hnew
        rw [h.vars, h.limit] at hconcat
        exact ⟨rfl, hconcat⟩

/-- Trying is adding without asking why it failed. -/
theorem tryAdd (h : t.InStep s) (v : Variable) : (t.add v).1.isOk = (s.tryAdd v).1
    ∧ (t.add v).2.InStep (s.tryAdd v).2 := by
  obtain ⟨hanswer, hstep⟩ := h.add v
  unfold Storage.tryAdd
  rw [hanswer]
  cases hadd : s.add v with
  | error fault => rw [hadd] at hstep; exact ⟨rfl, hstep⟩
  | ok r => rw [hadd] at hstep; exact ⟨rfl, hstep⟩

/-- Storing does the same in both. -/
theorem set (h : t.InStep s) (id : VarId) (w : Value) : (t.set id w).1 = (s.settle (s.set id w)).1
    ∧ (t.set id w).2.InStep (s.settle (s.set id w)).2 := by
  unfold Indexed.set Storage.set Storage.get
  rw [h.vars]
  cases hget : s.get? id with
  | none =>
      rw [show s.vars[id]? = none from hget]
      exact ⟨rfl, h⟩
  | some v =>
      rw [show s.vars[id]? = some v from hget]
      cases hset : v.set w with
      | error fault =>
          simp only [ok_bind, hset]
          exact ⟨rfl, h⟩
      | ok v' =>
          have hname : v'.name = v.name := by
            unfold Variable.set at hset
            split at hset
            all_goals cases hset
            rfl
          have hput := h.put hget hname
          rw [h.vars] at hput
          simp only [ok_bind, hset]
          exact ⟨rfl, hput⟩

/-- A value is stored by name where the index has the name. -/
theorem setValue (h : t.InStep s) (name : String) (w : Value) :
    (t.setValue name w).1 = (s.settle (s.setValue name w)).1
      ∧ (t.setValue name w).2.InStep (s.settle (s.setValue name w)).2 := by
  unfold Indexed.setValue Storage.setValue
  rw [h.id?_eq]
  cases t.index[name]? with
  | none => exact ⟨rfl, h⟩
  | some id => exact h.set id w

theorem clear (h : t.InStep s) (id : VarId) : (t.clear id).1 = (s.clear id).1
    ∧ (t.clear id).2.InStep (s.clear id).2 := by
  unfold Indexed.clear Storage.clear
  rw [h.vars]
  cases hget : s.get? id with
  | none =>
      rw [show s.vars[id]? = none from hget]
      exact ⟨rfl, h⟩
  | some v =>
      rw [show s.vars[id]? = some v from hget]
      have hname : v.clear.name = v.name := rfl
      have hput := h.put hget hname
      rw [h.vars] at hput
      exact ⟨rfl, hput⟩

/-- An edit has the same answer in both and keeps them in step. -/
theorem edit (h : t.InStep s) (e : Edit) :
    (t.edit e).1 = (s.edit e).1 ∧ (t.edit e).2.InStep (s.edit e).2 := by
  cases e with
  | add v => exact ⟨congrArg Edit.Answer.added (h.add v).1, (h.add v).2⟩
  | tryAdd v => exact ⟨congrArg Edit.Answer.tried (h.tryAdd v).1, (h.tryAdd v).2⟩
  | setValue name w =>
      exact ⟨congrArg Edit.Answer.stored (h.setValue name w).1, (h.setValue name w).2⟩
  | set id w => exact ⟨congrArg Edit.Answer.stored (h.set id w).1, (h.set id w).2⟩
  | clear id => exact ⟨congrArg Edit.Answer.cleared (h.clear id).1, (h.clear id).2⟩

/-- What cannot be done changes neither. -/
theorem edit_failed (h : t.InStep s) {e : Edit} (hfailed : (t.edit e).1.failed = true) :
    (t.edit e).2 = t ∧ (s.edit e).2 = s := by
  have hsame := Indexed.edit_failed hfailed
  have hstep := (h.edit e).2
  rw [hsame] at hstep
  exact ⟨hsame, hstep.unique h⟩

/-- They stay in step through any edits. -/
theorem after : ∀ (edits : List Edit) {t : Indexed} {s : Storage}, t.InStep s →
    (t.after edits).InStep (s.after edits)
  | [], _, _, h => h
  | e :: edits, _, _, h => after edits (h.edit e).2

end Indexed.InStep

-- ================================================================= edits

namespace Storage

variable {s s' : Storage} {e : Edit} {id : VarId} {v : Variable}

/-- What an edit can do to a storage. -/
inductive Edited (e : Edit) (s : Storage) : Storage → Prop where
  | same : Edited e s s
  | added {v : Variable} (declares : e.declares = true) (room : s.size < s.limit) :
      Edited e s { s with vars := s.vars ++ [v] }
  | valued {id : VarId} {v : Variable} (value : Option Value) (stores : e.declares = false)
      (found : s.get? id = some v) : Edited e s (s.put id { v with value })

theorem edited_add (he : e.declares = true) (v : Variable) :
    Edited e s (s.settle (s.add v)).2 := by
  unfold add
  split
  next => exact .same
  next =>
    split
    next hroom => exact .added he hroom
    next => exact .same

theorem edited_set (he : e.declares = false) (id : VarId) (w : Value) :
    Edited e s (s.settle (s.set id w)).2 := by
  unfold set get
  cases hget : s.get? id with
  | none => exact .same
  | some v =>
      simp only [ok_bind]
      unfold Variable.set
      split
      next => exact .valued _ he hget
      next => exact .same

/-- Declarations put a variable behind the others, and all other edits change
values. -/
theorem edited_edit (s : Storage) (e : Edit) : Edited e s (s.edit e).2 := by
  cases e with
  | add v => exact edited_add rfl v
  | tryAdd v =>
      have hadd : Edited (.tryAdd v) s (s.settle (s.add v)).2 := edited_add rfl v
      show Edited _ s (s.tryAdd v).2
      unfold tryAdd
      cases hs : s.add v with
      | ok r => rw [hs] at hadd; exact hadd
      | error fault => exact .same
  | setValue name w =>
      show Edited _ s (s.settle (s.setValue name w)).2
      unfold setValue
      split
      next id _ => exact edited_set rfl id w
      next => exact .same
  | set id w => exact edited_set rfl id w
  | clear id =>
      show Edited _ s (s.clear id).2
      unfold clear
      split
      next v hget => exact .valued none rfl hget
      next => exact .same

/-- What variables are without their values is never changed, and new ones
come last. -/
theorem Edited.shapes (h : Edited e s s') : s.shapes <+: s'.shapes := by
  cases h with
  | same => exact List.prefix_rfl
  | added =>
      rw [Storage.shapes, Storage.shapes, List.map_append]
      exact List.prefix_append ..
  | valued value _ found => exact ⟨[], by rw [List.append_nil, shapes_put value found]⟩

/-- A storage keeps its limit. -/
theorem Edited.limit (h : Edited e s s') : s'.limit = s.limit := by
  cases h <;> rfl

/-- A storage keeps within its limit. -/
theorem Edited.size_le (h : Edited e s s') (hs : s.size ≤ s.limit) : s'.size ≤ s'.limit := by
  cases h with
  | same => exact hs
  | added _ room =>
      show (s.vars ++ [_]).length ≤ s.limit
      rw [List.length_append]
      exact room
  | valued => simpa [size, put] using hs

/-- A declaration leaves the variables there are. -/
theorem Edited.vars (h : Edited e s s') (he : e.declares = true) : s.vars <+: s'.vars := by
  cases h with
  | same => exact List.prefix_rfl
  | added => exact List.prefix_append ..
  | valued _ stores _ => rw [he] at stores; cases stores

/-- Shapes are kept and added to, over any number of edits. -/
theorem shapes_after : ∀ (edits : List Edit) (s : Storage), s.shapes <+: (s.after edits).shapes
  | [], _ => List.prefix_rfl
  | e :: edits, s => (edited_edit s e).shapes.trans (shapes_after edits (s.edit e).2)

/-- No edit moves the limit. -/
theorem limit_after : ∀ (edits : List Edit) (s : Storage), (s.after edits).limit = s.limit
  | [], _ => rfl
  | e :: edits, s => (limit_after edits (s.edit e).2).trans (edited_edit s e).limit

/-- No edit goes past the limit. -/
theorem size_after_le : ∀ (edits : List Edit) {s : Storage}, s.size ≤ s.limit →
    (s.after edits).size ≤ (s.after edits).limit
  | [], _, h => h
  | e :: edits, s, h => size_after_le edits ((edited_edit s e).size_le h)

theorem vars_after : ∀ (edits : List Edit) (s : Storage), (∀ e ∈ edits, e.declares = true) →
    s.vars <+: (s.after edits).vars
  | [], _, _ => List.prefix_rfl
  | e :: edits, s, h =>
      ((edited_edit s e).vars (h e List.mem_cons_self)).trans
        (vars_after edits (s.edit e).2 fun e' he' => h e' (List.mem_cons_of_mem e he'))

/-- A variable is there ever after, with some value. -/
theorem get?_after (hget : s.get? id = some v) (edits : List Edit) :
    ∃ value, (s.after edits).get? id = some { v with value } := by
  obtain ⟨added, hadded⟩ := shapes_after edits s
  have hshape : s.shapes[id]? = some v.clear := by rw [getElem?_shapes, hget]; rfl
  have hlater : (s.after edits).shapes[id]? = some v.clear := by
    rw [← hadded, List.getElem?_append_left (List.getElem?_eq_some_iff.1 hshape).1]
    exact hshape
  exact get?_of_shape hlater

/-- A name stands for the same variable ever after. -/
theorem id?_after {name : String} (hid : s.id? name = some id) (edits : List Edit) :
    (s.after edits).id? name = some id := by
  obtain ⟨added, hadded⟩ := shapes_after edits s
  rw [id?_eq_shapes] at hid ⊢
  rw [← hadded, List.findIdx?_append, hid]
  rfl

/-- What a declaration answers hangs on the name and on the room. -/
theorem add_eq (s : Storage) (v : Variable) : s.add v =
    if v.name ∈ s.names then .error (.of .redeclared v.name)
    else if s.size < s.limit then .ok (s.size, { s with vars := s.vars ++ [v] })
    else .error (.of .tooManyVariables v.name) := by
  have hnames : s.contains v.name = true ↔ v.name ∈ s.names := by
    rw [contains, id?, List.findIdx?_isSome, List.any_eq_true, names, List.mem_map]
    simp only [beq_iff_eq]
  unfold add
  simp only [hnames]
  rfl

/-- A variable is added exactly if its name is free and there is room. -/
theorem tryAdd_eq (s : Storage) (v : Variable) : s.tryAdd v =
    if v.name ∉ s.names ∧ s.size < s.limit then (true, { s with vars := s.vars ++ [v] })
    else (false, s) := by
  unfold tryAdd
  rw [add_eq]
  by_cases hname : v.name ∈ s.names
  · rw [if_pos hname, if_neg fun h => h.1 hname]
  · rw [if_neg hname]
    by_cases hroom : s.size < s.limit
    · rw [if_pos hroom, if_pos ⟨hname, hroom⟩]
    · rw [if_neg hroom, if_neg fun h => hroom h.2]

end Storage

-- ============================================================== operands

namespace Formula

/-- Parameters are bound to what their variables hold. -/
theorem bind_congr {s s' : Storage} (alive : Handle → Bool) :
    ∀ {params : List (String × VarId)}, (∀ p ∈ params, s'.get? p.2 = s.get? p.2) →
    bind s' alive params = bind s alive params
  | [], _ => rfl
  | (name, id) :: params, h => by
      have hid : s'.get id = s.get id := by
        unfold Storage.get
        rw [h (name, id) List.mem_cons_self]
      unfold bind
      rw [hid, bind_congr alive fun p hp => h p (List.mem_cons_of_mem _ hp)]

end Formula

namespace Operand

variable {s s' : Storage} {o : Operand}

/-- The value of an operand hangs on the variables it reads. -/
theorem value_congr (h : ∀ id ∈ o.varIds, s'.get? id = s.get? id) (alive : Handle → Bool)
    (draws : Draws) : o.value s' alive draws = o.value s alive draws := by
  cases o with
  | literal | text => rfl
  | var id | char id =>
      have hid : s'.get id = s.get id := by
        unfold Storage.get
        rw [h id List.mem_cons_self]
      simp only [value, hid]
  | formula f =>
      have hbind : Formula.bind s' alive f.params = Formula.bind s alive f.params :=
        Formula.bind_congr alive fun p hp => h p.2 (List.mem_map_of_mem hp)
      simp only [value, Formula.evaluate, hbind]

/-- A compiled operand reads variables there are. -/
theorem Compiled.get? (h : Compiled s o) {id : VarId} (hid : id ∈ o.varIds) :
    ∃ v, s.get? id = some v := by
  have hknown : ∀ id ∈ o.varIds, id < s.kinds.length := by
    cases h with
    | text compiled => exact (ofText_eq_ok compiled).known
    | expression compiled => exact (expression_eq_ok compiled).known
    | character compiled =>
        obtain ⟨id, hname, rfl, -⟩ := character_eq_ok compiled
        exact (wellFormed_char (Storage.lt_of_id hname)).known
  have hlt := hknown id hid
  rw [Storage.length_kinds] at hlt
  exact ⟨_, List.getElem?_eq_getElem hlt⟩

/-- Declarations leave the value of a compiled operand as it is. -/
theorem Compiled.value_after (h : Compiled s o) {edits : List Edit}
    (hedits : ∀ e ∈ edits, e.declares = true) (alive : Handle → Bool) (draws : Draws) :
    o.value (s.after edits) alive draws = o.value s alive draws := by
  refine value_congr (fun id hid => ?_) alive draws
  obtain ⟨v, hget⟩ := h.get? hid
  rw [hget]
  exact Storage.get?_extend (Storage.vars_after edits s hedits) hget

end Operand

/-- Names and places stay in step, and for good.

Take any limit and any edits of a new table, kept with an index and kept
without one. Both then hold the same variables, the index has a place for a
name exactly if the variable there has it, and any next edit has the same
answer in both. No name occurs twice and there are no more variables than the
limit. A variable can be declared if its name is free and there is room, of
which the name is looked at first; it is then the last one, and nothing has
changed where it cannot be declared. Whatever is done later, a place has the
variable that it had, or was declared to have, up to its value, and a name has
its place. So the variables that a compiled operand reads stay what they are,
and declaring others does not change its value. -/
theorem storage_keeps_places (limit : Nat) (edits : List Edit) :
    let s := (Storage.empty limit).after edits
    let t := (Indexed.empty limit).after edits
    t.InStep s ∧ (∀ e, (t.edit e).1 = (s.edit e).1)
      ∧ (∀ name id, s.id? name = some id ↔ (s.get? id).map Variable.name = some name)
      ∧ s.names.Nodup ∧ s.size ≤ limit
      ∧ (∀ v, s.add v =
          if v.name ∈ s.names then .error (.of .redeclared v.name)
          else if s.size < limit then .ok (s.size, { s with vars := s.vars ++ [v] })
          else .error (.of .tooManyVariables v.name))
      ∧ (∀ e, (t.edit e).1.failed = true → (t.edit e).2 = t ∧ (s.edit e).2 = s)
      ∧ (∀ v, s.tryAdd v =
          if v.name ∉ s.names ∧ s.size < limit then (true, { s with vars := s.vars ++ [v] })
          else (false, s))
      ∧ (∀ id v, s.get? id = some v →
          ∀ later, ∃ value, (s.after later).get? id = some { v with value })
      ∧ (∀ v id s', s.add v = .ok (id, s') →
          ∀ later, ∃ value, (s'.after later).get? id = some { v with value })
      ∧ (∀ name id, s.id? name = some id → ∀ later, (s.after later).id? name = some id)
      ∧ ∀ o, Operand.Compiled s o →
          (∀ id ∈ o.varIds, ∃ v, s.get? id = some v
            ∧ ∀ later, ∃ value, (s.after later).get? id = some { v with value })
          ∧ ∀ later, (∀ e ∈ later, e.declares = true) →
              ∀ alive draws, o.value (s.after later) alive draws = o.value s alive draws := by
  intro s t
  have hstep : t.InStep s := .after edits (.empty limit)
  have hlimit : s.limit = limit := Storage.limit_after edits (.empty limit)
  have hsize : s.size ≤ s.limit := Storage.size_after_le edits (Nat.zero_le limit)
  refine ⟨hstep, fun e => (hstep.edit e).1, fun name id => ?_, hstep.nodup, hlimit ▸ hsize,
    hlimit ▸ s.add_eq, fun e => hstep.edit_failed, hlimit ▸ s.tryAdd_eq,
    fun id v hget => Storage.get?_after hget,
    fun v id s' hadd => Storage.get?_after (Storage.get?_add hadd),
    fun name id hid => Storage.id?_after hid,
    fun o ho => ⟨fun id hid => ?_, fun later hlater => ho.value_after hlater⟩⟩
  · rw [hstep.id?_eq]
    exact hstep.index name id
  · obtain ⟨v, hget⟩ := ho.get? hid
    exact ⟨v, hget, Storage.get?_after hget⟩

/-- A table for two variables has the first two of different names, and the
declarations in between change neither. -/
example :
    let integer (name : String) : Variable := .zeroed name .int false
    let s := (Storage.empty 2).after [.add (integer "a"), .tryAdd (.zeroed "a" .float false),
      .add (integer "b"), .add (integer "c"), .clear 0]
    s.names = ["a", "b"] ∧ (s.get? 0).map Variable.kind = some .int
      ∧ (s.add (integer "b")).isOk = false ∧ s.id? "b" = some 1 := by
  decide

end TickScript
