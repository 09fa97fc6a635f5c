/-
A storage with an index of its names.

`Storage` looks a name up by going through the variables. `Indexed` is the
same table with a second structure beside the variables, a hash table from
names to places, which every declaration has to keep in step. The two answer
alike, whatever is done to them.
-/
import Std.Data.HashMap
import TickScript.Variable

namespace TickScript

/-- A table of variables with an index from their names to their places. -/
structure Indexed where
  vars : List Variable
  index : Std.HashMap String VarId
  limit : Nat

/-- What can be done to a table of variables. -/
inductive Edit where
  /-- Declares a variable. -/
  | add (v : Variable)
  /-- Declares a variable if that is possible. -/
  | tryAdd (v : Variable)
  /-- Stores a value by name. -/
  | setValue (name : String) (w : Value)
  /-- Stores a value at an index. -/
  | set (id : VarId) (w : Value)
  /-- Empties the variable at an index. -/
  | clear (id : VarId)

/-- What an edit answers. -/
inductive Edit.Answer where
  | added (id : Except Fault VarId)
  | tried (done : Bool)
  | stored (old : Except Fault (Option Value))
  | cleared (old : Option Value)

/-- Whether the edit could not be done. -/
def Edit.Answer.failed : Edit.Answer → Bool
  | .added (.error _) | .tried false | .stored (.error _) => true
  | _ => false

namespace Storage

/-- A change with what it answers. One that fails leaves the storage as it
is. -/
def settle {α : Type} (s : Storage) : Except Fault (α × Storage) → Except Fault α × Storage
  | .ok (a, s') => (.ok a, s')
  | .error fault => (.error fault, s)

/-- Does an edit. -/
def edit (s : Storage) : Edit → Edit.Answer × Storage
  | .add v => let (id, s') := s.settle (s.add v); (.added id, s')
  | .tryAdd v => let (done, s') := s.tryAdd v; (.tried done, s')
  | .setValue name w => let (old, s') := s.settle (s.setValue name w); (.stored old, s')
  | .set id w => let (old, s') := s.settle (s.set id w); (.stored old, s')
  | .clear id => let (old, s') := s.clear id; (.cleared old, s')

/-- The storage after edits one after the other. -/
def after (s : Storage) (edits : List Edit) : Storage :=
  edits.foldl (fun s e => (s.edit e).2) s

end Storage

namespace Indexed

/-- A table without variables. -/
def empty (limit : Nat) : Indexed := ⟨[], ∅, limit⟩

/-- Declares a variable at the end, and its place in the index. -/
def add (t : Indexed) (v : Variable) : Except Fault VarId × Indexed :=
  if t.index.contains v.name then (.error (.of .redeclared v.name), t)
  else if t.limit ≤ t.vars.length then (.error (.of .tooManyVariables v.name), t)
  else
    (.ok t.vars.length,
      { t with vars := t.vars ++ [v], index := t.index.insert v.name t.vars.length })

/-- Stores a value at an index. -/
def set (t : Indexed) (id : VarId) (w : Value) : Except Fault (Option Value) × Indexed :=
  match t.vars[id]? with
  | none => (.error (Storage.unknown id), t)
  | some v =>
    match v.set w with
    | .ok v' => (.ok v.value, { t with vars := t.vars.set id v' })
    | .error fault => (.error fault, t)

/-- Stores a value by name. A name that no variable has is ignored. -/
def setValue (t : Indexed) (name : String) (w : Value) : Except Fault (Option Value) × Indexed :=
  match t.index[name]? with
  | some id => t.set id w
  | none => (.ok none, t)

/-- Empties the variable at an index. -/
def clear (t : Indexed) (id : VarId) : Option Value × Indexed :=
  match t.vars[id]? with
  | some v => (v.value, { t with vars := t.vars.set id v.clear })
  | none => (none, t)

/-- Does an edit. -/
def edit (t : Indexed) : Edit → Edit.Answer × Indexed
  | .add v => let (id, t') := t.add v; (.added id, t')
  | .tryAdd v => let (id, t') := t.add v; (.tried id.isOk, t')
  | .setValue name w => let (old, t') := t.setValue name w; (.stored old, t')
  | .set id w => let (old, t') := t.set id w; (.stored old, t')
  | .clear id => let (old, t') := t.clear id; (.cleared old, t')

/-- The table after edits one after the other. -/
def after (t : Indexed) (edits : List Edit) : Indexed :=
  edits.foldl (fun t e => (t.edit e).2) t

end Indexed

end TickScript
