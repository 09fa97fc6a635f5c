/-
The books of a memory device are right.

Beside its cells a device keeps how many of them are empty and which is
the first and the last empty one. It does not work these out anew: a cell
that is filled is searched past only if it was the first or the last empty
one, and a cell that is emptied is only compared with these two. That this
is enough rests on all three being right before (`Booked`). Nothing is
empty before the first empty cell, so once that is filled the next can only
be further on, where the search looks (`emptyFrom_eq_some_iff`), and the
same holds from the other end (`emptyBefore_eq_some_iff`).

Both ends are one argument, told by the `Side` it is made for. A change of
one cell takes it out of the empty ones (`Names.filled`) or puts it among
them (`Names.emptied`), whichever end an entry of the books is about.

A sweep empties cells one by one, so it keeps the books as that does. As it
never comes back to a cell, what it gives back is in order of the cells
(`sweep_values`).
-/
import TickScript.Proofs.Arena.Sweep

namespace TickScript.Memory

variable {m m' : Memory} {i : Nat} {v : Value} {alive : Handle → Bool}

-- =========================================================== empty cells

/-- The cell is there and is empty. -/
def Vacant (m : Memory) (i : Nat) : Prop := m.cells[i]? = some none

/-- An empty cell is a cell. -/
theorem Vacant.lt_size (h : m.Vacant i) : i < m.size := (List.getElem?_eq_some_iff.1 h).1

/-- Filling a cell takes it out of the empty ones. -/
theorem vacant_of_filled (hi : i < m.size) (hcells : m'.cells = m.cells.set i (some v)) (j : Nat) :
    m'.Vacant j ↔ m.Vacant j ∧ j ≠ i := by
  unfold Vacant
  rw [hcells]
  by_cases hj : j = i
  · subst hj
    rw [List.getElem?_set_self hi]
    simp
  · rw [List.getElem?_set_ne (Ne.symm hj)]
    simp [hj]

/-- Emptying a cell puts it among them. -/
theorem vacant_of_emptied (hi : i < m.size) (hcells : m'.cells = m.cells.set i none) (j : Nat) :
    m'.Vacant j ↔ m.Vacant j ∨ j = i := by
  unfold Vacant
  rw [hcells]
  by_cases hj : j = i
  · subst hj
    rw [List.getElem?_set_self hi]
    simp
  · rw [List.getElem?_set_ne (Ne.symm hj)]
    simp [hj]

-- ================================================================== ends

/-- The end of a device that an entry of its books is about. -/
inductive Side where
  | low
  | high

/-- The first of two cells is no further from the end than the other. -/
def Side.Le : Side → Nat → Nat → Prop
  | low, i, j => i ≤ j
  | high, i, j => j ≤ i

instance (side : Side) (i j : Nat) : Decidable (side.Le i j) :=
  match side with
  | .low => inferInstanceAs (Decidable (i ≤ j))
  | .high => inferInstanceAs (Decidable (j ≤ i))

/-- How far a cell is from the end. -/
def Side.distance (size i : Nat) : Side → Nat
  | low => i
  | high => size - i

/-- The cell is of a sort, and nearest to the end of its sort. -/
def IsOutermost (side : Side) (p : Nat → Prop) (i : Nat) : Prop := p i ∧ ∀ j, p j → side.Le i j

/-- There is one outermost cell at most. -/
theorem IsOutermost.unique {side : Side} {p : Nat → Prop} {j : Nat} (hi : IsOutermost side p i)
    (hj : IsOutermost side p j) : i = j := by
  have hle := hi.2 j hj.1
  have hge := hj.2 i hi.1
  cases side with
  | low => exact Nat.le_antisymm hle hge
  | high => exact Nat.le_antisymm hge hle

/-- While a cell is empty, one is outermost. -/
theorem Vacant.exists_outermost (side : Side) (h : m.Vacant i) :
    ∃ j, IsOutermost side m.Vacant j := by
  induction hleft : side.distance m.size i using Nat.strongRecOn generalizing i with
  | ind left ih =>
      by_cases hfurther : ∃ j, m.Vacant j ∧ ¬ side.Le i j
      · obtain ⟨j, hj, hle⟩ := hfurther
        have hsize := hj.lt_size
        refine ih (side.distance m.size j) ?_ hj rfl
        cases side <;> simp only [Side.Le, Side.distance] at hle hleft ⊢ <;> omega
      · refine ⟨i, h, fun j hj => ?_⟩
        by_contra hle
        exact hfurther ⟨j, hj, hle⟩

/-- An entry of the books names the outermost cell of a sort, if there is
one. -/
def Names (side : Side) (p : Nat → Prop) (entry : Option Nat) : Prop :=
  ∀ i, entry = some i ↔ IsOutermost side p i

section Names

variable {side : Side} {entry : Option Nat}

theorem Names.of_isOutermost {p : Nat → Prop} (h : IsOutermost side p i) :
    Names side p (some i) := by
  intro j
  rw [Option.some.injEq]
  exact ⟨fun heq => heq ▸ h, fun hj => h.unique hj⟩

/-- An entry names the same cell of the same cells. -/
theorem Names.congr {p q : Nat → Prop} (h : Names side p entry) (hpq : ∀ j, q j ↔ p j) :
    Names side q entry := by
  intro i
  rw [h i]
  simp only [IsOutermost, hpq]

/-- There is no entry when all cells are full. -/
theorem Names.eq_none_iff (h : Names side m.Vacant entry) :
    entry = none ↔ ∀ i, ¬ m.Vacant i := by
  constructor
  · intro hnone i hi
    obtain ⟨j, hj⟩ := hi.exists_outermost side
    rw [(h j).2 hj] at hnone
    cases hnone
  · intro hfull
    cases hentry : entry with
    | none => rfl
    | some i => exact absurd ((h i).1 hentry).1 (hfull i)

/-- An empty cell is filled. If it was the one in the entry, a search away
from the end finds the next. -/
theorem Names.filled {found : Option Nat} (h : Names side m.Vacant entry) (hi : m.Vacant i)
    (hvacant : ∀ j, m'.Vacant j ↔ m.Vacant j ∧ j ≠ i)
    (hfound : Names side (fun j => m'.Vacant j ∧ side.Le i j ∧ j ≠ i) found) :
    Names side m'.Vacant (if entry = some i then found else entry) := by
  split
  next hentry =>
    -- all that is left empty lies beyond the cell
    refine hfound.congr fun j => ⟨fun hj => ⟨hj, ?_⟩, fun hj => hj.1⟩
    obtain ⟨hold, hne⟩ := (hvacant j).1 hj
    exact ⟨((h i).1 hentry).2 j hold, hne⟩
  next hother =>
    -- another cell is in the entry, and stays empty
    obtain ⟨k, hk⟩ := hi.exists_outermost side
    have hki : k ≠ i := fun heq => hother ((h i).2 (heq ▸ hk))
    rw [(h k).2 hk]
    refine .of_isOutermost ⟨(hvacant k).2 ⟨hk.1, hki⟩, fun j hj => ?_⟩
    exact hk.2 j ((hvacant j).1 hj).1

/-- The entry after a cell is emptied that may be further out. -/
def Side.outer (side : Side) (i : Nat) : Option Nat → Option Nat
  | some old => if side.Le old i then some old else some i
  | none => some i

/-- A full cell is emptied. It goes into the entry if it is further out
than the one there. -/
theorem Names.emptied (h : Names side m.Vacant entry)
    (hvacant : ∀ j, m'.Vacant j ↔ m.Vacant j ∨ j = i) :
    Names side m'.Vacant (side.outer i entry) := by
  have hself : side.Le i i := by cases side <;> exact Nat.le_refl i
  cases entry with
  | some old =>
    have hold := (h old).1 rfl
    unfold Side.outer
    simp only
    split
    next hle =>
      refine .of_isOutermost ⟨(hvacant old).2 (.inl hold.1), fun j hj => ?_⟩
      rcases (hvacant j).1 hj with hj | rfl
      · exact hold.2 j hj
      · exact hle
    next hnle =>
      refine .of_isOutermost ⟨(hvacant i).2 (.inr rfl), fun j hj => ?_⟩
      rcases (hvacant j).1 hj with hj | rfl
      · have hle := hold.2 j hj
        cases side <;> simp only [Side.Le] at hle hnle ⊢ <;> omega
      · exact hself
  | none =>
    refine .of_isOutermost ⟨(hvacant i).2 (.inr rfl), fun j hj => ?_⟩
    rcases (hvacant j).1 hj with hj | rfl
    · exact absurd hj (h.eq_none_iff.1 rfl j)
    · exact hself

end Names

-- ============================================================== searches

/-- The search upward finds the lowest empty cell from where it starts. -/
theorem emptyFrom_eq_some_iff {start : Nat} :
    emptyFrom m.cells start = some i ↔ IsOutermost .low (fun j => m.Vacant j ∧ start ≤ j) i := by
  -- seen from the start, the cell is the first empty one of what is left
  have hfound : ∀ k, (m.cells.drop start).findIdx? Option.isNone = some k
      ↔ m.Vacant (start + k) ∧ ∀ j < k, ¬ m.Vacant (start + j) := by
    intro k
    have hvacant : ∀ j (h : j < (m.cells.drop start).length),
        (m.cells.drop start)[j].isNone = true ↔ m.Vacant (start + j) := by
      intro j h
      unfold Vacant
      rw [← List.getElem?_drop, List.getElem?_eq_getElem h, Option.some.injEq,
        Option.isNone_iff_eq_none]
    rw [List.findIdx?_eq_some_iff_getElem]
    constructor
    · rintro ⟨hk, hnone, hbefore⟩
      exact ⟨(hvacant k hk).1 hnone, fun j hj h => hbefore j hj ((hvacant j (by omega)).2 h)⟩
    · rintro ⟨hk, hbefore⟩
      have hlt : k < (m.cells.drop start).length := by
        have hsize := hk.lt_size
        unfold size at hsize
        rw [List.length_drop]
        omega
      exact ⟨hlt, (hvacant k hlt).2 hk, fun j hj h => hbefore j hj ((hvacant j _).1 h)⟩
  unfold emptyFrom
  rw [Option.map_eq_some_iff]
  constructor
  · rintro ⟨k, hk, rfl⟩
    obtain ⟨hvacant, hbefore⟩ := (hfound k).1 hk
    refine ⟨⟨hvacant, Nat.le_add_right _ _⟩, fun j hj => Nat.le_of_not_lt fun hlt => ?_⟩
    refine hbefore (j - start) (by omega) ?_
    rw [Nat.add_sub_cancel' hj.2]
    exact hj.1
  · rintro ⟨⟨hvacant, hle⟩, hlowest⟩
    refine ⟨i - start, (hfound _).2 ⟨?_, fun j hj h => ?_⟩, Nat.add_sub_cancel' hle⟩
    · rw [Nat.add_sub_cancel' hle]
      exact hvacant
    · have hle' : i ≤ start + j := hlowest (start + j) ⟨h, Nat.le_add_right _ _⟩
      omega

/-- The search downward finds the highest empty cell below where it
starts. -/
theorem emptyBefore_eq_some_iff {stop : Nat} :
    emptyBefore m.cells stop = some i ↔ IsOutermost .high (fun j => m.Vacant j ∧ j < stop) i := by
  induction stop with
  | zero =>
      unfold emptyBefore
      constructor
      · intro h
        cases h
      · rintro ⟨⟨-, hlt⟩, -⟩
        omega
  | succ stop ih =>
      unfold emptyBefore
      split
      next hvacant =>
        rw [Option.some.injEq]
        constructor
        · rintro rfl
          exact ⟨⟨hvacant, Nat.lt_succ_self _⟩, fun j hj => Nat.le_of_lt_succ hj.2⟩
        · rintro ⟨⟨-, hlt⟩, hhighest⟩
          have hle : stop ≤ i := hhighest stop ⟨hvacant, Nat.lt_succ_self _⟩
          omega
      next hfull =>
        -- the cell just below is full, so it makes no difference
        have hsame : ∀ j, m.Vacant j ∧ j < stop + 1 ↔ m.Vacant j ∧ j < stop := by
          intro j
          refine ⟨fun ⟨hj, hlt⟩ => ⟨hj, ?_⟩, fun ⟨hj, hlt⟩ => ⟨hj, by omega⟩⟩
          have hne : j ≠ stop := fun heq => hfull (heq ▸ hj)
          omega
        rw [ih]
        simp only [hsame]

-- ================================================================= books

/-- What a device says of its empty cells is so. -/
structure Booked (m : Memory) : Prop where
  count : m.freeCount = m.cells.count none
  first : Names .low m.Vacant m.firstFree
  last : Names .high m.Vacant m.lastFree

/-- In a new memory every cell is empty, so the first is the first and the
last the last. -/
theorem booked_empty (size : Nat) : (empty size).Booked := by
  have hvacant : ∀ i, (empty size).Vacant i ↔ i < size := by
    intro i
    unfold Vacant empty
    rw [List.getElem?_replicate]
    split <;> simp [*]
  refine ⟨List.count_replicate_self.symm, fun i => ?_, fun i => ?_⟩
  · show (if size = 0 then none else some 0) = some i ↔ _
    simp only [IsOutermost, Side.Le, hvacant]
    split
    next hzero => simp [hzero]
    next hpos =>
      rw [Option.some.injEq]
      constructor
      · rintro rfl
        exact ⟨by omega, fun j _ => Nat.zero_le j⟩
      · rintro ⟨-, hlowest⟩
        exact (Nat.le_zero.1 (hlowest 0 (by omega))).symm
  · show (if size = 0 then none else some (size - 1)) = some i ↔ _
    simp only [IsOutermost, Side.Le, hvacant]
    split
    next hzero => simp [hzero]
    next hpos =>
      rw [Option.some.injEq]
      constructor
      · rintro rfl
        exact ⟨by omega, fun j hj => by omega⟩
      · rintro ⟨hlt, hhighest⟩
        have hle := hhighest (size - 1) (by omega)
        omega

/-- An empty cell is filled. There is one empty cell less, and there was
one to take. -/
theorem Booked.occupied (hm : m.Booked) (hi : m.Vacant i) :
    ({ m with cells := m.cells.set i (some v) }.occupied i).Booked
      ∧ ({ m with cells := m.cells.set i (some v) }.occupied i).freeCount + 1 = m.freeCount := by
  obtain ⟨hlt, hget⟩ := List.getElem?_eq_some_iff.1 hi
  let filled : Memory := { m with cells := m.cells.set i (some v) }
  have hvacant : ∀ j, filled.Vacant j ↔ m.Vacant j ∧ j ≠ i := vacant_of_filled hlt rfl
  have hpos : 0 < m.cells.count none := List.count_pos_iff.2 (List.mem_of_getElem? hi)
  have hcount : filled.cells.count none + 1 = m.cells.count none := by
    show (m.cells.set i (some v)).count none + 1 = _
    rw [List.count_set hlt, hget]
    simp only [BEq.rfl, Option.beq_none, Option.isNone_some, Bool.false_eq_true, if_true, if_false]
    omega
  refine ⟨⟨?_, ?_, ?_⟩, ?_⟩
  · show m.freeCount - 1 = filled.cells.count none
    rw [hm.count]
    omega
  · refine hm.first.filled hi hvacant fun j => ?_
    have hbeyond : ∀ k, Side.low.Le i k ∧ k ≠ i ↔ i + 1 ≤ k := by
      intro k
      simp only [Side.Le]
      omega
    simp only [hbeyond]
    exact emptyFrom_eq_some_iff (m := filled)
  · refine hm.last.filled hi hvacant fun j => ?_
    have hbeyond : ∀ k, Side.high.Le i k ∧ k ≠ i ↔ k < i := by
      intro k
      simp only [Side.Le]
      omega
    simp only [hbeyond]
    exact emptyBefore_eq_some_iff (m := filled)
  · show m.freeCount - 1 + 1 = m.freeCount
    rw [hm.count]
    omega

/-- A full cell is emptied. -/
theorem Booked.freed (hm : m.Booked) (hi : m.cells[i]? = some (some v)) :
    ({ m with cells := m.cells.set i none }.freed i).Booked := by
  obtain ⟨hlt, hget⟩ := List.getElem?_eq_some_iff.1 hi
  let emptied : Memory := { m with cells := m.cells.set i none }
  have hvacant : ∀ j, emptied.Vacant j ↔ m.Vacant j ∨ j = i := vacant_of_emptied hlt rfl
  refine ⟨?_, hm.first.emptied hvacant, hm.last.emptied hvacant⟩
  show m.freeCount + 1 = (m.cells.set i none).count none
  rw [hm.count, List.count_set hlt, hget]
  simp

-- =============================================================== changes

theorem cells_fill (i : Nat) (v : Value) : (m.fill i v).2.cells = m.cells.set i (some v) := by
  unfold fill
  simp only
  split <;> rfl

/-- Storing a value keeps the books. -/
theorem Booked.fill (hm : m.Booked) (hi : i < m.size) (v : Value) :
    (m.fill i v).2.Booked
      ∧ (m.Vacant i → (m.fill i v).2.freeCount + 1 = m.freeCount) := by
  have hcell : m.cells[i]? = some m.cells[i] := List.getElem?_eq_getElem hi
  unfold Memory.fill
  rw [hcell, Option.join_some]
  cases hold : m.cells[i] with
  | none =>
      obtain ⟨hbooked, hcount⟩ := hm.occupied (v := v) (hcell.trans (congrArg some hold))
      exact ⟨hbooked, fun _ => hcount⟩
  | some old =>
      -- the cell was full and is full, so nothing is to be noted
      have hvacant : ∀ j, Vacant { m with cells := m.cells.set i (some v) } j ↔ m.Vacant j := by
        intro j
        rw [vacant_of_filled (m := m) hi rfl]
        refine ⟨fun h => h.1, fun h => ⟨h, ?_⟩⟩
        rintro rfl
        unfold Vacant at h
        rw [hcell, hold] at h
        cases h
      refine ⟨⟨?_, hm.first.congr hvacant, hm.last.congr hvacant⟩, fun h => ?_⟩
      · show m.freeCount = (m.cells.set i (some v)).count none
        rw [hm.count, List.count_set hi, hold]
        simp
      · unfold Vacant at h
        rw [hcell, hold] at h
        cases h

/-- Emptying a cell keeps the books. -/
theorem Booked.vacate (hm : m.Booked) (i : Nat) : (m.vacate i).2.Booked := by
  unfold Memory.vacate
  cases hcell : m.cells[i]?.join with
  | none =>
      have hset : m.cells.set i none = m.cells := by
        refine List.ext_getElem? fun j => ?_
        rw [List.getElem?_set]
        split
        next heq =>
          subst heq
          split
          next hlt =>
            rw [List.getElem?_eq_getElem hlt, Option.join_some] at hcell
            rw [List.getElem?_eq_getElem hlt, hcell]
          next hge => exact (List.getElem?_eq_none (Nat.not_lt.1 hge)).symm
        next => rfl
      show ({ m with cells := m.cells.set i none } : Memory).Booked
      rw [hset]
      exact hm
  | some v => exact hm.freed (Option.join_eq_some_iff.1 hcell)

/-- Sweeping cells keeps the books. -/
theorem Booked.sweepAt (is : List Nat) : ∀ {m : Memory}, m.Booked →
    (sweepAt alive is m).2.Booked := by
  induction is with
  | nil => exact fun hm => hm
  | cons i is ih =>
      intro m hm
      unfold Memory.sweepAt
      split
      next => exact ih (hm.vacate i)
      next => exact ih hm

/-- What sweeping cells gives back is in the order in which they are looked
at, each once. -/
theorem sweepAt_values (is : List Nat) (hdistinct : is.Nodup) : ∀ m : Memory,
    (sweepAt alive is m).1
      = ((is.map fun i => m.cells[i]?.join).filter (isDead alive)).filterMap fun cell => cell := by
  induction is with
  | nil => exact fun m => rfl
  | cons i is ih =>
      intro m
      obtain ⟨hnew, hrest⟩ := List.nodup_cons.1 hdistinct
      unfold sweepAt
      rw [List.map_cons, List.filter_cons]
      split
      next hdead =>
        -- the cells still to be looked at are as they were
        have hsame : (is.map fun j => (m.vacate i).2.cells[j]?.join)
            = is.map fun j => m.cells[j]?.join := by
          refine List.map_congr_left fun j hj => ?_
          have hne : i ≠ j := fun heq => hnew (heq ▸ hj)
          rw [cells_vacate, List.getElem?_set_ne hne]
        show (m.vacate i).1.toList ++ (sweepAt alive is (m.vacate i).2).1 = _
        rw [ih hrest, hsame, List.filterMap_cons]
        show m.cells[i]?.join.toList ++ _ = _
        cases m.cells[i]?.join <;> rfl
      next => exact ih hrest m

/-- A sweep gives back what the cells with handles to entities that are
gone held, in order of the cells. -/
theorem sweep_values (m : Memory) (alive : Handle → Bool) :
    (m.sweep alive).1 = (m.cells.filter (isDead alive)).filterMap fun cell => cell := by
  have hcells : ((List.range m.size).map fun i => m.cells[i]?.join) = m.cells := by
    refine List.ext_getElem (by simp [size]) fun j _ hj => ?_
    rw [List.getElem_map, List.getElem_range, List.getElem?_eq_getElem hj, Option.join_some]
  unfold sweep
  rw [sweepAt_values _ List.nodup_range, hcells]

-- ============================================================ operations

/-- What is done to a device. -/
inductive Op where
  | set (addr : Int64) (v : Value)
  | clear (addr : Int64)
  | sweep (alive : Handle → Bool)

/-- The device after an operation. One that fails leaves it as it was. -/
def Op.apply (m : Memory) : Op → Memory
  | set addr v =>
    match m.set addr v with
    | .ok (_, m') => m'
    | .error _ => m
  | clear addr =>
    match m.clear addr with
    | .ok (_, m') => m'
    | .error _ => m
  | sweep alive => (m.sweep alive).2

/-- An address names a cell if it is in range. -/
theorem index_of_lt {addr : Int64} (h : 0 ≤ addr.toInt ∧ addr.toInt < m.size) :
    m.index addr = .ok addr.toInt.toNat ∧ addr.toInt.toNat < m.size :=
  ⟨if_pos h, by omega⟩

/-- An address in range is filled. -/
theorem set_of_lt {addr : Int64} (h : 0 ≤ addr.toInt ∧ addr.toInt < m.size) (v : Value) :
    m.set addr v = .ok (m.fill addr.toInt.toNat v) := by
  unfold set
  rw [(index_of_lt h).1]
  rfl

theorem clear_of_lt {addr : Int64} (h : 0 ≤ addr.toInt ∧ addr.toInt < m.size) :
    m.clear addr = .ok (m.vacate addr.toInt.toNat) := by
  unfold clear
  rw [(index_of_lt h).1]
  rfl

/-- The fault of an address that is out of range. -/
def outOfBounds (addr : Int64) (size : Nat) : Fault :=
  .of .addressOutOfBounds (toString addr.toInt ++ " NOT IN 0.." ++ toString size)

theorem index_of_not_lt {addr : Int64} (h : ¬(0 ≤ addr.toInt ∧ addr.toInt < m.size)) :
    m.index addr = .error (outOfBounds addr m.size) := if_neg h

theorem set_of_not_lt {addr : Int64} (h : ¬(0 ≤ addr.toInt ∧ addr.toInt < m.size)) (v : Value) :
    m.set addr v = .error (outOfBounds addr m.size) := by
  unfold set
  rw [index_of_not_lt h]
  rfl

theorem clear_of_not_lt {addr : Int64} (h : ¬(0 ≤ addr.toInt ∧ addr.toInt < m.size)) :
    m.clear addr = .error (outOfBounds addr m.size) := by
  unfold clear
  rw [index_of_not_lt h]
  rfl

/-- Every operation keeps the number of cells and the books. -/
theorem Booked.apply (hm : m.Booked) (op : Op) :
    (op.apply m).Booked ∧ (op.apply m).size = m.size := by
  cases op with
  | set addr v =>
      by_cases h : 0 ≤ addr.toInt ∧ addr.toInt < m.size
      · simp only [Op.apply, set_of_lt h]
        refine ⟨(hm.fill (index_of_lt h).2 v).1, ?_⟩
        show (m.fill _ v).2.cells.length = m.cells.length
        rw [cells_fill, List.length_set]
      · simp only [Op.apply, set_of_not_lt h]
        exact ⟨hm, trivial⟩
  | clear addr =>
      by_cases h : 0 ≤ addr.toInt ∧ addr.toInt < m.size
      · simp only [Op.apply, clear_of_lt h]
        refine ⟨hm.vacate _, ?_⟩
        show (m.vacate _).2.cells.length = m.cells.length
        rw [cells_vacate, List.length_set]
      · simp only [Op.apply, clear_of_not_lt h]
        exact ⟨hm, trivial⟩
  | sweep alive =>
      refine ⟨hm.sweepAt _, ?_⟩
      show (m.sweep alive).2.cells.length = m.cells.length
      rw [sweep_cells, List.length_map]

/-- A device of some size after operations in turn. -/
def after (size : Nat) (ops : List Op) : Memory := ops.foldl Op.apply (empty size)

/-- Operations keep the books one after the other, and the size. -/
theorem Booked.foldl (ops : List Op) : ∀ {m : Memory}, m.Booked →
    (ops.foldl Op.apply m).Booked ∧ (ops.foldl Op.apply m).size = m.size := by
  induction ops with
  | nil => exact fun hm => ⟨hm, rfl⟩
  | cons op ops ih =>
      intro m hm
      obtain ⟨hbooked, hsize⟩ := hm.apply op
      obtain ⟨hbooked', hsize'⟩ := ih hbooked
      exact ⟨hbooked', hsize'.trans hsize⟩

theorem booked_after (size : Nat) (ops : List Op) :
    (after size ops).Booked ∧ (after size ops).size = size := by
  obtain ⟨hbooked, hsize⟩ := (booked_empty size).foldl ops
  exact ⟨hbooked, hsize.trans List.length_replicate⟩

/-- The books of a device are right after all operations in any order, with
those that fail. The device has the size that it was made with, and says
how many cells are empty and which is the lowest and the highest of them. A
value that is stored or cleared gives back what the cell held and changes no
other cell; where it fills an empty cell, one was counted. A sweep empties
the cells with handles to entities that are gone, and gives back what they
held in order. An address out of range is refused, and nothing changes. -/
theorem books_are_right (size : Nat) (ops : List Op) :
    let m := after size ops
    m.size = size
      ∧ m.freeCount = m.cells.count none
      ∧ (∀ i, m.firstFree = some i ↔ m.Vacant i ∧ ∀ j, m.Vacant j → i ≤ j)
      ∧ (∀ i, m.lastFree = some i ↔ m.Vacant i ∧ ∀ j, m.Vacant j → j ≤ i)
      ∧ (m.firstFree = none ↔ ∀ i, ¬ m.Vacant i)
      ∧ (m.lastFree = none ↔ ∀ i, ¬ m.Vacant i)
      ∧ (∀ (addr : Int64) (v : Value), 0 ≤ addr.toInt ∧ addr.toInt < size →
          (∃ m', m.set addr v = .ok (m.cells[addr.toInt.toNat]?.join, m')
              ∧ m'.cells = m.cells.set addr.toInt.toNat (some v)
              ∧ (m.Vacant addr.toInt.toNat → m'.freeCount + 1 = m.freeCount))
            ∧ ∃ m', m.clear addr = .ok (m.cells[addr.toInt.toNat]?.join, m')
                ∧ m'.cells = m.cells.set addr.toInt.toNat none)
      ∧ (∀ (addr : Int64) (v : Value), ¬(0 ≤ addr.toInt ∧ addr.toInt < size) →
          m.set addr v = .error (outOfBounds addr size)
            ∧ m.clear addr = .error (outOfBounds addr size)
            ∧ (Op.set addr v).apply m = m ∧ (Op.clear addr).apply m = m)
      ∧ ∀ alive, (m.sweep alive).1 = (m.cells.filter (isDead alive)).filterMap (fun cell => cell)
          ∧ (m.sweep alive).2.cells
              = m.cells.map fun cell => if isDead alive cell then none else cell := by
  intro m
  obtain ⟨hm, hsize⟩ : m.Booked ∧ m.size = size := booked_after size ops
  refine ⟨hsize, hm.count, hm.first, hm.last, hm.first.eq_none_iff, hm.last.eq_none_iff,
    fun addr v h => ?_, fun addr v h => ?_,
    fun alive => ⟨m.sweep_values alive, m.sweep_cells alive⟩⟩
  · rw [← hsize] at h
    obtain ⟨-, hlt⟩ := index_of_lt h
    refine ⟨⟨_, set_of_lt h v, cells_fill _ v, (hm.fill hlt v).2⟩, ?_⟩
    exact ⟨_, clear_of_lt h, cells_vacate _⟩
  · rw [← hsize] at h ⊢
    have hset := set_of_not_lt h v
    have hclear := clear_of_not_lt h
    refine ⟨hset, hclear, ?_, ?_⟩
    · simp only [Op.apply, hset]
    · simp only [Op.apply, hclear]

/-- Cells are filled from both ends, emptied and filled again; the handle
in the middle is to an entity that is gone. -/
def shuffled : List Op :=
  [.set 0 (.int 0), .set 4 (.int 4), .set 5 (.int 5), .set 2 (.entity ⟨7, 0, .part⟩),
    .clear 4, .set 0 (.bool true), .clear (-1), .clear 0, .set 1 (.int 1)]

/-- The device has three empty cells, the lowest of them the first and the
highest the last; an address past its end is refused, and a sweep finds the
handle. -/
theorem books_are_right_shuffled :
    let m := after 5 shuffled
    m.cells = [none, some (.int 1), some (.entity ⟨7, 0, .part⟩), none, none]
      ∧ m.freeCount = 3 ∧ m.firstFree = some 0 ∧ m.lastFree = some 4
      ∧ m.set 5 (.int 5) = .error (outOfBounds 5 5)
      ∧ (∃ m', m.clear 1 = .ok (some (.int 1), m') ∧ m'.cells = m.cells.set 1 none)
      ∧ (m.sweep fun _ => false).1 = [.entity ⟨7, 0, .part⟩] := by
  intro m
  have hcells : m.cells = [none, some (.int 1), some (.entity ⟨7, 0, .part⟩), none, none] := by
    decide
  obtain ⟨-, hcount, hfirst, hlast, -, -, hin, hout, hsweep⟩ := books_are_right 5 shuffled
  change m.freeCount = m.cells.count none at hcount
  have hvacant : ∀ i, m.Vacant i → i < 5 := fun i hi => by
    have hlt := hi.lt_size
    unfold Memory.size at hlt
    rw [hcells] at hlt
    exact hlt
  have hsweep := (hsweep fun _ => false).1
  change (m.sweep fun _ => false).1 = (m.cells.filter _).filterMap _ at hsweep
  rw [hcells] at hcount hsweep
  refine ⟨hcells, hcount, (hfirst 0).2 ⟨?_, fun j _ => Nat.zero_le j⟩,
    (hlast 4).2 ⟨?_, fun j hj => Nat.le_of_lt_succ (hvacant j hj)⟩,
    (hout 5 (.int 5) (by decide)).1, ?_, hsweep⟩
  · show m.cells[0]? = some none
    rw [hcells]
    rfl
  · show m.cells[4]? = some none
    rw [hcells]
    rfl
  · obtain ⟨m', hclear, hcells'⟩ := (hin 1 (.int 0) (by decide)).2
    refine ⟨m', ?_, hcells'⟩
    change m.clear 1 = .ok (m.cells[1]?.join, m') at hclear
    rw [hcells] at hclear
    exact hclear

end TickScript.Memory
