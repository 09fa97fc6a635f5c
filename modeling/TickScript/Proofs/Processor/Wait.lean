/-
Waiting.

# In the tick of the wait

Instructions are only executed while there is nothing to wait for. So a
wait sets the ticks to be waited to the number that it is given, and not to
more. Where that is zero the tick goes on, with what is left of its budget;
where it is not, the turn is the tick's last. A wait that a jump runs on
its own turn makes no difference: either way the turn ends as the line of
the wait does (`Execution.tick_eq`).

# In the ticks after it

Until the host interrupts the processor or loads another script, nothing
but ticks takes from the ticks to be waited. `Frames` is a number of ticks
with whatever else the host does between them, and `Resting` what such
frames keep.
-/
import TickScript.Proofs.Processor.Budget

namespace TickScript

-- =========================================================== whole numbers

namespace Number.Binary

/-- A size with its sign. -/
def signed (negative : Bool) (size : Nat) : Int := if negative then -(size : Int) else size

/-- The value `± significand * 2 ^ exponent` is this whole number. -/
def IsWhole : Binary → Int → Prop
  | .finite negative m q, k => signed negative m * twoTo q.toNat = k * twoTo (-q).toNat
  | _, _ => False

variable {negative : Bool} {m p : Nat} {k : Int}

theorem signed_mul : signed negative (m * p) = signed negative m * p := by
  cases negative with
  | false => exact Int.natCast_mul m p
  | true =>
      show -((m * p : Nat) : Int) = -(m : Int) * p
      rw [Int.natCast_mul, Int.neg_mul]

/-- A multiple has no remainder, and the factor is the quotient. -/
theorem signed_eq_mul_iff (hp : 0 < p) :
    signed negative m = k * p ↔ m % p = 0 ∧ signed negative (m / p) = k := by
  have hcancel : ∀ {i j : Int}, i * p = j * p → i = j := fun h =>
    Int.eq_of_mul_eq_mul_right (by omega) h
  have hexact : m % p = 0 → signed negative m = signed negative (m / p) * p := by
    intro hmod
    rw [← signed_mul, Nat.div_mul_cancel (Nat.dvd_of_mod_eq_zero hmod)]
  constructor
  · intro h
    have hdvd : (p : Int) ∣ signed negative m := ⟨k, by rw [h, Int.mul_comm]⟩
    have hmod : m % p = 0 := by
      cases negative with
      | false => exact Nat.mod_eq_zero_of_dvd (Int.natCast_dvd_natCast.1 hdvd)
      | true => exact Nat.mod_eq_zero_of_dvd (Int.natCast_dvd_natCast.1 (Int.dvd_neg.1 hdvd))
    refine ⟨hmod, hcancel ?_⟩
    rw [← hexact hmod, h]
  · intro h
    rw [hexact h.1, h.2]

/-- A float is a whole number if it has no fraction, and which one is then
its whole part. -/
theorem isWhole_iff {x : Float} :
    (ofFloat x).IsWhole k ↔ isWhole x = true ∧ wholePart? x = some k := by
  unfold Number.isWhole wholePart?
  cases ofFloat x with
  | nan => simp [IsWhole]
  | infinite => simp [IsWhole]
  | finite negative m q =>
      show signed negative m * twoTo q.toNat = k * twoTo (-q).toNat
        ↔ (decide (0 ≤ q) || decide (m % twoTo (-q).toNat = 0)) = true
          ∧ some (signed negative
              (if 0 ≤ q then m * twoTo q.toNat else m / twoTo (-q).toNat)) = some k
      rw [Option.some_inj, Bool.or_eq_true, decide_eq_true_iff, decide_eq_true_iff]
      by_cases hq : 0 ≤ q
      · have hnone : (-q).toNat = 0 := by omega
        rw [if_pos hq, signed_mul, hnone]
        show _ = k * 1 ↔ _
        rw [Int.mul_one]
        exact ⟨fun h => ⟨.inl hq, h⟩, fun h => h.2⟩
      · have hnone : q.toNat = 0 := by omega
        rw [if_neg hq, hnone]
        show _ * 1 = _ ↔ _
        have hpos : 0 < twoTo (-q).toNat := Nat.two_pow_pos _
        rw [Int.mul_one, signed_eq_mul_iff hpos, or_iff_right hq]

end Number.Binary

/-- The value is this whole number, as an integer or as a float. -/
def Value.IsWhole : Value → Int → Prop
  | .int n, k => n.toInt = k
  | .float x, k => (Number.Binary.ofFloat x).IsWhole k
  | _, _ => False

/-- A value is one whole number at most. -/
theorem Value.IsWhole.unique {v : Value} {j k : Int} (h : v.IsWhole j) (h' : v.IsWhole k) :
    j = k := by
  cases v with
  | int n => exact h.symm.trans h'
  | float x =>
      have hj := (Number.Binary.isWhole_iff.1 h).2
      have hk := (Number.Binary.isWhole_iff.1 h').2
      exact Option.some_inj.1 (hj.symm.trans hk)
  | _ => exact h.elim

namespace Scene

variable {s s' m m₁ t u : Scene} {left : Nat} {ticks : Operand} {v : Value} {es : List Event}

/-- The value is a number of ticks that can be waited. -/
def IsWait (v : Value) (k : Nat) : Prop := k ≤ longestWait ∧ v.IsWhole k

/-- Taking the nearest script integer neither brings a number into the
range of waits nor takes it out of there. -/
theorem clamp_cases (k : Int) : (Number.clamp k).toInt = k
    ∨ (¬(0 ≤ (Number.clamp k).toInt ∧ (Number.clamp k).toInt ≤ longestWait)
      ∧ ¬(0 ≤ k ∧ k ≤ longestWait)) := by
  unfold Number.clamp Number.least Number.greatest longestWait
  split
  next hlow => exact .inr ⟨by decide, by omega⟩
  next hlow =>
    split
    next hhigh => exact .inr ⟨by decide, by omega⟩
    next hhigh => exact .inl (Int64.toInt_ofInt_of_le (by omega) (by omega))

/-- A wait is given a whole number, or it is invalid. -/
theorem waitTicks_cases (v : Value) :
    (∃ n k, waitTicks v = .ok n ∧ v.IsWhole k ∧ (n.toInt = k
        ∨ (¬(0 ≤ n.toInt ∧ n.toInt ≤ longestWait) ∧ ¬(0 ≤ k ∧ k ≤ longestWait))))
      ∨ ((∀ k, ¬v.IsWhole k) ∧ ∃ detail, waitTicks v = .error (.of .invalidWait detail)) := by
  cases v with
  | int n => exact .inl ⟨n, n.toInt, rfl, rfl, .inl rfl⟩
  | float x =>
      simp only [waitTicks]
      split
      next k hwhole hpart =>
        exact .inl ⟨_, k, rfl, Number.Binary.isWhole_iff.2 ⟨hwhole, hpart⟩, clamp_cases k⟩
      next hnot =>
        refine .inr ⟨fun k hk => ?_, _, rfl⟩
        obtain ⟨hwhole, hpart⟩ := Number.Binary.isWhole_iff.1 hk
        exact hnot k hwhole hpart
  | _ => exact .inr ⟨fun _ hk => hk, _, rfl⟩

/-- Where there is nothing to wait for yet, a wait is for what it is
given, if that can be waited, and a fault otherwise. -/
theorem wait_cases (hdelay : s.proc.delay = 0) (v : Value) :
    (∃ k, IsWait v k ∧ s.wait v = .ok { s with proc := { s.proc with delay := k } })
      ∨ ((∀ k, ¬IsWait v k) ∧ ∃ detail, s.wait v = .error (.of .invalidWait detail)) := by
  rcases waitTicks_cases v with ⟨n, k, hticks, hwhole, hk⟩ | ⟨hnot, detail, hticks⟩
  · have hwait : s.wait v = if 0 ≤ n.toInt ∧ n.toInt ≤ longestWait then
        .ok { s with proc := { s.proc with
          delay := min (s.proc.delay + n.toInt.toNat) longestWait } }
        else .error (.of .invalidWait (toString n.toInt)) := by
      unfold wait
      rw [hticks]
      rfl
    by_cases hrange : 0 ≤ n.toInt ∧ n.toInt ≤ longestWait
    · have hsame : n.toInt = k := hk.resolve_right fun h => h.1 hrange
      have hdelay' : min (s.proc.delay + n.toInt.toNat) longestWait = n.toInt.toNat := by omega
      refine .inl ⟨n.toInt.toNat, ⟨by omega, ?_⟩, ?_⟩
      · rw [Int.toNat_of_nonneg hrange.1, hsame]
        exact hwhole
      · rw [hwait, if_pos hrange, hdelay']
    · refine .inr ⟨fun j hj => ?_, _, by rw [hwait, if_neg hrange]⟩
      have hunique := hwhole.unique hj.2
      have hle := hj.1
      rcases hk with hsame | ⟨-, hout⟩ <;> omega
  · refine .inr ⟨fun k hk => hnot k hk.2, detail, ?_⟩
    unfold wait
    rw [hticks]
    rfl

-- ================================================================== waits

/-- On a wait, the value that it is given, with the scene once that is
read. -/
def given? (s : Scene) : Option (Value × Scene) :=
  match s.instruction? with
  | some (.time (.wait ticks)) => (s.read ticks).toOption
  | _ => none

/-- The scene on its next line, with so many ticks to be waited. -/
def holdFor (s : Scene) (k : Nat) : Scene :=
  { s with proc := { s.proc with pc := s.proc.pc + 1, delay := k } }

theorem given?_eq_some (h : m.given? = some (v, m₁)) :
    ∃ ticks, m.proc.script[m.proc.pc]? = some (some (.time (.wait ticks)))
      ∧ m.read ticks = .ok (v, m₁) := by
  unfold given? at h
  split at h
  next ticks hline => exact ⟨ticks, Option.join_eq_some_iff.1 hline, toOption_eq_some.1 h⟩
  next => cases h

/-- Reading an operand leaves the processor as it is. -/
theorem read_proc (h : m.read ticks = .ok (v, m₁)) : m₁.proc = m.proc := by
  obtain ⟨⟨w, draws⟩, -, h⟩ := bind_eq_ok.1 h
  cases h
  rfl

/-- The line of a wait: on to the next one, or a fault. -/
theorem step_wait (hrun : m.proc.status = .running) (h : m.given? = some (v, m₁)) :
    (∀ k, IsWait v k → m.proc.pc + 1 < m.proc.script.size → m.step = m₁.holdFor k)
      ∧ ((∀ k, ¬IsWait v k) → ∃ fault, fault.cause = .invalidWait ∧ m.step = m.fail fault) := by
  obtain ⟨ticks, hline, hread⟩ := given?_eq_some h
  have hproc := read_proc hread
  have hexecute : (Instruction.time (.wait ticks)).execute m
      = (m₁.wait v).map fun s => (.next, s) := by
    simp only [Instruction.execute, time, hread]
    rfl
  have hdelay : m₁.proc.delay = 0 := by
    rw [hproc]
    exact delay_eq_zero hrun
  unfold step
  rw [hline]
  simp only
  rw [hexecute]
  rcases wait_cases hdelay v with ⟨j, hj, hwait⟩ | ⟨hnot, detail, hwait⟩
  · rw [hwait]
    refine ⟨fun k hk hlast => ?_, fun hnot => absurd hj (hnot j)⟩
    have hsame : (k : Int) = j := hk.2.unique hj.2
    obtain rfl : k = j := by omega
    refine completeAtEnd_of_lt ?_
    show m₁.proc.pc + 1 < m₁.proc.script.size
    rw [hproc]
    exact hlast
  · rw [hwait]
    exact ⟨fun k hk => absurd hk (hnot k), fun _ => ⟨_, rfl, rfl⟩⟩

-- ============================================================= executions

/-- In the tick that starts from `s`, an instruction is executed in `m`,
and this much of the budget is left after its turn. -/
def Execution (s : Scene) (left : Nat) (m : Scene) : Prop :=
  s.proc.status = .running ∧ ∃ before u after t,
    Turns s.proc.config.instructionsPerTick s.aged (before ++ u :: after) t
      ∧ m ∈ u.executions
      ∧ left + counted (before ++ [u]) = s.proc.config.instructionsPerTick

/-- Without a budget there are no turns. -/
theorem Turns.pos {budget : Nat} {log : List Scene} (h : Turns budget s log t) (hm : m ∈ log) :
    0 < budget := by
  cases h with
  | spent => cases hm
  | ended | missing | last | more => exact Nat.succ_pos _

theorem counted_concat {log : List Scene} :
    counted (log ++ [s]) = counted log + if s.onLabel then 0 else 1 := by
  unfold counted
  rw [List.countP_append, List.countP_singleton]
  cases s.onLabel <;> rfl

/-- The turns from one of them on are those of what is left of the
budget. -/
theorem Turns.split {before after : List Scene} : ∀ {budget : Nat} {s : Scene},
    Turns budget s (before ++ u :: after) t → s.proc.status = .running →
    u.proc.status = .running ∧ ∃ rest, Turns rest u (u :: after) t
      ∧ counted before + rest = budget := by
  induction before with
  | nil =>
      intro budget s h hrun
      have hs : s = u := by
        cases h <;> rfl
      subst hs
      exact ⟨hrun, budget, h, Nat.zero_add _⟩
  | cons first before ih =>
      intro budget s h hrun
      generalize hlog : first :: before ++ u :: after = log at h
      cases h with
      | spent | ended | missing => cases hlog
      | last => simp at hlog
      | @more budget _ _ i log hline hon hrest =>
          obtain ⟨rfl, rfl⟩ := List.cons.inj hlog
          obtain ⟨hu, rest, hturns, hsum⟩ := ih hrest ((goesOn_turn hrun hline).1 hon)
          refine ⟨hu, rest, hturns, ?_⟩
          rw [counted_cons]
          by_cases hlabel : first.onLabel
          · rw [if_pos hlabel] at hsum ⊢
            omega
          · rw [if_neg hlabel] at hsum ⊢
            omega

/-- A turn executes the line that it starts on. -/
theorem mem_executions {i : Instruction} (hline : s.proc.script[s.proc.pc]? = some (some i)) :
    s ∈ s.executions := by
  rcases turn_cases hline with ⟨-, hone⟩ | ⟨-, htwo, -⟩
  · rw [hone]
    exact List.mem_singleton_self s
  · rw [htwo]
    exact List.mem_cons_self

/-- What a turn executes is under the conditions of the turn, and the turn
ends as the line does, but for a jump that runs another line. -/
theorem executions_of_mem {i : Instruction}
    (hline : u.proc.script[u.proc.pc]? = some (some i)) (hm : m ∈ u.executions) :
    m.proc.status = u.proc.status ∧ m.proc.config = u.proc.config
      ∧ (u.turn i = m.step ∨ (m = u ∧ ∃ line condition, i = .jump line condition)) := by
  rcases turn_cases hline with ⟨hturn, hone⟩ | ⟨hturn, htwo, -, hstatus, hjump⟩
  · rw [hone, List.mem_singleton] at hm
    subst hm
    exact ⟨rfl, rfl, .inl hturn⟩
  · rw [htwo] at hm
    rcases List.mem_cons.1 hm with rfl | hm
    · exact ⟨rfl, rfl, .inr ⟨rfl, hjump⟩⟩
    · rw [List.mem_singleton.1 (List.mem_filter.1 hm).1]
      exact ⟨hstatus, (step_writes u).config, .inl hturn⟩

/-- What is executed is so by a processor that runs, with a budget. -/
theorem Execution.running (h : Execution s left m) : m.proc.status = .running
    ∧ m.proc.config = s.proc.config ∧ 0 < s.proc.config.instructionsPerTick := by
  obtain ⟨hrun, before, u, after, t, hturns, hm, -⟩ := h
  have hu : u ∈ before ++ u :: after := List.mem_append_right _ List.mem_cons_self
  obtain ⟨hconfig, i, hline⟩ := hturns.of_mem hu
  obtain ⟨hstatus, hsetup, -⟩ := executions_of_mem hline hm
  exact ⟨hstatus.trans (hturns.split hrun).1, hsetup.trans hconfig, hturns.pos hu⟩

/-- After any instruction but a jump, the tick goes on from where its line
leads, or ends there. -/
theorem Execution.tick_eq {i : Instruction} (h : Execution s left m)
    (hi : m.proc.script[m.proc.pc]? = some (some i))
    (hplain : ∀ line condition, i ≠ .jump line condition) :
    (m.step.proc.status = .running →
        s.tick = ((spend left m.step).proc.status, spend left m.step))
      ∧ (m.step.proc.status ≠ .running → s.tick = (m.step.proc.status, m.step)) := by
  obtain ⟨hrun, before, u, after, t, hturns, hm, hleft⟩ := h
  have htick : s.tick = (t.proc.status, t) := by
    rw [tick_spend hrun, hturns.spend_eq hrun]
  obtain ⟨hu, rest, hturns, hsum⟩ := hturns.split hrun
  obtain ⟨-, j, hline⟩ := hturns.of_mem List.mem_cons_self
  have hturn : u.turn j = m.step := by
    refine (executions_of_mem hline hm).2.2.resolve_right fun hother => ?_
    obtain ⟨rfl, line, condition, hjump⟩ := hother
    rw [hline] at hi
    cases hi
    exact hplain line condition hjump
  have hgoes := goesOn_turn hu hline
  rw [hturn] at hgoes
  rw [htick]
  cases hturns with
  | last hline' hstays =>
      rw [hline] at hline'
      cases hline'
      rw [hturn] at hstays ⊢
      exact ⟨fun hruns => absurd (hgoes.2 hruns) hstays, fun _ => rfl⟩
  | @more budget _ _ _ _ hline' hon hrest =>
      rw [hline] at hline'
      cases hline'
      rw [hturn] at hon hrest
      have hruns := hgoes.1 hon
      have hbudget : left = if u.onLabel then budget + 1 else budget := by
        rw [counted_concat] at hleft
        by_cases hlabel : u.onLabel
        · rw [if_pos hlabel] at hleft ⊢
          omega
        · rw [if_neg hlabel] at hleft ⊢
          omega
      rw [hbudget, hrest.spend_eq hruns]
      exact ⟨fun _ => rfl, fun hstops => absurd hruns hstops⟩

/-- A processor that runs first executes what it is on. -/
theorem execution_first {i : Instruction} (hrun : s.proc.status = .running)
    (hbudget : 0 < s.proc.config.instructionsPerTick)
    (hline : s.proc.script[s.proc.pc]? = some (some i)) (hm : m ∈ s.aged.executions) :
    ∃ left, Execution s left m := by
  obtain ⟨log, t, hturns⟩ := turns_exist s.proc.config.instructionsPerTick s.aged
  obtain ⟨after, rfl⟩ : ∃ after, log = s.aged :: after := by
    generalize hn : s.proc.config.instructionsPerTick = n at hturns hbudget
    cases hturns with
    | spent => omega
    | ended hline' | missing hline' => exact absurd (hline.symm.trans hline') nofun
    | last | more => exact ⟨_, rfl⟩
  have hle : counted [s.aged] ≤ 1 := List.countP_le_length
  exact ⟨_, hrun, [], s.aged, after, t, hturns, hm,
    Nat.sub_add_cancel (Nat.le_trans hle hbudget)⟩

-- ================================================================= frames

/-- What the host may do between ticks, short of interrupting the processor
and of loading another script. -/
inductive Aside : Scene → Scene → Prop where
  | sweep (s : Scene) : Aside s s.swept
  | feed (s : Scene) (text : String) : Aside s { s with proc := s.proc.feed text }
  | mount (s : Scene) (part : Handle) : Aside s { s with proc := s.proc.mount part }
  | connect {s : Scene} {name : String} {part : Handle} {proc : Processor}
      (made : s.proc.connect name part = .ok proc) : Aside s { s with proc }
  | host (s : Scene) (world : World) : Aside s { s with world }

/-- Ticks and what they answer, and whatever is done between them. -/
inductive Frames (s : Scene) : List Event → Scene → Prop where
  | start : Frames s [] s
  | aside {es : List Event} {t t' : Scene} (before : Frames s es t) (done : Aside t t') :
      Frames s es t'
  | tick {es : List Event} {t : Scene} (before : Frames s es t) :
      Frames s (es ++ [t.tick.1]) t.tick.2

/-- The processor has so many ticks to wait where it was held up, and
nothing else keeps it from running on. -/
structure Resting (s : Scene) (delay : Nat) (t : Scene) : Prop where
  config : t.proc.config = s.proc.config
  script : t.proc.script = s.proc.script
  pc : t.proc.pc = s.proc.pc
  halted : t.proc.halted = false
  completed : t.proc.completed = false
  enabled : t.proc.enabled = true
  delay : t.proc.delay = delay

theorem Resting.status {k : Nat} (h : Resting s k t) :
    t.proc.status = if 0 < k then .waiting k else .running := by
  unfold Processor.status
  rw [h.halted, h.completed, h.enabled, h.delay]
  rfl

theorem Resting.aside {k : Nat} (h : Resting s k t) (haside : Aside t u) : Resting s k u := by
  cases haside with
  | sweep | feed | mount | host =>
      exact ⟨h.config, h.script, h.pc, h.halted, h.completed, h.enabled, h.delay⟩
  | connect made =>
      obtain ⟨links, rfl⟩ := connect_eq_ok made
      exact ⟨h.config, h.script, h.pc, h.halted, h.completed, h.enabled, h.delay⟩

/-- A tick takes one from the wait, and counts as a frame. -/
theorem Resting.tick {k : Nat} (h : Resting s (k + 1) t) :
    t.tick = (.waiting k, { t.aged with proc := { t.aged.proc with delay := k } })
      ∧ Resting s k t.tick.2 := by
  have hstatus : t.proc.status = .waiting (k + 1) := h.status
  have htick := tick_waiting hstatus
  rw [h.delay] at htick
  refine ⟨htick, ?_⟩
  rw [htick]
  exact ⟨h.config, h.script, h.pc, h.halted, h.completed, h.enabled, rfl⟩

/-- Frames count the wait down. -/
theorem Frames.resting {k : Nat} (h : Frames s es t) (hs : Resting s k s) (hle : es.length ≤ k) :
    Resting s (k - es.length) t := by
  induction h with
  | start => exact hs
  | aside _ done ih => exact (ih hle).aside done
  | @tick es t _ ih =>
      rw [List.length_append] at hle ⊢
      change es.length + 1 ≤ k at hle
      show Resting s (k - (es.length + 1)) t.tick.2
      have hrest := ih (by omega)
      rw [show k - es.length = k - (es.length + 1) + 1 by omega] at hrest
      exact hrest.tick.2

/-- They answer as they do so. -/
theorem Frames.answers {k j : Nat} {e : Event} (h : Frames s es t) (hs : Resting s k s)
    (hj : j < k) (he : es[j]? = some e) : e = .waiting (k - 1 - j) := by
  induction h with
  | start => cases he
  | aside _ _ ih => exact ih he
  | @tick es t hframes ih =>
      by_cases hin : j < es.length
      · rw [List.getElem?_append_left hin] at he
        exact ih he
      · have hlast := (List.getElem?_eq_some_iff.1 he).1
        rw [List.length_append] at hlast
        change j < es.length + 1 at hlast
        obtain rfl : j = es.length := by omega
        have hrest := hframes.resting hs (Nat.le_of_lt hj)
        rw [show k - es.length = k - 1 - es.length + 1 by omega] at hrest
        rw [List.getElem?_concat_length] at he
        cases he
        rw [hrest.tick.1]

/-- The frames to come, with no interrupt and no load among them: the first
`k` count down to zero and do nothing else, and the one after them runs on
from the line that the processor is on. -/
structure CountsDown (k : Nat) (s : Scene) : Prop where
  answers : ∀ es t, Frames s es t → ∀ j < k, ∀ e, es[j]? = some e → e = .waiting (k - 1 - j)
  idles : ∀ es t, Frames s es t → es.length < k →
    t.tick.2 = { t.aged with proc := { t.aged.proc with delay := t.proc.delay - 1 } }
  resumes : ∀ es t, Frames s es t → es.length = k → t.proc.status = .running
    ∧ t.proc.pc = s.proc.pc ∧ t.proc.script = s.proc.script
    ∧ (t.instruction?.isSome → ∃ left, Execution t left t.aged)

/-- A processor at rest counts down, and then runs on if it has a
budget. -/
theorem Resting.countsDown {k : Nat} (hs : Resting s k s)
    (hbudget : 0 < s.proc.config.instructionsPerTick) : CountsDown k s where
  answers es t hframes j hj e he := hframes.answers hs hj he
  idles es t hframes hlt := by
    have hrest := hframes.resting hs (Nat.le_of_lt hlt)
    have hstatus := hrest.status
    rw [if_pos (Nat.sub_pos_of_lt hlt)] at hstatus
    rw [tick_waiting hstatus]
  resumes es t hframes hall := by
    have hrest := hframes.resting hs (Nat.le_of_eq hall)
    rw [hall, Nat.sub_self] at hrest
    have hrun : t.proc.status = .running := hrest.status
    refine ⟨hrun, hrest.pc, hrest.script, fun hsome => ?_⟩
    obtain ⟨i, hi⟩ := Option.isSome_iff_exists.1 hsome
    have hline := Option.join_eq_some_iff.1 hi
    rw [← hrest.config] at hbudget
    exact execution_first hrun hbudget hline (mem_executions hline)

/-- Waiting. Whatever happened before, an instruction is only executed
while there is nothing to wait for. Let it be a wait, given some value.

If the value is a whole number of ticks `k` that can be waited, and the
line is not the last of the script, the processor is then on the next line.
With `k` above zero the tick ends and answers `k`, and the frames that
follow count down and run on from there. With `k` zero the tick itself runs
on from there, with what is left of its budget.

With any other value the processor halts, with nothing to wait for. -/
theorem wait_counts_down (s : Scene) :
    (∀ left m, Execution s left m → m.proc.delay = 0)
      ∧ ∀ left m v m₁, Execution s left m → m.given? = some (v, m₁) → m₁.proc = m.proc
        ∧ (∀ k, IsWait v k → m.proc.pc + 1 < m.proc.script.size →
            (0 < k → s.tick = (.waiting k, m₁.holdFor k) ∧ CountsDown k (m₁.holdFor k))
              ∧ (k = 0 → s.tick = ((spend left (m₁.holdFor 0)).proc.status,
                  spend left (m₁.holdFor 0))))
        ∧ ((∀ k, ¬IsWait v k) → ∃ fault, fault.cause = .invalidWait
            ∧ s.tick = (.halted, m.fail fault) ∧ (m.fail fault).proc.delay = 0) := by
  refine ⟨fun left m h => delay_eq_zero h.running.1, fun left m v m₁ h hgiven => ?_⟩
  obtain ⟨ticks, hline, hread⟩ := given?_eq_some hgiven
  have hproc := read_proc hread
  obtain ⟨hrun, hconfig, hbudget⟩ := h.running
  obtain ⟨hheld, hrefused⟩ := step_wait hrun hgiven
  obtain ⟨hgoes, hends⟩ := h.tick_eq hline nofun
  refine ⟨hproc, fun k hk hlast => ?_, fun hnot => ?_⟩
  · have hrest : Resting (m₁.holdFor k) k (m₁.holdFor k) := by
      obtain ⟨hhalted, hcompleted, henabled, -⟩ := Processor.status_eq_running_iff.1 hrun
      rw [← hproc] at hhalted hcompleted henabled
      exact ⟨rfl, rfl, rfl, hhalted, hcompleted, henabled, rfl⟩
    rw [hheld k hk hlast, hrest.status] at hgoes hends
    refine ⟨fun hpos => ?_, fun hzero => ?_⟩
    · rw [if_pos hpos] at hends
      refine ⟨hends nofun, hrest.countsDown ?_⟩
      show 0 < m₁.proc.config.instructionsPerTick
      rw [hproc, hconfig]
      exact hbudget
    · subst hzero
      exact hgoes rfl
  · obtain ⟨fault, hcause, hstep⟩ := hrefused hnot
    have hdelay := delay_eq_zero hrun
    rw [hstep] at hends
    exact ⟨fault, hcause, hends nofun, hdelay⟩

/-- Jumps to a wait of two ticks, past a stop. -/
def nap : String := "jump rest true\nstop\nlabel rest\ntime wait(2)\nvar int n 1"

/-- A processor in a world without parts whose jumps run the line that they
go to. -/
def leaping : Scene :=
  { bare with proc := .ofConfig { Config.standard with legacyJump := true } }

/-- The wait is run by the jump before it. Two ticks pass, although the
processor is fed something between them, and the third runs on. -/
theorem wait_counts_down_nap :
    let s := (leaping.load nap).2
    let t := s.tick.2.tick.2
    let fed := { t with proc := t.proc.feed "news" }
    (leaping.load nap).1 = true ∧ s.tick.1 = .waiting 2 ∧ s.tick.2.tick.1 = .waiting 1
      ∧ fed.tick.1 = .waiting 0
      ∧ fed.tick.2 = { fed.aged with proc := { fed.aged.proc with delay := fed.proc.delay - 1 } }
      ∧ fed.tick.2.proc.status = .running ∧ fed.tick.2.proc.pc = 4 := by
  intro s t fed
  have hrun : (leaping.load nap).1 = true ∧ s.proc.status = .running
      ∧ 0 < s.proc.config.instructionsPerTick ∧ s.instruction?.isSome
      ∧ (s.aged.executions[1]?.bind given?).map Prod.fst = some (.int 2)
      ∧ s.aged.executions[1]?.map (fun m => (m.proc.pc, m.proc.script.size)) = some (3, 5) := by
    decide +kernel
  obtain ⟨hloaded, hrunning, hbudget, hline, hgiven, hplace⟩ := hrun
  obtain ⟨i, hi⟩ := Option.isSome_iff_exists.1 hline
  obtain ⟨⟨v, m₁⟩, hgiven, rfl⟩ := Option.map_eq_some_iff.1 hgiven
  obtain ⟨m, hm, hgiven⟩ := Option.bind_eq_some_iff.1 hgiven
  rw [hm] at hplace
  have hpc : m.proc.pc = 3 := congrArg Prod.fst (Option.some_inj.1 hplace)
  have hsize : m.proc.script.size = 5 := congrArg Prod.snd (Option.some_inj.1 hplace)
  obtain ⟨left, hexecution⟩ := execution_first hrunning hbudget (Option.join_eq_some_iff.1 hi)
    (List.mem_of_getElem? hm)
  obtain ⟨hproc, hvalid, -⟩ := (wait_counts_down s).2 left m _ m₁ hexecution hgiven
  obtain ⟨htick, hcounts⟩ := (hvalid 2 ⟨by decide, rfl⟩ (by omega)).1 (by decide)
  have hheld : m₁.holdFor 2 = s.tick.2 := by rw [htick]
  have hnext : s.tick.2.proc.pc = 4 := by
    rw [← hheld]
    show m₁.proc.pc + 1 = 4
    rw [hproc, hpc]
  rw [hheld] at hcounts
  have hfed : Frames s.tick.2 [s.tick.2.tick.1] fed := .aside (.tick .start) (.feed t "news")
  have hboth : Frames s.tick.2 [s.tick.2.tick.1, fed.tick.1] fed.tick.2 := .tick hfed
  obtain ⟨hruns, hpc', -⟩ := hcounts.resumes _ _ hboth rfl
  exact ⟨hloaded, congrArg Prod.fst htick, hcounts.answers _ _ hboth 0 (by decide) _ rfl,
    hcounts.answers _ _ hboth 1 (by decide) _ rfl, hcounts.idles _ _ hfed (by decide), hruns,
    hpc'.trans hnext⟩

end Scene

end TickScript
