/-
Asking before taking. A script can ask whether a number or a character
stands in its input before it takes one. The answer is right for
characters, and for numbers that go into float and truth variables. For
an integer variable only the digits are looked for and not the number
they write, so the answer is also yes where the number is too great for
the variable; taking it then fails.

The main statement says just that, in any scene and for any variable
that both calls accept: the answer is yes exactly if taking would
succeed or the number is too great, and asking leaves the input as it
is.

# Numbers in the input

The text taken for a number starts with a digit and goes on with digits,
for a float variable also with one point (`findNumber?_eq_some`). Such
text always reads as a number (`numberValue_ok`), and only an integer
variable can fail to hold it (`convert_number`, `convert_oversized`).
-/
import TickScript.Proofs.Number.Reading
import TickScript.Proofs.Number.Rounding
import TickScript.Proofs.Processor.Frame
import TickScript.Proofs.Processor.Load
import TickScript.Proofs.Script.Compile
import TickScript.Proofs.Syntax.Parse

namespace TickScript

-- =============================================================== numbers

namespace Number

variable {c : Char} {cs : List Char}

/-- Digits that write `2 ^ 63` or more read as a float out of the range
of script integers. -/
theorem truncate?_readFloat? (hdigit : c.isDigit) (hall : cs.all Char.isDigit)
    (hgreat : greatest < digitsValue (c :: cs)) {x : Float}
    (h : readFloat? (String.ofList (c :: cs)) = some x) : truncate? x = none := by
  have hvalue : 2 ^ 63 ≤ digitsValue (c :: cs) := by
    unfold greatest at hgreat
    omega
  simp only [readFloat?, String.toList_ofList, splitSign_of_isDigit hdigit,
    scientific?_digits hdigit hall] at h
  split at h
  next =>
    cases h
    rfl
  next =>
    split at h
    next =>
      cases h
      rfl
    next =>
      cases h
      exact truncate?_nearest hvalue

end Number

namespace Scene

variable {cs : List Char}

/-- Without a point, a run is all digits. -/
theorem digitRun_false (cs : List Char) : (digitRun false cs).1.all Char.isDigit := by
  induction cs with
  | nil => rfl
  | cons c cs ih =>
      unfold digitRun
      split
      next hdigit => simpa [hdigit] using ih
      next => simp

/-- With a point, a run is digits, and perhaps the point and digits. -/
theorem digitRun_true (cs : List Char) :
    ((digitRun true cs).1.dropWhile Char.isDigit = [])
      ∨ ∃ more, (digitRun true cs).1.dropWhile Char.isDigit = '.' :: more
          ∧ more.all Char.isDigit := by
  induction cs with
  | nil => exact .inl rfl
  | cons c cs ih =>
      unfold digitRun
      split
      next hdigit => simpa only [List.dropWhile_cons_of_pos hdigit] using ih
      next hdigit =>
        split
        next hpoint =>
          right
          obtain ⟨rfl, -⟩ := hpoint
          exact ⟨_, List.dropWhile_cons_of_neg hdigit, digitRun_false cs⟩
        next => exact .inl rfl

/-- The number found in text starts with a digit. -/
theorem findNumber?_eq_some {point : Bool} {input digits rest : List Char}
    (h : findNumber? point input = some (digits, rest)) :
    ∃ c cs, digits = c :: (digitRun point cs).1 ∧ c.isDigit := by
  unfold findNumber? at h
  have hstop := input.head?_dropWhile_not fun c => !c.isDigit
  cases hstart : input.dropWhile fun c => !c.isDigit with
  | nil =>
      rw [hstart] at h
      cases h
  | cons c cs =>
      rw [hstart] at h hstop
      have hdigit : c.isDigit := by simpa using hstop
      refine ⟨c, cs, ?_, hdigit⟩
      have hrun := congrArg Prod.fst (Option.some.inj h)
      simpa [digitRun, hdigit] using hrun.symm

/-- The number found in text reads as a number. -/
theorem numberValue_ok {point : Bool} {input digits rest : List Char}
    (h : findNumber? point input = some (digits, rest)) :
    (∃ n, Number.readInt? (String.ofList digits) = some n
        ∧ numberValue (String.ofList digits) = .ok (.int n))
      ∨ ∃ x, Number.readInt? (String.ofList digits) = none
          ∧ Number.readFloat? (String.ofList digits) = some x
          ∧ numberValue (String.ofList digits) = .ok (.float x) := by
  obtain ⟨c, cs, rfl, hdigit⟩ := findNumber?_eq_some h
  have hscientific : (Number.scientific? (c :: (digitRun point cs).1)).isSome := by
    cases point with
    | false => simp [Number.scientific?_digits hdigit (digitRun_false cs)]
    | true =>
        rcases digitRun_true cs with hrest | ⟨more, hrest, hmore⟩
        · exact Number.isSome_scientific?_whole hdigit (by simp [hrest])
            (by simp [hrest, Number.exponent?])
        · exact Number.isSome_scientific?_places hdigit hrest hmore
  have hfloat := Number.isSome_readFloat? hdigit hscientific
  obtain ⟨x, hx⟩ := Option.isSome_iff_exists.1 hfloat
  unfold numberValue
  cases hint : Number.readInt? (String.ofList (c :: (digitRun point cs).1)) with
  | some n => exact .inl ⟨n, rfl, rfl⟩
  | none => exact .inr ⟨x, rfl, hx, by rw [hx]⟩

/-- Digits found for an integer variable read as the number they write,
if that is a script integer. -/
theorem readInt?_found {input digits rest : List Char}
    (h : findNumber? false input = some (digits, rest)) :
    Number.readInt? (String.ofList digits) = Number.fit? (Number.digitsValue digits) := by
  obtain ⟨c, cs, rfl, hdigit⟩ := findNumber?_eq_some h
  refine Option.ext fun n => ?_
  rw [Number.fit?_eq_some_iff, Number.readInt?_digits, String.toList_ofList]
  · simp
  · simpa [hdigit] using digitRun_false cs

/-- The number at the front of the input is too great for an integer
variable. -/
def Oversized (s : Scene) : Intake → Prop
  | .char _ => False
  | .number id => ∃ var digits rest, s.proc.vars.get? id = some var ∧ var.kind = .int
      ∧ findNumber? false s.proc.input.toList = some (digits, rest)
      ∧ Number.greatest < Number.digitsValue digits

variable {s : Scene} {id : VarId} {var : Variable} {v : Value}

/-- A value that is no handle goes into a variable of its kind. -/
theorem store_plain (hvar : s.proc.vars.get? id = some var) (hkind : Kind.of v = var.kind)
    (hplain : v.handle? = none) : ∃ s', s.store id v = .ok s' := by
  have hcheck : s.checkType var v = .ok () := by
    unfold checkType
    split
    next => cases hplain
    next => rfl
  have hget : s.proc.vars.get id = .ok var := Storage.get_eq_ok_iff.2 hvar
  simp [store, hget, hcheck, Storage.set, Variable.set, hkind]

/-- A script integer converts to every plain kind. -/
theorem convert_int (resolve : Nat → Option Handle) {kind : Kind} (hkind : kind.isValue)
    (n : Int64) :
    ∃ w, kind.convert resolve (.int n) = .ok w ∧ Kind.of w = kind ∧ w.handle? = none := by
  cases kind with
  | int | float | bool => exact ⟨_, rfl, rfl, rfl⟩
  | _ => cases hkind

/-- A float converts to every plain kind but integers. -/
theorem convert_float (resolve : Nat → Option Handle) {kind : Kind} (hkind : kind.isValue)
    (hint : kind ≠ .int) (x : Float) :
    ∃ w, kind.convert resolve (.float x) = .ok w ∧ Kind.of w = kind ∧ w.handle? = none := by
  cases kind with
  | int => exact absurd rfl hint
  | float | bool => exact ⟨_, rfl, rfl, rfl⟩
  | _ => cases hkind

/-- What taking a number comes to where one is found. -/
theorem popNumber_eq_bind (hvar : s.proc.vars.get? id = some var) {digits rest : List Char}
    (h : findNumber? (var.kind = .float) s.proc.input.toList = some (digits, rest)) :
    s.popNumber id = (do
      let v ← numberValue (String.ofList digits)
      let s ← s.assign id v
      .ok { s with proc := { s.proc with input := String.ofList rest } }) := by
  have hinput : s.proc.input ≠ "" := by
    intro hempty
    rw [hempty] at h
    cases h
  rw [popNumber, if_neg hinput]
  simp only [Storage.get_eq_ok_iff.2 hvar, ok_bind, h]

/-- A number that fits is taken. -/
theorem popNumber_ok (hvar : s.proc.vars.get? id = some var) (hkind : var.kind.isValue)
    {digits rest : List Char}
    (h : findNumber? (var.kind = .float) s.proc.input.toList = some (digits, rest))
    (hfits : var.kind = .int → Number.digitsValue digits ≤ Number.greatest) :
    ∃ s', s.popNumber id = .ok s' := by
  have hvalue : ∃ v w, numberValue (String.ofList digits) = .ok v
      ∧ var.kind.convert s.world.arena.resolve v = .ok w ∧ Kind.of w = var.kind
      ∧ w.handle? = none := by
    rcases numberValue_ok h with ⟨n, -, hn⟩ | ⟨x, hunread, -, hx⟩
    · obtain ⟨w, hw⟩ := convert_int s.world.arena.resolve hkind n
      exact ⟨_, w, hn, hw⟩
    · have hint : var.kind ≠ .int := by
        -- An integer that fits would have been read as one.
        intro hint
        simp only [hint, reduceCtorEq, decide_false] at h
        rw [readInt?_found h, Number.fit?, if_pos ⟨by unfold Number.least; omega, hfits hint⟩]
          at hunread
        cases hunread
      obtain ⟨w, hw⟩ := convert_float s.world.arena.resolve hkind hint x
      exact ⟨_, w, hx, hw⟩
  obtain ⟨v, w, hv, hw, hof, hplain⟩ := hvalue
  obtain ⟨s', hs'⟩ := store_plain hvar hof hplain
  refine ⟨{ s' with proc := { s'.proc with input := String.ofList rest } }, ?_⟩
  rw [popNumber_eq_bind hvar h, hv, ok_bind, assign]
  simp only [Storage.get_eq_ok_iff.2 hvar, ok_bind, hw, hs']

/-- A number too great for an integer variable is not taken. -/
theorem popNumber_oversized (h : s.Oversized (.number id)) :
    ∃ fault, s.popNumber id = .error fault ∧ fault.cause = .conversionError := by
  obtain ⟨var, digits, rest, hvar, hint, hfind, hgreat⟩ := h
  have hunread : Number.readInt? (String.ofList digits) = none := by
    rw [readInt?_found hfind, Number.fit?_eq_none hgreat]
  obtain ⟨x, hfloat, hvalue⟩ : ∃ x, Number.readFloat? (String.ofList digits) = some x
      ∧ numberValue (String.ofList digits) = .ok (.float x) := by
    rcases numberValue_ok hfind with ⟨n, hn, -⟩ | ⟨x, -, hx⟩
    · rw [hunread] at hn
      cases hn
    · exact ⟨x, hx⟩
  have htruncate : Number.truncate? x = none := by
    obtain ⟨c, cs, rfl, hdigit⟩ := findNumber?_eq_some hfind
    exact Number.truncate?_readFloat? hdigit (digitRun_false cs) hgreat hfloat
  have hfind' : findNumber? (var.kind = .float) s.proc.input.toList = some (digits, rest) := by
    simpa [hint] using hfind
  refine ⟨.of .conversionError ((Value.float x).display ++ " TO " ++ Kind.int.display), ?_, rfl⟩
  rw [popNumber_eq_bind hvar hfind', hvalue, ok_bind, assign]
  simp [Storage.get_eq_ok_iff.2 hvar, hint, Kind.convert, Kind.convert?, Kind.toInt?, htruncate]

-- ================================================================ asking

/-- Where no number is found, none is taken. -/
theorem popNumber_missing (hvar : s.proc.vars.get? id = some var)
    (h : findNumber? (var.kind = .float) s.proc.input.toList = none) (s' : Scene) :
    s.popNumber id ≠ .ok s' := by
  unfold popNumber
  split
  next => nofun
  next => simp [Storage.get_eq_ok_iff.2 hvar, h]

/-- A number can be taken if one is found, unless it is too great. -/
theorem canPop_number (hvar : s.proc.vars.get? id = some var) (hkind : var.kind.isValue) :
    ∃ ready, s.canPop (.number id) = .ok ready
      ∧ (ready = true ↔ (∃ s', s.popNumber id = .ok s') ∨ s.Oversized (.number id)) := by
  refine ⟨(findNumber? (var.kind = .float) s.proc.input.toList).isSome, ?_, ?_⟩
  · simp [canPop, Storage.get_eq_ok_iff.2 hvar]
  constructor
  · intro hready
    obtain ⟨⟨digits, rest⟩, hfind⟩ := Option.isSome_iff_exists.1 hready
    by_cases hgreat : var.kind = .int ∧ Number.greatest < Number.digitsValue digits
    · have hfind' : findNumber? false s.proc.input.toList = some (digits, rest) := by
        simpa [hgreat.1] using hfind
      exact .inr ⟨var, digits, rest, hvar, hgreat.1, hfind', hgreat.2⟩
    · refine .inl (popNumber_ok hvar hkind hfind fun hint => ?_)
      exact Int.not_lt.1 fun hlt => hgreat ⟨hint, hlt⟩
  · rintro (⟨s', hpop⟩ | ⟨var', digits, rest, hvar', hint, hfind, -⟩)
    · cases hfind : findNumber? (var.kind = .float) s.proc.input.toList with
      | none => exact absurd hpop (popNumber_missing hvar hfind s')
      | some found => rfl
    · cases hvar.symm.trans hvar'
      simp [hint, hfind]

/-- A character can be taken if there is one. -/
theorem canPop_char (hvar : s.proc.vars.get? id = some var) (hkind : var.kind = .int) :
    ∃ ready, s.canPop (.char id) = .ok ready
      ∧ (ready = true ↔ (∃ s', s.popChar id = .ok s') ∨ s.Oversized (.char id)) := by
  refine ⟨decide (s.proc.input ≠ ""), rfl, ?_⟩
  unfold popChar Oversized
  cases hinput : s.proc.input.toList with
  | nil => simp [String.toList_eq_nil_iff.1 hinput]
  | cons c cs =>
      obtain ⟨s', hs'⟩ := store_plain (v := .int (Int64.ofNat c.toNat)) hvar hkind.symm rfl
      have hne : s.proc.input ≠ "" := by
        intro hempty
        rw [hempty] at hinput
        cases hinput
      simp [hne, hs']

end Scene

-- =============================================================== console

namespace Compiler

variable {vars : Storage} {text : String} {target : Intake}

/-- What a variable that input is taken into is like. -/
theorem intake_kind (h : intake vars text = .ok target) :
    ∃ var, vars.get? target.id = some var ∧ var.kind.isValue
      ∧ ∀ id, target = .char id → var.kind = .int := by
  obtain ⟨hlt, hchar⟩ := intake_eq_ok h
  obtain ⟨var, hvar, hget, hkind⟩ := Storage.get_of_lt hlt
  unfold intake at h
  split at h
  next name hname =>
    obtain ⟨id, hid, h⟩ := bind_eq_ok.1 h
    obtain ⟨o, ho, h⟩ := bind_eq_ok.1 h
    cases h
    have hint : var.kind = .int := Option.some.inj (hkind.symm.trans (hchar id rfl))
    exact ⟨var, hvar, by rw [hint]; rfl, fun _ _ => hint⟩
  next =>
    obtain ⟨id, hid, h⟩ := bind_eq_ok.1 h
    obtain ⟨v, hv, h⟩ := bind_eq_ok.1 h
    split at h
    next hvalue =>
      cases h
      cases hget.symm.trans hv
      exact ⟨var, hvar, hvalue, nofun⟩
    next => cases h

theorem console_pop {args : List String} {instruction : String}
    (h : console vars ⟨instruction, "pop", args, some text⟩ = .ok (.pop target)) :
    intake vars text = .ok target := by
  obtain ⟨-, -, h⟩ := bind_eq_ok.1 h
  obtain ⟨target', htarget, h⟩ := bind_eq_ok.1 h
  obtain ⟨v, -, h⟩ := bind_eq_ok.1 h
  split at h
  next => cases h
  next =>
    cases h
    exact htarget

theorem console_canPop {instruction : String} {ret : Option String} {dest : VarId}
    (h : console vars ⟨instruction, "can_pop", [text], ret⟩ = .ok (.canPop target dest)) :
    intake vars text = .ok target ∧ vars.kinds[dest]? = some .bool := by
  obtain ⟨arg, harg, h⟩ := bind_eq_ok.1 h
  cases harg
  obtain ⟨dest', hdest, h⟩ := bind_eq_ok.1 h
  obtain ⟨probe, hprobe, h⟩ := bind_eq_ok.1 h
  cases h
  exact ⟨hprobe, returnVarOf_kind hdest⟩

end Compiler

namespace Scene

/-- Where both calls accept a variable, they are about the same intake.
Asking succeeds, leaves the input as it is and stores whether taking
would succeed, except that it stores yes for a number too great for an
integer variable, which taking refuses. -/
theorem canPop_iff_pop_or_oversized {s : Scene} {text ret : String} {target probe : Intake}
    {dest : VarId}
    (hpop : Compiler.console s.proc.vars ⟨"console", "pop", [], some text⟩ = .ok (.pop target))
    (hprobe : Compiler.console s.proc.vars ⟨"console", "can_pop", [text], some ret⟩
      = .ok (.canPop probe dest)) :
    probe = target
      ∧ (∃ s' ready, (Instruction.console (.canPop probe dest)).execute s = .ok (.next, s')
          ∧ s'.proc.input = s.proc.input
          ∧ (s'.proc.vars.get? dest).bind Variable.value = some (.bool ready)
          ∧ (ready = true ↔
              (∃ s'', (Instruction.console (.pop target)).execute s = .ok (.next, s''))
                ∨ s.Oversized target))
      ∧ (s.Oversized target → ∃ fault, (Instruction.console (.pop target)).execute s = .error fault
          ∧ fault.cause = .conversionError) := by
  have htarget := Compiler.console_pop hpop
  obtain ⟨hprobe, hdest⟩ := Compiler.console_canPop hprobe
  obtain rfl : probe = target := Except.ok.inj (hprobe.symm.trans htarget)
  obtain ⟨var, hvar, hvalue, hchar⟩ := Compiler.intake_kind htarget
  obtain ⟨ready, hcan, hready⟩ : ∃ ready, s.canPop probe = .ok ready
      ∧ (ready = true ↔ (∃ s', s.console (.pop probe) = .ok s') ∨ s.Oversized probe) := by
    cases probe with
    | char id => exact canPop_char hvar (hchar id rfl)
    | number id => exact canPop_number hvar hvalue
  obtain ⟨var', hvar', -, hkind'⟩ := Storage.get_of_lt (List.getElem?_eq_some_iff.1 hdest).1
  have hbool : Kind.of (.bool ready) = var'.kind := Option.some.inj (hdest.symm.trans hkind')
  obtain ⟨s', hstore⟩ := store_plain hvar' hbool rfl
  refine ⟨rfl, ⟨s', ready, ?_, ?_, ?_, ?_⟩, fun hover => ?_⟩
  · simp [Instruction.execute, console, hcan, hstore, Except.map]
  · obtain ⟨_, _, _, _, rfl⟩ := store_eq_ok hstore
    rfl
  · obtain ⟨_, hget, _, _, rfl⟩ := store_eq_ok hstore
    obtain ⟨hlt, -⟩ := List.getElem?_eq_some_iff.1 hget
    simp [Storage.put, Storage.get?, hlt]
  · rw [hready]
    simp [Instruction.execute, map_eq_ok]
  · cases probe with
    | char id => cases hover
    | number id =>
        obtain ⟨fault, hfault, hcause⟩ := popNumber_oversized hover
        exact ⟨fault, map_eq_error.2 hfault, hcause⟩

/-- A scene with an integer variable, a truth variable and some input. -/
def supplied (input : String) : Scene :=
  { bare with proc := { bare.proc with
      vars := ⟨[.zeroed "n" .int false, .zeroed "b" .bool false], 8⟩
      input } }

theorem canPop_iff_pop_or_oversized_twelve :
    Compiler.console (supplied "12").proc.vars ⟨"console", "pop", [], some "n"⟩
        = .ok (.pop (.number 0))
      ∧ Compiler.console (supplied "12").proc.vars ⟨"console", "can_pop", ["n"], some "b"⟩
        = .ok (.canPop (.number 0) 1)
      ∧ ∃ s' ready,
          (Instruction.console (.canPop (.number 0) 1)).execute (supplied "12") = .ok (.next, s')
            ∧ s'.proc.input = (supplied "12").proc.input
            ∧ (s'.proc.vars.get? 1).bind Variable.value = some (.bool ready)
            ∧ (ready = true ↔
                (∃ s'', (Instruction.console (.pop (.number 0))).execute (supplied "12")
                    = .ok (.next, s''))
                  ∨ (supplied "12").Oversized (.number 0)) := by
  have hpop : Compiler.console (supplied "12").proc.vars ⟨"console", "pop", [], some "n"⟩
      = .ok (.pop (.number 0)) := rfl
  have hprobe : Compiler.console (supplied "12").proc.vars ⟨"console", "can_pop", ["n"], some "b"⟩
      = .ok (.canPop (.number 0) 1) := rfl
  exact ⟨hpop, hprobe, (canPop_iff_pop_or_oversized hpop hprobe).2.1⟩

/-- A script that takes a number after asking for one, stopped where it
is about to ask. -/
def asking (input : String) : Bool × Scene :=
  let config := { Config.standard with instructionsPerTick := 3 }
  let world := { bare.world with console := Console.empty.feed input }
  let (loaded, s) := (Scene.mk (.ofConfig config) world).load
    "var int n 0\nvar bool b false\nconsole read()\nconsole can_pop(n) b\nconsole pop() n"
  (loaded, s.tick.2)

/-- The answer is yes and the number is not taken. -/
theorem canPop_not_pop : (asking "99999999999999999999").1 = true
    ∧ ((asking "99999999999999999999").2.console (.canPop (.number 0) 1)).toOption.bind
        (·.proc.value? "b") = some (.bool true)
    ∧ ((asking "99999999999999999999").2.console (.pop (.number 0))).toOption.isNone
    ∧ (asking "99999999999999999999").2.tick.2.proc.value? "b" = some (.bool true)
    ∧ (asking "99999999999999999999").2.tick.2.proc.faults.map Fault.cause
        = [.conversionError] := by
  decide +kernel

end Scene

end TickScript
