/-
Arenas that look the same.

A relation between arenas is a likeness if related arenas answer alike who
is alive, in what group and of what type, and which handle a slot has, and
if changes of usages keep them related (`Arena.Likeness`). What is in
memories may differ, but not in those that are shown (`Arena.Shows`).

Called on an entity that is shown, the methods that are always there give
the same result in related arenas and leave them related
(`Standard.action_agrees`).

That arenas have the same entities is a likeness that shows everything.
-/
import TickScript.Proofs.Arena.Entities
import TickScript.Proofs.Except
import TickScript.Registry.Standard

namespace TickScript

namespace Arena

/-- Related arenas look the same, but for what is in memories, and stay
related as usages change. -/
structure Likeness (R : Arena → Arena → Prop) : Prop where
  isAlive : ∀ {a b}, R a b → b.isAlive = a.isAlive
  resolve : ∀ {a b}, R a b → b.resolve = a.resolve
  group? : ∀ {a b}, R a b → ∀ h, b.group? h = a.group? h
  typeName : ∀ {a b}, R a b → ∀ h,
    (b.entity? h).map Entity.typeName = (a.entity? h).map Entity.typeName
  exchange : ∀ {a b}, R a b → ∀ v old, R (a.exchange v old) (b.exchange v old)
  releaseAll : ∀ {a b}, R a b → ∀ vs, R (a.releaseAll vs) (b.releaseAll vs)

/-- Related arenas have the same in the memory of an entity, and stay
related as it changes. -/
structure Shows (R : Arena → Arena → Prop) (h : Handle) : Prop where
  memory? : ∀ {a b}, R a b → b.memory? h = a.memory? h
  setMemory : ∀ {a b}, R a b → ∀ m, R (a.setMemory h m) (b.setMemory h m)

/-- Related arenas list the same components on a part. -/
def Lists (R : Arena → Arena → Prop) (part : Handle) : Prop :=
  ∀ {a b}, R a b → ∀ typeName, b.components part typeName = a.components part typeName

/-- Everything looks the same in the same arena. -/
theorem Likeness.eq : Likeness Eq where
  isAlive := by
    rintro a _ rfl
    rfl
  resolve := by
    rintro a _ rfl
    rfl
  group? := by
    rintro a _ rfl h
    rfl
  typeName := by
    rintro a _ rfl h
    rfl
  exchange := by
    rintro a _ rfl v old
    rfl
  releaseAll := by
    rintro a _ rfl vs
    rfl

/-- In the same arena every memory shows. -/
theorem Shows.eq (h : Handle) : Shows Eq h where
  memory? := by
    rintro a _ rfl
    rfl
  setMemory := by
    rintro a _ rfl m
    rfl

namespace SameEntities

/-- To have the same entities is to look the same. -/
theorem likeness : Likeness SameEntities where
  isAlive := isAlive
  resolve := resolve
  group? hab h := by
    unfold Arena.group?
    rw [hab.entity? h]
  typeName hab h := by rw [hab.entity? h]
  exchange hab v old := (exchange v old).symm.trans (hab.trans (exchange v old))
  releaseAll hab vs := (releaseAll vs).symm.trans (hab.trans (releaseAll vs))

/-- The same entities have the same memories. -/
theorem shows (h : Handle) : Shows SameEntities h where
  memory? hab := by
    unfold Arena.memory?
    rw [hab.entity? h]
  setMemory hab m := hab.setMemory h m

/-- A part that is the same lists the same components. -/
theorem lists (part : Handle) : Lists SameEntities part := by
  intro a b hab typeName
  unfold components
  simp only [hab.entity?]

end SameEntities

end Arena

-- =============================================================== methods

namespace Standard

variable {R : Arena → Arena → Prop} {a b : Arena} {target : Handle} {args : List Value}

/-- The device that a memory method works on is found on both sides. -/
theorem device_shown (hshows : Arena.Shows R target) (hab : R a b) :
    device b target = device a target := by
  unfold device
  rw [hshows.memory? hab]

/-- What is looked up is the same, and changes nothing. -/
theorem look_agrees {f : Arena → Handle → List Value → Except Fault (Option Value)} (hab : R a b)
    (hf : f b target args = f a target args) :
    Agree (Beside R) (look f a target args) (look f b target args) := by
  unfold look
  rw [hf]
  cases f a target args with
  | error fault => exact .error fault
  | ok v => exact .ok ⟨rfl, hab⟩

theorem partComponent_agrees (hlists : Arena.Lists R target) (hab : R a b) :
    Agree (Beside R) (partComponent a target args) (partComponent b target args) := by
  refine look_agrees hab ?_
  simp only [Arena.component?, hlists hab]

theorem partComponentCount_agrees (hlists : Arena.Lists R target) (hab : R a b) :
    Agree (Beside R) (partComponentCount a target args) (partComponentCount b target args) := by
  refine look_agrees hab ?_
  simp only [hlists hab]

/-- What is read off a memory that is shown. -/
theorem reading_agrees (args : List Value) (read : Memory → Value)
    (hshows : Arena.Shows R target) (hab : R a b) :
    Agree (Beside R)
      (look (fun a target _ => do
        let m ← device a target
        .ok (some (read m))) a target args)
      (look (fun a target _ => do
        let m ← device a target
        .ok (some (read m))) b target args) := by
  refine look_agrees hab ?_
  simp only [device_shown hshows hab]

theorem memoryIsNull_agrees (hR : Arena.Likeness R) (hshows : Arena.Shows R target) (hab : R a b) :
    Agree (Beside R) (memoryIsNull a target args) (memoryIsNull b target args) := by
  refine look_agrees hab ?_
  simp only [device_shown hshows hab, hR.isAlive hab]

theorem memoryGetType_agrees (hR : Arena.Likeness R) (hshows : Arena.Shows R target)
    (hab : R a b) :
    Agree (Beside R) (memoryGetType a target args) (memoryGetType b target args) := by
  refine look_agrees hab ?_
  simp only [device_shown hshows hab, hR.isAlive hab]

theorem memoryGetValue_agrees (hR : Arena.Likeness R) (hshows : Arena.Shows R target)
    (hab : R a b) :
    Agree (Beside R) (memoryGetValue a target args) (memoryGetValue b target args) := by
  refine look_agrees hab ?_
  simp only [device_shown hshows hab, hR.isAlive hab]

/-- The cell is filled on both sides, and the same value is displaced. -/
theorem memorySetValue_agrees (hR : Arena.Likeness R) (hshows : Arena.Shows R target)
    (hab : R a b) :
    Agree (Beside R) (memorySetValue a target args) (memorySetValue b target args) := by
  unfold memorySetValue
  refine .after fun addr => .after fun v => ?_
  simp only [hR.isAlive hab, device_shown hshows hab]
  have hstored : ∀ m old, Beside R
      ((none : Option Value), (a.setMemory target m).exchange v old)
      (none, (b.setMemory target m).exchange v old) := fun m old =>
    ⟨rfl, hR.exchange (hshows.setMemory hab m) v old⟩
  cases v with
  | entity g =>
      simp only
      split
      · exact .after fun _ => .after fun _ => .after fun _ => .ok (hstored _ _)
      · exact .error _
  | _ => exact .after fun _ => .after fun _ => .after fun _ => .ok (hstored _ _)

/-- The cell is emptied on both sides, and the same value is released. -/
theorem memoryClear_agrees (hR : Arena.Likeness R) (hshows : Arena.Shows R target)
    (hab : R a b) :
    Agree (Beside R) (memoryClear a target args) (memoryClear b target args) := by
  unfold memoryClear
  refine .after fun addr => ?_
  simp only [device_shown hshows hab]
  exact .after fun _ => .after fun _ => .ok ⟨rfl, hR.releaseAll (hshows.setMemory hab _) _⟩

/-- The methods that are always there do the same in arenas that look the
same, called on an entity that is shown. -/
theorem action_agrees {m : Method} (hm : m ∈ partMethods ∨ m ∈ memoryMethods)
    (hR : Arena.Likeness R) (hshows : Arena.Shows R target) (hlists : Arena.Lists R target)
    (hab : R a b) :
    Agree (Beside R) (m.action a target args) (m.action b target args) := by
  rcases hm with hm | hm
  · simp only [partMethods, List.mem_cons, List.not_mem_nil, or_false] at hm
    rcases hm with rfl | rfl | rfl
    · exact .ok ⟨rfl, hab⟩
    · exact partComponent_agrees hlists hab
    · exact partComponentCount_agrees hlists hab
  · simp only [memoryMethods, List.mem_cons, List.not_mem_nil, or_false] at hm
    rcases hm with rfl | rfl | rfl | rfl | rfl | rfl | rfl | rfl | rfl
    · exact reading_agrees args _ hshows hab
    · exact reading_agrees args _ hshows hab
    · exact reading_agrees args _ hshows hab
    · exact reading_agrees args _ hshows hab
    · exact memoryIsNull_agrees hR hshows hab
    · exact memoryGetType_agrees hR hshows hab
    · exact memoryGetValue_agrees hR hshows hab
    · exact memorySetValue_agrees hR hshows hab
    · exact memoryClear_agrees hR hshows hab

end Standard

/-- A method whose action agrees does so with its arguments checked. -/
theorem Method.invoke_agrees {R : Arena → Arena → Prop} {m : Method} {a b : Arena}
    {target : Handle} {args : List Value}
    (hm : ∀ args, Agree (Beside R) (m.action a target args) (m.action b target args)) :
    Agree (Beside R) (m.invoke a target args) (m.invoke b target args) := by
  unfold invoke
  split
  · exact .after hm
  · exact .error _

end TickScript
