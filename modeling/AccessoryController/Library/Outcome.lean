import Mathlib.Data.List.Forall2

/-!
# Fallible computations side by side

Two computations that may fail, related by their values: both fail, or both return related
values. Sequencing and mapping over related lists keep the relation.

## Main definitions

* `Outcome.Related`: both fail, or both return related values
* `Outcome.Returns`: every value that a computation returns has a property
* `Outcome.refuse`: a check

## Main results

* `Outcome.Related.bind`, `Outcome.Related.mapM`: sequencing and mapping
* `Outcome.Returns.bind`: what a sequence returns
* `Outcome.mapM_eq_ok`: a mapped computation returns when every step does
-/

namespace Outcome

variable {E F T U V W : Type}

/-- Both fail, or both return related values. -/
inductive Related (R : T → U → Prop) : Except E T → Except E U → Prop
  | error (e f : E) : Related R (.error e) (.error f)
  | ok {a : T} {b : U} (h : R a b) : Related R (.ok a) (.ok b)

variable {x : Except E T} {R : T → U → Prop} {l : List T} {f : T → Except E U} {Q : T → Prop}

theorem Related.bind {S : V → W → Prop} {y : Except E U} {f : T → Except E V} {g : U → Except E W}
    (h : Related R x y) (hfg : ∀ a b, R a b → Related S (f a) (g b)) :
    Related S (x >>= f) (y >>= g) := by
  cases h with
  | error e f => exact .error e f
  | ok hab => exact hfg _ _ hab

theorem Related.mapM {S : V → W → Prop} {f : T → Except E V} {g : U → Except E W}
    (hfg : ∀ a b, R a b → Related S (f a) (g b)) {l' : List U} (h : List.Forall₂ R l l') :
    Related (List.Forall₂ S) (l.mapM f) (l'.mapM g) := by
  induction h with
  | nil => exact .ok .nil
  | cons hab _ ih =>
    rw [List.mapM_cons, List.mapM_cons]
    exact (hfg _ _ hab).bind fun _ _ hab => ih.bind fun _ _ htail => .ok (.cons hab htail)

/-- Related computations fail together. -/
theorem Related.isOk_eq {y : Except E U} (h : Related R x y) : x.isOk = y.isOk := by
  cases h with
  | error e f => rfl
  | ok hab => rfl

theorem bind_eq_ok {b : U} : (x >>= f) = .ok b ↔ ∃ a, x = .ok a ∧ f a = .ok b := by
  cases x with
  | error e =>
    constructor
    · intro h
      cases h
    · rintro ⟨a, ha, -⟩
      cases ha
  | ok a =>
    constructor
    · intro h
      exact ⟨a, rfl, h⟩
    · rintro ⟨a', ha, h⟩
      rw [Except.ok.inj ha]
      exact h

/-! ### Properties of what is returned -/

/-- Every value that a computation returns has a property. -/
def Returns (x : Except E T) (Q : T → Prop) : Prop := ∀ a, x = .ok a → Q a

theorem Returns.pure {a : T} (h : Q a) : Returns (E := E) (pure a) Q := by
  intro b hb
  rw [← Except.ok.inj hb]
  exact h

theorem Returns.error (e : E) : Returns (.error e) Q := by
  intro b hb
  cases hb

theorem Returns.any (x : Except E T) : Returns x fun _ => True := fun _ _ => trivial

theorem Returns.bind {R : U → Prop} (hx : Returns x Q) (hf : ∀ a, Q a → Returns (f a) R) :
    Returns (x >>= f) R := by
  intro b hb
  obtain ⟨a, ha, hfa⟩ := bind_eq_ok.mp hb
  exact hf a (hx a ha) b hfa

/-- A step whose value does not matter. -/
theorem Returns.after {R : U → Prop} (x : Except E T) (hf : ∀ a, Returns (f a) R) :
    Returns (x >>= f) R :=
  (Returns.any x).bind fun a _ => hf a

/-- A check that may end the computation. -/
theorem Returns.guard {c : Prop} {_ : Decidable c} {x : Except E Unit} {f : Unit → Except E T}
    (hf : ∀ a, Returns (f a) Q) : Returns (if c then x >>= f else f ()) Q := by
  by_cases hc : c
  · rw [if_pos hc]
    exact .after x hf
  · rw [if_neg hc]
    exact hf ()

theorem Returns.mapError (hx : Returns x Q) (f : E → F) : Returns (x.mapError f) Q := by
  intro a ha
  cases x with
  | error e => cases ha
  | ok b => exact hx a (congrArg Except.ok (Except.ok.inj ha))

/-- The values of the steps of a mapped computation that returns. -/
theorem mapM_eq_ok {r : List U} : l.mapM f = .ok r ↔ List.Forall₂ (fun a b => f a = .ok b) l r := by
  induction l generalizing r with
  | nil =>
    rw [List.mapM_nil, List.forall₂_nil_left_iff]
    exact ⟨fun h => (Except.ok.inj h).symm, fun h => congrArg _ h.symm⟩
  | cons a l ih =>
    rw [List.mapM_cons, bind_eq_ok, List.forall₂_cons_left_iff]
    constructor
    · rintro ⟨b, hb, htail⟩
      obtain ⟨r', hr', h⟩ := bind_eq_ok.mp htail
      exact ⟨b, r', hb, ih.mp hr', (Except.ok.inj h).symm⟩
    · rintro ⟨b, r', hb, hr', rfl⟩
      exact ⟨b, hb, bind_eq_ok.mpr ⟨r', ih.mpr hr', rfl⟩⟩

/-- A mapped computation returns exactly when every step does. -/
theorem exists_mapM_eq_ok : (∃ r, l.mapM f = .ok r) ↔ ∀ a ∈ l, ∃ b, f a = .ok b := by
  induction l with
  | nil => exact ⟨fun _ a ha => absurd ha List.not_mem_nil, fun _ => ⟨[], rfl⟩⟩
  | cons a l ih =>
    rw [List.forall_mem_cons, ← ih]
    simp only [mapM_eq_ok, List.forall₂_cons_left_iff]
    constructor
    · rintro ⟨_, b, r, hb, hr, -⟩
      exact ⟨⟨b, hb⟩, r, hr⟩
    · rintro ⟨⟨b, hb⟩, r, hr⟩
      exact ⟨_, b, r, hb, hr, rfl⟩

theorem mapM_congr {g : T → Except E U} (h : ∀ a ∈ l, f a = g a) : l.mapM f = l.mapM g := by
  induction l with
  | nil => rfl
  | cons a l ih =>
    obtain ⟨ha, hl⟩ := List.forall_mem_cons.mp h
    rw [List.mapM_cons, List.mapM_cons, ha, ih hl]

theorem bind_congr {g : T → Except E U} (h : ∀ a, x = .ok a → f a = g a) :
    (x >>= f) = (x >>= g) := by
  cases x with
  | error e => rfl
  | ok a => exact h a rfl

theorem mapM_eq_ok_map {g : T → U} (h : ∀ a ∈ l, f a = .ok (g a)) : l.mapM f = .ok (l.map g) := by
  rw [mapM_eq_ok, List.forall₂_map_right_iff, List.forall₂_same]
  exact h

/-! ### Checks -/

/-- A check: it fails when something bad holds. -/
def refuse (bad : Prop) [Decidable bad] (e : E) : Except E Unit := if bad then .error e else .ok ()

theorem refuse_eq_ok {bad : Prop} {_ : Decidable bad} {e : E} :
    refuse bad e = .ok () ↔ ¬ bad := by
  unfold refuse
  by_cases h : bad <;> simp [h]

theorem refuse_bind_eq_ok {bad : Prop} {_ : Decidable bad} {e : E} {f : Unit → Except E T} {b : T} :
    (refuse bad e >>= f) = .ok b ↔ ¬ bad ∧ f () = .ok b := by
  rw [bind_eq_ok]
  constructor
  · rintro ⟨a, ha, h⟩
    exact ⟨refuse_eq_ok.mp ha, h⟩
  · rintro ⟨h, hb⟩
    exact ⟨(), refuse_eq_ok.mpr h, hb⟩

end Outcome
