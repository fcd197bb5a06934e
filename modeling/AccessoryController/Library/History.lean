import Mathlib.Data.List.DropRight

/-!
# Properties of histories

A history is a list of events, the latest one last. A property of a history often relates an
event to what came before it, or to what has come since.

## Main definitions

* `History.Lawful Q h`: every event of `h` is related by `Q` to the events before it
* `History.Since p P h`: whatever satisfies `p` has been followed by a history that satisfies `P`
* `History.sinceLast cut h`: the events after the last one that `cut` marks
* `History.latest cut value h`: the latest value among these events

## Main results

* `History.lawful_snoc`, `History.since_snoc`, `History.latest_snoc`: the effect of one more event
* `History.foldl_own`: what does not concern a state may be left out
-/

namespace History

variable {E : Type*}

/-- Every event is related to the events before it. -/
def Lawful (Q : List E → E → Prop) (h : List E) : Prop :=
  ∀ before e after, h = before ++ e :: after → Q before e

/-- Whatever satisfies `p` has been followed by events that satisfy `P`. -/
def Since (p : E → Prop) (P : List E → Prop) (h : List E) : Prop :=
  ∀ before e after, h = before ++ e :: after → p e → P after

variable {h : List E}

/-- An event of an extended history is the last one, or an event of the history. -/
theorem snoc_eq_append_cons
    {before after : List E} {e x : E} (eq : h ++ [e] = before ++ x :: after) :
    (before = h ∧ x = e ∧ after = []) ∨ ∃ rest, after = rest ++ [e] ∧ h = before ++ x :: rest := by
  rcases List.eq_nil_or_concat after with rfl | ⟨rest, y, rfl⟩
  · obtain ⟨rfl, hx⟩ := List.append_inj' eq rfl
    exact Or.inl ⟨rfl, (List.singleton_inj.mp hx).symm, rfl⟩
  · rw [List.concat_eq_append, ← List.cons_append, ← List.append_assoc] at eq
    obtain ⟨rfl, hy⟩ := List.append_inj' eq rfl
    refine Or.inr ⟨rest, ?_, rfl⟩
    rw [List.concat_eq_append, List.singleton_inj.mp hy]

theorem lawful_nil (Q : List E → E → Prop) : Lawful Q [] := by
  intro before e after eq
  simp at eq

/-- One more event is related to the history before it. -/
theorem lawful_snoc {Q : List E → E → Prop} {e : E} : Lawful Q (h ++ [e]) ↔ Lawful Q h ∧ Q h e := by
  constructor
  · intro lawful
    refine ⟨fun before x after eq => ?_, lawful h e [] rfl⟩
    exact lawful before x (after ++ [e]) (by rw [eq, List.append_assoc, List.cons_append])
  · rintro ⟨lawful, last⟩ before x after eq
    rcases snoc_eq_append_cons eq with ⟨rfl, rfl, rfl⟩ | ⟨rest, rfl, rfl⟩
    · exact last
    · exact lawful before x rest rfl

theorem lawful_iff_getElem {Q : List E → E → Prop} :
    Lawful Q h ↔ ∀ i : Fin h.length, Q (h.take i) h[i] := by
  constructor
  · intro lawful i
    refine lawful _ _ (h.drop (i + 1)) ?_
    rw [Fin.getElem_fin, ← List.drop_eq_getElem_cons i.isLt, List.take_append_drop]
  · rintro along before e after rfl
    have here := along ⟨before.length, by simp⟩
    simpa using here

instance (Q : List E → E → Prop) [∀ before e, Decidable (Q before e)] (h : List E) :
    Decidable (Lawful Q h) := decidable_of_iff' _ lawful_iff_getElem

theorem since_nil (p : E → Prop) (P : List E → Prop) : Since p P [] := by
  intro before e after eq
  simp at eq

/-- One more event has come since everything before it. -/
theorem since_snoc {p : E → Prop} {P : List E → Prop} {e : E} :
    Since p P (h ++ [e]) ↔ Since p (fun after => P (after ++ [e])) h ∧ (p e → P []) := by
  constructor
  · intro since
    refine ⟨fun before x after eq hx => ?_, since h e [] rfl⟩
    exact since before x (after ++ [e]) (by rw [eq, List.append_assoc, List.cons_append]) hx
  · rintro ⟨since, last⟩ before x after eq hx
    rcases snoc_eq_append_cons eq with ⟨rfl, rfl, rfl⟩ | ⟨rest, rfl, rfl⟩
    · exact last hx
    · exact since before x rest rfl hx

theorem Since.mono {p : E → Prop} {P Q : List E → Prop} (since : Since p P h)
    (le : ∀ after, P after → Q after) : Since p Q h :=
  fun before e after eq he => le after (since before e after eq he)

/-- A state that only its own events change is folded over these. -/
theorem foldl_own {S K : Type*} {f : S → E → S} {key : S → K} (own : K → E → Bool)
    (keeps : ∀ s e, key (f s e) = key s) (ignores : ∀ s e, own (key s) e = false → f s e = s)
    (h : List E) (s : S) : h.foldl f s = (h.filter (own (key s))).foldl f s := by
  induction h generalizing s with
  | nil => rfl
  | cons e h ih =>
    rw [List.foldl_cons, ih, keeps]
    cases mine : own (key s) e with
    | true => rw [List.filter_cons_of_pos mine, List.foldl_cons]
    | false => rw [List.filter_cons_of_neg (by simp [mine]), ignores s e mine]

/-- The last value is that of the last event, if it has one. -/
theorem getLast?_filterMap_snoc {A : Type*} (value : E → Option A) (h : List E) (e : E) :
    ((h ++ [e]).filterMap value).getLast? = (value e).or (h.filterMap value).getLast? := by
  rw [List.filterMap_append, List.getLast?_append]
  cases hvalue : value e with
  | none => rw [List.filterMap_cons_none hvalue]; rfl
  | some a => rw [List.filterMap_cons_some hvalue]; rfl

/-! ### The latest value since a cut -/

section

variable (cut : E → Prop) [DecidablePred cut]

/-- The events after the last one that `cut` marks. -/
def sinceLast (h : List E) : List E := h.rtakeWhile fun e => !decide (cut e)

/-- The latest value since the last cut. -/
def latest {A : Type*} (value : E → Option A) (h : List E) : Option A :=
  ((sinceLast cut h).filterMap value).getLast?

variable {cut}

theorem sinceLast_snoc (h : List E) (e : E) :
    sinceLast cut (h ++ [e]) = if cut e then [] else sinceLast cut h ++ [e] := by
  unfold sinceLast
  rw [List.rtakeWhile_concat]
  by_cases he : cut e <;> simp [he]

theorem mem_of_mem_sinceLast {e : E} (he : e ∈ sinceLast cut h) : e ∈ h :=
  (List.rtakeWhile_suffix _ _).subset he

/-- One more event cuts the history, brings a value or leaves the latest value alone. -/
theorem latest_snoc {A : Type*} (value : E → Option A) (h : List E) (e : E) :
    latest cut value (h ++ [e]) = if cut e then none else (value e).or (latest cut value h) := by
  unfold latest
  rw [sinceLast_snoc]
  split
  · rfl
  · exact getLast?_filterMap_snoc value _ e

/-- A latest value was brought by an event. -/
theorem exists_of_latest {A : Type*} {value : E → Option A} {a : A}
    (ha : latest cut value h = some a) : ∃ e ∈ h, value e = some a := by
  obtain ⟨e, he, hvalue⟩ := List.mem_filterMap.mp (List.mem_of_getLast? ha)
  exact ⟨e, mem_of_mem_sinceLast he, hvalue⟩

end

end History
