import AccessoryController.Library.Outcome

/-!
# Texts of records

A text holds records behind one another with a separator between them. A separator behind the last
record may be left out, so a text falls into its pieces between the separators less a last empty
one. Reading the records in order stops at the first that is not one, and says which it is.

## Main definitions

* `Records.pieces`: the records of a text
* `Records.joined`: the text of records, with a final separator or without
* `Records.readAll`: reading numbered records

## Main results

* `pieces_of_none`, `pieces_of_some`: the pieces from the front
* `joined_pieces`, `pieces_joined`: a text and its records
* `readAll_eq_ok`, `readAll_eq_error`: what is read, and where reading stops
-/

namespace Records

variable {T U E F : Type} [DecidableEq T]

/-! ### The pieces of a text -/

variable {xs : List T} {a : T}

theorem splitOn_of_none (absent : xs.idxOf? a = none) : xs.splitOn a = [xs] :=
  List.splitOn_eq_singleton (List.idxOf?_eq_none_iff.mp absent)

/-- Nothing before the first separator is one. -/
theorem not_mem_take {i : ℕ} (first : xs.idxOf? a = some i) : a ∉ xs.take i := by
  obtain ⟨inside, here, before⟩ := List.idxOf?_eq_some_iff.mp first
  intro mem
  obtain ⟨j, hj, at_j⟩ := List.mem_iff_getElem.mp mem
  rw [List.length_take] at hj
  rw [List.getElem_take] at at_j
  exact before j (by omega) at_j

theorem splitOn_of_some {i : ℕ} (first : xs.idxOf? a = some i) :
    xs.splitOn a = xs.take i :: (xs.drop (i + 1)).splitOn a := by
  obtain ⟨inside, here, -⟩ := List.idxOf?_eq_some_iff.mp first
  have apart : xs.take i ++ a :: xs.drop (i + 1) = xs := by
    rw [← here, List.getElem_cons_drop, List.take_append_drop]
  have free := not_mem_take first
  calc xs.splitOn a = (xs.take i ++ a :: xs.drop (i + 1)).splitOn a := by rw [apart]
    _ = xs.take i :: (xs.drop (i + 1)).splitOn a :=
      List.splitOn_append_cons_self_of_not_mem free _

/-- The records of a text: what stands between its separators, less a last empty piece. -/
def pieces (a : T) (xs : List T) : List (List T) :=
  if (xs.splitOn a).getLast? = some [] then (xs.splitOn a).dropLast else xs.splitOn a

@[simp] theorem pieces_nil (a : T) : pieces a [] = [] := by
  rw [pieces, List.splitOn_nil]
  rfl

theorem pieces_of_none (absent : xs.idxOf? a = none) (some_text : xs ≠ []) :
    pieces a xs = [xs] := by
  rw [pieces, splitOn_of_none absent]
  exact if_neg fun last => some_text (Option.some.inj last)

theorem pieces_of_some {i : ℕ} (first : xs.idxOf? a = some i) :
    pieces a xs = xs.take i :: pieces a (xs.drop (i + 1)) := by
  have more := List.splitOn_ne_nil a (xs.drop (i + 1))
  rw [pieces, pieces, splitOn_of_some first, List.getLast?_cons_of_ne_nil more,
    List.dropLast_cons_of_ne_nil more]
  split <;> rfl

theorem eq_nil_of_pieces (none_there : pieces a xs = []) : xs = [] := by
  by_contra some_text
  cases first : xs.idxOf? a with
  | none =>
    rw [pieces_of_none first some_text] at none_there
    cases none_there
  | some i =>
    rw [pieces_of_some first] at none_there
    cases none_there

/-- No piece holds a separator. -/
theorem free_pieces (a : T) (xs : List T) : ∀ r ∈ pieces a xs, a ∉ r := by
  induction h : xs.length using Nat.strongRecOn generalizing xs with
  | ind n ih =>
    cases first : xs.idxOf? a with
    | none =>
      by_cases empty : xs = []
      · rw [empty, pieces_nil]
        exact nofun
      · rw [pieces_of_none first empty]
        exact List.forall_mem_singleton.mpr (List.idxOf?_eq_none_iff.mp first)
    | some i =>
      have inside := (List.idxOf?_eq_some_iff.mp first).1
      have shorter : (xs.drop (i + 1)).length < n := by
        rw [List.length_drop]
        omega
      rw [pieces_of_some first, List.forall_mem_cons]
      exact ⟨not_mem_take first, ih _ shorter _ rfl⟩

/-- The text of records, with a final separator or without one. -/
def joined (a : T) (records : List (List T)) (final : Bool) : List T :=
  [a].intercalate records ++ if final then [a] else []

omit [DecidableEq T] in
theorem intercalate_concat_nil {records : List (List T)} (some_record : records ≠ []) :
    [a].intercalate (records ++ [[]]) = [a].intercalate records ++ [a] := by
  induction records with
  | nil => exact absurd rfl some_record
  | cons record records ih =>
    cases records with
    | nil => simp
    | cons next records =>
      have step := ih (List.cons_ne_nil next records)
      rw [List.cons_append] at step
      rw [List.cons_append, List.cons_append, List.intercalate_cons_cons, step,
        List.intercalate_cons_cons, List.append_assoc, List.append_assoc, List.append_assoc]

/-- A text is that of its pieces. -/
theorem joined_pieces (some_piece : pieces a xs ≠ []) :
    ∃ final, xs = joined a (pieces a xs) final := by
  have whole : [a].intercalate (xs.splitOn a) = xs := List.intercalate_splitOn a
  unfold pieces at some_piece ⊢
  by_cases last : (xs.splitOn a).getLast? = some []
  · rw [if_pos last] at some_piece ⊢
    refine ⟨true, ?_⟩
    rw [← List.dropLast_append_getLast? _ last, intercalate_concat_nil some_piece] at whole
    exact whole.symm
  · rw [if_neg last]
    refine ⟨false, ?_⟩
    rw [joined, whole]
    exact (List.append_nil xs).symm

/-- Records without separators are the pieces of their text, unless it ends in an empty record
that nothing closes. -/
theorem pieces_joined {records : List (List T)} (free : ∀ r ∈ records, a ∉ r)
    (some_record : records ≠ []) {final : Bool}
    (closed : final = false → records.getLast? ≠ some []) :
    pieces a (joined a records final) = records := by
  unfold joined pieces
  cases final with
  | true =>
    have free' : ∀ r ∈ records ++ [[]], a ∉ r := by
      intro r hr
      rcases List.mem_append.mp hr with hr | hr
      · exact free r hr
      · rw [List.mem_singleton.mp hr]
        exact List.not_mem_nil
    rw [if_pos rfl, ← intercalate_concat_nil some_record,
      List.splitOn_intercalate a free' (by simp), List.getLast?_concat, if_pos rfl,
      List.dropLast_concat]
  | false =>
    rw [if_neg Bool.false_ne_true, List.append_nil, List.splitOn_intercalate a free some_record,
      if_neg (closed rfl)]

/-! ### Reading records -/

/-- The records from number `n` on, to the first that cannot be read. -/
def readAll (read : T → Except E U) (fail : ℕ → E → F) : ℕ → List T → Except F (List U)
  | _, [] => .ok []
  | n, record :: records => do
    let value ← (read record).mapError (fail n)
    let values ← readAll read fail (n + 1) records
    pure (value :: values)

variable {read : T → Except E U} {fail : ℕ → E → F}

omit [DecidableEq T] in
theorem readAll_eq_ok {n : ℕ} {records : List T} {values : List U} :
    readAll read fail n records = .ok values ↔
      List.Forall₂ (fun record value => read record = .ok value) records values := by
  induction records generalizing n values with
  | nil =>
    rw [List.forall₂_nil_left_iff]
    exact ⟨fun h => (Except.ok.inj h).symm, fun h => congrArg _ h.symm⟩
  | cons record records ih =>
    rw [readAll, Outcome.bind_eq_ok, List.forall₂_cons_left_iff]
    constructor
    · rintro ⟨value, hvalue, rest⟩
      obtain ⟨values', hvalues, done⟩ := Outcome.bind_eq_ok.mp rest
      cases hread : read record with
      | error e =>
        rw [hread] at hvalue
        cases hvalue
      | ok value' =>
        rw [hread] at hvalue
        obtain rfl := Except.ok.inj hvalue
        exact ⟨_, _, rfl, ih.mp hvalues, (Except.ok.inj done).symm⟩
    · rintro ⟨value, values', hread, hvalues, rfl⟩
      rw [hread]
      exact ⟨value, rfl, Outcome.bind_eq_ok.mpr ⟨values', ih.mpr hvalues, rfl⟩⟩

omit [DecidableEq T] in
/-- Reading stops at the first record that cannot be read, and says its number. -/
theorem readAll_eq_error {n : ℕ} {records : List T} {error : F}
    (stopped : readAll read fail n records = .error error) :
    ∃ before record after e, records = before ++ record :: after ∧
      (∀ r ∈ before, ∃ value, read r = .ok value) ∧ read record = .error e ∧
      error = fail (n + before.length) e := by
  induction records generalizing n with
  | nil => cases stopped
  | cons record records ih =>
    rw [readAll] at stopped
    cases hread : read record with
    | error e =>
      rw [hread] at stopped
      exact ⟨[], record, records, e, rfl, nofun, hread, (Except.error.inj stopped).symm⟩
    | ok value =>
      rw [hread] at stopped
      cases hrest : readAll read fail (n + 1) records with
      | ok values =>
        rw [hrest] at stopped
        cases stopped
      | error error' =>
        rw [hrest] at stopped
        obtain rfl := Except.error.inj stopped
        obtain ⟨before, record', after, e, rfl, fine, bad, rfl⟩ := ih hrest
        refine ⟨record :: before, record', after, e, rfl, ?_, bad, ?_⟩
        · exact List.forall_mem_cons.mpr ⟨⟨value, hread⟩, fine⟩
        · rw [List.length_cons, Nat.add_assoc n 1, Nat.add_comm 1]

end Records
