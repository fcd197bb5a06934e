import Mathlib.Data.List.Forall2
import Mathlib.Data.List.Infix

/-!
# Splitting a text into lexemes

A lexer reads one lexeme after the other off the front of a text. Where each is the longest
lexeme that stands there, a text splits in one way at most, and the lexemes, each at its place,
hold every character of the text exactly once.

## Main definitions

* `Longest`: a lexeme that no other one at the front of the text exceeds
* `Splits`: a text as a row of lexemes, each of which may stand in front of what follows it
* `placed`: the lexemes of a row with the places at which they start
* `run`: the loop of a lexer

## Main results

* `Splits.unique`: a text splits in one way
* `countP_holds`: the lexemes hold every character once
* `run_sound`, `run_complete`, `run_error`: the loop splits a text as its scanner does
-/

namespace Lexing

variable {C K E T : Type*}

/-- No lexeme at the front of the text is longer than `raw`. -/
def Longest (IsLexeme : K → List C → Prop) (raw rest : List C) : Prop :=
  ∀ kind other, other <+: raw ++ rest → IsLexeme kind other → other.length ≤ raw.length

/-- The text is a row of lexemes; `Front kind raw rest` says which may stand in front of `rest`. -/
inductive Splits (Front : K → List C → List C → Prop) : List C → List (K × List C) → Prop
  | nil : Splits Front [] []
  | cons {kind : K} {raw rest : List C} {lexemes : List (K × List C)} (some_char : raw ≠ [])
      (front : Front kind raw rest) (others : Splits Front rest lexemes) :
      Splits Front (raw ++ rest) ((kind, raw) :: lexemes)

/-- The lexemes of a row with the places at which they start. -/
def placed : ℕ → List (K × List C) → List (ℕ × K × List C)
  | _, [] => []
  | start, lexeme :: lexemes => (start, lexeme) :: placed (start + lexeme.2.length) lexemes

/-- The place is one of those that the lexeme fills. -/
def holds (i : ℕ) (lexeme : ℕ × K × List C) : Bool :=
  lexeme.1 ≤ i && i < lexeme.1 + lexeme.2.2.length

/-! ### Fronts -/

variable {rest text : List C} {lexemes : List (K × List C)} {index : ℕ}

theorem takeWhile_front {p : C → Bool} {front : List C} (all : ∀ c ∈ front, p c = true)
    (stops : ∀ c ∈ rest.head?, p c = false) : (front ++ rest).takeWhile p = front := by
  rw [List.takeWhile_append_of_pos all]
  cases rest with
  | nil => rw [List.takeWhile_nil, List.append_nil]
  | cons c rest =>
    rw [List.takeWhile_cons, stops c rfl, if_neg Bool.false_ne_true, List.append_nil]

theorem dropWhile_front {p : C → Bool} {front : List C} (all : ∀ c ∈ front, p c = true)
    (stops : ∀ c ∈ rest.head?, p c = false) : (front ++ rest).dropWhile p = rest := by
  rw [List.dropWhile_append_of_pos all]
  cases rest with
  | nil => rfl
  | cons c rest => rw [List.dropWhile_cons, stops c rfl, if_neg Bool.false_ne_true]

/-- What is at the front of a text is no longer than the run it belongs to. -/
theorem length_le_takeWhile {p : C → Bool} {front : List C} (all : ∀ c ∈ front, p c = true)
    (rest : List C) : front.length ≤ ((front ++ rest).takeWhile p).length := by
  rw [List.takeWhile_append_of_pos all, List.length_append]
  exact Nat.le_add_right _ _

/-! ### Splits -/

variable {IsLexeme : K → List C → Prop} {Front Front' : K → List C → List C → Prop}

section

variable (splits : Splits Front text lexemes)
include splits

theorem Splits.flatten : (lexemes.map Prod.snd).flatten = text := by
  induction splits with
  | nil => rfl
  | cons _ _ _ ih => rw [List.map_cons, List.flatten_cons, ih]

theorem Splits.mono (weaker : ∀ kind raw rest, (kind, raw) ∈ lexemes → Front kind raw rest →
      Front' kind raw rest) : Splits Front' text lexemes := by
  induction splits with
  | nil => exact .nil
  | cons some_char front _ ih =>
    exact .cons some_char (weaker _ _ _ List.mem_cons_self front)
      (ih fun kind raw rest mem => weaker kind raw rest (List.mem_cons_of_mem _ mem))

/-- Every lexeme of a row stands in front of a part of the text. -/
theorem Splits.front {kind : K} {raw : List C} (mem : (kind, raw) ∈ lexemes) :
    ∃ before rest, text = before ++ raw ++ rest ∧ Front kind raw rest := by
  induction splits with
  | nil => exact absurd mem List.not_mem_nil
  | @cons kind' raw' rest lexemes some_char front _ ih =>
    rcases List.mem_cons.mp mem with same | later
    · cases same
      exact ⟨[], rest, rfl, front⟩
    · obtain ⟨before, rest', rfl, front'⟩ := ih later
      exact ⟨raw' ++ before, rest', by simp only [List.append_assoc], front'⟩

/-- A text that is a row of lexemes begins with one. -/
theorem Splits.exists_front (some_text : text ≠ []) :
    ∃ kind raw rest, text = raw ++ rest ∧ Front kind raw rest := by
  cases splits with
  | nil => exact absurd rfl some_text
  | cons _ front _ => exact ⟨_, _, _, rfl, front⟩

end

/-- The longest lexeme at the front of a text. -/
theorem Longest.unique {kind kind' : K} {raw raw' rest' : List C}
    (same : raw ++ rest = raw' ++ rest') (lexeme : IsLexeme kind raw)
    (longest : Longest IsLexeme raw rest) (lexeme' : IsLexeme kind' raw')
    (longest' : Longest IsLexeme raw' rest') : raw = raw' ∧ rest = rest' := by
  have length : raw.length = raw'.length :=
    Nat.le_antisymm (longest' kind raw (same ▸ List.prefix_append raw rest) lexeme)
      (longest kind' raw' (same ▸ List.prefix_append raw' rest') lexeme')
  exact List.append_inj same length

/-- **A text splits in one way** where its front fixes the lexeme that stands there. -/
theorem Splits.unique
    (fixed : ∀ kind raw rest kind' raw' rest', raw ++ rest = raw' ++ rest' → Front kind raw rest →
      Front kind' raw' rest' → kind = kind' ∧ raw = raw' ∧ rest = rest')
    {lexemes' : List (K × List C)} (splits : Splits Front text lexemes)
    (splits' : Splits Front text lexemes') : lexemes = lexemes' := by
  induction splits generalizing lexemes' with
  | nil =>
    generalize whole : ([] : List C) = text at splits'
    cases splits' with
    | nil => rfl
    | cons some_char _ _ => exact absurd (List.append_eq_nil_iff.mp whole.symm).1 some_char
  | @cons kind raw rest lexemes some_char front others ih =>
    generalize whole : raw ++ rest = text at splits'
    cases splits' with
    | nil => exact absurd (List.append_eq_nil_iff.mp whole).1 some_char
    | @cons kind' raw' rest' lexemes' _ front' others' =>
      obtain ⟨rfl, rfl, rfl⟩ := fixed _ _ _ _ _ _ whole front front'
      rw [ih others']

/-! ### Places -/

theorem start_le_placed
    {start : ℕ} {lexeme : ℕ × K × List C} (mem : lexeme ∈ placed start lexemes) :
    start ≤ lexeme.1 := by
  induction lexemes generalizing start with
  | nil => exact absurd mem List.not_mem_nil
  | cons first lexemes ih =>
    rcases List.mem_cons.mp mem with rfl | later
    · exact Nat.le_refl start
    · exact Nat.le_trans (Nat.le_add_right _ _) (ih later)

/-- The lexemes stand one behind the other. -/
theorem pairwise_placed (start : ℕ) (lexemes : List (K × List C)) :
    (placed start lexemes).Pairwise fun l m => l.1 + l.2.2.length ≤ m.1 := by
  induction lexemes generalizing start with
  | nil => exact .nil
  | cons first lexemes ih =>
    exact .cons (fun later mem => start_le_placed mem) (ih _)

/-- **The lexemes hold every character once.** -/
theorem countP_holds {start i : ℕ} (low : start ≤ i)
    (high : i < start + (lexemes.map Prod.snd).flatten.length) :
    (placed start lexemes).countP (holds i) = 1 := by
  induction lexemes generalizing start with
  | nil => exact absurd high (Nat.not_lt.mpr low)
  | cons first lexemes ih =>
    rw [List.map_cons, List.flatten_cons, List.length_append] at high
    rw [placed, List.countP_cons]
    by_cases here : i < start + first.2.length
    · -- the lexemes behind the first one start behind the place
      have none_later : (placed (start + first.2.length) lexemes).countP (holds i) = 0 := by
        refine List.countP_eq_zero.mpr fun later mem held => ?_
        have := start_le_placed mem
        simp only [holds, Bool.and_eq_true, decide_eq_true_eq] at held
        omega
      rw [none_later, if_pos (by simp [holds, low, here])]
    · rw [ih (Nat.le_of_not_lt here) (by omega), if_neg (by simp [holds, here])]

/-! ### The loop -/

/-- The loop of a lexer: `scan index c rest` reads the lexeme at `index`, where `c :: rest` is left
of the text, and tells how many characters it takes, which is one at least. -/
def run (scan : ℕ → C → List C → Except E (T × ℕ)) : ℕ → List C → Except E (List T)
  | _, [] => .ok []
  | index, c :: rest =>
    match scan index c rest with
    | .error e => .error e
    | .ok (token, taken) =>
      match run scan (index + taken) (rest.drop (taken - 1)) with
      | .error e => .error e
      | .ok tokens => .ok (token :: tokens)
termination_by _ text => text.length
decreasing_by
  rw [List.length_drop, List.length_cons]
  omega

variable {scan : ℕ → C → List C → Except E (T × ℕ)}

theorem run_nil (index : ℕ) : run scan index [] = .ok [] := by
  rw [run]

/-- One round of the loop. -/
theorem run_append {c : C} {raw after : List C} {token : T} {taken : ℕ}
    (scanned : scan index c rest = .ok (token, taken)) (some_char : raw ≠ [])
    (whole : c :: rest = raw ++ after) (took : taken = raw.length) :
    run scan index (c :: rest) =
      (run scan (index + raw.length) after).map (token :: ·) := by
  obtain ⟨first, raw, rfl⟩ := List.exists_cons_of_ne_nil some_char
  obtain ⟨rfl, rfl⟩ := List.cons_eq_cons.mp whole
  subst took
  have left : (raw.append after).drop ((c :: raw).length - 1) = after := List.drop_left
  rw [run, scanned]
  dsimp only
  rw [left]
  cases run scan (index + (c :: raw).length) after <;> rfl

/-- What the loop makes of a text is made of the lexemes into which the text splits. -/
theorem run_sound {Made : ℕ × K × List C → T → Prop} {size : ℕ}
    (spec : ∀ index c rest token taken, index + (c :: rest).length = size →
      scan index c rest = .ok (token, taken) →
      ∃ kind raw after, c :: rest = raw ++ after ∧ raw ≠ [] ∧ taken = raw.length ∧
        Front kind raw after ∧ Made (index, kind, raw) token) {tokens : List T}
    (place : index + text.length = size) (ran : run scan index text = .ok tokens) :
    ∃ lexemes, Splits Front text lexemes ∧ List.Forall₂ Made (placed index lexemes) tokens := by
  induction hlength : text.length using Nat.strongRecOn generalizing index text tokens with
  | _ n ih =>
    cases text with
    | nil =>
      rw [run_nil] at ran
      cases ran
      exact ⟨[], .nil, .nil⟩
    | cons c rest =>
      rcases scanned : scan index c rest with e | ⟨token, taken⟩
      · rw [run, scanned] at ran
        cases ran
      · obtain ⟨kind, raw, after, whole, some_char, took, front, made⟩ :=
          spec _ _ _ _ _ place scanned
        rw [whole, List.length_append, ← Nat.add_assoc] at place
        rw [run_append scanned some_char whole took] at ran
        rcases ran' : run scan (index + raw.length) after with e | tokens'
        · rw [ran'] at ran
          cases ran
        · rw [ran'] at ran
          cases ran
          have shorter : after.length < n := by
            rw [← hlength, whole, List.length_append]
            exact Nat.lt_add_of_pos_left (List.length_pos_of_ne_nil some_char)
          obtain ⟨lexemes, splits, all⟩ := ih _ shorter place ran' rfl
          exact ⟨(kind, raw) :: lexemes, whole ▸ .cons some_char front splits, .cons made all⟩

/-- A text that splits into lexemes is taken by the loop where the scanner takes each lexeme of
which the text behind it splits. -/
theorem run_complete {size : ℕ}
    (spec : ∀ index c rest kind raw after lexemes, index + (c :: rest).length = size →
      c :: rest = raw ++ after → raw ≠ [] → Front kind raw after → Splits Front after lexemes →
      ∃ token, scan index c rest = .ok (token, raw.length)) (splits : Splits Front text lexemes)
    (place : index + text.length = size) : ∃ tokens, run scan index text = .ok tokens := by
  induction splits generalizing index with
  | nil => exact ⟨[], run_nil index⟩
  | @cons kind raw rest lexemes some_char front others ih =>
    obtain ⟨c, raw', rfl⟩ := List.exists_cons_of_ne_nil some_char
    obtain ⟨token, scanned⟩ :=
      spec index c (raw' ++ rest) kind _ rest _ place rfl some_char front others
    rw [List.length_append, ← Nat.add_assoc] at place
    obtain ⟨tokens, ran⟩ := ih place
    refine ⟨token :: tokens, ?_⟩
    rw [List.cons_append, run_append scanned some_char rfl rfl, ran]
    rfl

/-- The loop fails where the scanner does, within the text. -/
theorem run_error {size : ℕ} (spec : ∀ index c rest token taken, index + (c :: rest).length = size →
      scan index c rest = .ok (token, taken) →
      ∃ raw after, c :: rest = raw ++ after ∧ raw ≠ [] ∧ taken = raw.length) {e : E}
    (place : index + text.length = size) (ran : run scan index text = .error e) :
    ∃ before c rest, text = before ++ c :: rest ∧
      index + before.length + (c :: rest).length = size ∧
      scan (index + before.length) c rest = .error e := by
  induction hlength : text.length using Nat.strongRecOn generalizing index text with
  | _ n ih =>
    cases text with
    | nil =>
      rw [run_nil] at ran
      cases ran
    | cons c rest =>
      rcases scanned : scan index c rest with e' | ⟨token, taken⟩
      · rw [run, scanned] at ran
        cases ran
        exact ⟨[], c, rest, rfl, place, scanned⟩
      · obtain ⟨raw, after, whole, some_char, took⟩ := spec _ _ _ _ _ place scanned
        rw [whole, List.length_append, ← Nat.add_assoc] at place
        rw [run_append scanned some_char whole took] at ran
        rcases ran' : run scan (index + raw.length) after with e' | tokens'
        · rw [ran'] at ran
          cases ran
          have shorter : after.length < n := by
            rw [← hlength, whole, List.length_append]
            exact Nat.lt_add_of_pos_left (List.length_pos_of_ne_nil some_char)
          obtain ⟨before, c', rest', rfl, place', failed⟩ := ih _ shorter place ran' rfl
          refine ⟨raw ++ before, c', rest', by rw [whole, List.append_assoc], ?_⟩
          rw [List.length_append, ← Nat.add_assoc]
          exact ⟨place', failed⟩
        · rw [ran'] at ran
          cases ran

end Lexing
