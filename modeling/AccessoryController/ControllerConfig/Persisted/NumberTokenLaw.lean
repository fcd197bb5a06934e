import AccessoryController.ControllerConfig.Persisted.NumberTokens
import AccessoryController.ControllerConfig.Persisted.ReferenceLibrary

/-!
# Durations and their tokens

The scan of the text and the walk over the tree stay in step on every document, so that a duration
is read from the text of its own member. The value that the tree has for a number is never read.

## Main results

* `parseDuration_number`, `parseDuration_other`: a duration by the kind of its item
* `number_tokens_located`: the token of every number node, and the durations that are accepted
-/

open AccessoryController.ControllerConfig (Bytes)

namespace AccessoryController.Persisted

open scoped Json
open Json (Items Kind)

section

variable {value root : CJson} {text path : Bytes} {n : ℤ}

/-- A node whose index is known is a duration when its token is an integer literal. -/
theorem parseDuration_number {address : ℕ} {string : Bytes} {double : Double} {child next : CJson}
    {index : ℕ} (hvalue : value = .node address string (.number double) child next)
    (hindex : numberIndex root address = (true, index)) :
    parseDuration value root text path = .ok n ↔
      IsIntegerLiteral (numberToken text index) n ∧ -2 ^ 63 ≤ n ∧ n < 2 ^ 63 := by
  subst hvalue
  rw [← fromChars_eq_some_iff]
  simp only [parseDuration, hindex]
  constructor
  · intro h
    -- every other result of the conversion is an error
    split at h
    · rename_i duration hread
      obtain rfl : duration = n := Except.ok.inj h
      exact hread
    · cases h
  · intro h
    rw [h]
    rfl

/-- No other node is a duration. -/
theorem parseDuration_other (h : ∀ double, value.type? ≠ some (.number double)) :
    parseDuration value root text path ≠ .ok n := by
  intro hparse
  cases value with
  | nullptr => cases hparse
  | node address string type child next =>
    cases type with
    | number double => exact h double rfl
    | _ => cases hparse

end

/-- The type of a node is that of a number for number items only. -/
theorem CJsonType.Reads.number_iff {type : CJsonType} {kind : Kind} (h : type.Reads kind) :
    (∃ double, type = .number double) ↔ ∃ token, kind = .number token := by
  constructor
  · rintro ⟨double, rfl⟩
    cases kind with
    | number token => exact ⟨token, rfl⟩
    | _ => cases h
  · rintro ⟨token, rfl⟩
    cases type with
    | number double => exact ⟨double, rfl⟩
    | _ => cases h

/-- **A number token is located.** On every document that the parser accepts, the token found for
the number node with some index in the order of the text is the text of that node, and no other
token is found. A node is accepted as a duration exactly when its own text is an integer literal in
the range of the type, and passes validation too exactly when that is in the documented range. -/
theorem number_tokens_located {library : ExternalLibrary} {text : Bytes} {items : Items}
    {root : CJson} {stop : ℕ} (hdocument : Json.Document text items)
    (horder : library.KeepsOrder text items)
    (hparse : library.parseWithLength text = .parsed root stop) :
    ∃ place : List Bool → ℕ, Function.Injective place ∧ CJson.Reads place items root ∧
      (∀ (i : ℕ) way token, (numbered items)[i]? = some (way, token) →
        kindAt items way = some (.number token) ∧ numberIndex root (place way) = (true, i) ∧
          numberToken text i = token) ∧
      (∀ i, (numbered items).length ≤ i → numberToken text i = []) ∧
      ∀ way path n,
        (parseDuration (root.follow way) root text path = .ok n ↔
          ∃ token, kindAt items way = some (.number token) ∧ IsIntegerLiteral token n ∧
            -2 ^ 63 ≤ n ∧ n < 2 ^ 63) ∧
        (parseDuration (root.follow way) root text path = .ok n ∧
            inRange n kDurationMsMin kMaxTransientDurationMs = true ↔
          ∃ token, kindAt items way = some (.number token) ∧ IsIntegerLiteral token n ∧
            kDurationMsMin ≤ n ∧ n ≤ kMaxTransientDurationMs) := by
  obtain ⟨place, hplace, hreads⟩ := horder root stop hparse
  have hindex : ∀ (i : ℕ) way token, (numbered items)[i]? = some (way, token) →
      kindAt items way = some (.number token) ∧ numberIndex root (place way) = (true, i) ∧
        numberToken text i = token := by
    intro i way token hnumber
    refine ⟨mem_numbered.mp (List.mem_of_getElem? hnumber), ?_, ?_⟩
    · rw [numberIndex, numberIndexAmong_reads hreads hplace hnumber, Nat.zero_add]
    · rw [numberToken_document hdocument, numbers_eq, List.getElem?_map, hnumber]
      rfl
  have hduration : ∀ way path n, parseDuration (root.follow way) root text path = .ok n ↔
      ∃ token, kindAt items way = some (.number token) ∧ IsIntegerLiteral token n ∧
        -2 ^ 63 ≤ n ∧ n < 2 ^ 63 := by
    intro way path n
    have hfollow := hreads.follow way
    cases hkind : kindAt items way with
    | none =>
      rw [hkind] at hfollow
      have hother := @parseDuration_other (root.follow way) root text path n fun double h => by
        rw [hfollow] at h
        cases h
      exact ⟨fun h => absurd h hother, fun ⟨_, h, _⟩ => by cases h⟩
    | some kind =>
      rw [hkind] at hfollow
      obtain ⟨string, type, child, next, htype, hnode⟩ := hfollow
      by_cases hnumber : ∃ token, kind = .number token
      · obtain ⟨token, rfl⟩ := hnumber
        obtain ⟨double, rfl⟩ := htype.number_iff.mpr ⟨token, rfl⟩
        obtain ⟨i, hi, -⟩ := exists_numbered hkind
        obtain ⟨-, hi, htoken⟩ := hindex i way token hi
        rw [parseDuration_number hnode hi, htoken]
        constructor
        · exact fun h => ⟨token, rfl, h⟩
        · rintro ⟨token', hsame, h⟩
          obtain rfl := Kind.number.inj (Option.some.inj hsame)
          exact h
      · have hother := @parseDuration_other (root.follow way) root text path n fun double h => by
          rw [hnode] at h
          exact hnumber (htype.number_iff.mp ⟨double, Option.some.inj h⟩)
        exact ⟨fun h => absurd h hother, fun ⟨token, h, _⟩ =>
          absurd ⟨token, Option.some.inj h⟩ hnumber⟩
  refine ⟨place, hplace, hreads, hindex, fun i hi => ?_, fun way path n => ⟨hduration _ _ _, ?_⟩⟩
  · rw [numberToken_document hdocument, numbers_eq, List.getElem?_map,
      List.getElem?_eq_none hi]
    rfl
  · rw [hduration, inRange_eq_true]
    -- the documented range is inside the range of the type
    have hwide : kDurationMsMin ≤ n → n ≤ kMaxTransientDurationMs → -2 ^ 63 ≤ n ∧ n < 2 ^ 63 := by
      unfold kDurationMsMin kMaxTransientDurationMs
      omega
    constructor
    · rintro ⟨⟨token, hkind, hliteral, -⟩, hrange⟩
      exact ⟨token, hkind, hliteral, hrange⟩
    · rintro ⟨token, hkind, hliteral, hlow, hhigh⟩
      exact ⟨⟨token, hkind, hliteral, hwide hlow hhigh⟩, hlow, hhigh⟩

/-- A duration that is given twice, with white space and with digits and escapes in strings. -/
def repeatedText : Bytes :=
  ascii "\x7b \"duration_ms\": 250 ,\"note\":[\"\\\"7\", \"8\\\\\"],\t\"duration_ms\":2.5e2\x7d"

def repeatedItems : Items :=
  .cons [] .object
    (.cons (ascii "duration_ms") (.number (ascii "250")) .nil
      (.cons (ascii "note") .array
        (.cons [] (.string (ascii "\\\"7") (ascii "\"7")) .nil
          (.cons [] (.string (ascii "8\\\\") (ascii "8\\")) .nil .nil))
        (.cons (ascii "duration_ms") (.number (ascii "2.5e2")) .nil .nil))) .nil

def repeatedRoot : CJson := .ofItems tokenValue wayNumber repeatedItems

theorem document_repeatedText : Json.Document repeatedText repeatedItems := by
  have hnone := Json.white_nil
  have hspace : Json.White [32] := by unfold Json.White; decide
  have htab : Json.White [9] := by unfold Json.White; decide
  have hplain : ∀ key ∈ [ascii "duration_ms", ascii "note"], ∀ c ∈ key, Json.IsPlain c := by
    decide
  have hduration := (Json.spells_of_plain (hplain _ List.mem_cons_self)).stringBody
  have hnote := (Json.spells_of_plain
    (hplain _ (List.mem_cons_of_mem _ List.mem_cons_self))).stringBody
  have hwhole : Kind.Written (.number (ascii "250")) :=
    .mk [] (ascii "250") [] [] (.inl rfl) ⟨by decide, by decide⟩ (by decide) (.inl rfl) (.inl rfl)
  have hexponent : Kind.Written (.number (ascii "2.5e2")) :=
    .mk [] (ascii "2") (ascii ".5") (ascii "e2") (.inl rfl) ⟨by decide, by decide⟩ (by decide)
      (.inr ⟨ascii "5", ⟨by decide, by decide⟩, rfl⟩)
      (.inr ⟨101, [], ascii "2", by decide, by decide, ⟨by decide, by decide⟩, rfl⟩)
  have hquote : ((34 : UInt8), (34 : UInt8)) ∈ Json.shortEscapes := by decide
  have hbackslash : ((92 : UInt8), (92 : UInt8)) ∈ Json.shortEscapes := by decide
  have hquoted : Kind.Written (.string (ascii "\\\"7") (ascii "\"7")) :=
    .short hquote (.plain (by decide) .nil)
  have hescaped : Kind.Written (.string (ascii "8\\\\") (ascii "8\\")) :=
    .plain (by decide) (.short hbackslash .nil)
  have hnotes : Kind.Written .array := trivial
  -- the members from the last to the first
  have hlast : Json.Written _ true false _ :=
    .cons htab (.key hduration hnone hnone) hexponent (fun _ => ⟨rfl, rfl⟩) (.nil hnone) hnone
      (.nil hnone)
  have hsecond : Json.Written _ false false _ :=
    .cons hspace .none hescaped (fun _ => ⟨rfl, rfl⟩) (.nil hnone) hnone (.nil hnone)
  have hstrings : Json.Written _ false true _ :=
    .cons hnone .none hquoted (fun _ => ⟨rfl, rfl⟩) (.nil hnone) hnone hsecond
  have harray : Json.Written _ true false _ :=
    .cons hnone (.key hnote hnone hnone) hnotes (fun h => by cases h) hstrings hnone hlast
  have hmembers : Json.Written _ true true _ :=
    .cons hspace (.key hduration hnone hspace) hwhole (fun _ => ⟨rfl, rfl⟩) (.nil hnone) hspace
      harray
  have hroot : Json.Written repeatedItems false true _ :=
    .cons hnone .none trivial (fun h => by cases h) hmembers hnone (.nil hnone)
  exact ⟨_, _, rfl, (congrArg (Json.Written repeatedItems false true) (by decide)).mp hroot⟩

/-- A parser that accepts that document only. -/
def repeatedLibrary : ExternalLibrary :=
  { referenceLibrary with
    parseWithLength := fun text =>
      if text = repeatedText then .parsed repeatedRoot repeatedText.length else .malformed }

/-- The first duration is a literal, and the second has the same value but is none. -/
theorem number_tokens_located_repeated :
    (∃ place, Function.Injective place ∧ CJson.Reads place repeatedItems repeatedRoot ∧
      numberIndex repeatedRoot (place [false]) = (true, 0) ∧
      numberIndex repeatedRoot (place [false, true, true]) = (true, 1)) ∧
    numberToken repeatedText 0 = ascii "250" ∧ numberToken repeatedText 1 = ascii "2.5e2" ∧
    parseDuration (repeatedRoot.follow [false]) repeatedRoot repeatedText [] = .ok 250 ∧
    ∀ n, parseDuration (repeatedRoot.follow [false, true, true]) repeatedRoot repeatedText [] ≠
      .ok n := by
  have hparse : repeatedLibrary.parseWithLength repeatedText =
      .parsed repeatedRoot repeatedText.length := by
    simp only [repeatedLibrary, if_true]
  have horder : repeatedLibrary.KeepsOrder repeatedText repeatedItems := by
    intro root stop h
    obtain ⟨rfl, -⟩ := CJsonResult.parsed.inj (hparse.symm.trans h)
    exact ⟨wayNumber, wayNumber_injective, reads_ofItems _ _ _⟩
  obtain ⟨place, hplace, hreads, hindex, -, hduration⟩ :=
    number_tokens_located document_repeatedText horder hparse
  obtain ⟨-, hfirst, hfirstToken⟩ := hindex 0 [false] (ascii "250") rfl
  obtain ⟨-, hsecond, hsecondToken⟩ := hindex 1 [false, true, true] (ascii "2.5e2") rfl
  have hliteral : IsIntegerLiteral (ascii "250") 250 := .unsigned ⟨by decide, by decide⟩
  refine ⟨⟨place, hplace, hreads, hfirst, hsecond⟩, hfirstToken, hsecondToken, ?_, ?_⟩
  · exact (hduration _ _ _).1.mpr ⟨_, rfl, hliteral, by decide, by decide⟩
  · intro n h
    obtain ⟨token, hkind, hliteral, -⟩ := (hduration _ _ _).1.mp h
    obtain rfl := Kind.number.inj (Option.some.inj hkind)
    -- a point is no digit
    have hpoint : (46 : UInt8) ∈ ascii "2.5e2" := by decide
    have hdigit : Json.isDigit 46 = false := by decide
    generalize ascii "2.5e2" = token at hliteral hpoint
    cases hliteral with
    | unsigned hdigits =>
      rw [hdigits.2 46 hpoint] at hdigit
      cases hdigit
    | negative hdigits =>
      rw [hdigits.2 46 (List.mem_of_ne_of_mem (by decide) hpoint)] at hdigit
      cases hdigit

end AccessoryController.Persisted
