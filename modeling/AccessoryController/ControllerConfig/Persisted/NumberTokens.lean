import AccessoryController.Library.JsonText
import AccessoryController.ControllerConfig.Persisted.TextScan

/-!
# The tokens of the number nodes

The loader finds the token of a number node by a scan of the text of its own. On every text of JSON
items, whatever white space and escapes it has, the scan finds the items' number tokens, and the
number nodes of the tree are met in the same order.

## Main definitions

* `numbered`: the number items of a chain, in the order of the text
* `CJson.Reads`: a tree has the nodes of a chain, in their order
* `ExternalLibrary.KeepsOrder`: the parser returns such a tree for a document

## Main results

* `numberTokenFrom_written`: the tokens are the number tokens of the items
* `numberIndexAmong_reads`: a number node has the index of its token
-/

open AccessoryController.ControllerConfig (Bytes)

namespace AccessoryController.Persisted

open scoped Json
open Json (IsPlain Items Kind StringBody White Written)

/-! ### Number tokens -/

section

variable {n : ℕ} (rest : Bytes)

/-- A string is passed over up to its closing quote. -/
theorem numberTokenFrom_body {body : Bytes} (h : StringBody body) :
    numberTokenFrom .string (body ++ 34 :: rest) n = numberTokenFrom .outside rest n := by
  induction h with
  | nil => simp [numberTokenFrom]
  | plain hc _ ih =>
    obtain ⟨-, hquote, hbackslash⟩ := isPlain_ne hc
    rw [List.cons_append, numberTokenFrom_plain _ hquote hbackslash, ih]
  | short hc _ ih => rw [List.cons_append, List.cons_append, numberTokenFrom_escape, ih]
  | @codePoint digits body hlength hdigits _ ih =>
    have hskip : ∀ (digits more : Bytes), (∀ c ∈ digits, (Json.hexValue c).isSome) →
        numberTokenFrom .string (digits ++ more) n = numberTokenFrom .string more n := by
      intro digits more hdigits
      induction digits with
      | nil => rfl
      | cons c digits ih =>
        obtain ⟨hc, hdigits⟩ := List.forall_mem_cons.mp hdigits
        obtain ⟨m, hm⟩ := Option.isSome_iff_exists.mp hc
        obtain ⟨-, hquote, hbackslash⟩ := hexValue_ne hm
        rw [List.cons_append, numberTokenFrom_plain _ hquote hbackslash, ih hdigits]
    rw [List.cons_append, List.cons_append, numberTokenFrom_escape, List.append_assoc,
      hskip digits _ hdigits, ih]

theorem numberTokenFrom_quoted {body : Bytes} (h : StringBody body) (more : Bytes) :
    numberTokenFrom .outside (34 :: (body ++ 34 :: more)) n = numberTokenFrom .outside more n := by
  rw [← numberTokenFrom_body more h]
  simp [numberTokenFrom]

/-- A character that is neither a quote nor the start of a number is passed over. -/
theorem numberTokenFrom_other {c : UInt8} (hquote : c ≠ 34)
    (hstart : Json.isNumberStart c = false) :
    numberTokenFrom .outside (c :: rest) n = numberTokenFrom .outside rest n := by
  simp [numberTokenFrom, hquote, hstart]

theorem numberTokenFrom_white {space : Bytes} (h : White space) :
    numberTokenFrom .outside (space ++ rest) n = numberTokenFrom .outside rest n := by
  induction space with
  | nil => rfl
  | cons c space ih =>
    obtain ⟨hc, hspace⟩ := List.forall_mem_cons.mp h
    have hother : c ≠ 34 ∧ Json.isNumberStart c = false := by
      rcases hc with rfl | rfl | rfl | rfl <;> decide
    rw [List.cons_append, numberTokenFrom_other _ hother.1 hother.2, ih hspace]

end

/-- What may follow a number token. -/
def Delimited (rest : Bytes) : Prop := ∀ c, rest.head? = some c → isDelimiter c = true

theorem delimiter_ne {c : UInt8} (h : isDelimiter c = true) :
    c ≠ 34 ∧ Json.isNumberStart c = false := by
  have hall : ∀ d ∈ ascii ",]\x7d \t\r\n", d ≠ 34 ∧ Json.isNumberStart d = false := by decide
  exact hall c (by simpa [isDelimiter] using h)

theorem isNumberStart_ne {c : UInt8} (h : Json.isNumberStart c = true) : c ≠ 34 := by
  rintro rfl
  exact absurd h (by decide)

variable {rest token : Bytes} {items : Items} {way : List Bool}

/-- A token is passed over, or found. -/
theorem numberTokenFrom_token (h : Json.IsNumber token) (hrest : Delimited rest) (n : ℕ) :
    numberTokenFrom .outside (token ++ rest) n =
      match n with
      | 0 => token
      | later + 1 => numberTokenFrom .outside rest later := by
  have hchars : ∀ c ∈ token, isDelimiter c = false := fun c hc =>
    (isNumberChar_ne (h.isNumberChar c hc)).2.2.2.2.2.2.2
  obtain ⟨c, more, rfl, hstart⟩ := h.exists_cons
  have hquote := isNumberStart_ne hstart
  have hskip : ∀ (text : Bytes) later, (∀ c ∈ text, isDelimiter c = false) →
      numberTokenFrom .number (text ++ rest) later = numberTokenFrom .outside rest later := by
    intro text later htext
    induction text with
    | nil =>
      cases rest with
      | nil => rfl
      | cons d rest =>
        obtain ⟨hquote, hstart⟩ := delimiter_ne (hrest d rfl)
        rw [numberTokenFrom_other _ hquote hstart]
        simp [numberTokenFrom, hrest d rfl]
    | cons d text ih =>
      obtain ⟨hd, htext⟩ := List.forall_mem_cons.mp htext
      rw [← ih htext]
      simp [numberTokenFrom, hd]
  cases n with
  | zero =>
    have htake : (c :: more ++ rest).takeWhile (fun c => !isDelimiter c) = c :: more := by
      rw [List.takeWhile_append_of_pos fun d hd => by rw [hchars d hd]; rfl]
      cases rest with
      | nil => simp
      | cons d rest => simp [hrest d rfl]
    simp only [List.cons_append] at htake ⊢
    simp only [numberTokenFrom, hquote, hstart, if_false, if_true, htake]
  | succ later =>
    have hmore := hskip more later fun d hd => hchars d (List.mem_cons_of_mem c hd)
    simp only [List.cons_append, numberTokenFrom, hquote, hstart, if_false, if_true, hmore]

theorem delimited_nil : Delimited [] := fun c hc => by cases hc

theorem delimited_white {space : Bytes} (h : White space) (hrest : Delimited rest) :
    Delimited (space ++ rest) := by
  cases space with
  | nil => exact hrest
  | cons d space =>
    intro c hc
    obtain rfl : d = c := Option.some.inj hc
    rcases h d List.mem_cons_self with rfl | rfl | rfl | rfl <;> decide

/-- The text of later items cannot be part of a token. -/
theorem delimited_written {keyed : Bool} {text : Bytes} (h : Written items keyed false text)
    (hrest : Delimited rest) : Delimited (text ++ rest) := by
  cases h with
  | nil hspace => exact delimited_white hspace hrest
  | cons =>
    intro c hc
    obtain rfl : Json.comma = c := Option.some.inj hc
    decide

theorem delimited_closing (kind : Kind) (hrest : Delimited rest) :
    Delimited (kind.closing ++ rest) := by
  cases kind with
  | array =>
    intro c hc
    obtain rfl : 93 = c := Option.some.inj hc
    decide
  | object =>
    intro c hc
    obtain rfl : 125 = c := Option.some.inj hc
    decide
  | _ => exact hrest

section

variable {n : ℕ} (rest : Bytes)

/-- Where the search goes on after the tokens of an item, unless it ends there. -/
def afterTokens (tokens : List Bytes) (n : ℕ) (rest : Bytes) : Bytes :=
  match tokens[n]? with
  | some token => token
  | none => numberTokenFrom .outside rest (n - tokens.length)

theorem afterTokens_nil : afterTokens [] n rest = numberTokenFrom .outside rest n := rfl

theorem afterTokens_of_some {tokens : List Bytes} (h : tokens[n]? = some token) :
    afterTokens tokens n rest = token := by rw [afterTokens, h]

theorem afterTokens_of_le {tokens : List Bytes} (h : tokens.length ≤ n) :
    afterTokens tokens n rest = numberTokenFrom .outside rest (n - tokens.length) := by
  rw [afterTokens, List.getElem?_eq_none h]

theorem afterTokens_append {tokens later : List Bytes} {more rest : Bytes}
    (hmore : ∀ n, numberTokenFrom .outside more n = afterTokens later n rest) (n : ℕ) :
    afterTokens tokens n more = afterTokens (tokens ++ later) n rest := by
  rcases Nat.lt_or_ge n tokens.length with hlt | hge
  · have htoken : tokens[n]? = some tokens[n] := List.getElem?_eq_getElem hlt
    rw [afterTokens_of_some _ htoken, afterTokens_of_some]
    rw [List.getElem?_append_left hlt, htoken]
  · rw [afterTokens_of_le _ hge, hmore, afterTokens, afterTokens, List.getElem?_append_right hge,
      List.length_append, Nat.sub_sub]

theorem numberTokenFrom_opening {kind : Kind} (hkind : kind.Written)
    (hrest : kind.isContainer = false → Delimited rest) :
    numberTokenFrom .outside (kind.opening ++ rest) n = afterTokens kind.tokens n rest := by
  cases kind with
  | null => simp [Kind.opening, Kind.tokens, afterTokens_nil, numberTokenFrom, Json.isNumberStart,
      Json.isDigit]
  | boolean value =>
    cases value <;>
      simp [Kind.opening, Kind.tokens, afterTokens_nil, numberTokenFrom, Json.isNumberStart,
        Json.isDigit]
  | number token =>
    simp only [Kind.opening, Kind.tokens]
    rw [numberTokenFrom_token hkind (hrest rfl)]
    cases n <;> rfl
  | string body value =>
    simp only [Kind.opening, Kind.tokens, List.cons_append, List.append_assoc, List.nil_append]
    exact numberTokenFrom_quoted hkind rest
  | array => exact numberTokenFrom_other rest (by decide) (by decide)
  | object => exact numberTokenFrom_other rest (by decide) (by decide)

theorem numberTokenFrom_closing (kind : Kind) :
    numberTokenFrom .outside (kind.closing ++ rest) n = numberTokenFrom .outside rest n := by
  cases kind with
  | array => exact numberTokenFrom_other rest (by decide) (by decide)
  | object => exact numberTokenFrom_other rest (by decide) (by decide)
  | _ => rfl

theorem numberTokenFrom_comma (first : Bool) :
    numberTokenFrom .outside ((if first then [] else [Json.comma]) ++ rest) n =
      numberTokenFrom .outside rest n := by
  cases first with
  | true => rfl
  | false => exact numberTokenFrom_other rest (by decide) (by decide)

theorem numberTokenFrom_name {keyed : Bool} {key name : Bytes} (h : Json.Name keyed key name) :
    numberTokenFrom .outside (name ++ rest) n = numberTokenFrom .outside rest n := by
  cases h with
  | none => rfl
  | @key key between after hkey hbetween hafter =>
    have hcolon : numberTokenFrom .outside (Json.colon :: (after ++ rest)) n =
        numberTokenFrom .outside (after ++ rest) n :=
      numberTokenFrom_other _ (by decide) (by decide)
    simp only [List.cons_append, List.append_assoc]
    rw [show Json.quote = 34 from rfl, numberTokenFrom_quoted hkey, numberTokenFrom_white _ hbetween,
      hcolon, numberTokenFrom_white _ hafter]

end

/-- **The tokens** that the search finds are the number tokens of the items. -/
theorem numberTokenFrom_written {keyed first : Bool} {text : Bytes}
    (h : Written items keyed first text) (hrest : Delimited rest) (n : ℕ) :
    numberTokenFrom .outside (text ++ rest) n = afterTokens items.numbers n rest := by
  induction h generalizing rest n with
  | nil hspace => exact (numberTokenFrom_white rest hspace).trans (afterTokens_nil rest).symm
  | @cons keyed first key kind inner next before name innerText after nextText hbefore hname hkind
      hscalar _ hafter hnext ihInner ihNext =>
    have hlater := delimited_white hafter (delimited_written hnext hrest)
    have hclosing := delimited_closing kind hlater
    simp only [Items.numbers, List.append_assoc]
    rw [numberTokenFrom_comma, numberTokenFrom_white _ hbefore, numberTokenFrom_name _ hname,
      numberTokenFrom_opening _ hkind]
    · refine afterTokens_append (fun n => ?_) n
      rw [ihInner hclosing]
      refine afterTokens_append (fun n => ?_) n
      rw [numberTokenFrom_closing, numberTokenFrom_white _ hafter, ihNext hrest]
    · -- a token stands before its delimiter only when no items are inside
      intro hkindScalar
      rw [(hscalar hkindScalar).2]
      exact hclosing

/-- The search in a whole document. -/
theorem numberToken_document {text : Bytes} (h : Json.Document text items) (n : ℕ) :
    numberToken text n = (items.numbers[n]?).getD [] := by
  obtain ⟨-, -, -, htext⟩ := h
  have hscan := numberTokenFrom_written htext delimited_nil n
  rw [List.append_nil] at hscan
  rw [numberToken, hscan, afterTokens]
  cases items.numbers[n]? <;> rfl

/-! ### Number nodes -/

/-- The item that a way leads to. -/
def kindAt : Items → List Bool → Option Kind
  | .nil, _ => none
  | .cons _ kind _ _, [] => some kind
  | .cons _ _ inner _, false :: way => kindAt inner way
  | .cons _ _ _ next, true :: way => kindAt next way

/-- One step further from the first node of a chain. -/
def further (side : Bool) (number : List Bool × Bytes) : List Bool × Bytes :=
  (side :: number.1, number.2)

/-- The number items with their tokens, in the order of the text. -/
def numbered : Items → List (List Bool × Bytes)
  | .nil => []
  | .cons _ kind inner next =>
    kind.tokens.map (fun token => ([], token)) ++
      ((numbered inner).map (further false) ++ (numbered next).map (further true))

theorem numbers_eq (items : Items) : items.numbers = (numbered items).map Prod.snd := by
  induction items with
  | nil => rfl
  | cons key kind inner next ihInner ihNext =>
    have hsnd : ∀ side, Prod.snd ∘ further side = Prod.snd := fun _ => rfl
    simp only [Items.numbers, numbered, List.map_append, List.map_map, hsnd, ihInner, ihNext]
    congr 1
    exact (List.map_id _).symm

theorem mem_further {side : Bool} {numbers : List (List Bool × Bytes)} :
    (way, token) ∈ numbers.map (further side) ↔
      ∃ later, way = side :: later ∧ (later, token) ∈ numbers := by
  simp only [List.mem_map, further, Prod.exists, Prod.mk.injEq]
  constructor
  · rintro ⟨later, token, hmem, rfl, rfl⟩
    exact ⟨later, rfl, hmem⟩
  · rintro ⟨later, rfl, hmem⟩
    exact ⟨later, token, hmem, rfl, rfl⟩

/-- Every number item is in the list. -/
theorem mem_numbered : (way, token) ∈ numbered items ↔ kindAt items way = some (.number token) := by
  induction items generalizing way with
  | nil => exact ⟨fun h => absurd h List.not_mem_nil, fun h => by cases h⟩
  | cons key kind inner next ihInner ihNext =>
    simp only [numbered, List.mem_append, mem_further, ihInner, ihNext]
    rcases way with _ | ⟨_ | _, way⟩
    · cases kind <;> simp [kindAt, Kind.tokens, eq_comm]
    · simp [kindAt]
    · simp [kindAt]

/-! ### Trees -/

/-- A node has the type of an item: a number node stands for a number token, whatever its value. -/
def CJsonType.Reads : CJsonType → Kind → Prop
  | .null, .null => True
  | .boolean read, .boolean value => read = value
  | .number _, .number _ => True
  | .string _, .string _ _ => True
  | .array, .array => True
  | .object, .object => True
  | _, _ => False

/-- The nodes of a chain in the order of its items, whatever their names and their values. -/
inductive CJson.Reads : (place : List Bool → ℕ) → Items → CJson → Prop
  | nullptr {place : List Bool → ℕ} : Reads place .nil .nullptr
  | node {place : List Bool → ℕ} {key string : Bytes} {kind : Kind} {type : CJsonType}
      {inner next : Items} {child sibling : CJson} (htype : type.Reads kind)
      (hchild : Reads (fun way => place (false :: way)) inner child)
      (hsibling : Reads (fun way => place (true :: way)) next sibling) :
      Reads place (.cons key kind inner next) (.node (place []) string type child sibling)

/-- On a document the parser returns one node for each item, in the order of the text. -/
def ExternalLibrary.KeepsOrder (library : ExternalLibrary) (text : Bytes) (items : Items) : Prop :=
  ∀ root stop, library.parseWithLength text = .parsed root stop →
    ∃ place : List Bool → ℕ, Function.Injective place ∧ CJson.Reads place items root

/-- The node at the end of a way from the first node of a chain. -/
def CJson.follow : CJson → List Bool → CJson
  | tree, [] => tree
  | .nullptr, _ :: _ => .nullptr
  | .node _ _ _ child _, false :: way => child.follow way
  | .node _ _ _ _ next, true :: way => next.follow way

theorem reads_ofItems (strtod : Bytes → Double) (items : Items) (place : List Bool → ℕ) :
    CJson.Reads place items (.ofItems strtod place items) := by
  induction items generalizing place with
  | nil => exact .nullptr
  | cons key kind inner next ihInner ihNext =>
    refine .node ?_ (ihInner _) (ihNext _)
    cases kind <;> trivial

theorem CJsonType.Reads.tokens {type : CJsonType} {kind : Kind} (h : type.Reads kind) (n : ℕ) :
    (if type.isNumber then n + 1 else n) = n + kind.tokens.length := by
  cases type <;> cases kind <;> first | rfl | cases h

/-- The node of an item. -/
theorem CJson.Reads.follow {place : List Bool → ℕ} {tree : CJson} (h : CJson.Reads place items tree)
    (way : List Bool) :
    match kindAt items way with
    | some kind => ∃ string type child next, type.Reads kind ∧
        tree.follow way = .node (place way) string type child next
    | none => tree.follow way = .nullptr := by
  induction h generalizing way with
  | nullptr => cases way <;> rfl
  | node htype _ _ ihChild ihSibling =>
    rcases way with _ | ⟨_ | _, way⟩
    · exact ⟨_, _, _, _, htype, rfl⟩
    · exact ihChild way
    · exact ihSibling way

/-! ### The index of a number node -/

section

variable {place : List Bool → ℕ} {items : Items} {tree : CJson}

/-- A chain without the target counts its numbers. -/
theorem numberIndexAmong_of_ne (h : CJson.Reads place items tree) {target : ℕ}
    (htarget : ∀ way, place way ≠ target) (n : ℕ) :
    numberIndexAmong target tree n = (false, n + items.numbers.length) := by
  induction h generalizing n with
  | nullptr => rfl
  | node htype _ _ ihChild ihSibling =>
    simp only [numberIndexAmong, if_neg (htarget []), htype.tokens,
      ihChild fun way => htarget (false :: way), ihSibling fun way => htarget (true :: way),
      Items.numbers, List.length_append, Nat.add_assoc]

/-- **A number node** has the index of its token. -/
theorem numberIndexAmong_reads (h : CJson.Reads place items tree)
    (hplace : Function.Injective place) {i : ℕ} (hnumber : (numbered items)[i]? = some (way, token))
    (n : ℕ) : numberIndexAmong (place way) tree n = (true, n + i) := by
  induction h generalizing i way n with
  | nullptr => cases hnumber
  | @node place key string kind type inner next child sibling htype hchild hsibling ihChild
      ihSibling =>
    rw [numbered] at hnumber
    have hlengths : ((numbered inner).map (further false)).length = inner.numbers.length := by
      rw [numbers_eq, List.length_map, List.length_map]
    have hhead : ∀ side later, place [] ≠ place (side :: later) := fun side later hsame =>
      List.cons_ne_nil _ _ (hplace hsame).symm
    rcases Nat.lt_or_ge i kind.tokens.length with hown | hown
    · -- the node is itself the target
      rw [List.getElem?_append_left (by rwa [List.length_map])] at hnumber
      have hkind : ∃ token, kind.tokens = [token] := by
        cases kind <;> first | exact ⟨_, rfl⟩ | exact absurd hown (Nat.not_lt_zero _)
      obtain ⟨token', htokens⟩ := hkind
      rw [htokens] at hnumber hown
      obtain rfl : i = 0 := Nat.lt_one_iff.mp hown
      obtain ⟨rfl, -⟩ := Prod.mk.inj (Option.some.inj hnumber)
      rw [numberIndexAmong, if_pos rfl, Nat.add_zero]
    obtain ⟨j, rfl⟩ := Nat.exists_eq_add_of_le hown
    rw [List.getElem?_append_right (by rwa [List.length_map]), List.length_map,
      Nat.add_sub_cancel_left] at hnumber
    rcases Nat.lt_or_ge j inner.numbers.length with hinside | hinside
    · rw [List.getElem?_append_left (by rwa [hlengths]), List.getElem?_map,
        Option.map_eq_some_iff] at hnumber
      obtain ⟨⟨later, token'⟩, hlater, hway⟩ := hnumber
      obtain ⟨rfl, rfl⟩ := Prod.mk.inj hway
      have hinjective : Function.Injective fun way => place (false :: way) :=
        hplace.comp List.cons_injective
      simp only [numberIndexAmong, if_neg (hhead false later), htype.tokens,
        ihChild hinjective hlater, Nat.add_assoc]
    · obtain ⟨k, rfl⟩ := Nat.exists_eq_add_of_le hinside
      rw [List.getElem?_append_right (by rwa [hlengths]), hlengths, Nat.add_sub_cancel_left,
        List.getElem?_map, Option.map_eq_some_iff] at hnumber
      obtain ⟨⟨later, token'⟩, hlater, hway⟩ := hnumber
      obtain ⟨rfl, rfl⟩ := Prod.mk.inj hway
      have hinjective : Function.Injective fun way => place (true :: way) :=
        hplace.comp List.cons_injective
      -- the items inside are passed over
      have hmiss : ∀ other, place (false :: other) ≠ place (true :: later) := fun other hsame =>
        Bool.false_ne_true (List.cons_eq_cons.mp (hplace hsame)).1
      simp only [numberIndexAmong, if_neg (hhead true later), htype.tokens,
        numberIndexAmong_of_ne hchild hmiss, ihSibling hinjective hlater, Nat.add_assoc]

/-- A number item has an index. -/
theorem exists_numbered (h : kindAt items way = some (.number token)) :
    ∃ i : ℕ, (numbered items)[i]? = some (way, token) ∧ items.numbers[i]? = some token := by
  obtain ⟨i, hi⟩ := List.mem_iff_getElem?.mp (mem_numbered.mpr h)
  refine ⟨i, hi, ?_⟩
  rw [numbers_eq, List.getElem?_map, hi]
  rfl

end

end AccessoryController.Persisted
