import Mathlib.Data.Finset.Dedup
import Mathlib.Data.List.Find
import AccessoryController.VehicleProfiles.ComposeSuccess

/-!
# The composition law

The outcome of a composition should be a function of the set of its definitions: no order of its
inputs matters, definitions with equal mechanics deduplicate, and a composition that succeeds is
sound and final. This holds of the tool except where compatible sources define a field twice with
equal mechanics and a table that can be written in two orders.

## Main definitions

* `Mechanics`, `mechanics`: the mechanics of a field
* `Compatible`: no two definitions contradict each other
* `OneOrder`: definitions with equal mechanics have tables with one order
* `ComposesBySet`: the composition law for one set of sources

## Main results

* `compose_eq_composeBy_mechanics`: where the two compositions agree
* `composesBySet_iff`: when the law holds
-/

namespace AccessoryController.VehicleProfiles

open Grouping Outcome ValueLabel

/-! ### The mechanics of a field

The mechanics of a field as its documentation states them: the set of its bits, and the mapping of
its raw values to labels. A composition that identified fields by their mechanics would not see the
order of the entries of a table. The tool compares tables entry by entry; the two compositions
agree on sources whose tables leave one order only. -/

/-- The mechanics of a field: its bits and its labels are sets. -/
structure Mechanics where
  occupiedBits : Finset ℕ
  byteOrder : ByteOrder
  signed : Bool
  scale : ℚ
  offset : ℚ
  minimum : ℚ
  maximum : ℚ
  unit : String
  labels : Finset (ℤ × String)
  deriving DecidableEq

def mechanics (signal : Signal) : Mechanics where
  occupiedBits := signal.occupiedBits.toFinset
  byteOrder := signal.byteOrder
  signed := signal.signed
  scale := signal.scale
  offset := signal.offset
  minimum := signal.minimum
  maximum := signal.maximum
  unit := signal.unit
  labels := (signal.valueTable.map entry).toFinset

theorem signature_spanFree : SpanFree signature := fun _ _ => rfl

theorem mechanics_spanFree : SpanFree mechanics := fun _ _ => rfl

theorem mechanics_orderFree : OrderFree mechanics := by
  rintro s _ ⟨table, hperm, rfl⟩
  have hlabels : (s.valueTable.map entry).toFinset =
      (table.map entry).toFinset :=
    List.toFinset_eq_of_perm _ _ (hperm.map entry)
  simp only [mechanics, hlabels]

variable {s t : Signal} {m : Message Signal} {i : SourceInventory} {n : Message Signal}
  {j : SourceInventory}

theorem mem_bits_of_mechanics (h : mechanics s = mechanics t) {bit : ℕ}
    (hbit : bit ∈ s.occupiedBits) : bit ∈ t.occupiedBits := by
  have hbits : s.occupiedBits.toFinset = t.occupiedBits.toFinset :=
    congrArg Mechanics.occupiedBits h
  rw [← List.mem_toFinset, ← hbits, List.mem_toFinset]
  exact hbit

section

variable {s t : Signal} {sourceId sourceId' : String}

section

variable (hs : s.Parsed sourceId)
include hs

/-- A parsed field occupies at least one bit. -/
theorem Signal.Parsed.start_mem : s.start ∈ s.occupiedBits := by
  rw [hs.bits]
  exact start_mem_occupiedBits hs.length_pos

/-- Fields with equal mechanics touch. -/
theorem not_apart_of_mechanics (h : mechanics s = mechanics t) : ¬ s.Apart t := by
  rintro ⟨hoverlap, -⟩
  refine Bool.eq_false_iff.mp hoverlap (List.any_eq_true.mpr ⟨s.start, hs.start_mem, ?_⟩)
  exact decide_eq_true (mem_bits_of_mechanics h hs.start_mem)

theorem mechanics_eq_of_signature (ht : t.Parsed sourceId') (h : signature s = signature t) :
    mechanics s = mechanics t := by
  simp only [signature, Signature.mk.injEq] at h
  obtain ⟨hstart, hlength, horder, hsigned, hscale, hoffset, hmin, hmax, hunit, htable⟩ := h
  have hbits : s.occupiedBits = t.occupiedBits := by
    rw [hs.bits, ht.bits, hstart, hlength, horder]
  simp only [mechanics, hbits, horder, hsigned, hscale, hoffset, hmin, hmax, hunit, htable]

/-- Equal mechanics with equal tables are equal signatures: the bits fix the start and the
length. -/
theorem signature_eq_of_mechanics (ht : t.Parsed sourceId') (h : mechanics s = mechanics t)
    (htable : s.valueTable.map entry = t.valueTable.map entry) : signature s = signature t := by
  have hbits : ∀ bit, bit ∈ occupiedBits s.start s.length s.byteOrder ↔
      bit ∈ occupiedBits t.start t.length s.byteOrder := by
    intro bit
    have horder : s.byteOrder = t.byteOrder := congrArg Mechanics.byteOrder h
    rw [← hs.bits, horder, ← ht.bits]
    exact ⟨mem_bits_of_mechanics h, mem_bits_of_mechanics h.symm⟩
  obtain ⟨hstart, hlength⟩ := eq_of_occupiedBits hs.length_pos hbits
  simp only [mechanics, Mechanics.mk.injEq] at h
  obtain ⟨-, horder, hsigned, hscale, hoffset, hmin, hmax, hunit, -⟩ := h
  simp only [signature, hstart, hlength, horder, hsigned, hscale, hoffset, hmin, hmax, hunit,
    htable]

end

/-- A table with at most one entry has one order. -/
theorem tables_eq_of_mechanics (h : mechanics s = mechanics t) (hs : s.valueTable.length ≤ 1)
    (ht : t.valueTable.length ≤ 1) :
    s.valueTable.map entry = t.valueTable.map entry := by
  have hlabels : (s.valueTable.map entry).toFinset =
      (t.valueTable.map entry).toFinset := congrArg Mechanics.labels h
  rw [← List.length_map entry] at hs ht
  generalize s.valueTable.map entry = l at hlabels hs
  generalize t.valueTable.map entry = l' at hlabels ht
  have hmem : ∀ x, x ∈ l ↔ x ∈ l' := fun x => by
    rw [← List.mem_toFinset, hlabels, List.mem_toFinset]
  match l, l', hs, ht with
  | [], [], _, _ => rfl
  | [], x :: _, _, _ => exact absurd ((hmem x).mpr List.mem_cons_self) List.not_mem_nil
  | x :: _, [], _, _ => exact absurd ((hmem x).mp List.mem_cons_self) List.not_mem_nil
  | [x], [y], _, _ => rw [List.mem_singleton.mp ((hmem x).mp List.mem_cons_self)]

end

/-! ### Two signatures -/

section

variable {S V : Type} [DecidableEq S] [DecidableEq V] {σ : Signal → S} {τ : Signal → V}

/-- Two signatures that tell the same fields apart compose alike. -/
theorem composeFieldsBy_congr (hσ : SpanFree σ) (hτ : SpanFree τ) {signals : List Signal}
    (h : ∀ s ∈ signals, ∀ t ∈ signals, σ s = σ t ↔ τ s = τ t) :
    composeFieldsBy σ signals = composeFieldsBy τ signals := by
  have hmem : ∀ found ∈ sortOn (fun found => found.first.fieldId) (classes Signal.fieldId signals),
      ∀ s ∈ found.items, s ∈ signals :=
    fun found hfound s hs => (mem_of_mem_classes (mem_sortOn.mp hfound) hs).1
  have hmerge : ∀ found ∈ sortOn (fun found => found.first.fieldId)
      (classes Signal.fieldId signals), mergeOccurrences σ found = mergeOccurrences τ found := by
    intro found hfound
    have hfind : (found.later.find? fun other => σ other ≠ σ found.first) =
        found.later.find? fun other => τ other ≠ τ found.first := by
      refine List.find?_congr fun other hother => ?_
      have hiff := h other (hmem found hfound other (List.mem_cons_of_mem _ hother)) found.first
        (hmem found hfound _ List.mem_cons_self)
      simp only [ne_eq, hiff]
    rw [mergeOccurrences, mergeOccurrences, hfind]
  unfold composeFieldsBy
  dsimp only
  rw [mapM_congr hmerge]
  refine bind_congr fun merged hmerged => ?_
  have hgroups : fieldGroups σ merged = fieldGroups τ merged := by
    refine congrArg (sortOn _) (classes_congr fun x hx y hy => ?_)
    obtain ⟨c, hc, hcx⟩ := forall₂_exists_left (mapM_eq_ok.mp hmerged) hx
    obtain ⟨d, hd, hdy⟩ := forall₂_exists_left (mapM_eq_ok.mp hmerged) hy
    rw [(mergeOccurrences_eq_ok.mp hcx).2, (mergeOccurrences_eq_ok.mp hdy).2]
    have hiff := h _ (hmem c hc _ List.mem_cons_self) _ (hmem d hd _ List.mem_cons_self)
    simp only [hσ.mergedSignal, hτ.mergedSignal, hiff]
  rw [hgroups]

theorem composeBy_congr (hσ : SpanFree σ) (hτ : SpanFree τ) {inventories : List SourceInventory}
    (h : ∀ key, ∀ s ∈ fieldsOf inventories key, ∀ t ∈ fieldsOf inventories key,
      σ s = σ t ↔ τ s = τ t) :
    composeBy σ inventories = composeBy τ inventories := by
  rw [composeBy_eq, composeBy_eq]
  refine congrArg (· >>= _) (mapM_congr fun key _ => ?_)
  have hfields := composeFieldsBy_congr hσ hτ (h key)
  unfold fieldsOf at hfields
  generalize fragmentsOf inventories key = fragments at hfields
  cases fragments with
  | nil => rfl
  | cons representative others => simp only [composeFragmentsBy, hfields]

end

/-! ### Compatible sources -/

variable {inventories inventories' : List SourceInventory}

theorem ParsedSources.bitsSeen_signature (hsources : ParsedSources inventories) :
    BitsSeen signature inventories := by
  intro i m s j n t hs ht h bit hbit
  exact mem_bits_of_mechanics
    (mechanics_eq_of_signature (hsources.signals hs) (hsources.signals ht) h) hbit

theorem bitsSeen_mechanics (inventories : List SourceInventory) :
    BitsSeen mechanics inventories := fun _ _ h _ => mem_bits_of_mechanics h

/-- No two definitions contradict each other in their mechanics. -/
def Compatible (inventories : List SourceInventory) : Prop := CompatibleBy mechanics inventories

/-- Different definitions of one key with equal mechanics have tables with one order. -/
def OneOrder (inventories : List SourceInventory) : Prop :=
  ∀ i m s j n t, DefinedIn inventories i m s → DefinedIn inventories j n t →
    messageKey i.bus m = messageKey j.bus n → mechanics s = mechanics t →
    (m.messageId, s.fieldId) ≠ (n.messageId, t.fieldId) → s.valueTable.length ≤ 1

/-- Compatible by the signature of the tool is compatible. -/
theorem CompatibleBy.compatible (hsources : ParsedSources inventories)
    (h : CompatibleBy signature inventories) : Compatible inventories := by
  intro key m hm n hn
  obtain ⟨hlength, hfields⟩ := h key m hm n hn
  refine ⟨hlength, fun s hs t ht => ?_⟩
  obtain ⟨i, hi, hmi, -⟩ := mem_keyedMessages.mp (mem_fragmentsOf.mp hm)
  obtain ⟨j, hj, hnj, -⟩ := mem_keyedMessages.mp (mem_fragmentsOf.mp hn)
  rcases hfields s hs t ht with hsame | hapart
  · left
    exact mechanics_eq_of_signature (hsources.signals ⟨hi, hmi, hs⟩)
      (hsources.signals ⟨hj, hnj, ht⟩) hsame
  · exact .inr hapart

/-- One pair of identifiers stands for one definition. -/
theorem DistinctIds.eq_of_ids (hids : DistinctIds inventories) (hs : DefinedIn inventories i m s)
    (ht : DefinedIn inventories j n t) (hm : m.messageId = n.messageId)
    (hfield : s.fieldId = t.fieldId) : m = n ∧ s = t := by
  have hmk : (messageKey i.bus m, m) ∈ keyedMessages inventories :=
    mem_keyedMessages.mpr ⟨i, hs.inventory, hs.message, rfl⟩
  have hnk : (messageKey j.bus n, n) ∈ keyedMessages inventories :=
    mem_keyedMessages.mpr ⟨j, ht.inventory, ht.message, rfl⟩
  have hkeyed := List.inj_on_of_nodup_map hids.messages hmk hnk hm
  obtain ⟨-, rfl⟩ := Prod.mk.inj hkeyed
  exact ⟨rfl, List.inj_on_of_nodup_map (hids.fields _ hmk) hs.signal ht.signal hfield⟩

/-- **The two compositions agree** on sources whose tables leave one order. -/
theorem compose_eq_composeBy_mechanics (hsources : ParsedSources inventories)
    (horder : OneOrder inventories) : compose inventories = composeBy mechanics inventories := by
  refine composeBy_congr signature_spanFree mechanics_spanFree fun key s hs t ht => ?_
  obtain ⟨i, m, hdefined, hkey⟩ := mem_fieldsOf.mp hs
  obtain ⟨j, n, hdefined', hkey'⟩ := mem_fieldsOf.mp ht
  refine ⟨mechanics_eq_of_signature (hsources.signals hdefined) (hsources.signals hdefined'),
    fun h => ?_⟩
  by_cases hids : (m.messageId, s.fieldId) = (n.messageId, t.fieldId)
  · obtain ⟨hm, hfield⟩ := Prod.mk.inj hids
    rw [(hsources.ids.eq_of_ids hdefined hdefined' hm hfield).2]
  · have hkeys : messageKey i.bus m = messageKey j.bus n := hkey.trans hkey'.symm
    refine signature_eq_of_mechanics (hsources.signals hdefined) (hsources.signals hdefined') h
      (tables_eq_of_mechanics h ?_ ?_)
    · exact horder i m s j n t hdefined hdefined' hkeys h hids
    · exact horder j n t i m s hdefined' hdefined hkeys.symm h.symm (Ne.symm hids)

variable {inventories inventories' : List SourceInventory}

/-! ### Sources in another order -/

/-- Every definition of a rearranged set of sources is one of the sources. -/
theorem DefinedIn.rearranged (h : Rearranged inventories inventories')
    (ht : DefinedIn inventories' j n t) :
    ∃ i m s, DefinedIn inventories i m s ∧ i.Rearranged j ∧ m.Rearranged n ∧ s.Rearranged t := by
  have hback := h.symm fun _ _ => SourceInventory.Rearranged.symm
  obtain ⟨i, hi, hij⟩ := hback.exists_right ht.inventory
  obtain ⟨m, hm, hmn⟩ := hij.1.exists_right ht.message
  obtain ⟨s, hs, hst⟩ := hmn.1.exists_right ht.signal
  exact ⟨i, m, s, ⟨hi, hm, hs⟩, hij.symm, hmn.symm, hst.symm⟩

theorem SourceInventory.Rearranged.bus (h : i.Rearranged j) : i.bus = j.bus := by rw [h.2]

theorem SourceInventory.Rearranged.sourceId (h : i.Rearranged j) :
    i.sourceId = j.sourceId := by rw [h.2]

/-- Rearranged messages keep their keys. -/
theorem Message.Rearranged.messageKey (h : m.Rearranged n) {i j}
    (hij : SourceInventory.Rearranged i j) : messageKey i.bus m = messageKey j.bus n := by
  rw [hij.bus]
  exact Message.Rearranged.eq (VehicleProfiles.messageKey j.bus) (fun _ _ => rfl) m n h

theorem Signal.Parsed.rearranged {sourceId : String} (hs : s.Parsed sourceId) (h : s.Rearranged t) :
    t.Parsed sourceId := by
  obtain ⟨table, hperm, rfl⟩ := h
  constructor
  case length_pos => exact hs.length_pos
  case bits => exact hs.bits
  case raws => exact ((hperm.map raw).nodup_iff).mp hs.raws
  case spans_ne => exact hs.spans_ne
  case spans_source => exact hs.spans_source

theorem DistinctIds.rearranged (hids : DistinctIds inventories)
    (h : Rearranged inventories inventories') : DistinctIds inventories' := by
  have hkeyed := keyed_rearranged h
  constructor
  case messages =>
    have hid := fun a b (hab : KeyedRearranged a b) =>
      Message.Rearranged.eq Message.messageId (fun _ _ => rfl) a.2 b.2 hab.2
    exact (hkeyed.map_perm hid).nodup_iff.mp hids.messages
  case fields =>
    intro keyed hmem
    have hback := hkeyed.symm (S := fun b a => KeyedRearranged a b) fun _ _ => id
    obtain ⟨keyed', hmem', hab⟩ := hback.exists_right hmem
    refine (hab.2.1.map_perm ?_).nodup_iff.mp (hids.fields keyed' hmem')
    rintro s _ ⟨_, -, rfl⟩
    rfl

theorem ParsedSources.rearranged (hsources : ParsedSources inventories)
    (h : Rearranged inventories inventories') : ParsedSources inventories' := by
  constructor
  case ids => exact hsources.ids.rearranged h
  case fieldIds =>
    intro i m s j n t hs ht hid
    obtain ⟨i', m', s', hs', hi, -, _, -, rfl⟩ := hs.rearranged h
    obtain ⟨j', n', t', ht', hj, -, _, -, rfl⟩ := ht.rearranged h
    have hsound := hsources.fieldIds hs' ht' hid
    rw [← hi.sourceId, ← hj.sourceId]
    exact hsound
  case signals =>
    intro j n t ht
    obtain ⟨i, m, s, hs, hij, -, hst⟩ := ht.rearranged h
    rw [← hij.sourceId]
    exact (hsources.signals hs).rearranged hst

theorem CompatibleBy.rearranged {S : Type} {signature : Signal → S} (hfree : OrderFree signature)
    (hcompatible : CompatibleBy signature inventories)
    (h : Rearranged inventories inventories') : CompatibleBy signature inventories' := by
  have hfragment : ∀ {key n}, n ∈ fragmentsOf inventories' key →
      ∃ m ∈ fragmentsOf inventories key, m.Rearranged n := by
    intro key n hn
    have hback := (keyed_rearranged h).symm (S := fun b a => KeyedRearranged a b) fun _ _ => id
    obtain ⟨⟨_, m⟩, hmem, rfl, hmn⟩ := hback.exists_right (mem_fragmentsOf.mp hn)
    exact ⟨m, mem_fragmentsOf.mpr hmem, hmn⟩
  intro key m' hm' n' hn'
  obtain ⟨m, hm, hmm⟩ := hfragment hm'
  obtain ⟨n, hn, hnn⟩ := hfragment hn'
  obtain ⟨hlength, hfields⟩ := hcompatible key m hm n hn
  have hlengths := Message.Rearranged.eq Message.length fun _ _ => rfl
  refine ⟨by rw [← hlengths m m' hmm, ← hlengths n n' hnn, hlength], fun s' hs' t' ht' => ?_⟩
  obtain ⟨s, hs, hss⟩ := hmm.symm.1.exists_right hs'
  obtain ⟨t, ht, htt⟩ := hnn.symm.1.exists_right ht'
  rw [← hfree _ _ hss.symm, ← hfree _ _ htt.symm]
  exact (hfields s hs t ht).imp_right fun hapart => hss.symm.apart htt.symm hapart

theorem OneOrder.rearranged (horder : OneOrder inventories)
    (h : Rearranged inventories inventories') : OneOrder inventories' := by
  intro i m s j n t hs ht hkeys hsame hids
  obtain ⟨i', m', s', hs', hi, hm, hss⟩ := hs.rearranged h
  obtain ⟨j', n', t', ht', hj, hn, htt⟩ := ht.rearranged h
  have hmessageId := Message.Rearranged.eq Message.messageId fun _ _ => rfl
  rw [← hm.messageKey hi, ← hn.messageKey hj] at hkeys
  rw [← mechanics_orderFree _ _ hss, ← mechanics_orderFree _ _ htt] at hsame
  rw [← hmessageId m' m hm, ← hmessageId n' n hn] at hids
  obtain ⟨_, hperm, rfl⟩ := hss
  obtain ⟨_, -, rfl⟩ := htt
  have hone := horder _ _ _ _ _ _ hs' ht' hkeys hsame hids
  rwa [hperm.length_eq] at hone

/-! ### The law -/

/-- **The composition law** for a set of sources. -/
structure ComposesBySet (inventories : List SourceInventory) : Prop where
  /-- The order of the inputs does not matter. -/
  order : ∀ inventories', Rearranged inventories inventories' →
    Related SameComposition (compose inventories) (compose inventories')
  /-- Definitions with equal mechanics are no contradiction. -/
  composes : Compatible inventories → ∃ c, compose inventories = .ok c
  /-- Definitions with equal mechanics have one representative. -/
  deduplicates : ∀ c, compose inventories = .ok c → ∀ i m s j n t,
    DefinedIn inventories i m s → DefinedIn inventories j n t →
    messageKey i.bus m = messageKey j.bus n → mechanics s = mechanics t →
    ∃ message ∈ c.1, ∃ f ∈ message.signals,
      (∃ a ∈ c.2, a.representative = f.fieldId ∧ a.Describes s) ∧
      ∃ a ∈ c.2, a.representative = f.fieldId ∧ a.Describes t
  disjoint : ∀ c, compose inventories = .ok c → ∀ message ∈ c.1,
    message.signals.Pairwise fun s t => s.toSignal.overlaps t.toSignal = false
  aliased : ∀ c, compose inventories = .ok c → ∀ i m s, DefinedIn inventories i m s →
    ∃ a ∈ c.2, a.Describes s
  /-- The composition inside validation finds no conflict and merges nothing. -/
  second : ∀ c, compose inventories = .ok c → ∀ bus, (∀ i ∈ inventories, i.bus = bus) →
    composeProfile (document bus c.1) = .ok (document bus c.1, identityAliases (document bus c.1))

section

variable (hsources : ParsedSources inventories)
include hsources

/-- Compatible definitions with equal mechanics have equal signatures once they compose. -/
theorem signature_eq_of_compose {c : Composition} (h : compose inventories = .ok c)
    (hs : DefinedIn inventories i m s) (ht : DefinedIn inventories j n t)
    (hkeys : messageKey i.bus m = messageKey j.bus n) (hsame : mechanics s = mechanics t) :
    signature s = signature t := by
  have hcompatible : CompatibleBy signature inventories :=
    (composeBy_ok_iff signature_spanFree hsources hsources.bitsSeen_signature).mp ⟨c, h⟩
  have hm : m ∈ fragmentsOf inventories (messageKey i.bus m) :=
    mem_fragmentsOf.mpr (mem_keyedMessages.mpr ⟨i, hs.inventory, hs.message, rfl⟩)
  have hn : n ∈ fragmentsOf inventories (messageKey i.bus m) :=
    mem_fragmentsOf.mpr (mem_keyedMessages.mpr ⟨j, ht.inventory, ht.message, hkeys.symm⟩)
  refine ((hcompatible _ m hm n hn).2 s hs.signal t ht.signal).resolve_right ?_
  exact not_apart_of_mechanics (hsources.signals hs) hsame

/-- Compatible sources whose tables leave one order compose. -/
theorem compose_of_oneOrder (horder : OneOrder inventories) (hcompatible : Compatible inventories) :
    ∃ c, compose inventories = .ok c := by
  rw [compose_eq_composeBy_mechanics hsources horder]
  exact (composeBy_ok_iff mechanics_spanFree hsources (bitsSeen_mechanics inventories)).mpr
    hcompatible

theorem compatible_of_compose {c : Composition} (h : compose inventories = .ok c) :
    Compatible inventories :=
  ((composeBy_ok_iff signature_spanFree hsources hsources.bitsSeen_signature).mp
    ⟨c, h⟩).compatible hsources

/-- The order of the inputs does not matter where compatible tables leave one order. -/
theorem compose_rearranged (hcondition : Compatible inventories → OneOrder inventories)
    (h : Rearranged inventories inventories') :
    Related SameComposition (compose inventories) (compose inventories') := by
  have hsources' := hsources.rearranged h
  by_cases hcompatible : Compatible inventories
  · have horder := hcondition hcompatible
    rw [compose_eq_composeBy_mechanics hsources horder,
      compose_eq_composeBy_mechanics hsources' (horder.rearranged h)]
    exact composeBy_rearranged mechanics_orderFree hsources.ids h
  · -- a contradiction is one in every order
    have hcompatible' : ¬ Compatible inventories' := fun h' => hcompatible
      (h'.rearranged mechanics_orderFree (h.symm fun _ _ => SourceInventory.Rearranged.symm))
    cases hcompose : compose inventories with
    | ok c => exact absurd (compatible_of_compose hsources hcompose) hcompatible
    | error e =>
      cases hcompose' : compose inventories' with
      | ok c => exact absurd (compatible_of_compose hsources' hcompose') hcompatible'
      | error e' => exact .error e e'

end

/-! ### A table in another order -/

def Signal.turned (s : Signal) : Signal := { s with valueTable := s.valueTable.reverse }

theorem Signal.rearranged_turned (s : Signal) : s.Rearranged s.turned :=
  ⟨_, (List.reverse_perm _).symm, rfl⟩

/-- A message with the table of one field turned around. -/
def Message.turned (fieldId : String) (m : Message Signal) : Message Signal :=
  { m with signals := m.signals.map fun s => if s.fieldId = fieldId then s.turned else s }

/-- A source with the table of one field of one message turned around. -/
def SourceInventory.turned (messageId fieldId : String) (i : SourceInventory) : SourceInventory :=
  { i with messages := i.messages.map fun m =>
      if m.messageId = messageId then m.turned fieldId else m }

theorem Message.rearranged_turned (fieldId : String) (m : Message Signal) :
    m.Rearranged (m.turned fieldId) := by
  refine ⟨.of_forall₂ ?_, rfl⟩
  rw [Message.turned, List.forall₂_map_right_iff, List.forall₂_same]
  intro s _
  split
  · exact s.rearranged_turned
  · exact .refl s

theorem Message.Rearranged.refl (m : Message Signal) : m.Rearranged m :=
  ⟨.refl Signal.Rearranged.refl _, rfl⟩

theorem rearranged_turned (messageId fieldId : String) (inventories : List SourceInventory) :
    Rearranged inventories (inventories.map (SourceInventory.turned messageId fieldId)) := by
  refine .of_forall₂ ?_
  rw [List.forall₂_map_right_iff, List.forall₂_same]
  intro i _
  refine ⟨.of_forall₂ ?_, rfl⟩
  rw [SourceInventory.turned, List.forall₂_map_right_iff, List.forall₂_same]
  intro m _
  split
  · exact m.rearranged_turned fieldId
  · exact .refl m

section

variable {i : SourceInventory} {m : Message Signal} {s : Signal}

/-- The turned field is defined among the turned sources. -/
theorem DefinedIn.turned (hs : DefinedIn inventories i m s) :
    DefinedIn (inventories.map (SourceInventory.turned m.messageId s.fieldId))
      (i.turned m.messageId s.fieldId) (m.turned s.fieldId) s.turned := by
  constructor
  case inventory => exact List.mem_map_of_mem hs.inventory
  case message => exact List.mem_map.mpr ⟨m, hs.message, if_pos rfl⟩
  case signal => exact List.mem_map.mpr ⟨s, hs.signal, if_pos rfl⟩

/-- Every other field is defined among the turned sources as it was. -/
theorem DefinedIn.turned_of_ne (hs : DefinedIn inventories i m s) {messageId fieldId : String}
    (hne : (messageId, fieldId) ≠ (m.messageId, s.fieldId)) :
    ∃ n, DefinedIn (inventories.map (SourceInventory.turned messageId fieldId))
      (i.turned messageId fieldId) n s ∧ messageKey i.bus n = messageKey i.bus m := by
  have hi := List.mem_map_of_mem (f := SourceInventory.turned messageId fieldId) hs.inventory
  by_cases hm : m.messageId = messageId
  · refine ⟨m.turned fieldId, ⟨hi, ?_, ?_⟩, rfl⟩
    · exact List.mem_map.mpr ⟨m, hs.message, if_pos hm⟩
    · refine List.mem_map.mpr ⟨s, hs.signal, if_neg fun hfield => hne ?_⟩
      rw [hm, hfield]
  · exact ⟨m, ⟨hi, List.mem_map.mpr ⟨m, hs.message, if_neg hm⟩, hs.signal⟩, rfl⟩

end

/-- A list without repetition that reads the same backwards is short. -/
theorem length_le_one_of_reverse {T : Type} {l : List T} (hnodup : l.Nodup) (h : l.reverse = l) :
    l.length ≤ 1 := by
  by_contra hlong
  rw [Nat.not_le] at hlong
  have hends : l[0] = l[l.length - 1] := by
    have := List.getElem_reverse (l := l) (i := 0) (by simp; omega)
    simpa [h] using this
  have := (hnodup.getElem_inj_iff).mp hends
  omega

/-- Turning a table around changes the signature, unless the table is short. -/
theorem valueTable_length_le_one {sourceId : String} (hs : s.Parsed sourceId)
    (h : signature s.turned = signature s) : s.valueTable.length ≤ 1 := by
  have htable : (s.valueTable.reverse.map entry) = s.valueTable.map entry :=
    congrArg Signature.valueTable h
  have hraws : (s.valueTable.map raw).reverse = s.valueTable.map raw := by
    have := congrArg (List.map Prod.fst) htable
    rw [List.map_map, List.map_map, List.map_reverse] at this
    exact this
  have := length_le_one_of_reverse hs.raws hraws
  rwa [List.length_map] at this

/-- Where the law holds, compatible tables leave one order: otherwise one of two definitions
could be turned around, and would no longer compose with the other. -/
theorem ComposesBySet.oneOrder (hsources : ParsedSources inventories)
    (hlaw : ComposesBySet inventories) (hcompatible : Compatible inventories) :
    OneOrder inventories := by
  intro i m s j n t hs ht hkeys hsame hids
  obtain ⟨c, hcompose⟩ := hlaw.composes hcompatible
  have hsignature := signature_eq_of_compose hsources hcompose hs ht hkeys hsame
  have hturned := rearranged_turned m.messageId s.fieldId inventories
  -- the turned sources compose too
  obtain ⟨c', hcompose'⟩ : ∃ c', compose
      (inventories.map (SourceInventory.turned m.messageId s.fieldId)) = .ok c' := by
    have hrelated := hlaw.order _ hturned
    rw [hcompose] at hrelated
    cases hcompose' : compose
        (inventories.map (SourceInventory.turned m.messageId s.fieldId)) with
    | ok c' => exact ⟨c', rfl⟩
    | error e =>
      rw [hcompose'] at hrelated
      cases hrelated
  obtain ⟨n', ht', hkey'⟩ := ht.turned_of_ne hids
  have hsignature' : signature s.turned = signature t := by
    refine signature_eq_of_compose (hsources.rearranged hturned) hcompose' hs.turned ht' ?_ ?_
    · exact hkeys.trans hkey'.symm
    · rw [← mechanics_orderFree _ _ s.rearranged_turned, hsame]
  exact valueTable_length_le_one (hsources.signals hs) (hsignature'.trans hsignature.symm)

/-- **The composition law holds** exactly when compatible sources leave one order to the tables of
definitions with equal mechanics. -/
theorem composesBySet_iff (hsources : ParsedSources inventories) :
    ComposesBySet inventories ↔ (Compatible inventories → OneOrder inventories) := by
  refine ⟨fun hlaw => hlaw.oneOrder hsources, fun hcondition => ?_⟩
  constructor
  case order => exact fun inventories' => compose_rearranged hsources hcondition
  case composes =>
    intro hcompatible
    exact compose_of_oneOrder hsources (hcondition hcompatible) hcompatible
  case deduplicates =>
    intro c hcompose i m s j n t hs ht hkeys hsame
    exact composeBy_deduplicates signature_spanFree hsources hcompose hs ht hkeys
      (signature_eq_of_compose hsources hcompose hs ht hkeys hsame)
  case disjoint => exact fun c => composeBy_disjoint signature_spanFree hsources
  case aliased =>
    intro c hcompose i m s hs
    obtain ⟨-, -, -, -, ⟨a, ha, -, hdescribes⟩, -⟩ :=
      composeBy_deduplicates signature_spanFree hsources hcompose hs hs rfl rfl
    exact ⟨a, ha, hdescribes⟩
  case second =>
    intro c hcompose bus hbus
    exact composeProfile_document signature_spanFree hsources hcompose hbus

/-! ### Two sources of one field -/

/-- A source that defines the gear field with a given table. -/
def gearSource (sourceId : String) (table : List ValueLabel) : SourceInventory where
  sourceId := sourceId
  bus := "body"
  messages :=
    [{ messageId := "m" ++ sourceId
       rawId := 256
       wireId := 256
       identifierFormat := .standard
       name := "TRANSMISSION"
       length := 8
       signals :=
        [{ fieldId := "f" ++ sourceId
           name := "GEAR"
           start := 0
           length := 4
           byteOrder := .intel
           signed := false
           scale := 1
           offset := 0
           minimum := 0
           maximum := 15
           unit := ""
           occupiedBits := occupiedBits 0 4 .intel
           valueTable := table
           spans := [⟨sourceId, 2, 1, 2, 9⟩] }]
       spans := [⟨sourceId, 1, 1, 1, 9⟩] }]

/-- Two sources with the same labels in different orders. -/
def contraryTables : List SourceInventory :=
  [gearSource "a" [⟨0, "P", []⟩, ⟨1, "R", []⟩], gearSource "b" [⟨1, "R", []⟩, ⟨0, "P", []⟩]]

theorem parsedSources_gearSource {table table' : List ValueLabel}
    (h : (table.map raw).Nodup) (h' : (table'.map raw).Nodup) :
    ParsedSources [gearSource "a" table, gearSource "b" table'] := by
  have hcases : ∀ {i m s}, DefinedIn [gearSource "a" table, gearSource "b" table'] i m s →
      (i.sourceId = "a" ∧ s.fieldId = "fa" ∧ s.name = "GEAR" ∧ s.Parsed "a") ∨
      (i.sourceId = "b" ∧ s.fieldId = "fb" ∧ s.name = "GEAR" ∧ s.Parsed "b") := by
    rintro i m s ⟨hi, hm, hs⟩
    rcases List.mem_cons.mp hi with rfl | hi
    · rw [List.mem_singleton.mp hm] at hs
      rw [List.mem_singleton.mp hs]
      exact .inl ⟨rfl, rfl, rfl, ⟨Nat.succ_pos 3, rfl, h, by simp, by simp⟩⟩
    · rw [List.mem_singleton.mp hi] at hm ⊢
      rw [List.mem_singleton.mp hm] at hs
      rw [List.mem_singleton.mp hs]
      exact .inr ⟨rfl, rfl, rfl, ⟨Nat.succ_pos 3, rfl, h', by simp, by simp⟩⟩
  constructor
  case ids =>
    refine ⟨(by decide : ["ma", "mb"].Nodup), fun keyed hmem => ?_⟩
    rcases List.mem_cons.mp hmem with rfl | hmem
    · exact List.nodup_singleton _
    · rw [List.mem_singleton.mp hmem]
      exact List.nodup_singleton _
  case fieldIds =>
    intro i m s j n t hs ht hid
    rcases hcases hs with ⟨hi, hf, hname, -⟩ | ⟨hi, hf, hname, -⟩ <;>
    rcases hcases ht with ⟨hj, hg, hname', -⟩ | ⟨hj, hg, hname', -⟩
    · exact ⟨hi.trans hj.symm, hname.trans hname'.symm⟩
    · rw [hf, hg] at hid
      exact absurd hid (by decide)
    · rw [hf, hg] at hid
      exact absurd hid (by decide)
    · exact ⟨hi.trans hj.symm, hname.trans hname'.symm⟩
  case signals =>
    intro i m s hs
    rcases hcases hs with ⟨hi, -, -, hparsed⟩ | ⟨hi, -, -, hparsed⟩
    · rwa [hi]
    · rwa [hi]

/-- Two sources with the same two labels in one order. -/
def agreeingTables : List SourceInventory :=
  [gearSource "a" [⟨0, "P", []⟩, ⟨1, "R", []⟩], gearSource "b" [⟨0, "P", []⟩, ⟨1, "R", []⟩]]

/-- The law on the two sources with one order. -/
theorem composesBySet_iff_gearSource :
    ParsedSources agreeingTables ∧
      (ComposesBySet agreeingTables ↔ (Compatible agreeingTables → OneOrder agreeingTables)) :=
  have parsed : ParsedSources agreeingTables := parsedSources_gearSource (by decide) (by decide)
  ⟨parsed, composesBySet_iff parsed⟩

/-- Two sources that agree on every label do not compose when their tables stand in different
orders, and compose when they stand in one. -/
theorem contraryTables_not_composesBySet :
    ParsedSources contraryTables ∧ ¬ ComposesBySet contraryTables := by
  refine ⟨parsedSources_gearSource (by decide) (by decide), fun hlaw => ?_⟩
  have hok := (hlaw.order _ (rearranged_turned "mb" "fb" contraryTables)).isOk_eq
  revert hok
  decide

end AccessoryController.VehicleProfiles
