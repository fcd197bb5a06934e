import AccessoryController.VehicleProfiles.ComposeOrder

/-!
# When a composition succeeds

A composition succeeds exactly when no two definitions of one wire identity contradict each other:
payload lengths agree, and any two fields either have equal signatures or are apart. The fields of
a composed message then touch nowhere, and every definition has an alias.

## Main definitions

* `ParsedSources`: what the parser promises about its inventories
* `CompatibleBy`: no two definitions contradict each other

## Main results

* `composeFieldsBy_ok_iff`, `composeBy_ok_iff`: when a composition succeeds
* `composeBy_disjoint`, `composeBy_deduplicates`: what a successful composition says
* `composeProfile_document`: the second composition leaves it as it is
-/

namespace AccessoryController.VehicleProfiles

open Grouping Outcome

/-! ### Parsed sources -/

/-- What the parser promises about a field of a source. -/
structure Signal.Parsed (signal : Signal) (sourceId : String) : Prop where
  length_pos : 0 < signal.length
  bits : signal.occupiedBits =
    VehicleProfiles.occupiedBits signal.start signal.length signal.byteOrder
  raws : (signal.valueTable.map ValueLabel.raw).Nodup
  spans_ne : signal.spans ≠ []
  spans_source : ∀ span ∈ signal.spans, span.sourceId = sourceId

/-- A definition of a field in a source. -/
structure DefinedIn (inventories : List SourceInventory) (i : SourceInventory)
    (m : Message Signal) (s : Signal) : Prop where
  inventory : i ∈ inventories
  message : m ∈ i.messages
  signal : s ∈ m.signals

/-- What the parser promises about its inventories: identifiers of messages and of the fields of
one message are distinct, and a field identifier stands for one source and one name. -/
structure ParsedSources (inventories : List SourceInventory) : Prop where
  ids : DistinctIds inventories
  fieldIds : ∀ {i m s j n t}, DefinedIn inventories i m s → DefinedIn inventories j n t →
    s.fieldId = t.fieldId → i.sourceId = j.sourceId ∧ s.name = t.name
  signals : ∀ {i m s}, DefinedIn inventories i m s → s.Parsed i.sourceId

/-! ### Fields -/

theorem Signal.overlaps_comm (s t : Signal) : s.overlaps t = t.overlaps s := by
  rw [Bool.eq_iff_iff]
  simp only [Signal.overlaps, List.any_eq_true, decide_eq_true_eq]
  constructor <;>
  · rintro ⟨bit, hs, ht⟩
    exact ⟨bit, ht, hs⟩

variable {s : Signal} {m : Message Signal} {key : MessageKey}

theorem Signal.Apart.symm {t : Signal} (h : s.Apart t) : t.Apart s :=
  ⟨by rw [Signal.overlaps_comm, h.1], h.2.symm⟩

theorem GroupsApart.symm {c d : Class Signal} (h : GroupsApart c d) : GroupsApart d c :=
  fun first hfirst second hsecond => (h second hsecond first hfirst).symm

/-- Fields are apart by their bits and their names. -/
theorem Signal.Apart.congr {t s' t' : Signal} (h : s.Apart t)
    (hs : ∀ bit, bit ∈ s'.occupiedBits → bit ∈ s.occupiedBits) (hname : s'.name = s.name)
    (ht : ∀ bit, bit ∈ t'.occupiedBits → bit ∈ t.occupiedBits) (hname' : t'.name = t.name) :
    s'.Apart t' := by
  refine ⟨?_, by rw [hname, hname']; exact h.2⟩
  rw [Bool.eq_false_iff]
  intro hoverlap
  obtain ⟨bit, hbit, hbit'⟩ := List.any_eq_true.mp hoverlap
  refine Bool.eq_false_iff.mp h.1 (List.any_eq_true.mpr ⟨bit, hs bit hbit, ?_⟩)
  simpa using ht bit (by simpa using hbit')

section

variable {S : Type} [DecidableEq S] {signature : Signal → S} {signals : List Signal}

/-- The signature does not see the places of a definition. -/
def SpanFree (signature : Signal → S) : Prop :=
  ∀ (s : Signal) spans, signature { s with spans := spans } = signature s

omit [DecidableEq S] in
theorem SpanFree.mergedSignal (h : SpanFree signature) (found : Class Signal) :
    signature (mergedSignal found) = signature found.first := h found.first _

/-- The fields of a message, one for each identifier. -/
def mergedSignals (signals : List Signal) : List Signal :=
  (sortOn (fun found => found.first.fieldId) (classes Signal.fieldId signals)).map mergedSignal

theorem composeFieldsBy_eq_ok {fields : List ComposedSignal} {aliases : List Alias} :
    composeFieldsBy signature signals = .ok (fields, aliases) ↔
      (∀ found ∈ classes Signal.fieldId signals, ∀ other ∈ found.later,
        signature other = signature found.first) ∧
      (fieldGroups signature (mergedSignals signals)).Pairwise GroupsApart ∧
      fields = (fieldGroups signature (mergedSignals signals)).map composedSignal ∧
      aliases = (fieldGroups signature (mergedSignals signals)).flatMap fieldAliases := by
  have hmerge : ∀ {merged : List Signal},
      (sortOn (fun found => found.first.fieldId) (classes Signal.fieldId signals)).mapM
        (mergeOccurrences signature) = .ok merged ↔
      (∀ found ∈ classes Signal.fieldId signals, ∀ other ∈ found.later,
        signature other = signature found.first) ∧ merged = mergedSignals signals := by
    intro merged
    constructor
    · intro h
      have hforall := mapM_eq_ok.mp h
      constructor
      · intro found hfound
        obtain ⟨s, -, hs⟩ := forall₂_exists_right hforall (mem_sortOn.mpr hfound)
        exact (mergeOccurrences_eq_ok.mp hs).1
      · have hmap : (sortOn (fun found => found.first.fieldId)
            (classes Signal.fieldId signals)).map mergedSignal = merged.map id :=
          forall₂_map_eq (fun _ _ hs => (mergeOccurrences_eq_ok.mp hs).2.symm) hforall
        rw [List.map_id] at hmap
        exact hmap.symm
    · rintro ⟨hagree, rfl⟩
      refine mapM_eq_ok_map fun found hfound => ?_
      exact mergeOccurrences_of_agree (hagree found (mem_sortOn.mp hfound))
  unfold composeFieldsBy
  rw [bind_eq_ok]
  constructor
  · rintro ⟨merged, hmerged, hrest⟩
    obtain ⟨hagree, rfl⟩ := hmerge.mp hmerged
    split at hrest
    · cases hrest
    · rename_i hconflict
      obtain ⟨rfl, rfl⟩ := Prod.mk.inj (Except.ok.inj hrest)
      exact ⟨hagree, (firstConflict_eq_none.mp hconflict).2, rfl, rfl⟩
  · rintro ⟨hagree, hpairs, rfl, rfl⟩
    refine ⟨mergedSignals signals, hmerge.mpr ⟨hagree, rfl⟩, ?_⟩
    have hconflict : firstConflict [] (fieldGroups signature (mergedSignals signals)) = none :=
      firstConflict_eq_none.mpr ⟨fun e he => absurd he List.not_mem_nil, hpairs⟩
    rw [hconflict]
    rfl

/-- The occurrences behind a merged field. -/
theorem mem_mergedSignals {x : Signal} :
    x ∈ mergedSignals signals ↔ ∃ found ∈ classes Signal.fieldId signals, x = mergedSignal found := by
  simp only [mergedSignals, List.mem_map, mem_sortOn]
  constructor
  · rintro ⟨found, hfound, rfl⟩
    exact ⟨found, hfound, rfl⟩
  · rintro ⟨found, hfound, rfl⟩
    exact ⟨found, hfound, rfl⟩

variable (signature) in
/-- Every field is merged into one that has its identifier, and that lies in a group. -/
theorem exists_group (hs : s ∈ signals) :
    ∃ found ∈ classes Signal.fieldId signals, s ∈ found.items ∧
      ∃ group ∈ fieldGroups signature (mergedSignals signals), mergedSignal found ∈ group.items := by
  obtain ⟨found, hfound, hmem⟩ := exists_mem_classes Signal.fieldId hs
  have hmerged : mergedSignal found ∈ mergedSignals signals :=
    mem_mergedSignals.mpr ⟨found, hfound, rfl⟩
  obtain ⟨group, hgroup, hx⟩ := exists_mem_classes signature hmerged
  exact ⟨found, hfound, hmem, group, mem_sortOn.mpr hgroup, hx⟩

/-- **Fields compose** exactly when any two have equal signatures or are apart. -/
theorem composeFieldsBy_ok_iff (hspan : SpanFree signature)
    (hnames : ∀ s ∈ signals, ∀ t ∈ signals, s.fieldId = t.fieldId → s.name = t.name)
    (hbits : ∀ s ∈ signals, ∀ t ∈ signals, signature s = signature t →
      ∀ bit, bit ∈ s.occupiedBits → bit ∈ t.occupiedBits) :
    (∃ c, composeFieldsBy signature signals = .ok c) ↔
      ∀ s ∈ signals, ∀ t ∈ signals, signature s = signature t ∨ s.Apart t := by
  have hmerged := hspan.mergedSignal
  constructor
  · rintro ⟨⟨fields, aliases⟩, h⟩ s hs t ht
    obtain ⟨hagree, hpairs, -, -⟩ := composeFieldsBy_eq_ok.mp h
    obtain ⟨c, hc, hsc, g, hg, hcg⟩ := exists_group signature hs
    obtain ⟨d, hd, htd, k, hk, hdk⟩ := exists_group signature ht
    have hsig : ∀ {found x}, found ∈ classes Signal.fieldId signals → x ∈ found.items →
        signature x = signature found.first := by
      intro found x hfound hx
      rcases List.mem_cons.mp hx with rfl | hx
      · rfl
      · exact hagree found hfound x hx
    have hfirst : ∀ {found}, found ∈ classes Signal.fieldId signals → found.first ∈ signals :=
      fun hfound => (mem_of_mem_classes hfound List.mem_cons_self).1
    have hname : ∀ {found x}, found ∈ classes Signal.fieldId signals → x ∈ found.items →
        x ∈ signals → x.name = found.first.name := fun hfound hx hxs =>
      hnames _ hxs _ (hfirst hfound) (mem_of_mem_classes hfound hx).2
    by_cases hgk : g = k
    · left
      subst hgk
      have hc' := (mem_of_mem_classes (mem_sortOn.mp hg) hcg).2
      have hd' := (mem_of_mem_classes (mem_sortOn.mp hg) hdk).2
      rw [hsig hc hsc, hsig hd htd, ← hmerged c, ← hmerged d, hc', hd']
    · right
      have symmetric : Std.Symm GroupsApart := ⟨fun _ _ => GroupsApart.symm⟩
      have hapart := hpairs.forall hg hk hgk _ hcg _ hdk
      have hsub : ∀ {found x}, found ∈ classes Signal.fieldId signals → x ∈ found.items →
          x ∈ signals → ∀ bit, bit ∈ x.occupiedBits → bit ∈ (mergedSignal found).occupiedBits :=
        fun {found x} hfound hx hxs bit hbit =>
          hbits x hxs found.first (hfirst hfound) (hsig hfound hx) bit hbit
      exact hapart.congr (hsub hc hsc hs) (hname hc hsc hs) (hsub hd htd ht) (hname hd htd ht)
  · intro h
    refine ⟨_, composeFieldsBy_eq_ok.mpr ⟨?_, ?_, rfl, rfl⟩⟩
    · intro found hfound other hother
      obtain ⟨hmem, hid⟩ := mem_of_mem_classes hfound (List.mem_cons_of_mem _ hother)
      have hfirst := (mem_of_mem_classes hfound List.mem_cons_self).1
      exact (h other hmem _ hfirst).resolve_right
        fun hapart => hapart.2 (hnames other hmem _ hfirst hid)
    · have hclasses := pairwise_classes signature (mergedSignals signals)
      have symmetric : ∀ {c d : Class Signal}, signature c.first ≠ signature d.first →
          signature d.first ≠ signature c.first := Ne.symm
      have hsorted := ((perm_sortOn (fun group => group.first.fieldId)
        (classes signature (mergedSignals signals))).pairwise_iff symmetric).mpr hclasses
      refine hsorted.imp_of_mem fun {c d} hc hd hne first hfirst second hsecond => ?_
      obtain ⟨hfirst, hsame⟩ := mem_of_mem_classes (mem_sortOn.mp hc) hfirst
      obtain ⟨hsecond, hsame'⟩ := mem_of_mem_classes (mem_sortOn.mp hd) hsecond
      obtain ⟨found, hfound, rfl⟩ := mem_mergedSignals.mp hfirst
      obtain ⟨found', hfound', rfl⟩ := mem_mergedSignals.mp hsecond
      rw [← hsame, ← hsame', hmerged, hmerged] at hne
      exact (h _ (mem_of_mem_classes hfound List.mem_cons_self).1 _
        (mem_of_mem_classes hfound' List.mem_cons_self).1).resolve_left hne

/-! ### What a composition of fields says -/

/-- What identifiers of fields stand for: equal ones have one name and one source. -/
structure SoundIds (signals : List Signal) : Prop where
  names : ∀ s ∈ signals, ∀ t ∈ signals, s.fieldId = t.fieldId → s.name = t.name
  sources : ∀ s ∈ signals, ∀ t ∈ signals, s.fieldId = t.fieldId →
    ∀ span ∈ t.spans, span.sourceId = s.source
  spans : ∀ s ∈ signals, s.spans ≠ []

/-- An alias of a field: it has its name, its source and its places. -/
structure Alias.Describes (a : Alias) (s : Signal) : Prop where
  kind : a.kind = .field
  originalId : a.originalId = s.fieldId
  name : a.name = s.name
  sourceId : a.sourceId = s.source
  spans : ∀ span ∈ s.spans, span ∈ a.spans

/-- What composed fields say about the fields that they are composed of. -/
structure FieldsComposed (signature : Signal → S) (signals : List Signal)
    (fields : List ComposedSignal) (aliases : List Alias) : Prop where
  sorted : fields.Pairwise fun f g => f.fieldId ≤ g.fieldId
  distinct : fields.Pairwise fun f g => signature f.toSignal ≠ signature g.toSignal
  disjoint : fields.Pairwise fun f g => f.toSignal.overlaps g.toSignal = false
  members : ∀ f ∈ fields, ∃ s ∈ signals, f.occupiedBits = s.occupiedBits ∧ f.start = s.start ∧
    f.length = s.length ∧ f.byteOrder = s.byteOrder
  represented : ∀ s ∈ signals, ∃ f ∈ fields, signature f.toSignal = signature s ∧
    ∃ a ∈ aliases, a.representative = f.fieldId ∧ a.Describes s

theorem firstSpan_mem {spans : List Span} (h : spans ≠ []) : firstSpan spans ∈ spans := by
  cases spans with
  | nil => exact absurd rfl h
  | cons span spans => exact List.mem_cons_self

/-- The merged field of an identifier has the source of every occurrence. -/
theorem SoundIds.mergedSignal_source (hids : SoundIds signals) {found : Class Signal}
    (hfound : found ∈ classes Signal.fieldId signals) (hs : s ∈ found.items) :
    (mergedSignal found).source = s.source := by
  obtain ⟨hmem, hid⟩ := mem_of_mem_classes hfound hs
  have hmergedSpan : ∀ t ∈ found.items, ∀ span ∈ t.spans, span ∈ (mergedSignal found).spans :=
    fun t ht span hspan => mem_sortedSet.mpr (List.mem_flatMap.mpr ⟨t, ht, hspan⟩)
  have hne : (mergedSignal found).spans ≠ [] := by
    obtain ⟨span, hspan⟩ := List.exists_mem_of_ne_nil _ (hids.spans s hmem)
    exact List.ne_nil_of_mem (hmergedSpan s hs span hspan)
  obtain ⟨t, ht, hspan⟩ := List.mem_flatMap.mp (mem_sortedSet.mp (firstSpan_mem hne))
  obtain ⟨hmem', hid'⟩ := mem_of_mem_classes hfound ht
  exact hids.sources s hmem t hmem' (hid.trans hid'.symm) _ hspan

theorem composeFieldsBy_result (hspan : SpanFree signature) (hids : SoundIds signals)
    {fields : List ComposedSignal} {aliases : List Alias}
    (h : composeFieldsBy signature signals = .ok (fields, aliases)) :
    FieldsComposed signature signals fields aliases := by
  obtain ⟨hagree, hpairs, rfl, rfl⟩ := composeFieldsBy_eq_ok.mp h
  have hcomposed : ∀ group, signature (composedSignal group).toSignal = signature group.first :=
    fun group => hspan group.first _
  constructor
  case sorted => exact List.pairwise_map.mpr (pairwise_sortOn _ _)
  case distinct =>
    have symmetric : ∀ {c d : Class Signal}, signature c.first ≠ signature d.first →
        signature d.first ≠ signature c.first := Ne.symm
    refine List.pairwise_map.mpr (List.Pairwise.imp ?_ (((perm_sortOn _ _).pairwise_iff
      symmetric).mpr (pairwise_classes signature (mergedSignals signals))))
    intro c d hne
    rw [hcomposed, hcomposed]
    exact hne
  case disjoint =>
    refine List.pairwise_map.mpr (hpairs.imp fun {c d} hapart => ?_)
    exact (hapart _ List.mem_cons_self _ List.mem_cons_self).1
  case members =>
    intro f hf
    obtain ⟨group, hgroup, rfl⟩ := List.mem_map.mp hf
    have hfirst := (mem_of_mem_classes (mem_sortOn.mp hgroup) List.mem_cons_self).1
    obtain ⟨found, hfound, hmerged⟩ := mem_mergedSignals.mp hfirst
    refine ⟨found.first, (mem_of_mem_classes hfound List.mem_cons_self).1, ?_⟩
    simp only [composedSignal, hmerged, mergedSignal, and_self]
  case represented =>
    intro s hs
    obtain ⟨found, hfound, hsfound, group, hgroup, hmerged⟩ := exists_group signature hs
    have hsignature : signature s = signature found.first := by
      rcases List.mem_cons.mp hsfound with rfl | hlater
      · rfl
      · exact hagree found hfound s hlater
    have hgroupSignature := (mem_of_mem_classes (mem_sortOn.mp hgroup) hmerged).2
    refine ⟨composedSignal group, List.mem_map_of_mem hgroup, ?_, _,
      List.mem_flatMap.mpr ⟨group, hgroup, List.mem_map_of_mem hmerged⟩, rfl, ?_⟩
    · rw [hcomposed, ← hgroupSignature, hsignature, hspan.mergedSignal]
    · obtain ⟨hmem, hid⟩ := mem_of_mem_classes hfound hsfound
      have hfirst := (mem_of_mem_classes hfound List.mem_cons_self).1
      constructor
      · rfl
      · exact hid.symm
      · exact hids.names found.first hfirst s hmem hid.symm
      · exact hids.mergedSignal_source hfound hsfound
      · intro span hspan
        exact mem_sortedSet.mpr (List.mem_flatMap.mpr ⟨s, hsfound, hspan⟩)

/-! ### Messages and sources -/

theorem composeFragmentsBy_eq_ok {representative : Message Signal} {others : List (Message Signal)}
    {composition : Composition} :
    composeFragmentsBy signature (representative :: others) = .ok composition ↔
      (∀ other ∈ others, other.length = representative.length) ∧ ∃ fields aliases,
        composeFieldsBy signature ((representative :: others).flatMap Message.signals) =
          .ok (fields, aliases) ∧
        composition = ([composedMessage representative (representative :: others) fields],
          messageAliases representative (representative :: others) ++ aliases) := by
  constructor
  · intro h
    have hlengths := composeFragmentsBy_lengths h
    rw [composeFragmentsBy_cons hlengths, bind_eq_ok] at h
    obtain ⟨⟨fields, aliases⟩, hfields, hcomposition⟩ := h
    exact ⟨hlengths, fields, aliases, hfields, (Except.ok.inj hcomposition).symm⟩
  · rintro ⟨hlengths, fields, aliases, hfields, rfl⟩
    rw [composeFragmentsBy_cons hlengths, hfields]
    rfl

/-- The messages of all sources with their keys. -/
def keyedMessages (inventories : List SourceInventory) : List (MessageKey × Message Signal) :=
  inventories.flatMap SourceInventory.keyed

/-- The keys of a composition, in order. -/
def keysOf (inventories : List SourceInventory) : List MessageKey :=
  sortedSet ((keyedMessages inventories).map Prod.fst)

/-- The fragments of a key, sorted by their identifiers. -/
def fragmentsOf (inventories : List SourceInventory) (key : MessageKey) : List (Message Signal) :=
  sortOn Message.messageId
    (((keyedMessages inventories).filter fun keyed => keyed.1 = key).map Prod.snd)

/-- The fields of a key. -/
def fieldsOf (inventories : List SourceInventory) (key : MessageKey) : List Signal :=
  (fragmentsOf inventories key).flatMap Message.signals

variable {inventories : List SourceInventory}

theorem mem_keyedMessages :
    (key, m) ∈ keyedMessages inventories ↔
      ∃ i ∈ inventories, m ∈ i.messages ∧ messageKey i.bus m = key := by
  simp only [keyedMessages, SourceInventory.keyed, List.mem_flatMap, List.mem_map]
  constructor
  · rintro ⟨i, hi, n, hn, hkeyed⟩
    obtain ⟨hkey, rfl⟩ := Prod.mk.inj hkeyed
    exact ⟨i, hi, hn, hkey⟩
  · rintro ⟨i, hi, hm, rfl⟩
    exact ⟨i, hi, m, hm, rfl⟩

theorem mem_fragmentsOf :
    m ∈ fragmentsOf inventories key ↔ (key, m) ∈ keyedMessages inventories := by
  simp only [fragmentsOf, mem_sortOn, List.mem_map, List.mem_filter, decide_eq_true_eq]
  constructor
  · rintro ⟨⟨_, n⟩, ⟨hmem, rfl⟩, rfl⟩
    exact hmem
  · intro hmem
    exact ⟨(key, m), ⟨hmem, rfl⟩, rfl⟩

theorem mem_keysOf : key ∈ keysOf inventories ↔ ∃ m, (key, m) ∈ keyedMessages inventories := by
  simp only [keysOf, mem_sortedSet, List.mem_map]
  constructor
  · rintro ⟨⟨_, m⟩, hmem, rfl⟩
    exact ⟨m, hmem⟩
  · rintro ⟨m, hmem⟩
    exact ⟨(key, m), hmem, rfl⟩

theorem fragmentsOf_ne_nil (hkey : key ∈ keysOf inventories) :
    fragmentsOf inventories key ≠ [] := by
  obtain ⟨m, hm⟩ := mem_keysOf.mp hkey
  exact List.ne_nil_of_mem (mem_fragmentsOf.mpr hm)

/-- A composition goes over its keys in order. -/
theorem composeBy_eq :
    composeBy signature inventories =
      (keysOf inventories).mapM (fun key => composeFragmentsBy signature
        (fragmentsOf inventories key)) >>= fun parts =>
          .ok (parts.flatMap Prod.fst, parts.flatMap Prod.snd) := by
  have hitems := congrArg (List.mapM fun items =>
    composeFragmentsBy signature (sortOn Message.messageId (items.map Prod.snd)))
    (items_sortOn_classes Prod.fst (keyedMessages inventories))
  rw [List.mapM_map, List.mapM_map] at hitems
  exact congrArg (· >>= fun parts => .ok (parts.flatMap Prod.fst, parts.flatMap Prod.snd)) hitems

/-- No two definitions of one key contradict each other. -/
def CompatibleBy (signature : Signal → S) (inventories : List SourceInventory) : Prop :=
  ∀ key, ∀ m ∈ fragmentsOf inventories key, ∀ n ∈ fragmentsOf inventories key,
    m.length = n.length ∧
      ∀ s ∈ m.signals, ∀ t ∈ n.signals, signature s = signature t ∨ s.Apart t

theorem mem_fieldsOf :
    s ∈ fieldsOf inventories key ↔
      ∃ i m, DefinedIn inventories i m s ∧ messageKey i.bus m = key := by
  simp only [fieldsOf, List.mem_flatMap, mem_fragmentsOf, mem_keyedMessages]
  constructor
  · rintro ⟨m, ⟨i, hi, hm, hkey⟩, hs⟩
    exact ⟨i, m, ⟨hi, hm, hs⟩, hkey⟩
  · rintro ⟨i, m, ⟨hi, hm, hs⟩, hkey⟩
    exact ⟨m, ⟨i, hi, hm, hkey⟩, hs⟩

theorem Signal.Parsed.source {sourceId : String} (h : s.Parsed sourceId) :
    s.source = sourceId := h.spans_source _ (firstSpan_mem h.spans_ne)

/-- Identifiers of parsed fields are sound. -/
theorem ParsedSources.soundIds (hsources : ParsedSources inventories) (key : MessageKey) :
    SoundIds (fieldsOf inventories key) := by
  constructor
  case names =>
    intro s hs t ht hid
    obtain ⟨i, m, hdefined, -⟩ := mem_fieldsOf.mp hs
    obtain ⟨j, n, hdefined', -⟩ := mem_fieldsOf.mp ht
    exact (hsources.fieldIds hdefined hdefined' hid).2
  case sources =>
    intro s hs t ht hid span hspan
    obtain ⟨i, m, hdefined, -⟩ := mem_fieldsOf.mp hs
    obtain ⟨j, n, hdefined', -⟩ := mem_fieldsOf.mp ht
    rw [(hsources.signals hdefined).source, (hsources.fieldIds hdefined hdefined' hid).1]
    exact (hsources.signals hdefined').spans_source span hspan
  case spans =>
    intro s hs
    obtain ⟨i, m, hdefined, -⟩ := mem_fieldsOf.mp hs
    exact (hsources.signals hdefined).spans_ne

/-- Equal signatures of parsed fields mean equal bits. -/
def BitsSeen (signature : Signal → S) (inventories : List SourceInventory) : Prop :=
  ∀ {i m s j n t}, DefinedIn inventories i m s → DefinedIn inventories j n t →
    signature s = signature t → ∀ bit, bit ∈ s.occupiedBits → bit ∈ t.occupiedBits

theorem composeFragmentsBy_ok_iff (hspan : SpanFree signature)
    (hsources : ParsedSources inventories) (hbits : BitsSeen signature inventories)
    (hkey : key ∈ keysOf inventories) :
    (∃ c, composeFragmentsBy signature (fragmentsOf inventories key) = .ok c) ↔
      ∀ m ∈ fragmentsOf inventories key, ∀ n ∈ fragmentsOf inventories key,
        m.length = n.length ∧
          ∀ s ∈ m.signals, ∀ t ∈ n.signals, signature s = signature t ∨ s.Apart t := by
  have hfields : (∃ c, composeFieldsBy signature (fieldsOf inventories key) = .ok c) ↔
      ∀ s ∈ fieldsOf inventories key, ∀ t ∈ fieldsOf inventories key,
        signature s = signature t ∨ s.Apart t := by
    refine composeFieldsBy_ok_iff hspan (hsources.soundIds key).names fun s hs t ht hsame => ?_
    obtain ⟨i, m, hdefined, -⟩ := mem_fieldsOf.mp hs
    obtain ⟨j, n, hdefined', -⟩ := mem_fieldsOf.mp ht
    exact hbits hdefined hdefined' hsame
  have hne := fragmentsOf_ne_nil hkey
  unfold fieldsOf at hfields
  generalize fragmentsOf inventories key = fragments at hfields hne ⊢
  cases fragments with
  | nil => exact absurd rfl hne
  | cons representative others =>
    constructor
    · rintro ⟨c, hc⟩ m hm n hn
      obtain ⟨hlengths, fields, aliases, hcompose, -⟩ := composeFragmentsBy_eq_ok.mp hc
      have hlength : ∀ k ∈ representative :: others, k.length = representative.length := by
        intro k hk
        rcases List.mem_cons.mp hk with rfl | hk
        · rfl
        · exact hlengths k hk
      refine ⟨(hlength m hm).trans (hlength n hn).symm, fun s hs t ht => ?_⟩
      exact hfields.mp ⟨_, hcompose⟩ s (List.mem_flatMap.mpr ⟨m, hm, hs⟩) t
        (List.mem_flatMap.mpr ⟨n, hn, ht⟩)
    · intro h
      have hpairs : ∀ s ∈ (representative :: others).flatMap Message.signals,
          ∀ t ∈ (representative :: others).flatMap Message.signals,
            signature s = signature t ∨ s.Apart t := by
        intro s hs t ht
        obtain ⟨m, hm, hs⟩ := List.mem_flatMap.mp hs
        obtain ⟨n, hn, ht⟩ := List.mem_flatMap.mp ht
        exact (h m hm n hn).2 s hs t ht
      obtain ⟨⟨fields, aliases⟩, hcompose⟩ := hfields.mpr hpairs
      refine ⟨_, composeFragmentsBy_eq_ok.mpr ⟨fun other hother => ?_, _, _, hcompose, rfl⟩⟩
      exact (h other (List.mem_cons_of_mem _ hother) _ List.mem_cons_self).1

/-- **A composition succeeds** exactly when no two definitions contradict each other. -/
theorem composeBy_ok_iff (hspan : SpanFree signature) (hsources : ParsedSources inventories)
    (hbits : BitsSeen signature inventories) :
    (∃ c, composeBy signature inventories = .ok c) ↔ CompatibleBy signature inventories := by
  have hparts : (∃ c, composeBy signature inventories = .ok c) ↔
      ∃ parts, (keysOf inventories).mapM (fun key => composeFragmentsBy signature
        (fragmentsOf inventories key)) = .ok parts := by
    rw [composeBy_eq]
    constructor
    · rintro ⟨c, hc⟩
      obtain ⟨parts, hparts, -⟩ := bind_eq_ok.mp hc
      exact ⟨parts, hparts⟩
    · rintro ⟨parts, hparts⟩
      exact ⟨_, bind_eq_ok.mpr ⟨parts, hparts, rfl⟩⟩
  rw [hparts, exists_mapM_eq_ok]
  constructor
  · intro h key m hm
    have hkey : key ∈ keysOf inventories := mem_keysOf.mpr ⟨m, mem_fragmentsOf.mp hm⟩
    exact (composeFragmentsBy_ok_iff hspan hsources hbits hkey).mp (h key hkey) m hm
  · intro h key hkey
    exact (composeFragmentsBy_ok_iff hspan hsources hbits hkey).mpr (h key)

/-! ### What a composition says -/

/-- What a composition says about one key. -/
structure ComposedPart (signature : Signal → S) (inventories : List SourceInventory)
    (key : MessageKey) (message : Message ComposedSignal) (aliases : List Alias) : Prop where
  identity : ∃ i ∈ inventories, messageKey i.bus message = key
  fields : FieldsComposed signature (fieldsOf inventories key) message.signals aliases

theorem composedPart (hspan : SpanFree signature) (hsources : ParsedSources inventories)
    (hkey : key ∈ keysOf inventories) {part : Composition}
    (h : composeFragmentsBy signature (fragmentsOf inventories key) = .ok part) :
    ∃ message aliases, part.1 = [message] ∧ (∀ a ∈ aliases, a ∈ part.2) ∧
      ComposedPart signature inventories key message aliases := by
  have hids := hsources.soundIds key
  have hkeys : ∀ m ∈ fragmentsOf inventories key, ∃ i ∈ inventories, messageKey i.bus m = key := by
    intro m hm
    obtain ⟨i, hi, -, hkey⟩ := mem_keyedMessages.mp (mem_fragmentsOf.mp hm)
    exact ⟨i, hi, hkey⟩
  have hne := fragmentsOf_ne_nil hkey
  have hfields : fieldsOf inventories key =
      (fragmentsOf inventories key).flatMap Message.signals := rfl
  generalize fragmentsOf inventories key = fragments at h hkeys hne hfields
  cases fragments with
  | nil => exact absurd rfl hne
  | cons representative others =>
    obtain ⟨-, fields, aliases, hcompose, rfl⟩ := composeFragmentsBy_eq_ok.mp h
    rw [← hfields] at hcompose
    exact ⟨_, aliases, rfl, fun a ha => List.mem_append_right _ ha,
      hkeys representative List.mem_cons_self, composeFieldsBy_result hspan hids hcompose⟩

section

variable {composition : Composition} (hspan : SpanFree signature)
  (hsources : ParsedSources inventories) (h : composeBy signature inventories = .ok composition)

include hspan hsources h

/-- A composition has one part for each key, in order. -/
theorem composeBy_parts :
    ∃ parts : List Composition, List.Forall₂ (fun key part => ∃ message aliases,
        part.1 = [message] ∧ (∀ a ∈ aliases, a ∈ part.2) ∧
          ComposedPart signature inventories key message aliases)
        (keysOf inventories) parts ∧
      composition = (parts.flatMap Prod.fst, parts.flatMap Prod.snd) := by
  rw [composeBy_eq, bind_eq_ok] at h
  obtain ⟨parts, hparts, hcomposition⟩ := h
  have hkeyed := (List.forall₂_and_left _ _).mpr ⟨fun key hkey => hkey, mapM_eq_ok.mp hparts⟩
  refine ⟨parts, hkeyed.imp fun key part hpart => ?_, (Except.ok.inj hcomposition).symm⟩
  exact composedPart hspan hsources hpart.1 hpart.2

/-- Every key has its message in a composition. -/
theorem composedPart_of_key (hkey : key ∈ keysOf inventories) :
    ∃ message ∈ composition.1, ∃ aliases, (∀ a ∈ aliases, a ∈ composition.2) ∧
      ComposedPart signature inventories key message aliases := by
  obtain ⟨parts, hparts, rfl⟩ := composeBy_parts hspan hsources h
  obtain ⟨part, hmem, message, aliases, hfirst, hsecond, hcomposed⟩ :=
    forall₂_exists_right hparts hkey
  refine ⟨message, List.mem_flatMap.mpr ⟨part, hmem, by simp [hfirst]⟩, aliases, fun a ha => ?_,
    hcomposed⟩
  exact List.mem_flatMap.mpr ⟨part, hmem, hsecond a ha⟩

/-- Every message of a composition belongs to a key. -/
theorem composedPart_of_message {message : Message ComposedSignal}
    (hmessage : message ∈ composition.1) :
    ∃ key aliases, ComposedPart signature inventories key message aliases := by
  obtain ⟨parts, hparts, rfl⟩ := composeBy_parts hspan hsources h
  obtain ⟨part, hmem, hin⟩ := List.mem_flatMap.mp hmessage
  obtain ⟨key, -, message', aliases, hfirst, -, hcomposed⟩ := forall₂_exists_left hparts hmem
  rw [hfirst, List.mem_singleton] at hin
  subst hin
  exact ⟨key, aliases, hcomposed⟩

/-- The fields of one message touch nowhere. -/
theorem composeBy_disjoint :
    ∀ message ∈ composition.1,
      message.signals.Pairwise fun s t => s.toSignal.overlaps t.toSignal = false := by
  intro message hmessage
  obtain ⟨key, aliases, hcomposed⟩ := composedPart_of_message hspan hsources h hmessage
  exact hcomposed.fields.disjoint

/-- Definitions of one key with equal signatures have one representative, which is a composed
field, and each has an alias. -/
theorem composeBy_deduplicates {i j : SourceInventory} {n : Message Signal} {t : Signal}
    (hs : DefinedIn inventories i m s) (ht : DefinedIn inventories j n t)
    (hkeys : messageKey i.bus m = messageKey j.bus n) (hsame : signature s = signature t) :
    ∃ message ∈ composition.1, ∃ f ∈ message.signals,
      (∃ a ∈ composition.2, a.representative = f.fieldId ∧ a.Describes s) ∧
      ∃ a ∈ composition.2, a.representative = f.fieldId ∧ a.Describes t := by
  have hkey : messageKey i.bus m ∈ keysOf inventories :=
    mem_keysOf.mpr ⟨m, mem_keyedMessages.mpr ⟨i, hs.inventory, hs.message, rfl⟩⟩
  obtain ⟨message, hmessage, aliases, hin, hcomposed⟩ := composedPart_of_key hspan hsources h hkey
  obtain ⟨f, hf, hfs, a, ha, harep, hadesc⟩ :=
    hcomposed.fields.represented s (mem_fieldsOf.mpr ⟨i, m, hs, rfl⟩)
  obtain ⟨g, hg, hgt, b, hb, hbrep, hbdesc⟩ :=
    hcomposed.fields.represented t (mem_fieldsOf.mpr ⟨j, n, ht, hkeys.symm⟩)
  -- two representatives with one signature are one
  have hfg : f = g := by
    by_contra hne
    have symmetric : Std.Symm fun f g : ComposedSignal =>
        signature f.toSignal ≠ signature g.toSignal := ⟨fun _ _ => Ne.symm⟩
    exact hcomposed.fields.distinct.forall hf hg hne (by rw [hfs, hgt, hsame])
  subst hfg
  exact ⟨message, hmessage, f, hf, ⟨a, hin a ha, harep, hadesc⟩, ⟨b, hin b hb, hbrep, hbdesc⟩⟩

/-- On one bus the messages stand in the order of their keys. -/
theorem composeBy_keys {bus : String} (hbus : ∀ i ∈ inventories, i.bus = bus) :
    composition.1.map (messageKey bus) = keysOf inventories := by
  obtain ⟨parts, hparts, rfl⟩ := composeBy_parts hspan hsources h
  clear h
  generalize keysOf inventories = keys at hparts
  induction hparts with
  | nil => rfl
  | cons hpart _ ih =>
    obtain ⟨message, aliases, hfirst, -, ⟨i, hi, hidentity⟩, -⟩ := hpart
    rw [hbus i hi] at hidentity
    rw [List.flatMap_cons, hfirst, List.map_append, ih, List.map_singleton, hidentity]
    rfl

/-- **The second composition** finds no conflict in a composition, and merges nothing. -/
theorem composeProfile_document {bus : String} (hbus : ∀ i ∈ inventories, i.bus = bus) :
    composeProfile (document bus composition.1) =
      .ok (document bus composition.1, identityAliases (document bus composition.1)) := by
  have hparts : ∀ message ∈ document bus composition.1, ∃ composed ∈ composition.1,
      message = profileMessage bus composed := by
    intro message hmessage
    obtain ⟨composed, hcomposed, rfl⟩ := List.mem_map.mp hmessage
    exact ⟨composed, List.mem_of_mem_filter hcomposed, rfl⟩
  apply composeProfile_of_disjoint
  · have hkeys : (composition.1.map (messageKey bus)).Pairwise (· < ·) := by
      rw [composeBy_keys hspan hsources h hbus]
      exact ((pairwise_sortedSet _).and (nodup_sortedSet _)).imp fun h => lt_of_le_of_ne h.1 h.2
    exact List.pairwise_map.mpr ((List.pairwise_map.mp hkeys).filter _)
  · intro message hmessage
    obtain ⟨composed, hcomposed, rfl⟩ := hparts message hmessage
    obtain ⟨key, aliases, hpart⟩ := composedPart_of_message hspan hsources h hcomposed
    exact List.pairwise_map.mpr hpart.fields.sorted
  · intro message hmessage
    obtain ⟨composed, hcomposed, rfl⟩ := hparts message hmessage
    obtain ⟨key, aliases, hpart⟩ := composedPart_of_message hspan hsources h hcomposed
    have hbits : ∀ f ∈ composed.signals, (profileField f).bits = f.occupiedBits := by
      intro f hf
      obtain ⟨s, hs, hoccupied, hstart, hlength, horder⟩ := hpart.fields.members f hf
      obtain ⟨i, m, hdefined, -⟩ := mem_fieldsOf.mp hs
      rw [hoccupied, (hsources.signals hdefined).bits, ← hstart, ← hlength, ← horder]
      rfl
    refine List.pairwise_map.mpr (hpart.fields.disjoint.imp_of_mem fun {f g} hf hg hdisjoint => ?_)
    rw [Signal.overlaps_comm] at hdisjoint
    rw [ProfileField.overlaps, hbits f hf, hbits g hg]
    exact hdisjoint

end

end

end AccessoryController.VehicleProfiles
