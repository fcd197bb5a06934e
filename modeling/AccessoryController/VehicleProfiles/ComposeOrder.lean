import AccessoryController.VehicleProfiles.ProfileComposition

/-!
# Composition and the order of its inputs

Sources, their messages, the fields of a message and the entries of a raw-value table may come in
any order. A composition whose signature does not see the order of the entries has one outcome for
all orders, up to the order of the entries in the representatives.

## Main definitions

* `Signal.Rearranged`, `Message.Rearranged`, `SourceInventory.Rearranged`: one input in two orders
* `SameComposition`: one composition, up to the order of the entries

## Main results

* `composeBy_rearranged`: the outcome of a composition in two orders
-/

namespace AccessoryController.VehicleProfiles

open Grouping Outcome

/-! ### Rearranged inputs -/

/-- One field with its raw-value table in two orders. -/
def Signal.Rearranged (s t : Signal) : Prop :=
  ∃ table, s.valueTable.Perm table ∧ t = { s with valueTable := table }

/-- One message with its fields in two orders. -/
def Message.Rearranged (m n : Message Signal) : Prop :=
  PermUpTo Signal.Rearranged m.signals n.signals ∧ n = { m with signals := n.signals }

/-- One source with its messages in two orders. -/
def SourceInventory.Rearranged (i j : SourceInventory) : Prop :=
  PermUpTo Message.Rearranged i.messages j.messages ∧ j = { i with messages := j.messages }

/-- One set of sources in two orders. -/
abbrev Rearranged : List SourceInventory → List SourceInventory → Prop :=
  PermUpTo SourceInventory.Rearranged

theorem Signal.Rearranged.refl (s : Signal) : s.Rearranged s := ⟨_, .refl _, rfl⟩

theorem Signal.Rearranged.symm {s t : Signal} (h : s.Rearranged t) : t.Rearranged s := by
  obtain ⟨table, hperm, rfl⟩ := h
  exact ⟨s.valueTable, hperm.symm, rfl⟩

variable {m n : Message Signal} {d c : Class Signal} {l' l : List (Message Signal)}

theorem Message.Rearranged.symm (h : m.Rearranged n) : n.Rearranged m := by
  obtain ⟨hsignals, hn⟩ := h
  refine ⟨hsignals.symm fun _ _ => Signal.Rearranged.symm, ?_⟩
  rw [hn]

theorem SourceInventory.Rearranged.symm {i j : SourceInventory} (h : i.Rearranged j) :
    j.Rearranged i := by
  obtain ⟨hmessages, hj⟩ := h
  refine ⟨hmessages.symm fun _ _ => Message.Rearranged.symm, ?_⟩
  rw [hj]

/-! ### Equal compositions -/

/-- One composed field, up to the order of its raw-value table. -/
def ComposedSignal.UpToTables (s t : ComposedSignal) : Prop :=
  ∃ table, s.valueTable.Perm table ∧ t = { s with valueTable := table }

/-- One composed message, up to the order of its raw-value tables. -/
def Message.UpToTables (m n : Message ComposedSignal) : Prop :=
  List.Forall₂ ComposedSignal.UpToTables m.signals n.signals ∧ n = { m with signals := n.signals }

/-- One composition, up to the order of its raw-value tables. -/
def SameComposition (c d : Composition) : Prop :=
  List.Forall₂ Message.UpToTables c.1 d.1 ∧ c.2 = d.2

/-! ### Fields -/

/-- Two fields that touch nowhere and have different names. -/
def Signal.Apart (first second : Signal) : Prop :=
  first.overlaps second = false ∧ first.name ≠ second.name

theorem conflict_eq_none {first second : Signal} :
    conflict first second = none ↔ first.Apart second := by
  rw [conflict, Option.map_eq_none_iff, Signal.Apart]
  unfold conflictReason
  by_cases hoverlap : first.overlaps second = true
  · rw [if_pos hoverlap, hoverlap]
    refine ⟨fun h => ?_, fun h => absurd h.1 (by simp)⟩
    split_ifs at h
    split at h <;> cases h
  · rw [if_neg hoverlap]
    rw [Bool.not_eq_true] at hoverlap
    by_cases hname : first.name = second.name <;> simp [hname, hoverlap]

/-- The members of two groups are apart. -/
def GroupsApart (earlier later : Class Signal) : Prop :=
  ∀ first ∈ earlier.items, ∀ second ∈ later.items, first.Apart second

theorem firstConflict_eq_none {earlier groups : List (Class Signal)} :
    firstConflict earlier groups = none ↔
      (∀ e ∈ earlier, ∀ g ∈ groups, GroupsApart e g) ∧ groups.Pairwise GroupsApart := by
  induction groups generalizing earlier with
  | nil => simp [firstConflict]
  | cons later rest ih =>
    have hsearch : ((earlier.flatMap Class.items).findSome? fun first =>
        later.items.findSome? fun second => conflict first second) = none ↔
        ∀ e ∈ earlier, GroupsApart e later := by
      simp only [List.findSome?_eq_none_iff, List.mem_flatMap, conflict_eq_none]
      constructor
      · intro h e he first hfirst second hsecond
        exact h first ⟨e, he, hfirst⟩ second hsecond
      · rintro h first ⟨e, he, hfirst⟩ second hsecond
        exact h e he first hfirst second hsecond
    unfold firstConflict
    split
    · rename_i error herror
      refine ⟨fun h => (by cases h), fun h => ?_⟩
      rw [hsearch.mpr fun e he => h.1 e he later List.mem_cons_self] at herror
      cases herror
    · rename_i hnone
      rw [ih, List.pairwise_cons]
      have hlater := hsearch.mp hnone
      constructor
      · rintro ⟨hearlier, hpairs⟩
        refine ⟨fun e he g hg => ?_, fun g hg => ?_, hpairs⟩
        · rcases List.mem_cons.mp hg with rfl | hg
          · exact hlater e he
          · exact hearlier e (List.mem_append_left _ he) g hg
        · exact hearlier later (List.mem_append_right _ (List.mem_singleton_self _)) g hg
      · rintro ⟨hearlier, hfirst, hpairs⟩
        refine ⟨fun e he g hg => ?_, hpairs⟩
        rcases List.mem_append.mp he with he | he
        · exact hearlier e he g (List.mem_cons_of_mem _ hg)
        · rw [List.mem_singleton.mp he]
          exact hfirst g hg

theorem Signal.Rearranged.apart {s t s' t' : Signal} (hs : s.Rearranged s') (ht : t.Rearranged t')
    (h : s.Apart t) : s'.Apart t' := by
  obtain ⟨_, -, rfl⟩ := hs
  obtain ⟨_, -, rfl⟩ := ht
  exact h

theorem GroupsApart.rearranged {c' d' : Class Signal} (h : GroupsApart c d)
    (hc : c.Related Signal.Rearranged c') (hd : d.Related Signal.Rearranged d') :
    GroupsApart c' d' := by
  intro first hfirst second hsecond
  obtain ⟨s, hs, hs'⟩ := forall₂_exists_left hc.items hfirst
  obtain ⟨t, ht, ht'⟩ := forall₂_exists_left hd.items hsecond
  exact hs'.apart ht' (h s hs t ht)

/-- Groups of rearranged fields contradict each other together or not at all. -/
theorem firstConflict_rearranged {groups groups' : List (Class Signal)}
    (h : List.Forall₂ (Class.Related Signal.Rearranged) groups groups') :
    firstConflict [] groups = none ↔ firstConflict [] groups' = none := by
  have hback : List.Forall₂ (Class.Related Signal.Rearranged) groups' groups :=
    h.flip.imp fun _ _ => Class.Related.symm fun _ _ => Signal.Rearranged.symm
  have hpairs : ∀ {l l' : List (Class Signal)},
      List.Forall₂ (Class.Related Signal.Rearranged) l l' → l.Pairwise GroupsApart →
      l'.Pairwise GroupsApart :=
    forall₂_pairwise fun _ _ _ _ hc hd hcd => hcd.rearranged hc hd
  rw [firstConflict_eq_none, firstConflict_eq_none]
  constructor
  · rintro ⟨-, hl⟩
    exact ⟨fun e he => absurd he List.not_mem_nil, hpairs h hl⟩
  · rintro ⟨-, hl⟩
    exact ⟨fun e he => absurd he List.not_mem_nil, hpairs hback hl⟩

theorem composedSignal_rearranged (h : c.Related Signal.Rearranged d) :
    (composedSignal c).UpToTables (composedSignal d) := by
  have hspans : c.items.flatMap Signal.spans = d.items.flatMap Signal.spans :=
    forall₂_flatMap_eq (by rintro s _ ⟨_, -, rfl⟩; rfl) h.items
  have hnames : c.items.map Signal.name = d.items.map Signal.name :=
    forall₂_map_eq (by rintro s _ ⟨_, -, rfl⟩; rfl) h.items
  have hsources : c.items.map Signal.source = d.items.map Signal.source :=
    forall₂_map_eq (by rintro s _ ⟨_, -, rfl⟩; rfl) h.items
  obtain ⟨table, hperm, hfirst⟩ := h.1
  refine ⟨table, hperm, ?_⟩
  rw [composedSignal, composedSignal, hspans, hnames, hsources, hfirst]

theorem fieldAliases_rearranged (h : c.Related Signal.Rearranged d) :
    fieldAliases c = fieldAliases d := by
  have hid : c.first.fieldId = d.first.fieldId := by
    obtain ⟨_, -, hfirst⟩ := h.1
    rw [hfirst]
  rw [fieldAliases, fieldAliases, hid]
  exact forall₂_map_eq (by rintro s _ ⟨_, -, rfl⟩; rfl) h.items

variable {inventories' inventories : List SourceInventory}

section

variable {S : Type} [DecidableEq S] {signature : Signal → S}

/-- The signature does not see the order of the entries. -/
def OrderFree (signature : Signal → S) : Prop :=
  ∀ s t, s.Rearranged t → signature s = signature t

theorem mergeOccurrences_of_agree (h : ∀ other ∈ c.later, signature other = signature c.first) :
    mergeOccurrences signature c = .ok (mergedSignal c) := by
  have hfind : (c.later.find? fun other => signature other ≠ signature c.first) = none := by
    rw [List.find?_eq_none]
    intro other hmem
    simp [h other hmem]
  rw [mergeOccurrences, hfind]

theorem mergeOccurrences_eq_ok {s : Signal} :
    mergeOccurrences signature c = .ok s ↔
      (∀ other ∈ c.later, signature other = signature c.first) ∧ s = mergedSignal c := by
  constructor
  · intro h
    unfold mergeOccurrences at h
    split at h
    · cases h
    · rename_i hfind
      refine ⟨fun other hmem => ?_, (Except.ok.inj h).symm⟩
      simpa using List.find?_eq_none.mp hfind other hmem
  · rintro ⟨hagree, rfl⟩
    exact mergeOccurrences_of_agree hagree

theorem mergedSignal_rearranged (h : c.Related Signal.Rearranged d) :
    (mergedSignal c).Rearranged (mergedSignal d) := by
  have hspans : c.items.flatMap Signal.spans = d.items.flatMap Signal.spans :=
    forall₂_flatMap_eq (by rintro s _ ⟨_, -, rfl⟩; rfl) h.items
  obtain ⟨table, hperm, hfirst⟩ := h.1
  refine ⟨table, hperm, ?_⟩
  rw [mergedSignal, mergedSignal, hspans, hfirst]

theorem mergeOccurrences_rearranged (hfree : OrderFree signature)
    (h : c.Related Signal.Rearranged d) :
    Related Signal.Rearranged (mergeOccurrences signature c) (mergeOccurrences signature d) := by
  have hagree : (∀ other ∈ c.later, signature other = signature c.first) ↔
      ∀ other ∈ d.later, signature other = signature d.first := by
    rw [← hfree _ _ h.1]
    constructor
    · intro hc other hmem
      obtain ⟨s, hs, hother⟩ := forall₂_exists_left h.2 hmem
      rw [← hfree _ _ hother, hc s hs]
    · intro hd other hmem
      obtain ⟨t, ht, hother⟩ := forall₂_exists_right h.2 hmem
      rw [hfree _ _ hother, hd t ht]
  by_cases hc : ∀ other ∈ c.later, signature other = signature c.first
  · rw [mergeOccurrences_of_agree hc, mergeOccurrences_of_agree (hagree.mp hc)]
    exact .ok (mergedSignal_rearranged h)
  · cases hmerge : mergeOccurrences signature c with
    | ok s => exact absurd (mergeOccurrences_eq_ok.mp hmerge).1 hc
    | error e =>
      cases hmerge' : mergeOccurrences signature d with
      | ok s => exact absurd (hagree.mpr (mergeOccurrences_eq_ok.mp hmerge').1) hc
      | error e' => exact .error e e'

theorem fieldGroups_rearranged (hfree : OrderFree signature) {merged merged' : List Signal}
    (h : List.Forall₂ Signal.Rearranged merged merged') :
    List.Forall₂ (Class.Related Signal.Rearranged) (fieldGroups signature merged)
      (fieldGroups signature merged') := by
  refine forall₂_sortOn (fun c d hcd => ?_) (forall₂_classes hfree h)
  obtain ⟨_, -, hfirst⟩ := hcd.1
  rw [hfirst]

/-- The fields of a message in two orders: each identifier has the same occurrences. -/
theorem composeFieldsBy_rearranged (hfree : OrderFree signature) {signals signals' : List Signal}
    (hids : sortedSet (signals.map Signal.fieldId) = sortedSet (signals'.map Signal.fieldId))
    (h : ∀ id, List.Forall₂ Signal.Rearranged (signals.filter fun s => s.fieldId = id)
      (signals'.filter fun s => s.fieldId = id)) :
    Related (fun c d => List.Forall₂ ComposedSignal.UpToTables c.1 d.1 ∧ c.2 = d.2)
      (composeFieldsBy signature signals) (composeFieldsBy signature signals') := by
  have hbyId : List.Forall₂ (Class.Related Signal.Rearranged)
      (sortOn (fun found => found.first.fieldId) (classes Signal.fieldId signals))
      (sortOn (fun found => found.first.fieldId) (classes Signal.fieldId signals')) := by
    have hitems : List.Forall₂ (List.Forall₂ Signal.Rearranged)
        ((sortOn (fun found => found.first.fieldId) (classes Signal.fieldId signals)).map
          Class.items)
        ((sortOn (fun found => found.first.fieldId) (classes Signal.fieldId signals')).map
          Class.items) := by
      rw [items_sortOn_classes, items_sortOn_classes, hids, List.forall₂_map_left_iff,
        List.forall₂_map_right_iff, List.forall₂_same]
      exact fun id _ => h id
    rw [List.forall₂_map_left_iff, List.forall₂_map_right_iff] at hitems
    exact hitems.imp fun _ _ => Class.related_of_items
  have hmerge : ∀ c d : Class Signal, c.Related Signal.Rearranged d →
      Related Signal.Rearranged (mergeOccurrences signature c) (mergeOccurrences signature d) :=
    fun _ _ => mergeOccurrences_rearranged hfree
  refine (Related.mapM hmerge hbyId).bind ?_
  intro merged merged' hmerged
  have hgroups := fieldGroups_rearranged hfree hmerged
  cases hconflict : firstConflict [] (fieldGroups signature merged) with
  | none =>
    rw [(firstConflict_rearranged hgroups).mp hconflict]
    refine .ok ⟨?_, forall₂_flatMap_eq (fun _ _ => fieldAliases_rearranged) hgroups⟩
    rw [List.forall₂_map_left_iff, List.forall₂_map_right_iff]
    exact hgroups.imp fun _ _ => composedSignal_rearranged
  | some e =>
    cases hconflict' : firstConflict [] (fieldGroups signature merged') with
    | none =>
      rw [(firstConflict_rearranged hgroups).mpr hconflict'] at hconflict
      cases hconflict
    | some e' => exact .error e e'

/-! ### Messages -/

/-- The fields of one message have distinct identifiers. -/
def Message.DistinctFields (m : Message Signal) : Prop := (m.signals.map Signal.fieldId).Nodup

/-- At most one field of a message has a given identifier. -/
theorem Message.Rearranged.filter (h : m.Rearranged n) (hdistinct : m.DistinctFields)
    (id : String) :
    List.Forall₂ Signal.Rearranged (m.signals.filter fun s => s.fieldId = id)
      (n.signals.filter fun s => s.fieldId = id) := by
  have hid : ∀ s t : Signal, s.Rearranged t → decide (s.fieldId = id) = decide (t.fieldId = id) := by
    rintro s _ ⟨_, -, rfl⟩
    rfl
  refine PermUpTo.forall₂_of_length_le_one ?_ (h.1.filter hid)
  have hnodup : ((m.signals.filter fun s => s.fieldId = id).map Signal.fieldId).Nodup :=
    hdistinct.sublist (List.filter_sublist.map _)
  have hsame : (m.signals.filter fun s => s.fieldId = id).map Signal.fieldId =
      List.replicate (m.signals.filter fun s => s.fieldId = id).length id := by
    rw [List.eq_replicate_iff]
    refine ⟨List.length_map _, fun x hx => ?_⟩
    obtain ⟨s, hs, rfl⟩ := List.mem_map.mp hx
    simpa using (List.mem_filter.mp hs).2
  rw [hsame] at hnodup
  exact List.nodup_replicate.mp hnodup

theorem forall₂_filter_flatMap (h : List.Forall₂ Message.Rearranged l l')
    (hdistinct : ∀ m ∈ l, m.DistinctFields) (id : String) :
    List.Forall₂ Signal.Rearranged ((l.flatMap Message.signals).filter fun s => s.fieldId = id)
      ((l'.flatMap Message.signals).filter fun s => s.fieldId = id) := by
  induction h with
  | nil => exact .nil
  | @cons m n l l' hmn _ ih =>
    rw [List.flatMap_cons, List.flatMap_cons, List.filter_append, List.filter_append]
    exact List.rel_append (hmn.filter (hdistinct m List.mem_cons_self) id)
      (ih fun m hm => hdistinct m (List.mem_cons_of_mem _ hm))

/-- Only the fields of a rearranged message differ. -/
theorem Message.Rearranged.eq {V : Type} (f : Message Signal → V)
    (hf : ∀ (m : Message Signal) (signals : List Signal), f { m with signals := signals } = f m)
    (m n : Message Signal) (h : m.Rearranged n) : f m = f n :=
  calc f m = f { m with signals := n.signals } := (hf m n.signals).symm
    _ = f n := congrArg f h.2.symm

/-- What a composed message takes from its fragments. -/
theorem composedMessage_rearranged (h : List.Forall₂ Message.Rearranged (m :: l) (n :: l'))
    {fields fields' : List ComposedSignal}
    (hfields : List.Forall₂ ComposedSignal.UpToTables fields fields') :
    (composedMessage m (m :: l) fields).UpToTables (composedMessage n (n :: l') fields') := by
  have hforms := forall₂_flatMap_eq
    (Message.Rearranged.eq Message.unsupportedForms fun _ _ => rfl) h
  have hspans := forall₂_flatMap_eq (Message.Rearranged.eq Message.spans fun _ _ => rfl) h
  have hexecutable := forall₂_map_eq (Message.Rearranged.eq Message.executable fun _ _ => rfl) h
  have hall : (m :: l).all Message.executable = (n :: l').all Message.executable := by
    have := congrArg (fun flags : List Bool => flags.all id) hexecutable
    simpa only [List.all_map, Function.id_comp] using this
  refine ⟨hfields, ?_⟩
  rw [composedMessage, composedMessage, hforms, hspans, hall, (List.forall₂_cons.mp h).1.2]

theorem messageAliases_rearranged (hmn : m.Rearranged n)
    (h : List.Forall₂ Message.Rearranged l l') :
    messageAliases m l = messageAliases n l' := by
  have hid : m.messageId = n.messageId :=
    Message.Rearranged.eq Message.messageId (fun _ _ => rfl) m n hmn
  rw [messageAliases, messageAliases, hid]
  refine forall₂_map_eq (fun a b hab => ?_) h
  rw [hab.2]

theorem composeFragmentsBy_cons {representative : Message Signal} {others : List (Message Signal)}
    (h : ∀ other ∈ others, other.length = representative.length) :
    composeFragmentsBy signature (representative :: others) =
      composeFieldsBy signature ((representative :: others).flatMap Message.signals) >>= fun c =>
        .ok ([composedMessage representative (representative :: others) c.1],
          messageAliases representative (representative :: others) ++ c.2) := by
  have hfind : (others.find? fun other => other.length ≠ representative.length) = none := by
    rw [List.find?_eq_none]
    intro other hmem
    simp [h other hmem]
  simp only [composeFragmentsBy, hfind]
  rfl

theorem composeFragmentsBy_lengths {representative : Message Signal}
    {others : List (Message Signal)} {composition : Composition}
    (h : composeFragmentsBy signature (representative :: others) = .ok composition) :
    ∀ other ∈ others, other.length = representative.length := by
  simp only [composeFragmentsBy] at h
  split at h
  · cases h
  · rename_i hfind
    intro other hmem
    simpa using List.find?_eq_none.mp hfind other hmem

theorem composeFragmentsBy_rearranged (hfree : OrderFree signature)
    {fragments fragments' : List (Message Signal)}
    (h : List.Forall₂ Message.Rearranged fragments fragments')
    (hdistinct : ∀ m ∈ fragments, m.DistinctFields) :
    Related SameComposition (composeFragmentsBy signature fragments)
      (composeFragmentsBy signature fragments') := by
  cases h with
  | nil => exact .ok ⟨.nil, rfl⟩
  | @cons m n l l' hmn htail =>
    have hlength := Message.Rearranged.eq Message.length fun _ _ => rfl
    have hlengths : (∀ other ∈ l, other.length = m.length) ↔
        ∀ other ∈ l', other.length = n.length := by
      rw [← hlength m n hmn]
      constructor
      · intro hl other hmem
        obtain ⟨k, hk, hother⟩ := forall₂_exists_left htail hmem
        rw [← hlength k other hother, hl k hk]
      · intro hl other hmem
        obtain ⟨k, hk, hother⟩ := forall₂_exists_right htail hmem
        rw [hlength other k hother, hl k hk]
    have hwhole : List.Forall₂ Message.Rearranged (m :: l) (n :: l') := .cons hmn htail
    have hids : sortedSet (((m :: l).flatMap Message.signals).map Signal.fieldId) =
        sortedSet (((n :: l').flatMap Message.signals).map Signal.fieldId) := by
      refine PermUpTo.sortedSet ?_ ((PermUpTo.of_forall₂ hwhole).flatMap fun _ _ hmn => hmn.1)
      rintro s _ ⟨_, -, rfl⟩
      rfl
    by_cases hl : ∀ other ∈ l, other.length = m.length
    · rw [composeFragmentsBy_cons hl, composeFragmentsBy_cons (hlengths.mp hl)]
      refine (composeFieldsBy_rearranged hfree hids
        (forall₂_filter_flatMap hwhole hdistinct)).bind fun c d hcd => .ok ?_
      refine ⟨.cons (composedMessage_rearranged hwhole hcd.1) .nil, ?_⟩
      simp only [messageAliases_rearranged hmn hwhole, hcd.2]
    · cases hcompose : composeFragmentsBy signature (m :: l) with
      | ok c => exact absurd (composeFragmentsBy_lengths hcompose) hl
      | error e =>
        cases hcompose' : composeFragmentsBy signature (n :: l') with
        | ok c => exact absurd (hlengths.mpr (composeFragmentsBy_lengths hcompose')) hl
        | error e' => exact .error e e'

/-! ### Sources -/

/-- The messages with their keys in two orders. -/
def KeyedRearranged (a b : MessageKey × Message Signal) : Prop := a.1 = b.1 ∧ a.2.Rearranged b.2

theorem keyed_rearranged (h : Rearranged inventories inventories') :
    PermUpTo KeyedRearranged (inventories.flatMap SourceInventory.keyed)
      (inventories'.flatMap SourceInventory.keyed) := by
  refine h.flatMap fun i j hij => ?_
  obtain ⟨hmessages, hj⟩ := hij
  have hbus : j.bus = i.bus := by rw [hj]
  rw [SourceInventory.keyed, SourceInventory.keyed, hbus]
  refine hmessages.map fun m n hmn => ⟨?_, hmn⟩
  exact Message.Rearranged.eq (messageKey i.bus) (fun _ _ => rfl) m n hmn

/-- What the composition needs of its inputs: distinct identifiers. -/
structure DistinctIds (inventories : List SourceInventory) : Prop where
  messages : ((inventories.flatMap SourceInventory.keyed).map fun keyed =>
    keyed.2.messageId).Nodup
  fields : ∀ keyed ∈ inventories.flatMap SourceInventory.keyed, keyed.2.DistinctFields

/-- **The outcome of a composition** whose signature does not see the order of the entries is the
same for all orders of its inputs. -/
theorem composeBy_rearranged (hfree : OrderFree signature) (hids : DistinctIds inventories)
    (h : Rearranged inventories inventories') :
    Related SameComposition (composeBy signature inventories)
      (composeBy signature inventories') := by
  have hkeyed := keyed_rearranged h
  have hkeys : sortedSet ((inventories.flatMap SourceInventory.keyed).map Prod.fst) =
      sortedSet ((inventories'.flatMap SourceInventory.keyed).map Prod.fst) :=
    PermUpTo.sortedSet (fun _ _ hab => hab.1) hkeyed
  -- the fragments of each key, sorted by their distinct identifiers
  have hitems : List.Forall₂ (fun l l' => List.Forall₂ Message.Rearranged
        (sortOn Message.messageId (l.map Prod.snd)) (sortOn Message.messageId (l'.map Prod.snd)) ∧
        ∀ m ∈ sortOn Message.messageId (l.map Prod.snd), m.DistinctFields)
      ((sortOn (fun c => c.first.1)
        (classes Prod.fst (inventories.flatMap SourceInventory.keyed))).map Class.items)
      ((sortOn (fun c => c.first.1)
        (classes Prod.fst (inventories'.flatMap SourceInventory.keyed))).map Class.items) := by
    rw [items_sortOn_classes, items_sortOn_classes, hkeys, List.forall₂_map_left_iff,
      List.forall₂_map_right_iff, List.forall₂_same]
    intro key _
    have hfilter : PermUpTo KeyedRearranged
        ((inventories.flatMap SourceInventory.keyed).filter fun x => x.1 = key)
        ((inventories'.flatMap SourceInventory.keyed).filter fun x => x.1 = key) :=
      hkeyed.filter fun a b hab => by rw [hab.1]
    constructor
    · refine PermUpTo.sortOn (Message.Rearranged.eq Message.messageId fun _ _ => rfl) ?_
        (hfilter.map fun _ _ hab => hab.2)
      rw [List.map_map]
      exact hids.messages.sublist (List.filter_sublist.map _)
    · intro m hm
      obtain ⟨keyed, hmem, rfl⟩ := List.mem_map.mp (mem_sortOn.mp hm)
      exact hids.fields keyed (List.mem_of_mem_filter hmem)
  rw [List.forall₂_map_left_iff, List.forall₂_map_right_iff] at hitems
  have hparts : Related (List.Forall₂ SameComposition) _ _ :=
    Related.mapM (fun c d hcd => composeFragmentsBy_rearranged hfree hcd.1 hcd.2) hitems
  refine hparts.bind fun parts parts' hsame => .ok ⟨?_, ?_⟩
  · clear hparts
    induction hsame with
    | nil => exact .nil
    | cons hcd _ ih =>
      rw [List.flatMap_cons, List.flatMap_cons]
      exact List.rel_append hcd.1 ih
  · exact forall₂_flatMap_eq (fun _ _ hcd => hcd.2) hsame

end

end AccessoryController.VehicleProfiles
