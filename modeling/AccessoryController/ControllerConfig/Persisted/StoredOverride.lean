import AccessoryController.ControllerConfig.Persisted.ConfigStore
import AccessoryController.ControllerConfig.Persisted.RoundTrip

/-!
# Stored overrides load

An accepted document may leave out members that its canonical text writes out. The canonical text
then has more structural elements than the document, and it may exceed the loader's limit although
the document does not. Within the limit a stored override loads as the model that was saved.

## Main definitions

* `CanonicalLoads`: the canonical text of a model is stored, and loads at boot

## Main results

* `canonical_loads_iff`: exactly the models within the element limit have a text that loads
-/

open AccessoryController.ControllerConfig (Bytes ReadStatus kMaxStoredControllerConfigJsonBytes)

namespace AccessoryController.Persisted

variable {library : ExternalLibrary} {config : ControllerConfig} {json : Bytes}

/-- What saving a document does after its canonical text has been read back. -/
theorem saveOverride_eq {Store : Type} (backend : ConfigStoreBackend Store) (store : Store)
    (hparse : parseControllerConfig library json = .ok config)
    (hsmall : (serializeControllerConfig library config).length ≤
      kMaxStoredControllerConfigJsonBytes)
    (hcanonical : parseControllerConfig library (serializeControllerConfig library config) =
      .ok config) :
    saveOverride library backend json store =
      (writtenResult (serializeControllerConfig library config)
        (backend.writeOverride (serializeControllerConfig library config) store).1,
        (backend.writeOverride (serializeControllerConfig library config) store).2) := by
  unfold saveOverride
  simp only [hparse, if_neg (Nat.not_lt.mpr hsmall), hcanonical]

/-- What booting does with a stored text that is read back. -/
theorem loadBootConfiguration_eq {Store : Type} (backend : ConfigStoreBackend Store)
    (store : Store) (factoryJson : Bytes)
    (hpresent : (backend.readOverride store).1.status = .present)
    (hparse : parseControllerConfig library (backend.readOverride store).1.value = .ok config) :
    loadBootConfiguration library (some (backend, store)) factoryJson =
      { configuration := some config, source := .persistedOverride } := by
  unfold loadBootConfiguration
  simp only [hpresent, hparse]

/-- **The canonical text of a model loads**: it passes the loader's limits and is read back as the
model, saving it reaches the backend, and booting from it gives the model. -/
structure CanonicalLoads (library : ExternalLibrary) (config : ControllerConfig) : Prop where
  preflight : preflightInput (serializeControllerConfig library config) = .ok
  parses : parseControllerConfig library (serializeControllerConfig library config) = .ok config
  reaches : ∀ (Store : Type) (backend : ConfigStoreBackend Store) (store : Store) (json : Bytes),
    parseControllerConfig library json = .ok config →
    saveOverride library backend json store =
      (writtenResult (serializeControllerConfig library config)
        (backend.writeOverride (serializeControllerConfig library config) store).1,
        (backend.writeOverride (serializeControllerConfig library config) store).2)
  boots : ∀ (Store : Type) (backend : ConfigStoreBackend Store) (store : Store)
    (factoryJson : Bytes), (backend.readOverride store).1.status = .present →
    (backend.readOverride store).1.value = serializeControllerConfig library config →
    (loadBootConfiguration library (some (backend, store)) factoryJson).configuration =
      some config

theorem not_preflight_of_lt (hlibrary : library.Faithful) (hreadable : config.Readable)
    (h : kMaxControllerConfigJsonNodes < structuralElements config) :
    preflightInput (serializeControllerConfig library config) ≠ .ok := by
  rw [preflightInput_serialize hlibrary hreadable, within_of_lt h]
  decide

/-- **Exactly the models within the element limit** have a canonical text that loads. -/
theorem canonical_loads_iff (library : ExternalLibrary) (hlibrary : library.Faithful)
    (json : Bytes) (config : ControllerConfig)
    (hparse : parseControllerConfig library json = .ok config)
    (hsmall : (serializeControllerConfig library config).length ≤
      kMaxStoredControllerConfigJsonBytes) :
    CanonicalLoads library config ↔
      structuralElements config ≤ kMaxControllerConfigJsonNodes := by
  obtain ⟨hvalid, hnul⟩ := parseControllerConfig_returns library json config hparse
  have hreadable := readable_of_accepted hvalid hnul
  constructor
  · intro h
    by_contra hexceeded
    exact not_preflight_of_lt hlibrary hreadable (Nat.not_le.mp hexceeded) h.preflight
  · intro hwithin
    have hlength : (serializeControllerConfig library config).length ≤
        kMaxControllerConfigJsonBytes := hsmall.trans (by decide)
    have hcanonical := parseControllerConfig_serialize hlibrary hreadable hvalid hlength hwithin
    refine ⟨?_, hcanonical, ?_, ?_⟩
    · rw [preflightInput_serialize hlibrary hreadable, within_of_le hwithin]
    · intro Store backend store json hjson
      exact saveOverride_eq backend store hjson hsmall hcanonical
    · intro Store backend store factoryJson hpresent hvalue
      rw [loadBootConfiguration_eq backend store factoryJson hpresent (by rw [hvalue, hcanonical])]

theorem canonical_loads_iff_door :
    CanonicalLoads referenceLibrary doorConfig ↔
      structuralElements doorConfig ≤ kMaxControllerConfigJsonNodes := by
  have hparse := parseControllerConfig_serialize referenceLibrary_faithful
    (readable_of_accepted validate_doorConfig nulFree_doorConfig) validate_doorConfig
    (length_doorConfig.trans (by decide)) (by decide)
  exact canonical_loads_iff referenceLibrary referenceLibrary_faithful
    (serializeControllerConfig referenceLibrary doorConfig) doorConfig hparse
    (length_doorConfig.trans (by decide))

/-! ### A document that saves no room -/

/-- Actions with names of two letters. -/
def letterActions (count : ℕ) : List Action :=
  (List.range count).map fun i => ⟨[UInt8.ofNat (65 + i / 16), UInt8.ofNat (65 + i % 16)]⟩

/-- A document without rules and outputs. -/
def actionsOnly (actions : List Action) : Bytes :=
  ascii "\x7b\"version\":1,\"actions\":[" ++ appendEntries appendAction actions ++ ascii "]\x7d"

/-- The members that are written out, and the model that stands for all of them. -/
def actionsMembers (actions : List Action) : List Json.Item :=
  [integerItem "version" 1, arrayItem "actions" (actions.map actionItem)]

theorem actionsOnly_eq (actions : List Action) :
    actionsOnly actions =
      (Json.Items.ofList [objectItem "" (actionsMembers actions)]).text false true := by
  have hactions := text_entries text_actionItem actions
  simp only [actionsOnly, actionsMembers, integerItem, text_objectItem, text_arrayItem,
    text_numberItem, text_nil, hactions, List.append_assoc]
  rfl

section

variable {actions : List Action} (hnames : ∀ action ∈ actions, 0 ∉ action.name)

include hnames

theorem wellFormed_actionsMembers : (objectItem "" (actionsMembers actions)).WellFormed false := by
  have hactions : ∀ entry ∈ actions.map actionItem, entry.WellFormed false :=
    List.forall_mem_map.mpr fun action haction => wellFormed_objectItem (by decide)
      (List.forall_mem_singleton.mpr (wellFormed_stringItem (by decide) (hnames action haction)))
  refine wellFormed_objectItem (by decide) (List.forall_mem_cons.mpr ⟨?_, ?_⟩)
  · exact wellFormed_integerItem (by decide) _
  · exact List.forall_mem_singleton.mpr (wellFormed_arrayItem (by decide) hactions)

omit hnames in
theorem nesting_actionsMembers_le :
    (Json.Items.ofList [objectItem "" (actionsMembers actions)]).nesting ≤
      kMaxControllerConfigJsonNesting := by
  have hentries : (Json.Items.ofList (actions.map actionItem)).nesting ≤ 1 :=
    Json.Items.nesting_ofList_le (List.forall_mem_map.mpr fun action _ => Nat.le_of_ble_eq_true rfl)
  change max (1 + max 0 (max (1 + (Json.Items.ofList (actions.map actionItem)).nesting) 0)) 0 ≤ 16
  omega

/-- Two brackets, two more and a comma, and for each action its brackets and a comma. -/
theorem preflightInput_actionsOnly
    (hcount : 3 + separated (actions.map fun _ => 1) ≤ kMaxControllerConfigJsonNodes) :
    preflightInput (actionsOnly actions) = .ok := by
  have hdepth : _ ≤ kMaxControllerConfigJsonNesting := @nesting_actionsMembers_le actions
  have helements : (Json.Items.ofList [objectItem "" (actionsMembers actions)]).elements true =
      3 + separated (actions.map fun _ => 1) := by
    change (objectItem "" (actionsMembers actions)).elements = _
    rw [elements_objectItem, actionsMembers, List.map_cons, List.map_singleton,
      elements_arrayItem elements_actionItem, integerItem, elements_numberItem]
    simp only [separated, List.length_cons, List.length_nil, List.sum_cons, List.sum_nil]
    omega
  have hscan := preflightFrom_text (wellFormed_actionsMembers hnames : (Json.Items.ofList
    [objectItem "" (actionsMembers actions)]).WellFormed false) true (d := 0) (e := 0)
    (by rwa [Nat.zero_add]) (Nat.zero_le _) []
  rw [List.append_nil, Nat.zero_add] at hscan
  rw [actionsOnly_eq, preflightInput]
  refine hscan.trans ((congrArg (within · InputPreflight.ok) helements).trans ?_)
  exact within_of_le hcount

/-- **A document of actions** is accepted. -/
theorem parseControllerConfig_actionsOnly (hlibrary : library.Faithful)
    (hvalid : (validate { actions := actions }).ok = true)
    (hlength : (actionsOnly actions).length ≤ kMaxControllerConfigJsonBytes)
    (hcount : 3 + separated (actions.map fun _ => 1) ≤ kMaxControllerConfigJsonNodes) :
    parseControllerConfig library (actionsOnly actions) = .ok { actions := actions } := by
  have hpreflight := preflightInput_actionsOnly hnames hcount
  have hend : withoutTerminator (actionsOnly actions) = actionsOnly actions := by
    have hclose : ascii "]\x7d" = [93] ++ [125] := by decide
    rw [actionsOnly, hclose, ← List.append_assoc, withoutTerminator, List.getLast?_concat,
      if_neg (by decide)]
  rw [actionsOnly_eq] at hpreflight hend hlength ⊢
  refine parseControllerConfig_of_text hlibrary (wellFormed_actionsMembers hnames)
    nesting_actionsMembers_le hvalid hend hlength hpreflight fun place _ => ?_
  -- the members that are left out are read as empty
  exact parseDocument_of_fields hlibrary rfl rfl rfl (Nat.le_of_ble_eq_true rfl) rfl
    (parseArray_of_node rfl rfl (parseEntries_readable fun action haction _ _ _ _ =>
      parseAction_actionItem (hnames action haction))) rfl rfl

end

/-- Different numbers have different letters. -/
theorem letterActions_nodup {count : ℕ} (h : count ≤ 256) : (letterActions count).Nodup := by
  refine List.Nodup.map_on ?_ List.nodup_range
  intro i hi j hj hsame
  have hi := List.mem_range.mp hi
  have hj := List.mem_range.mp hj
  injection hsame with hletters
  obtain ⟨hfirst, hrest⟩ := List.cons.inj hletters
  have hsecond := (List.cons.inj hrest).1
  have hfirst := congrArg UInt8.toNat hfirst
  have hsecond := congrArg UInt8.toNat hsecond
  simp only [UInt8.toNat_ofNat'] at hfirst hsecond
  omega

theorem letterActions_names {count : ℕ} (h : count ≤ 256) :
    ∀ action ∈ letterActions count, 0 ∉ action.name := by
  intro action haction hzero
  obtain ⟨i, hi, rfl⟩ := List.mem_map.mp haction
  have hlt := List.mem_range.mp hi
  simp only [List.mem_cons, List.not_mem_nil, or_false] at hzero
  rcases hzero with hzero | hzero <;>
  · have hvalue := congrArg UInt8.toNat hzero
    rw [UInt8.toNat_ofNat'] at hvalue
    change 0 = _ at hvalue
    omega

/-- Actions with different names are a valid model. -/
theorem validate_letterActions {count : ℕ} (h : count ≤ 256) :
    (validate { actions := letterActions count }).ok = true := by
  refine validate_ok.mpr ⟨rfl, rfl, ?_, ?_, ?_⟩
  · intro before action after hsplit
    have hmem : action ∈ letterActions count := by
      rw [show letterActions count = _ from hsplit]
      simp
    have hnodup := letterActions_nodup h
    rw [show letterActions count = _ from hsplit] at hnodup
    have hfresh : action ∉ before := fun hbefore =>
      List.disjoint_of_nodup_append hnodup hbefore List.mem_cons_self
    have hdeclared : isDeclared before action.name = false := by
      rw [isDeclared, List.any_eq_false]
      intro other hother hsame
      obtain ⟨name⟩ := other
      rw [beq_iff_eq] at hsame
      exact hfresh (by rwa [show action = ⟨name⟩ from congrArg Action.mk hsame.symm])
    obtain ⟨i, -, rfl⟩ := List.mem_map.mp hmem
    rw [actionError, if_neg (List.cons_ne_nil _ _), hdeclared, if_neg Bool.false_ne_true]
  · intro before rule after hsplit
    exact absurd hsplit (by simp)
  · intro before output after hsplit
    exact absurd hsplit (by simp)

/-- 254 actions are accepted, and their canonical text has two empty arrays too many. -/
theorem canonical_need_not_load :
    ¬ ∀ library : ExternalLibrary, library.Faithful → ∀ json config,
      parseControllerConfig library json = .ok config →
      (serializeControllerConfig library config).length ≤ kMaxStoredControllerConfigJsonBytes →
      CanonicalLoads library config := by
  intro h
  have hparse : parseControllerConfig referenceLibrary (actionsOnly (letterActions 254)) =
      .ok { actions := letterActions 254 } :=
    parseControllerConfig_actionsOnly (letterActions_names (by decide)) referenceLibrary_faithful
      (validate_letterActions (by decide)) (by decide +kernel) (by decide +kernel)
  obtain ⟨hvalid, hnul⟩ := parseControllerConfig_returns _ _ _ hparse
  have hloads := h referenceLibrary referenceLibrary_faithful _ _ hparse (by decide +kernel)
  exact not_preflight_of_lt referenceLibrary_faithful (readable_of_accepted hvalid hnul)
    (by decide +kernel) hloads.preflight

end AccessoryController.Persisted
