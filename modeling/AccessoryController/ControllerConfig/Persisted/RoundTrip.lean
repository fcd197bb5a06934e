import AccessoryController.ControllerConfig.Persisted.LoadedModel
import AccessoryController.ControllerConfig.Persisted.NumberTokens
import AccessoryController.ControllerConfig.Persisted.ReferenceLibrary

/-!
# The configuration round trip

The loader reads the canonical text of a model back as the model, within the loader's limits. The
serializer only writes what JSON allows, the scans of the text follow its items, and the tree of
the text holds what was written.

## Main definitions

* `WithinLimits`: the loader's limits on a text

## Main results

* `parseDocument_documentItem`: the tree of a canonical text is read back
* `preflightInput_serialize`: the limits on a canonical text
* `parseControllerConfig_serialize`: the canonical text of a readable model is read back
* `configuration_round_trip`: the round trip of the accepted models and documents
-/

open AccessoryController.ControllerConfig (Bytes)

namespace AccessoryController.Persisted

open Json (Items Kind)

section

variable {library : ExternalLibrary}

/-! ### Durations -/

/-- A part of a document and the place of its first node. -/
def Located (document : Items) (rootPlace : List Bool → ℕ) (place : List Bool → ℕ)
    (items : Items) : Prop :=
  ∃ start, (∀ way, place way = rootPlace (start ++ way)) ∧
    ∀ way, kindAt document (start ++ way) = kindAt items way

variable {document : Items} {rootPlace place : List Bool → ℕ}

theorem located_self (document : Items) (place : List Bool → ℕ) :
    Located document place place document := ⟨[], fun _ => rfl, fun _ => rfl⟩

theorem Located.inner {key : Bytes} {kind : Kind} {inner next : Items}
    (h : Located document rootPlace place (.cons key kind inner next)) :
    Located document rootPlace (fun way => place (false :: way)) inner := by
  obtain ⟨start, hplace, hkind⟩ := h
  refine ⟨start ++ [false], fun way => ?_, fun way => ?_⟩
  · exact (hplace (false :: way)).trans (by rw [List.append_assoc, List.singleton_append])
  · rw [List.append_assoc, List.singleton_append, hkind]
    rfl

theorem Located.next {key : Bytes} {kind : Kind} {inner next : Items}
    (h : Located document rootPlace place (.cons key kind inner next)) :
    Located document rootPlace (fun way => place (true :: way)) next := by
  obtain ⟨start, hplace, hkind⟩ := h
  refine ⟨start ++ [true], fun way => ?_, fun way => ?_⟩
  · exact (hplace (true :: way)).trans (by rw [List.append_assoc, List.singleton_append])
  · rw [List.append_assoc, List.singleton_append, hkind]
    rfl

/-- **A duration** is read from its own token in the text of the document. -/
theorem parseDuration_located (hplace : Function.Injective rootPlace)
    (hdocument : document.WellFormed false) {items : Items}
    (hlocated : Located document rootPlace place items) {way : List Bool} {duration : ℤ}
    (hduration : Small duration)
    (hkind : kindAt items way = some (.number (integerText duration))) {value : CJson}
    (hvalue : ∃ key double child next, value = .node (place way) key (.number double) child next)
    (path : Bytes) :
    parseDuration value (.ofItems library.strtod rootPlace document) (document.text false true)
      path = .ok duration := by
  obtain ⟨key, double, child, next, rfl⟩ := hvalue
  obtain ⟨start, hways, hkinds⟩ := hlocated
  obtain ⟨index, hnumber, htoken⟩ := exists_numbered ((hkinds way).trans hkind)
  have hindex := numberIndexAmong_reads (reads_ofItems library.strtod document rootPlace) hplace
    hnumber 0
  have htext : numberToken (document.text false true) index = integerText duration := by
    have hscan := numberTokenFrom_written (Json.written_text hdocument true) delimited_nil index
    rw [List.append_nil] at hscan
    rw [numberToken, hscan, afterTokens_of_some _ htoken]
  have hbounds : -2 ^ 63 ≤ duration ∧ duration < 2 ^ 63 := by
    unfold Small at hduration
    omega
  rw [parseDuration, numberIndex, hways, hindex, Nat.zero_add]
  simp only [htext, fromChars_integerText hbounds.1 hbounds.2]
  rfl

/-! ### Arrays -/

/-- The entries of an array are read back, each at its place. -/
theorem parseEntries_objects {Entry : Type} {members : Entry → List Json.Item} {name : Bytes}
    {parser : CJson → Bytes → Parsed Entry} {P : (List Bool → ℕ) → List Entry → Prop}
    (hstep : ∀ place entry rest next path, P place (entry :: rest) →
      parser (objectNode library (place []) (ascii "") (fun way => place (false :: way))
        (members entry) next) path = .ok entry ∧ P (fun way => place (true :: way)) rest)
    (entries : List Entry) (place : List Bool → ℕ) (index : ℕ) (h : P place entries) :
    parseEntries name parser index (.ofItems library.strtod place
      (.ofList (entries.map fun entry => objectItem "" (members entry)))) = .ok entries := by
  induction entries generalizing place index with
  | nil => rfl
  | cons entry rest ih =>
    obtain ⟨hentry, hrest⟩ := hstep place entry rest
      (.ofItems library.strtod (fun way => place (true :: way))
        (.ofList (rest.map fun entry => objectItem "" (members entry))))
      (indexedPath name index) h
    change ((parser (objectNode library (place []) (ascii "") (fun way => place (false :: way))
      (members entry) _) (indexedPath name index)).mapError _ >>= fun entry =>
        parseEntries name parser (index + 1) _ >>= fun later => pure (entry :: later)) = _
    rw [hentry]
    change (parseEntries name parser (index + 1) _ >>= fun later => pure (entry :: later)) = _
    rw [ih _ _ hrest]
    rfl

theorem parseArray_of_node {Entry : Type} {root : CJson} {name : Bytes}
    {parser : CJson → Bytes → Parsed Entry} {entries : List Entry} {child : CJson}
    (hnode : (root.getObjectItem name).type? = some .array)
    (hchild : (root.getObjectItem name).child = child)
    (hentries : parseEntries name parser 0 child = .ok entries) :
    parseArray root name parser = .ok entries := by
  unfold parseArray optionalField
  rw [parseOptional_of_type hnode, requireArray, if_pos hnode, hchild, hentries]
  rfl

/-- The entries of an array whose parser needs no place. -/
theorem parseEntries_readable {Entry : Type} {members : Entry → List Json.Item} {name : Bytes}
    {parser : CJson → Bytes → Parsed Entry} {entries : List Entry}
    (hstep : ∀ entry ∈ entries, ∀ address place next path,
      parser (objectNode library address (ascii "") place (members entry) next) path = .ok entry) :
    parseEntries name parser 0 (.ofItems library.strtod place
      (.ofList (entries.map fun entry => objectItem "" (members entry)))) = .ok entries := by
  refine @parseEntries_objects library Entry members name parser (fun _ rest => rest ⊆ entries)
    ?_ entries place 0 (List.Subset.refl entries)
  intro place entry rest next path hsubset
  obtain ⟨hentry, hrest⟩ := List.cons_subset.mp hsubset
  exact ⟨hstep entry hentry _ _ _ _, hrest⟩

section

variable (hlibrary : library.Faithful)
include hlibrary

/-- The outputs are read back from their place in the document. -/
theorem parseEntries_outputs (hplace : Function.Injective rootPlace)
    (hdocument : document.WellFormed false) {outputs : List OutputBinding}
    (h : ∀ output ∈ outputs, output.Readable)
    (hlocated : Located document rootPlace place (.ofList (outputs.map outputItem))) (name : Bytes) :
    parseEntries name (parseOutput (.ofItems library.strtod rootPlace document)
      (document.text false true)) 0 (.ofItems library.strtod place
        (.ofList (outputs.map outputItem))) = .ok outputs := by
  refine @parseEntries_objects library OutputBinding outputMembers name _ (fun place rest =>
    Located document rootPlace place (.ofList (rest.map outputItem)) ∧
      ∀ output ∈ rest, output.Readable) ?_ outputs place 0 ⟨hlocated, h⟩
  rintro place output rest next path ⟨hplaced, hreadable⟩
  obtain ⟨hfirst, hrest⟩ := List.forall_mem_cons.mp hreadable
  refine ⟨parseOutput_outputNode hlibrary hfirst ?_, hplaced.next, hrest⟩
  -- the duration is the fifth member of a transient output
  rintro transient rfl path
  have hkind : kindAt (.ofList ((OutputBinding.ledTransient transient :: rest).map outputItem))
      [false, true, true, true, true] = some (.number (integerText transient.durationMs)) := rfl
  exact parseDuration_located hplace hdocument hplaced hfirst.2.2.2.2 hkind ⟨_, _, _, _, rfl⟩ path

/-! ### The document -/

theorem parseDocument_of_fields {root : CJson} {json : Bytes} {config : ControllerConfig}
    (htype : root.type? = some .object)
    (hknown : rejectUnknownFields root [] [ascii "version", ascii "actions", ascii "rules",
      ascii "outputs", ascii "sinks"] = .ok ())
    (hpixels : parsePixelCount root = .ok config.pixelCount) (hsmall : Small config.version)
    (hversion : (root.getObjectItem (ascii "version")).type? =
      some (.number (library.strtod (integerText config.version))))
    (hactions : parseArray root (ascii "actions") parseAction = .ok config.actions)
    (hrules : parseArray root (ascii "rules") parseRule = .ok config.rules)
    (houtputs : parseArray root (ascii "outputs") (parseOutput root json) = .ok config.outputs) :
    parseDocument root json = .ok config := by
  have hversionField : parseField root (ascii "version") [] parseInteger = .ok config.version :=
    parseField_of_type hversion (parseInteger_of_type hlibrary hsmall hversion)
  unfold parseDocument
  rw [htype, hknown, hpixels, hversionField, hactions, hrules, houtputs]
  rfl

theorem parsePixelCount_of_sinks {root : CJson} {address : ℕ} {key : Bytes} {next : CJson}
    {pixelCount : ℤ} (h : Small pixelCount)
    (hsinks : root.getObjectItem (ascii "sinks") = objectNode library address key place
      [objectItem "local_argb" [integerItem "pixel_count" pixelCount]] next) :
    parsePixelCount root = .ok pixelCount := by
  unfold parsePixelCount optionalField
  rw [hsinks]
  change parseInteger (.node (place [false]) (ascii "pixel_count")
    (.number (library.strtod (integerText pixelCount))) .nullptr .nullptr)
    (ascii "sinks.local_argb.pixel_count") = _
  exact parseInteger_of_type hlibrary h rfl

/-- **The tree of a canonical text** is read back as the model. -/
theorem parseDocument_documentItem (hplace : Function.Injective place) {config : ControllerConfig}
    (h : config.Readable) :
    parseDocument (.ofItems library.strtod place (documentItem library config))
      ((documentItem library config).text false true) = .ok config := by
  have hdocument := wellFormed_documentItem hlibrary h
  have hroot := located_self (documentItem library config) place
  have hactions : ∀ action ∈ config.actions, ∀ address place next path,
      parseAction (objectNode library address (ascii "") place
        [stringItem "name" action.name] next) path = .ok action :=
    fun action haction _ _ _ _ => parseAction_actionItem (h.actions action haction)
  have hrules : ∀ rule ∈ config.rules, ∀ address place next path,
      parseRule (objectNode library address (ascii "") place (ruleMembers library rule) next)
        path = .ok rule :=
    fun rule hrule _ _ _ _ => parseRule_ruleNode hlibrary (h.rules rule hrule)
  have houtputs : ∀ place', Located (documentItem library config) place place'
      (.ofList (config.outputs.map outputItem)) →
      parseEntries (ascii "outputs") (parseOutput (.ofItems library.strtod place
        (documentItem library config)) ((documentItem library config).text false true)) 0
        (.ofItems library.strtod place' (.ofList (config.outputs.map outputItem))) =
        .ok config.outputs := fun _ located =>
    parseEntries_outputs hlibrary hplace hdocument h.outputs located _
  obtain ⟨version, pixelCount, actions, rules, outputs⟩ := config
  by_cases hdefault : pixelCount = kPixelCountDefault
  · -- the strip setting is left out
    subst hdefault
    exact parseDocument_of_fields hlibrary rfl rfl rfl h.version rfl
      (parseArray_of_node rfl rfl (parseEntries_readable hactions))
      (parseArray_of_node rfl rfl (parseEntries_readable hrules))
      (parseArray_of_node rfl rfl (houtputs _ hroot.inner.next.next.next.inner))
  · have hitems : documentItem library ⟨version, pixelCount, actions, rules, outputs⟩ =
        .ofList [objectItem "" [integerItem "version" version,
          objectItem "sinks" [objectItem "local_argb" [integerItem "pixel_count" pixelCount]],
          arrayItem "actions" (actions.map actionItem),
          arrayItem "rules" (rules.map (ruleItem library)),
          arrayItem "outputs" (outputs.map outputItem)]] := by
      rw [documentItem, documentMembers, sinkItems, if_pos hdefault]
      rfl
    rw [hitems] at hroot houtputs ⊢
    refine parseDocument_of_fields hlibrary rfl rfl ?_ h.version rfl
      (parseArray_of_node rfl rfl (parseEntries_readable hactions))
      (parseArray_of_node rfl rfl (parseEntries_readable hrules))
      (parseArray_of_node rfl rfl (houtputs _ hroot.inner.next.next.next.next.inner))
    exact parsePixelCount_of_sinks hlibrary h.pixels rfl

end

end

/-! ### The loader on a canonical text -/

section

variable {library : ExternalLibrary} (hlibrary : library.Faithful) {config : ControllerConfig}

theorem exists_serialize_eq (library : ExternalLibrary) (config : ControllerConfig) :
    ∃ front, serializeControllerConfig library config = front ++ [125] := by
  have hclose : ascii "]\x7d" = [93] ++ [125] := by decide
  unfold serializeControllerConfig
  rw [hclose, ← List.append_assoc]
  exact ⟨_, rfl⟩

/-- A canonical text does not end with NUL. -/
theorem withoutTerminator_serialize (library : ExternalLibrary) (config : ControllerConfig) :
    withoutTerminator (serializeControllerConfig library config) =
      serializeControllerConfig library config := by
  obtain ⟨front, hfront⟩ := exists_serialize_eq library config
  rw [hfront, withoutTerminator, List.getLast?_concat, if_neg (by decide)]

theorem nesting_documentItem_le (library : ExternalLibrary) (config : ControllerConfig) :
    (documentItem library config).nesting ≤ kMaxControllerConfigJsonNesting :=
  (nesting_documentItem library config).trans (by decide)

include hlibrary

/-- **The limits on a canonical text**: only its elements matter. -/
theorem preflightInput_serialize (h : config.Readable) :
    preflightInput (serializeControllerConfig library config) =
      within (structuralElements config) .ok := by
  have hlimit := nesting_documentItem_le library config
  have hscan := preflightFrom_text (wellFormed_documentItem hlibrary h) true
    (d := 0) (e := 0) (by rwa [Nat.zero_add]) (Nat.zero_le _) []
  rw [List.append_nil, Nat.zero_add, elements_documentItem] at hscan
  rw [serializeControllerConfig_eq, preflightInput, hscan]
  rfl

/-- **A JSON object within the limits** is read as the valid model that its tree holds. -/
theorem parseControllerConfig_of_text {members : List Json.Item}
    (hwell : (objectItem "" members).WellFormed false)
    (hnesting : (Items.ofList [objectItem "" members]).nesting ≤ kMaxControllerConfigJsonNesting)
    (hvalid : (validate config).ok = true)
    (hend : withoutTerminator ((Items.ofList [objectItem "" members]).text false true) =
      (Items.ofList [objectItem "" members]).text false true)
    (hlength : ((Items.ofList [objectItem "" members]).text false true).length ≤
      kMaxControllerConfigJsonBytes)
    (hpreflight : preflightInput ((Items.ofList [objectItem "" members]).text false true) = .ok)
    (hdocument : ∀ place : List Bool → ℕ, Function.Injective place →
      parseDocument (.ofItems library.strtod place (.ofList [objectItem "" members]))
        ((Items.ofList [objectItem "" members]).text false true) = .ok config) :
    parseControllerConfig library ((Items.ofList [objectItem "" members]).text false true) =
      .ok config := by
  obtain ⟨place, hplace, hparse⟩ := hlibrary.json .object (.ofList members) hwell hnesting
  change library.parseWithLength ((Items.ofList [objectItem "" members]).text false true) =
    .parsed (.ofItems library.strtod place (.ofList [objectItem "" members]))
      ((Items.ofList [objectItem "" members]).text false true).length at hparse
  unfold parseControllerConfig
  simp only [hend, if_neg (Nat.not_lt.mpr hlength), hpreflight, ne_eq, not_true_eq_false, if_false,
    hparse]
  rw [List.drop_length, List.any_nil, if_neg Bool.false_ne_true, hdocument place hplace]
  change (if (!(validate config).ok) = true then _ else _) = _
  rw [hvalid]
  rfl

/-- **The canonical text** of an accepted model is read back, within the limits. -/
theorem parseControllerConfig_serialize (h : config.Readable) (hvalid : (validate config).ok = true)
    (hlength : (serializeControllerConfig library config).length ≤ kMaxControllerConfigJsonBytes)
    (helements : structuralElements config ≤ kMaxControllerConfigJsonNodes) :
    parseControllerConfig library (serializeControllerConfig library config) = .ok config := by
  have hpreflight := preflightInput_serialize hlibrary h
  have hend := withoutTerminator_serialize library config
  rw [within_of_le helements] at hpreflight
  rw [serializeControllerConfig_eq] at hpreflight hend hlength ⊢
  exact parseControllerConfig_of_text hlibrary (wellFormed_documentItem hlibrary h)
    (nesting_documentItem_le library config) hvalid hend hlength hpreflight
      fun place hplace => parseDocument_documentItem hlibrary hplace h

end

/-- The loader's limits on the length, the depth and the elements of a text. -/
def WithinLimits (text : Bytes) : Prop :=
  text.length ≤ kMaxControllerConfigJsonBytes ∧ preflightInput text ≠ .tooDeep ∧
    preflightInput text ≠ .resourceExhausted

/-- **The configuration round trip.** An accepted model without NUL is read back from its
canonical text within the loader's limits. So the canonical text of an accepted document is its
own canonical text. -/
theorem configuration_round_trip (library : ExternalLibrary) (hlibrary : library.Faithful) :
    (∀ config : ControllerConfig, (validate config).ok = true → config.NulFree →
      WithinLimits (serializeControllerConfig library config) →
      parseControllerConfig library (serializeControllerConfig library config) = .ok config) ∧
    ∀ json config, parseControllerConfig library json = .ok config →
      WithinLimits (serializeControllerConfig library config) →
      (parseControllerConfig library (serializeControllerConfig library config)).map
        (serializeControllerConfig library) = .ok (serializeControllerConfig library config) := by
  have hround : ∀ config : ControllerConfig, (validate config).ok = true → config.NulFree →
      WithinLimits (serializeControllerConfig library config) →
      parseControllerConfig library (serializeControllerConfig library config) = .ok config := by
    rintro config hvalid hnul ⟨hlength, -, hresources⟩
    have hreadable := readable_of_accepted hvalid hnul
    refine parseControllerConfig_serialize hlibrary hreadable hvalid hlength ?_
    by_contra hexceeded
    exact hresources ((preflightInput_serialize hlibrary hreadable).trans
      (within_of_lt (Nat.not_le.mp hexceeded)))
  refine ⟨hround, fun json config hparse hlimits => ?_⟩
  obtain ⟨hvalid, hnul⟩ := parseControllerConfig_returns library json config hparse
  rw [hround config hvalid hnul hlimits]
  rfl

/-- A flash when a door opens. The name of its action needs escapes. -/
def doorConfig : ControllerConfig where
  pixelCount := 120
  actions := [⟨ascii "door \"left\"\n"⟩]
  rules := [.event { action := ascii "door \"left\"\n",
                     condition := ⟨ascii "body.door", .equal, .choice (ascii "open")⟩ }]
  outputs := [.ledTransient { action := ascii "door \"left\"\n", zone := ⟨4, 12, .centerOut⟩,
                              color := ⟨255, 0, 32⟩, durationMs := 700 }]

theorem validate_doorConfig : (validate doorConfig).ok = true := by decide +kernel

theorem nulFree_doorConfig : doorConfig.NulFree := by
  have hrules : ∀ rule ∈ doorConfig.rules, rule.NulFree := fun rule hrule => by
    rw [List.mem_singleton.mp hrule]
    exact ⟨by decide, by decide, show (0 : UInt8) ∉ ascii "open" by decide⟩
  exact ⟨by decide, hrules, by decide⟩

theorem length_doorConfig :
    (serializeControllerConfig referenceLibrary doorConfig).length ≤ 512 := by decide +kernel

theorem preflightInput_doorConfig :
    preflightInput (serializeControllerConfig referenceLibrary doorConfig) = .ok :=
  (preflightInput_serialize referenceLibrary_faithful
    (readable_of_accepted validate_doorConfig nulFree_doorConfig)).trans (within_of_le (by decide))

theorem configuration_round_trip_door :
    parseControllerConfig referenceLibrary (serializeControllerConfig referenceLibrary doorConfig) =
      .ok doorConfig ∧
    (parseControllerConfig referenceLibrary
      (serializeControllerConfig referenceLibrary doorConfig)).map
      (serializeControllerConfig referenceLibrary) =
      .ok (serializeControllerConfig referenceLibrary doorConfig) := by
  have hround := configuration_round_trip referenceLibrary referenceLibrary_faithful
  have hlimits : WithinLimits (serializeControllerConfig referenceLibrary doorConfig) := by
    refine ⟨length_doorConfig.trans (by decide), ?_, ?_⟩ <;>
    · rw [preflightInput_doorConfig]
      decide
  have hparse := hround.1 doorConfig validate_doorConfig nulFree_doorConfig hlimits
  exact ⟨hparse, hround.2 _ doorConfig hparse hlimits⟩

end AccessoryController.Persisted
