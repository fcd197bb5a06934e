import AccessoryController.ActionEngine.Ownership
import AccessoryController.ControllerConfig.Persisted.Application

/-!
# Validated configurations apply

Validation and the runtime check the same rules in separate code. An accepted document, applied to
a cleared sink and a cleared, detached engine, is refused only for what validation does not claim
to cover: too many actions, a full table, or a signal that the catalogue lacks or that does not
fit its rule.

## Main definitions

* `BoundBy`, `DrivenBy`: the tables of the sink and the levels of the engine come from the entries
  applied so far

## Main results

* `bindOutput_cases`, `addRule_cases`: the application of one accepted entry
* `validated_config_applies`: the application of an accepted document
-/

open AccessoryController.ControllerConfig (Bytes)

namespace AccessoryController.Persisted

open ActionEngine (ActionId ConfigStatus Engine RuleOperand SignalCondition Sink)
open OutputBinding
open ValidationError
open LocalArgbActions (BindingStatus EffectBinding FillBinding LedActionSink TransientBinding)
open VehicleSignals (SignalCatalogView)

variable {config : ControllerConfig}

/-! ### Identifiers -/

variable {id : ActionId} {zone : LedZone} {earlier : List OutputBinding} {output : OutputBinding}
  {leds : LedActionSink} {status : ApplyStatus} {condition : Condition}

theorem actionId_eq_some {name : Bytes} :
    actionId config name = some id ↔
      ∃ (i : ℕ) (h : i < config.actions.length), config.actions[i].name = name ∧
        (∀ j (hj : j < i), config.actions[j].name ≠ name) ∧ id = ⟨(i + 1) % 2 ^ 16⟩ := by
  unfold actionId
  rw [Option.map_eq_some_iff]
  constructor
  · rintro ⟨i, hfind, rfl⟩
    obtain ⟨hi, hname, hfirst⟩ := List.findIdx?_eq_some_iff_getElem.mp hfind
    exact ⟨i, hi, by simpa using hname, fun j hj => by simpa using hfirst j hj, rfl⟩
  · rintro ⟨i, hi, hname, hfirst, rfl⟩
    refine ⟨i, List.findIdx?_eq_some_iff_getElem.mpr ⟨hi, by simpa using hname, ?_⟩, rfl⟩
    intro j hj
    simpa using hfirst j hj

/-- A declared action has a valid identifier. -/
theorem actionId_of_isDeclared (hfit : config.actions.length ≤ kMaxActionId) {name : Bytes}
    (h : isDeclared config.actions name = true) :
    ∃ id, actionId config name = some id ∧ id.valid := by
  obtain ⟨action, hmem, hname⟩ := List.any_eq_true.mp h
  have hsome : (config.actions.findIdx? fun action => action.name == name).isSome := by
    rw [List.findIdx?_isSome, List.any_eq_true]
    exact ⟨action, hmem, hname⟩
  obtain ⟨i, hfind⟩ := Option.isSome_iff_exists.mp hsome
  obtain ⟨hi, -, -⟩ := List.findIdx?_eq_some_iff_getElem.mp hfind
  refine ⟨⟨(i + 1) % 2 ^ 16⟩, by rw [actionId, hfind]; rfl, ?_⟩
  simp only [kMaxActionId] at hfit
  simp only [ActionId.valid, ne_eq]
  omega

/-- Different actions have different identifiers. -/
theorem actionId_injective (hfit : config.actions.length ≤ kMaxActionId) {left right : Bytes}
    (hleft : actionId config left = some id) (hright : actionId config right = some id) :
    left = right := by
  obtain ⟨i, hi, hname, -, rfl⟩ := actionId_eq_some.mp hleft
  obtain ⟨j, hj, hname', -, hid⟩ := actionId_eq_some.mp hright
  have hindex : i = j := by
    simp only [kMaxActionId] at hfit
    rw [ActionId.mk.injEq] at hid
    omega
  subst hindex
  exact hname.symm.trans hname'

/-! ### Zones -/

/-- The zone lies on a strip of that many pixels. -/
structure LedZone.Fits (zone : LedZone) (pixels : ℤ) : Prop where
  start_nonneg : 0 ≤ zone.start
  length_pos : 0 < zone.length
  inside : zone.start + zone.length ≤ pixels

theorem fits_of_zoneError {pixels : ℤ} (h : zoneError zone pixels = .none) : zone.Fits pixels := by
  unfold zoneError at h
  split_ifs at h with hname hempty hrange
  constructor <;> omega

theorem named_of_zoneError {pixels : ℤ} (h : zoneError zone pixels = .none) :
    (nameOf zone.direction).isSome = true := by
  unfold zoneError at h
  split_ifs at h with hname
  exact Option.isSome_iff_ne_none.mpr (by simpa using hname)

theorem castUnsigned_eq {width : ℕ} {value : ℤ} (hlow : 0 ≤ value)
    (hhigh : value < 2 ^ width) : castUnsigned width value = value.toNat := by
  unfold castUnsigned
  rw [Int.emod_eq_of_lt hlow hhigh]

/-- The zones of the strip survive the conversion. -/
theorem LedZone.Fits.apply_start (h : zone.Fits kZonePixels) :
    zone.apply.start = zone.start.toNat := by
  obtain ⟨hstart, hlength, hinside⟩ := h
  simp only [kZonePixels] at hinside
  exact castUnsigned_eq hstart (by omega)

theorem LedZone.Fits.apply_length (h : zone.Fits kZonePixels) :
    zone.apply.length = zone.length.toNat := by
  obtain ⟨hstart, hlength, hinside⟩ := h
  simp only [kZonePixels] at hinside
  exact castUnsigned_eq (by omega) (by omega)

/-- Two zones with the same pixels after the conversion have the same pixels before it. -/
theorem sameZone_of_apply {left right : LedZone} (hleft : left.Fits kZonePixels)
    (hright : right.Fits kZonePixels) (hstart : left.apply.start = right.apply.start)
    (hlength : left.apply.length = right.apply.length) : sameZone left right = true := by
  rw [hleft.apply_start, hright.apply_start] at hstart
  rw [hleft.apply_length, hright.apply_length] at hlength
  have := hleft.start_nonneg
  have := hright.start_nonneg
  have := hleft.length_pos
  have := hright.length_pos
  simp only [sameZone, Bool.and_eq_true, beq_iff_eq]
  constructor <;> omega

theorem sameFillZone_of_apply {left right : LedZone} (hleft : left.Fits kZonePixels)
    (hright : right.Fits kZonePixels) (h : left.apply = right.apply) :
    sameFillZone left right = true := by
  have hzone := sameZone_of_apply hleft hright (congrArg LocalArgb.LedZone.start h)
    (congrArg LocalArgb.LedZone.length h)
  have hdirection : left.direction = right.direction := congrArg LocalArgb.LedZone.direction h
  simp [sameFillZone, hzone, hdirection]

/-! ### Outputs -/

/-- What has been checked of an output. -/
structure OutputAccepted (config : ControllerConfig) (earlier : List OutputBinding)
    (output : OutputBinding) : Prop where
  declared : isDeclared config.actions output.action = true
  body : output.bodyError = .none
  strip : stripError config output = .none
  fresh : hasEarlierBinding earlier output = false

theorem outputAccepted (h : outputError config earlier output = .none) :
    OutputAccepted config earlier output := by
  unfold outputError at h
  split_ifs at h with hdeclared hduplicate
  · simp at h
  · simp only [otherwise_eq_none] at h
    exact ⟨by simpa using hdeclared, h.1, h.2.2.1, by simpa using hduplicate⟩

theorem fits_of_zoneBindingError {color : Rgb} {priority : ℤ}
    (h : zoneBindingError zone color priority = .none) : zone.Fits kZonePixels := by
  rw [zoneBindingError, otherwise_eq_none] at h
  exact fits_of_zoneError h.1

/-- The zone of an accepted output lies on the strip. -/
theorem fits_of_bodyError (h : output.bodyError = .none) (hzone : output.zone? = some zone) :
    zone.Fits kZonePixels := by
  cases output with
  | ledEffect binding => exact absurd hzone (by simp [zone?])
  | ledFill binding =>
    obtain rfl := Option.some.inj hzone
    exact fits_of_zoneBindingError h
  | ledTransient binding =>
    obtain rfl := Option.some.inj hzone
    rw [bodyError, LedTransientBinding.bodyError,
      otherwise_eq_none] at h
    exact fits_of_zoneBindingError h.1
  | ledSolid binding =>
    obtain rfl := Option.some.inj hzone
    exact fits_of_zoneBindingError h

/-- The zone of an output that is bound as a fill. -/
def OutputBinding.fillZone? : OutputBinding → Option LedZone
  | .ledFill binding => some binding.zone
  | .ledSolid binding => some binding.zone
  | _ => none

theorem zone?_of_fillZone? (h : output.fillZone? = some zone) : output.zone? = some zone := by
  cases output with
  | ledEffect _ => simp [fillZone?] at h
  | ledFill _ => exact h
  | ledTransient _ => simp [fillZone?] at h
  | ledSolid _ => exact h

/-- A fill and a solid zone share the identity of a fill. -/
theorem sameTarget_of_fillZone {left right : OutputBinding} {zone' : LedZone}
    (hleft : left.fillZone? = some zone) (hright : right.fillZone? = some zone')
    (hname : left.action = right.action) (h : sameFillZone zone zone' = true) :
    left.sameTarget right = true := by
  have hzone : sameZone zone zone' = true := (Bool.and_eq_true_iff.mp h).1
  have hflipped : sameFillZone zone' zone = true := by
    simp only [sameFillZone, sameZone, Bool.and_eq_true, beq_iff_eq] at h ⊢
    exact ⟨⟨h.1.1.symm, h.1.2.symm⟩, h.2.symm⟩
  cases left <;> simp only [fillZone?, Option.some.injEq, reduceCtorEq] at hleft <;>
    cases right <;> simp only [fillZone?, Option.some.injEq, reduceCtorEq] at hright
  all_goals
    subst hleft hright
    simp only [action] at hname
    simp [sameTarget, hname, h, hzone, hflipped]

/-- What the tables hold was bound for one of the applied outputs. -/
structure BoundBy (config : ControllerConfig) (applied : List OutputBinding)
    (leds : LedActionSink) : Prop where
  effects : ∀ bound ∈ leds.effects.bindings, ∃ binding : LedEffectBinding,
    .ledEffect binding ∈ applied ∧ actionId config binding.action = some bound.action ∧
      bound.effect = binding.effect
  fills : ∀ bound ∈ leds.fills.bindings, ∃ output ∈ applied, ∃ zone,
    output.fillZone? = some zone ∧ actionId config output.action = some bound.action ∧
      bound.effect.zone = zone.apply
  transients : ∀ bound ∈ leds.transients.bindings, ∃ binding : LedTransientBinding,
    .ledTransient binding ∈ applied ∧ actionId config binding.action = some bound.action ∧
      bound.effect.zone = binding.zone.apply

theorem boundBy_clear (leds : LedActionSink) : BoundBy config [] leds.clear := by
  constructor <;> exact fun bound hbound => absurd hbound List.not_mem_nil

/-- The outputs that follow change nothing about what is bound. -/
theorem BoundBy.mono {applied applied' : List OutputBinding} (h : BoundBy config applied leds)
    (hsub : ∀ output ∈ applied, output ∈ applied') :
    BoundBy config applied' leds where
  effects bound hbound :=
    let ⟨binding, hmem, hid, heffect⟩ := h.effects bound hbound
    ⟨binding, hsub _ hmem, hid, heffect⟩
  fills bound hbound :=
    let ⟨output, hmem, zone, hzone, hid, heq⟩ := h.fills bound hbound
    ⟨output, hsub _ hmem, zone, hzone, hid, heq⟩
  transients bound hbound :=
    let ⟨binding, hmem, hid, hzone⟩ := h.transients bound hbound
    ⟨binding, hsub _ hmem, hid, hzone⟩

/-- What one application of an output may do. -/
def BindsOrFull (config : ControllerConfig) (applied : List OutputBinding)
    (bound : LedActionSink × BindingStatus) : Prop :=
  (bound.2 = .ok ∧ BoundBy config applied bound.1) ∨ bound.2 = .capacityExceeded

theorem bindEffect_cases (hfit : config.actions.length ≤ kMaxActionId)
    (hinv : BoundBy config earlier leds) {binding : LedEffectBinding}
    (hid : actionId config binding.action = some id) (hvalid : id.valid)
    (hfresh : hasEarlierBinding earlier (.ledEffect binding) = false) :
    BindsOrFull config (earlier ++ [.ledEffect binding])
      (leds.bindEffect id binding.effect (applyPriority binding.priority)) := by
  have hkept := hinv.mono fun output hmem =>
    List.mem_append_left [ledEffect binding] hmem
  have hunbound : ∀ bound ∈ leds.effects.bindings, bound.drives id binding.effect = false := by
    intro bound hbound
    obtain ⟨other, hmem, hother, heffect⟩ := hinv.effects bound hbound
    by_contra hdrives
    simp only [EffectBinding.drives, Bool.not_eq_false, Bool.and_eq_true, beq_iff_eq] at hdrives
    rw [hdrives.1] at hother
    have hsame := List.any_eq_false.mp hfresh _ hmem
    simp [sameTarget, actionId_injective hfit hother hid, ← heffect, hdrives.2]
      at hsame
  rcases LocalArgbActions.Table.bind_cases hvalid rfl hunbound with ⟨hok, hbindings⟩ | hfull
  · refine .inl ⟨hok, ⟨?_, hkept.fills, hkept.transients⟩⟩
    intro bound hbound
    rw [show (leds.bindEffect id binding.effect (applyPriority binding.priority)).1.effects.bindings
      = _ from hbindings] at hbound
    rcases List.mem_append.mp hbound with hold | hnew
    · exact hkept.effects bound hold
    · obtain rfl := List.mem_singleton.mp hnew
      exact ⟨binding, List.mem_append_right _ (List.mem_singleton_self _), hid, rfl⟩
  · exact .inr hfull

theorem bindFill_cases (hfit : config.actions.length ≤ kMaxActionId)
    (hinv : BoundBy config earlier leds) (hfits : ∀ output ∈ earlier, output.bodyError = .none)
    (hzone : output.fillZone? = some zone) (hon : zone.Fits kZonePixels)
    (hid : actionId config output.action = some id) (hvalid : id.valid)
    (hfresh : hasEarlierBinding earlier output = false) (color : LocalArgb.Rgb)
    (priority : LocalArgb.EffectPriority) :
    BindsOrFull config (earlier ++ [output])
      (leds.bindFill id ⟨zone.apply, color, priority⟩) := by
  have hkept := hinv.mono fun other hmem => List.mem_append_left [output] hmem
  have hunbound : ∀ bound ∈ leds.fills.bindings, bound.drives id zone.apply = false := by
    intro bound hbound
    obtain ⟨other, hmem, zone', hzone', hother, heq⟩ := hinv.fills bound hbound
    by_contra hdrives
    simp only [FillBinding.drives, Bool.not_eq_false, Bool.and_eq_true, beq_iff_eq] at hdrives
    rw [hdrives.1] at hother
    have hname := actionId_injective hfit hother hid
    have hfits' : zone'.Fits kZonePixels :=
      fits_of_bodyError (hfits other hmem) (zone?_of_fillZone? hzone')
    exact List.any_eq_false.mp hfresh _ hmem (sameTarget_of_fillZone hzone' hzone hname
      (sameFillZone_of_apply hfits' hon (heq.symm.trans hdrives.2)))
  rcases LocalArgbActions.Table.bind_cases hvalid rfl hunbound with ⟨hok, hbindings⟩ | hfull
  · refine .inl ⟨hok, ⟨hkept.effects, ?_, hkept.transients⟩⟩
    intro bound hbound
    rw [show (leds.bindFill id ⟨zone.apply, color, priority⟩).1.fills.bindings
      = _ from hbindings] at hbound
    rcases List.mem_append.mp hbound with hold | hnew
    · exact hkept.fills bound hold
    · obtain rfl := List.mem_singleton.mp hnew
      exact ⟨output, List.mem_append_right _ (List.mem_singleton_self _), zone, hzone, hid, rfl⟩
  · exact .inr hfull

/-- The adapter accepts the effect of a validated transient. -/
theorem invalidTransient_apply {binding : LedTransientBinding}
    (hbody : binding.bodyError = .none) (hstrip : zoneError binding.zone config.pixelCount = .none)
    (hpixels : inRange config.pixelCount kPixelCountMin kPixelCountMax = true) :
    LocalArgbActions.invalidTransient
      ⟨binding.zone.apply, binding.color.apply, applyPriority binding.priority,
        applyDuration binding.durationMs⟩ (castUnsigned 32 config.pixelCount) = false := by
  rw [LedTransientBinding.bodyError, otherwise_eq_none] at hbody
  have hfits := fits_of_zoneBindingError hbody.1
  have hinside := (fits_of_zoneError hstrip).inside
  have hdirection : ¬ (binding.zone.apply.direction ≠ .startToEnd ∧
      binding.zone.apply.direction ≠ .endToStart ∧ binding.zone.apply.direction ≠ .centerOut) := by
    show ¬ (binding.zone.direction ≠ _ ∧ binding.zone.direction ≠ _ ∧ binding.zone.direction ≠ _)
    have named := named_of_zoneError hstrip
    cases hvalue : binding.zone.direction with
    | startToEnd | endToStart | centerOut => decide
    | unknown beyond =>
      rw [hvalue] at named
      cases named
  have hduration : 1 ≤ binding.durationMs ∧ binding.durationMs ≤ 5000 := by
    have := hbody.2
    split_ifs at this with hrange
    have hin : inRange binding.durationMs kDurationMsMin kMaxTransientDurationMs = true := by
      simpa using hrange
    exact inRange_eq_true.mp hin
  have hcountRange : 100 ≤ config.pixelCount ∧ config.pixelCount ≤ 300 :=
    inRange_eq_true.mp hpixels
  have hcount : castUnsigned 32 config.pixelCount = config.pixelCount.toNat :=
    castUnsigned_eq (by omega) (by omega)
  have hmicroseconds : applyDuration binding.durationMs = binding.durationMs.toNat * 1000 := by
    rw [applyDuration, castUnsigned_eq (by omega) (by omega)]
    omega
  have hstart := hfits.start_nonneg
  have hlength := hfits.length_pos
  simp only [LocalArgbActions.invalidTransient, hcount, hmicroseconds, hfits.apply_start,
    hfits.apply_length, LocalArgb.kMaxTransientDurationUs, LocalArgb.kDefaultLedCount,
    LocalArgb.kMaxLedCount, decide_eq_false_iff_not, hdirection, or_false]
  omega

section

variable (hfit : config.actions.length ≤ kMaxActionId)
include hfit

theorem bindTransient_cases
    (hpixels : inRange config.pixelCount kPixelCountMin kPixelCountMax = true)
    (hinv : BoundBy config earlier leds) (hfits : ∀ output ∈ earlier, output.bodyError = .none)
    {binding : LedTransientBinding} (hbody : binding.bodyError = .none)
    (hstrip : zoneError binding.zone config.pixelCount = .none)
    (hid : actionId config binding.action = some id) (hvalid : id.valid)
    (hfresh : hasEarlierBinding earlier (.ledTransient binding) = false) :
    BindsOrFull config (earlier ++ [.ledTransient binding])
      (leds.bindTransient id ⟨binding.zone.apply, binding.color.apply,
        applyPriority binding.priority, applyDuration binding.durationMs⟩
        (castUnsigned 32 config.pixelCount)) := by
  have hkept := hinv.mono fun output hmem =>
    List.mem_append_left [ledTransient binding] hmem
  have hon : binding.zone.Fits kZonePixels :=
    @fits_of_bodyError _ (.ledTransient binding) hbody rfl
  have hunbound : ∀ bound ∈ leds.transients.bindings,
      bound.drives id binding.zone.apply = false := by
    intro bound hbound
    obtain ⟨other, hmem, hother, heq⟩ := hinv.transients bound hbound
    by_contra hdrives
    simp only [TransientBinding.drives, Bool.not_eq_false, Bool.and_eq_true, beq_iff_eq, heq]
      at hdrives
    rw [hdrives.1.1] at hother
    have hon' : other.zone.Fits kZonePixels := fits_of_bodyError (hfits _ hmem) rfl
    have hsame := List.any_eq_false.mp hfresh _ hmem
    simp [sameTarget, actionId_injective hfit hother hid,
      sameZone_of_apply hon' hon hdrives.1.2 hdrives.2] at hsame
  rcases LocalArgbActions.Table.bind_cases hvalid
    (invalidTransient_apply hbody hstrip hpixels) hunbound with ⟨hok, hbindings⟩ | hfull
  · refine .inl ⟨hok, ⟨hkept.effects, hkept.fills, ?_⟩⟩
    intro bound hbound
    rcases List.mem_append.mp (hbindings ▸ hbound) with hold | hnew
    · exact hkept.transients bound hold
    · obtain rfl := List.mem_singleton.mp hnew
      exact ⟨binding, List.mem_append_right _ (List.mem_singleton_self _), hid, rfl⟩
  · exact .inr hfull

/-- **One accepted output** is bound, or finds its table full. -/
theorem bindOutput_cases (hpixels : inRange config.pixelCount kPixelCountMin kPixelCountMax = true)
    (hinv : BoundBy config earlier leds) (hfits : ∀ output ∈ earlier, output.bodyError = .none)
    (haccepted : OutputAccepted config earlier output) :
    BindsOrFull config (earlier ++ [output]) (bindOutput config leds output) := by
  obtain ⟨hdeclared, hbody, hstrip, hfresh⟩ := haccepted
  obtain ⟨id, hid, hvalid⟩ := actionId_of_isDeclared hfit hdeclared
  unfold bindOutput
  rw [hid]
  cases output with
  | ledEffect binding => exact bindEffect_cases hfit hinv hid hvalid hfresh
  | ledFill binding =>
    exact bindFill_cases hfit hinv hfits rfl (fits_of_bodyError hbody rfl) hid hvalid hfresh _ _
  | ledTransient binding =>
    exact bindTransient_cases hfit hpixels hinv hfits hbody hstrip hid hvalid hfresh
  | ledSolid binding =>
    exact bindFill_cases hfit hinv hfits rfl (fits_of_bodyError hbody rfl) hid hvalid hfresh _ _

/-- The outputs of an accepted document are bound, up to a full table. -/
theorem applyOutputs_cases (haccepted : Accepted config) {outputs : List OutputBinding}
    (hsplit : config.outputs = earlier ++ outputs) (hstatus : status.ok)
    (hinv : BoundBy config earlier leds) :
    (applyOutputs config outputs status leds).1.ok ∨
      ((applyOutputs config outputs status leds).1.stage = .outputBinding ∧
        (applyOutputs config outputs status leds).1.binding = .capacityExceeded) := by
  induction outputs generalizing earlier status leds with
  | nil => exact .inl hstatus
  | cons output outputs ih =>
    have hfits : ∀ other ∈ earlier, other.bodyError = .none := by
      intro other hmem
      obtain ⟨before, after, rfl⟩ := List.append_of_mem hmem
      exact (outputAccepted (haccepted.outputs before other (after ++ output :: outputs)
        (by rw [hsplit, List.append_assoc, List.cons_append]))).body
    unfold applyOutputs
    rcases bindOutput_cases hfit haccepted.pixels hinv hfits
      (outputAccepted (haccepted.outputs _ _ _ hsplit)) with ⟨hok, hbound⟩ | hfull
    · simp only [hok, ne_eq, not_true_eq_false, if_false]
      have hnext : ApplyStatus.ok
          { status with binding := .ok, outputsApplied := status.outputsApplied + 1 } = true :=
        hstatus
      refine ih ?_ hnext hbound
      rw [hsplit, List.append_assoc, List.singleton_append]
    · right
      simp [hfull]

end

/-! ### Rules -/

/-- The refusals of the engine that validation does not claim to cover. -/
def Uncovered (status : ConfigStatus) : Prop :=
  status = .capacityExceeded ∨ status = .unknownSignal ∨ status = .unsupportedCapability ∨
    status = .typeMismatch ∨ status = .unknownChoice

/-- What has been checked of a condition. -/
structure ConditionAccepted (condition : SignalCondition) : Prop where
  finite : (condition.operand.asNumber.getD ⟨0⟩).isFinite = true
  ordered : condition.comparison.isOrdered = true → condition.operand.type = .number

theorem conditionAccepted (h : conditionError condition = .none) :
    ConditionAccepted condition.apply := by
  unfold conditionError at h
  split_ifs at h with hkey hname hunsupported
  · exact absurd (otherwise_eq_none.mp h).2 (by decide)
  have hoperand := (otherwise_eq_none.mp h).1
  have hzero : (⟨0⟩ : Binary32).isFinite = true := by decide
  constructor <;> simp only [Condition.apply]
  · cases hvalue : condition.operand with
    | boolean value => exact hzero
    | choice key => exact hzero
    | number value =>
      rw [hvalue, operandError] at hoperand
      split_ifs at hoperand with hfinite
      exact hfinite
  · intro hcomparison
    -- the engine takes every comparison but the equalities for ordered
    have hordered : isOrdered condition.comparison = true := by
      cases hvalue : condition.comparison with
      | less | lessOrEqual | greater | greaterOrEqual => rfl
      | equal | notEqual =>
        rw [hvalue] at hcomparison
        cases hcomparison
      | unknown beyond =>
        rw [hvalue] at hname
        exact absurd rfl hname
    cases hvalue : condition.operand with
    | boolean value => simp [hvalue, hordered, Operand.isNumber] at hunsupported
    | choice key => simp [hvalue, hordered, Operand.isNumber] at hunsupported
    | number value => rfl

variable {freshness : ActionEngine.FreshnessRequirement}

/-- The catalogue is the only reason to refuse an accepted condition. -/
theorem resolveThrough_refusal {catalog : SignalCatalogView} {condition : SignalCondition}
    {delivery : VehicleSignals.SignalCapability} (haccepted : ConditionAccepted condition)
    {status : ConfigStatus}
    (h : ActionEngine.resolveThrough catalog condition freshness delivery = .error status) :
    Uncovered status := by
  unfold ActionEngine.resolveThrough at h
  split at h
  · obtain rfl := Except.error.inj h
    exact .inr (.inl rfl)
  rename_i signal hsignal
  split_ifs at h with hcapability htype hnumber hcomparison
  · obtain rfl := Except.error.inj h
    exact .inr (.inr (.inl rfl))
  · obtain rfl := Except.error.inj h
    exact .inr (.inr (.inr (.inl rfl)))
  · simp [haccepted.finite] at hnumber
  · exact absurd (haccepted.ordered hcomparison.1) (by rw [not_not.mp htype]; exact hcomparison.2)
  · unfold ActionEngine.resolveOperand at h
    split at h
    · exact absurd h (by simp)
    · exact absurd h (by simp)
    · split at h
      · obtain rfl := Except.error.inj h
        exact .inr (.inr (.inr (.inr rfl)))
      · exact absurd h (by simp)

/-- What has been checked of a rule. -/
structure RuleAccepted (config : ControllerConfig) (earlier : List Rule) (rule : Rule) : Prop where
  declared : isDeclared config.actions rule.action = true
  body : rule.bodyError = .none
  fresh : rule.isLevel = true → hasEarlierLevelRule earlier rule.action = false

theorem ruleAccepted {earlier : List Rule} {rule : Rule}
    (h : ruleError config earlier rule = .none) : RuleAccepted config earlier rule := by
  unfold ruleError at h
  split_ifs at h with hdeclared hduplicate
  · simp at h
  · simp only [otherwise_eq_none] at h
    refine ⟨by simpa using hdeclared, h.1, fun hlevel => ?_⟩
    simpa [hlevel] using hduplicate

/-- The levels that the engine drives were given to one of the applied rules. -/
structure DrivenBy (config : ControllerConfig) (applied : List Rule) (engine : Engine) : Prop where
  detached : engine.attached = false
  levels : ∀ action, engine.drivesLevel action = true →
    ∃ rule ∈ applied, rule.isLevel = true ∧ actionId config rule.action = some action

theorem DrivenBy.mono {applied applied' : List Rule} {engine : Engine}
    (h : DrivenBy config applied engine) (hsub : ∀ rule ∈ applied, rule ∈ applied') :
    DrivenBy config applied' engine where
  detached := h.detached
  levels action hdrives :=
    let ⟨rule, hmem, hlevel, hid⟩ := h.levels action hdrives
    ⟨rule, hsub _ hmem, hlevel, hid⟩

/-- What one application of a rule may do: it may drive the level of the action `id`. -/
def AddsOrRefuses (engine : Engine) (id : Option ActionId) (added : Engine × ConfigStatus) :
    Prop :=
  (added.2 = .ok ∧ added.1.attached = engine.attached ∧
    ∀ action, added.1.drivesLevel action = true →
      engine.drivesLevel action = true ∨ id = some action) ∨
  Uncovered added.2

theorem addsOrRefuses_addRule (engine : Engine) (rule : ActionEngine.Rule) :
    AddsOrRefuses engine rule.levelAction (engine.addRule rule) := by
  unfold Engine.addRule
  split
  · exact .inr (.inl rfl)
  · refine .inl ⟨rfl, rfl, fun action hdrives => ?_⟩
    simp only [Engine.drivesLevel, List.any_append, List.any_cons, List.any_nil, Bool.or_false,
      Bool.or_eq_true, beq_iff_eq] at hdrives ⊢
    rcases hdrives with (hold | hnew) | hpolled
    · exact .inl (.inl hold)
    · exact .inr hnew
    · exact .inl (.inr hpolled)

theorem addsOrRefuses_addPolledRule (engine : Engine) (rule : ActionEngine.PolledRule) :
    AddsOrRefuses engine (some rule.action) (engine.addPolledRule rule) := by
  unfold Engine.addPolledRule
  split
  · exact .inr (.inl rfl)
  · refine .inl ⟨rfl, rfl, fun action hdrives => ?_⟩
    simp only [Engine.drivesLevel, List.any_append, List.any_cons, List.any_nil, Bool.or_false,
      Bool.or_eq_true, beq_iff_eq] at hdrives ⊢
    rcases hdrives with hrule | hold | hnew
    · exact .inl (.inl hrule)
    · exact .inl (.inr hold)
    · exact .inr (congrArg some hnew)

section

variable {catalog : SignalCatalogView} {engine : Engine} {id : ActionId}

/-- The engine accepts a valid action whose level nothing drives. -/
theorem checkAction_eq_ok {level : Bool} (hdetached : engine.attached = false) (hvalid : id.valid)
    (hfree : level = true → engine.drivesLevel id = false) :
    engine.checkAction id level = .ok := by
  unfold Engine.checkAction
  rw [hdetached, if_neg Bool.false_ne_true, if_neg (not_not_intro hvalid)]
  cases level with
  | false => rfl
  | true => simp [hfree rfl]

theorem resolveRule_refusal (haccepted : ConditionAccepted condition.apply) {level : Bool}
    (hcheck : engine.checkAction id level = .ok) {status : ConfigStatus}
    (h : engine.resolveRule catalog condition.apply id freshness level = .error status) :
    Uncovered status := by
  unfold Engine.resolveRule at h
  rw [if_neg (not_not_intro hcheck)] at h
  exact resolveThrough_refusal haccepted h

theorem addStateRule_cases {rule : StateRule} (hbody : rule.bodyError = .none)
    (hcheck : engine.checkAction id true = .ok) :
    AddsOrRefuses engine (some id)
      (engine.addStateRule catalog ⟨rule.condition.apply, id, rule.freshness⟩) := by
  rw [StateRule.bodyError, otherwise_eq_none] at hbody
  unfold Engine.addStateRule
  split
  · rename_i status hresolve
    exact .inr (resolveRule_refusal (conditionAccepted hbody.1) hcheck hresolve)
  · rename_i condition _
    exact addsOrRefuses_addRule engine (.state { condition, action := id })

theorem addEventRule_cases {rule : EventRule} (hbody : rule.bodyError = .none)
    (hcheck : engine.checkAction id false = .ok) :
    AddsOrRefuses engine none
      (engine.addEventRule catalog ⟨rule.condition.apply, rule.edge, id, rule.freshness⟩) := by
  rw [EventRule.bodyError, otherwise_eq_none] at hbody
  unfold Engine.addEventRule
  split
  · rename_i status hresolve
    exact .inr (resolveRule_refusal (conditionAccepted hbody.1) hcheck hresolve)
  · rename_i condition _
    exact addsOrRefuses_addRule engine (.event { condition, action := id, edge := rule.edge })

theorem addRangeRule_cases {rule : RangeRule} (hbody : rule.bodyError = .none)
    (hcheck : engine.checkAction id true = .ok) :
    AddsOrRefuses engine (some id)
      (engine.addRangeRule catalog
        ⟨rule.signalKey, rule.input, rule.output, id, rule.freshness⟩) := by
  have hmapping : (ActionEngine.LinearMapping.mk rule.input rule.output).valid = true := by
    unfold RangeRule.bodyError at hbody
    split_ifs at hbody with hkey hinvalid
    · exact absurd (otherwise_eq_none.mp hbody).2 (by decide)
    simpa [ActionEngine.LinearMapping.valid, and_assoc] using hinvalid
  unfold Engine.addRangeRule
  rw [if_neg (not_not_intro hcheck)]
  cases hresolve : ActionEngine.resolveRangeRule catalog
      ⟨rule.signalKey, rule.input, rule.output, id, rule.freshness⟩ with
  | error status =>
    refine .inr ?_
    unfold ActionEngine.resolveRangeRule at hresolve
    split at hresolve
    · obtain rfl := Except.error.inj hresolve
      exact .inr (.inl rfl)
    · simp only [hmapping, Bool.not_true, Bool.false_eq_true, if_false] at hresolve
      split_ifs at hresolve
      · obtain rfl := Except.error.inj hresolve
        exact .inr (.inr (.inl rfl))
      · obtain rfl := Except.error.inj hresolve
        exact .inr (.inr (.inr (.inl rfl)))
  | ok resolved =>
    obtain ⟨-, haction⟩ := ActionEngine.valid_resolveRangeRule hresolve
    have hadded := addsOrRefuses_addPolledRule engine (.range resolved)
    rwa [show (ActionEngine.PolledRule.range resolved).action = id from haction] at hadded

/-- A release threshold that validation accepts is one that the engine accepts. -/
theorem hasValidReleaseThreshold_of_isValidRelease {release : Binary32}
    (haccepted : ConditionAccepted condition.apply) (h : isValidRelease condition release = true) :
    Engine.hasValidReleaseThreshold condition.apply release = true ∧ release.isFinite = true := by
  unfold isValidRelease at h
  split at h
  · rename_i activation hoperand
    have hfinite : activation.isFinite = true := by
      simpa [Condition.apply, hoperand, Operand.apply, RuleOperand.asNumber] using haccepted.finite
    obtain ⟨hrelease, hside⟩ := Bool.and_eq_true_iff.mp h
    refine ⟨?_, hrelease⟩
    simp [Engine.hasValidReleaseThreshold, Condition.apply, hoperand, Operand.apply,
      RuleOperand.asNumber, hfinite, hrelease]
    exact hside
  · exact absurd h Bool.false_ne_true

theorem addSampledStateRule_cases {rule : SampledStateRule} (hbody : rule.bodyError = .none)
    (hcheck : engine.checkAction id true = .ok) :
    AddsOrRefuses engine (some id)
      (engine.addSampledStateRule catalog
        ⟨rule.condition.apply, id, rule.freshness, rule.releaseThreshold⟩) := by
  simp only [SampledStateRule.bodyError, otherwise_eq_none] at hbody
  obtain ⟨hcondition, -, hrelease⟩ := hbody
  have haccepted := conditionAccepted hcondition
  unfold Engine.addSampledStateRule
  rw [if_neg (not_not_intro hcheck)]
  split
  · rename_i status hresolve
    exact .inr (resolveThrough_refusal haccepted hresolve)
  rename_i activationCondition _
  cases hthreshold : rule.releaseThreshold with
  | none =>
    exact addsOrRefuses_addPolledRule engine (.sampledState { activationCondition, action := id })
  | some release =>
    have hvalid : isValidRelease rule.condition release = true := by
      rw [hthreshold] at hrelease
      split_ifs at hrelease with hinvalid
      simpa using hinvalid
    obtain ⟨hengine, hfinite⟩ :=
      hasValidReleaseThreshold_of_isValidRelease haccepted hvalid
    simp only [hengine, Bool.not_true, Bool.false_eq_true, if_false]
    split
    · rename_i status hresolve
      have hreleased : ConditionAccepted
          { rule.condition.apply with operand := .number release } :=
        ⟨hfinite, fun _ => rfl⟩
      exact .inr (resolveThrough_refusal hreleased hresolve)
    · rename_i releaseCondition _
      exact addsOrRefuses_addPolledRule engine (.sampledState
        { activationCondition, releaseCondition := some releaseCondition, action := id })

/-- **One accepted rule** is added, or meets a limit of the runtime or of the catalogue. -/
theorem addRule_cases (catalog : SignalCatalogView)
    (hfit : config.actions.length ≤ kMaxActionId) {earlier : List Rule}
    (hinv : DrivenBy config earlier engine) {rule : Rule}
    (haccepted : RuleAccepted config earlier rule) :
    ((addRule catalog config engine rule).2 = .ok ∧
      DrivenBy config (earlier ++ [rule]) (addRule catalog config engine rule).1) ∨
    Uncovered (addRule catalog config engine rule).2 := by
  obtain ⟨hdeclared, hbody, hfresh⟩ := haccepted
  obtain ⟨id, hid, hvalid⟩ := actionId_of_isDeclared hfit hdeclared
  have hfree : rule.isLevel = true → engine.drivesLevel id = false := by
    intro hlevel
    by_contra hdrives
    obtain ⟨other, hmem, hother, hid'⟩ := hinv.levels id (Bool.not_eq_false _ ▸ hdrives)
    refine List.any_eq_false.mp (hfresh hlevel) other hmem ?_
    simp [hother, actionId_injective hfit hid' hid]
  have hcheck : engine.checkAction id rule.isLevel = .ok :=
    checkAction_eq_ok hinv.detached hvalid hfree
  -- each kind drives the level of the action exactly when it is a level rule
  have hadded : AddsOrRefuses engine (if rule.isLevel then some id else none)
      (addRule catalog config engine rule) := by
    unfold addRule
    rw [hid]
    cases rule with
    | state rule => exact addStateRule_cases hbody hcheck
    | sampledState rule => exact addSampledStateRule_cases hbody hcheck
    | event rule => exact addEventRule_cases hbody hcheck
    | range rule => exact addRangeRule_cases hbody hcheck
  rcases hadded with ⟨hok, hattached, hlevels⟩ | hrefused
  · refine .inl ⟨hok, hattached.trans hinv.detached, fun action hdrives => ?_⟩
    rcases hlevels action hdrives with hold | hnew
    · exact (hinv.mono fun _ => List.mem_append_left [rule]).levels action hold
    · refine ⟨rule, List.mem_append_right _ (List.mem_singleton_self _), ?_⟩
      split_ifs at hnew with hlevel
      obtain rfl := Option.some.inj hnew
      exact ⟨hlevel, hid⟩
  · exact .inr hrefused

/-- The rules of an accepted document are added, up to a limit of the runtime. -/
theorem applyRules_cases (catalog : SignalCatalogView) (hfit : config.actions.length ≤ kMaxActionId)
    (haccepted : Accepted config) {earlier rules : List Rule}
    (hsplit : config.rules = earlier ++ rules) (hstatus : status.ok)
    (hinv : DrivenBy config earlier engine) :
    (applyRules catalog config rules status engine).1.ok ∨
      ((applyRules catalog config rules status engine).1.stage = .rule ∧
        Uncovered (applyRules catalog config rules status engine).1.engine) := by
  induction rules generalizing earlier status engine with
  | nil => exact .inl hstatus
  | cons rule rules ih =>
    unfold applyRules
    rcases addRule_cases catalog hfit hinv (ruleAccepted (haccepted.rules _ _ _ hsplit)) with
      ⟨hok, hadded⟩ | hrefused
    · simp only [hok, ne_eq, not_true_eq_false, if_false]
      have hnext : ApplyStatus.ok
          { status with engine := .ok, rulesApplied := status.rulesApplied + 1 } = true :=
        hstatus
      refine ih ?_ hnext hadded
      rw [hsplit, List.append_assoc, List.singleton_append]
    · have hfailed : (addRule catalog config engine rule).2 ≠ .ok := by
        rcases hrefused with h | h | h | h | h <;> rw [h] <;> decide
      right
      simpa [hfailed] using hrefused

/-- A cleared engine has room for the sink and drives nothing. -/
theorem applyEngine_cases (catalog : SignalCatalogView) (sink : Sink)
    (hfit : config.actions.length ≤ kMaxActionId) (haccepted : Accepted config)
    (detached : engine.attached = false) (hstatus : status.ok) :
    (applyEngine catalog config sink status engine.clear.1).1.ok ∨
      ((applyEngine catalog config sink status engine.clear.1).1.stage = .rule ∧
        Uncovered (applyEngine catalog config sink status engine.clear.1).1.engine) := by
  have hsink : engine.clear.1.addSink sink =
      ({ engine with sinks := [sink], rules := [], polledRules := [] }, .ok) := by
    simp [Engine.clear, Engine.addSink, detached, ActionEngine.kMaxSinks]
  have hdriven : DrivenBy config []
      { engine with sinks := [sink], rules := [], polledRules := [] } := by
    refine ⟨detached, fun action hdrives => ?_⟩
    simp [Engine.drivesLevel] at hdrives
  have hnext : ApplyStatus.ok { status with engine := .ok, sinkRegistered := true } = true :=
    hstatus
  simp only [applyEngine, hsink, ne_eq, not_true_eq_false, if_false]
  exact applyRules_cases catalog hfit haccepted rfl hnext hdriven

end

/-! ### Documents -/

/-- **Validated configurations apply**: an accepted document, applied to a cleared sink and a
cleared, detached engine, is applied whole, or is refused because it declares too many actions,
because a table of bindings is full, or because the engine has no room for a rule or its catalogue
does not fit the rule. -/
theorem validated_config_applies (catalog : SignalCatalogView) (config : ControllerConfig)
    (sink : Sink) (leds : LedActionSink) (engine : Engine) (detached : engine.attached = false)
    (valid : (validate config).ok = true) {status : ApplyStatus}
    (hstatus : status = (applyControllerConfig catalog config sink leds.clear engine.clear.1).1) :
    status.stage = .complete ∨
    (status.stage = .actionId ∧ kMaxActionId < config.actions.length) ∨
    (status.stage = .outputBinding ∧ status.binding = .capacityExceeded) ∨
    (status.stage = .rule ∧ Uncovered status.engine) := by
  have haccepted := validate_ok.mp valid
  unfold applyControllerConfig at hstatus
  simp only [valid, Bool.not_true, Bool.false_eq_true, if_false] at hstatus
  by_cases hmany : kMaxActionId < config.actions.length
  · rw [if_pos hmany] at hstatus
    exact .inr (.inl ⟨by rw [hstatus], hmany⟩)
  rw [if_neg hmany] at hstatus
  have hfit : config.actions.length ≤ kMaxActionId := Nat.le_of_not_lt hmany
  have hfirst : ApplyStatus.ok { validation := validate config } = true := rfl
  rcases applyOutputs_cases hfit haccepted rfl hfirst (boundBy_clear leds) with hbound | hfull
  swap
  · have hfailed : (applyOutputs config config.outputs { validation := validate config }
        leds.clear).1.ok = false := by rw [ApplyStatus.ok, hfull.1]; rfl
    simp only [hfailed, Bool.not_false, if_true] at hstatus
    exact .inr (.inr (.inl (hstatus ▸ hfull)))
  simp only [hbound, Bool.not_true, Bool.false_eq_true, if_false] at hstatus
  subst hstatus
  rcases applyEngine_cases catalog sink hfit haccepted detached hbound with hok | hrefused
  · exact .inl (beq_iff_eq.mp hok)
  · exact .inr (.inr (.inr hrefused))

/-- A brake light held by a state rule. -/
def brakeConfig : ControllerConfig where
  actions := [⟨ascii "brake"⟩]
  rules := [.state { action := ascii "brake", condition := ⟨ascii "b", .equal, .boolean true⟩ }]
  outputs := [.ledEffect { action := ascii "brake", effect := .brake }]

/-- A vehicle with the brake signal, which the engine may subscribe to. -/
def brakeSignal : SignalCatalogView :=
  [{ id := ⟨1⟩, key := ascii "b", capabilities := { notify := true } }]

/-- Its application completes: none of the refusals fits what was bound and added. -/
theorem validated_config_applies_brake :
    let status := (applyControllerConfig brakeSignal brakeConfig 1 ({} : LedActionSink).clear
      ({} : Engine).clear.1).1
    (validate brakeConfig).ok = true ∧ (status.outputsApplied, status.rulesApplied) = (1, 1) ∧
      status.stage = .complete := by
  intro status
  have valid : (validate brakeConfig).ok = true := by decide
  have accepted : status.binding = .ok ∧ status.engine = .ok := by decide +kernel
  refine ⟨valid, by decide +kernel, ?_⟩
  rcases validated_config_applies brakeSignal brakeConfig 1 {} {} rfl valid
    (show status = _ from rfl) with complete | ⟨-, many⟩ | ⟨-, full⟩ | ⟨-, uncovered⟩
  · exact complete
  · exact absurd many (by decide)
  · rw [accepted.1] at full
    cases full
  · rw [accepted.2] at uncovered
    exact absurd uncovered (by simp [Uncovered])

end AccessoryController.Persisted
